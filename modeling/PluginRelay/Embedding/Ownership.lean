import PluginRelay.Embedding.World

/-!
# Whose values they are

The program has values in its own state, and beside that for what it is doing at the moment. While the engine is
at work the program's values stay as they are, even if functions of the program run meanwhile: these give up all
that they do not put into the program's state.
-/
namespace PluginRelay.Embedding

open Script

/-- Which values the own state of a program has. -/
class Holding (τ : Type) where
  values : τ → List Handle

instance : Holding Unit := ⟨fun _ => []⟩

namespace Handle

/-- How often some values lead to a reference. -/
def total (hs : List Handle) (r : Reference) : Nat := (hs.flatMap fun h => h.value.references).count r

@[simp]
theorem total_nil (r : Reference) : total [] r = 0 := rfl

@[simp]
theorem total_cons (h : Handle) (hs : List Handle) (r : Reference) :
    total (h :: hs) r = h.value.references.count r + total hs r := by
  simp [total]

@[simp]
theorem total_append (hs others : List Handle) (r : Reference) :
    total (hs ++ others) r = total hs r + total others r := by
  simp [total]

@[simp]
theorem total_flatMap_nil {α : Type} (xs : List α) (r : Reference) : total (xs.flatMap fun _ => []) r = 0 := by
  rw [List.flatMap_eq_nil_iff.mpr fun _ _ => rfl, total_nil]

theorem count_le_total {h : Handle} {hs : List Handle} (hmem : h ∈ hs) (r : Reference) :
    h.value.references.count r ≤ total hs r := by
  induction hs with
  | nil => cases hmem
  | cons first rest ih =>
    rw [total_cons]
    obtain rfl | hrest := List.mem_cons.mp hmem
    · exact Nat.le_add_right _ _
    · exact Nat.le_trans (ih hrest) (Nat.le_add_left _ _)

end Handle

variable {κ τ : Type} [Holding τ]

namespace World

/-- The values that there are, are those of the program's state and some others. -/
def Tidy (w : World κ τ) (others : List Handle) : Prop :=
  ∀ r, w.ledger.live.of r = Handle.total (Holding.values w.own) r + Handle.total others r

/-- Also the program's values stay. -/
structure Undisturbed (w w' : World κ τ) : Prop extends Evolves w w' where
  tidy : ∀ others, w.Tidy others → w'.Tidy others

instance : Evolving (World κ τ) where
  Evolves := Undisturbed
  refl w := ⟨Evolves.refl w, fun _ h => h⟩
  trans h h' := ⟨Evolves.trans h.toEvolves h'.toEvolves, fun others ht => h'.tidy others (h.tidy others ht)⟩

variable {w w' : World κ τ} {h : Handle} {hs others : List Handle}

theorem Tidy.congr (ht : w.Tidy hs) (htotal : ∀ r, Handle.total hs r = Handle.total others r) :
    w.Tidy others := fun r => htotal r ▸ ht r

theorem Tidy.of_eq (ht : w.Tidy others) (hlive : w'.ledger.live = w.ledger.live) (hown : w'.own = w.own) :
    w'.Tidy others := by
  rwa [Tidy, hlive, hown]

/-- As long as the program has a value, there are references to its cell. -/
theorem Tidy.count_pos (ht : w.Tidy others) (hb : w.Balanced []) (hmem : h ∈ Holding.values w.own ++ others)
    {r : Reference} (hr : h.value.reference? = some r) : w.ledger.engine.of r < w.ledger.count.of r := by
  have hle := Handle.count_le_total hmem r
  have hself : h.value.references.count r = 1 := by simp [Value.references, hr]
  rw [Handle.total_append, hself] at hle
  have hcount := hb.counted r
  rw [ht r] at hcount
  omega

/-! ### Steps -/

theorem Tidy.freeKept (ht : w.Tidy others) (id : ContextId) : (w.freeKept id).Tidy others := by
  unfold World.freeKept
  split
  · exact ht
  · exact ht

theorem Tidy.lessen (ht : w.Tidy others) (id : ContextId) (f : Context → Context) :
    (w.lessen id f).Tidy others := by
  unfold World.lessen
  dsimp only
  split
  · exact Tidy.freeKept (w := w.modifyContext id f) ht id
  · exact ht

theorem Tidy.receive (ht : w.Tidy others) (h : Handle) : (w.receive h).Tidy (h :: others) := by
  intro r
  have hr := ht r
  simp only [World.receive, holdContext, modifyContext, Ledger.wrap, Ledger.receive, Tally.of_add, Handle.total_cons]
  omega

theorem Tidy.hold (ht : w.Tidy others) (h : Handle) : (w.hold h).Tidy (h :: others) := by
  intro r
  have hr := ht r
  simp only [World.hold, holdContext, modifyContext, Ledger.wrap, Ledger.duplicate, Tally.of_add, Handle.total_cons]
  omega

theorem Tidy.drop (ht : w.Tidy (h :: others)) : (w.drop h).Tidy others := by
  refine Tidy.lessen ?_ _ _
  intro r
  have hr := ht r
  simp only [Ledger.unwrap, Ledger.free, Tally.of_add, Handle.total_cons] at hr ⊢
  omega

theorem Tidy.unwrap (ht : w.Tidy (h :: others)) : (w.unwrap h).Tidy others :=
  Tidy.drop (w := { w with ledger := w.ledger.duplicate h.value }) ht

theorem Tidy.handOver (ht : w.Tidy (h :: others)) : (w.handOver h).Tidy others := ht.unwrap

theorem Tidy.keep (ht : w.Tidy (h :: others)) (serial : UInt64) : (w.keep serial h).Tidy others := by
  have hunwrapped := ht.unwrap
  unfold World.keep
  dsimp only
  split
  · exact hunwrapped
  · exact hunwrapped

theorem Tidy.unkeep (ht : w.Tidy others) (h : Handle) : (w.unkeep h).Tidy (h :: others) := by
  intro r
  have hr := ht r
  simp only [World.unkeep, holdContext, modifyContext, Ledger.wrap, Tally.of_add, Handle.total_cons]
  omega

theorem Tidy.takeThrown (ht : w.Tidy others) (id : ContextId) (e : Thrown) :
    (w.takeThrown id e).2.Tidy ((w.takeThrown id e).1.toList ++ others) := by
  unfold World.takeThrown
  split
  · split
    · exact ht.unkeep _
    · exact ht
  · exact ht

end World

end PluginRelay.Embedding
