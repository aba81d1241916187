import PluginRelay.Proofs.Collection
import PluginRelay.Proofs.OwnProperties

/-!
# Objects that the program holds

What the program has a value for stays where it is while other things come and go, and no collection takes it away.
So a property of it can be read at any time.
-/
namespace PluginRelay

open Script

namespace Embedding

/-- The program still has what it had when it gets another value. -/
theorem Handle.mem_behind {own hands : List Handle} {target : Handle} (h : Handle) (hmem : target ∈ own ++ hands) :
    target ∈ own ++ h :: hands := by
  rw [List.mem_append] at hmem ⊢
  exact hmem.imp_right (List.mem_cons_of_mem h)

namespace World

variable {κ τ : Type}

theorem own_freeKept (w : World κ τ) (id : ContextId) : (w.freeKept id).own = w.own := by
  unfold freeKept
  split
  · rfl
  · rfl

theorem own_drop (w : World κ τ) (h : Handle) : (w.drop h).own = w.own := by
  unfold drop dropContext lessen
  dsimp only
  split
  · exact own_freeKept _ _
  · rfl

theorem own_handOver (w : World κ τ) (h : Handle) : (w.handOver h).own = w.own := own_drop _ h

variable [Holding τ]

/-- The program has a value in its state or in its hands. -/
structure Holds (w : World κ τ) (hands : List Handle) (h : Handle) : Prop where
  balanced : w.Balanced []
  tidy : w.Tidy hands
  mem : h ∈ Holding.values w.own ++ hands

variable {w : World κ τ} {hands : List Handle} {h target : Handle}

/-- To pass on another value does not matter. -/
theorem Holds.handOver (hheld : w.Holds (h :: hands) target) (hmem : target ∈ Holding.values w.own ++ hands) :
    (w.handOver h).Holds hands target :=
  ⟨(w.evolves_handOver h).balanced [] hheld.balanced, hheld.tidy.handOver, own_handOver w h ▸ hmem⟩

/-- To give up another value does not matter either. -/
theorem Holds.drop (hheld : w.Holds (h :: hands) target) (hmem : target ∈ Holding.values w.own ++ hands) :
    (w.drop h).Holds hands target :=
  ⟨(w.evolves_drop h).balanced [] hheld.balanced, hheld.tidy.drop, own_drop w h ▸ hmem⟩

/-- Nor does to get another one. -/
theorem Holds.hold (hheld : w.Holds hands target) (h : Handle) : (w.hold h).Holds (h :: hands) target :=
  ⟨(w.evolves_hold h).balanced [] hheld.balanced, hheld.tidy.hold h, Handle.mem_behind h hheld.mem⟩

end World

variable {κ τ ε : Type} [Holding τ]

theorem Run.made {m m' : Engine κ τ} {hands : List Handle} {g : Given} {context : ContextId} {h : Handle}
    {env : Env (World κ τ)} (hrun : Run m (g.handles ++ hands))
    (hinto : (Operation.intoValue context g) env m = .ok h m') : Run m' (h :: hands) :=
  .done (.intoValue context g) env hrun (Task.run_bind_ok hinto _)

theorem Run.holds {m : Engine κ τ} {hands : List Handle} {h : Handle} (hrun : Run m hands)
    (hmem : h ∈ Holding.values m.host.own ++ hands) : m.host.Holds hands h := ⟨hrun.balanced, hrun.tidy, hmem⟩

namespace Operation

variable {m : Engine κ τ} {hands : List Handle} {target : Handle} {id : ObjectId}
  {own : PropertyKey → Option Property}

/-- A collection leaves the object alone. -/
theorem settle_holds (hheld : m.host.Holds hands target) (hvalue : target.value = .object id)
    (env : Env (World κ τ)) :
    ∃ m', (settle : Task ε κ τ Unit) env m = .ok () m' ∧ m'.objects[id]? = m.objects[id]? ∧
      m'.objects.size = m.objects.size ∧ m'.host.own = m.host.own ∧ m'.host.Holds hands target := by
  obtain ⟨m', hrun, hown, hsize, hspared⟩ := settle_spares (ε := ε) env m
  have hroot := World.mem_holders (r := .object id) hheld.balanced hheld.tidy hheld.mem (by rw [hvalue]; rfl)
  refine ⟨m', hrun, hspared (.object id) (.root (List.mem_append_left _ hroot)), hsize, hown,
    Run.balanced_of_run hheld.balanced hrun, ?_, hown ▸ hheld.mem⟩
  have hkeeps := (settle_sure (ε := ε)).keeps.run env m hands hheld.tidy
  rwa [hrun] at hkeeps

/-- Nothing that was put off can fail. -/
theorem settle_ok {δ : Type} {m m' : Engine κ τ} {env : Env (World κ τ)}
    (h : (settle : Task ε κ τ Unit) env m = .ok () m') : (settle : Task δ κ τ Unit) env m = .ok () m' := by
  unfold settle at h ⊢
  rw [Task.run_bind_ok (show (world : Task _ κ τ (World κ τ)) env m = .ok m.host m from rfl)] at h ⊢
  split at h
  · next hlater =>
    rw [if_pos hlater]
    cases h
    rfl
  · next hnow =>
    rw [if_neg hnow]
    cases h
    rfl

/-- What runs in a context runs as it does, and the engine goes back to the context where it was. -/
theorem within_ok {α : Type} {context : ContextId} {a : Env (World κ τ) → Action (World κ τ) α}
    {env : Env (World κ τ)} {x : α} {m' : Engine κ τ} (h : a env { m with realm := context } = .ok x m') :
    (within context a : Task ε κ τ (Except Value α)) env m = .ok (.ok x) { m' with realm := m.realm } := by
  unfold within Evolution.attempt acting Action.inRealm
  dsimp only
  rw [h]

theorem within_error {α : Type} {context : ContextId} {a : Env (World κ τ) → Action (World κ τ) α}
    {env : Env (World κ τ)} {e : Value} {m' : Engine κ τ} (h : a env { m with realm := context } = .error e m') :
    (within context a : Task ε κ τ (Except Value α)) env m = .ok (.error e) { m' with realm := m.realm } := by
  unfold within Evolution.attempt acting Action.inRealm
  dsimp only
  rw [h]

/-- A value that is received is what it was, but for the number of its cell. -/
theorem receive_spec (context : ContextId) (v : Value) (env : Env (World κ τ)) (m : Engine κ τ) :
    ∃ h m', (receive context v : Task ε κ τ Handle) env m = .ok h m' ∧ h.value.unnumbered = v.unnumbered ∧
      m'.objects = m.objects ∧ m'.host.own = m.host.own := by
  refine ⟨⟨context, (m.numbered env.place v).1⟩, _, rfl, m.unnumbered_numbered env.place v, ?_, ?_⟩
  · exact m.objects_numbered env.place v
  · change (m.numbered env.place v).2.host.own = m.host.own
    rw [m.host_numbered]

/-- What the engine finds under a key is what the program gets. Before that, the object is left alone. -/
theorem getProperty_run (hheld : m.host.Holds hands target) (hvalue : target.value = .object id) {key : String}
    (hkey : nulPosition? key = none) (env : Env (World κ τ)) :
    ∃ m₁ : Engine κ τ, m₁.objects[id]? = m.objects[id]? ∧ m₁.objects.size = m.objects.size ∧
      ∀ v m₂, (Convert.getMember env target.value (.ofString key)) m₁ = .ok v m₂ → m₂.host = m₁.host →
        ∃ h m', (getProperty target key) env m = .ok h m' ∧ h.value.unnumbered = v.unnumbered ∧
          m'.objects = m₂.objects ∧ m'.host.own = m.host.own ∧ m'.host.Holds (h :: hands) target := by
  obtain ⟨m₁, hsettle, hget, hsize, hown, -⟩ := settle_holds (ε := Failure) hheld hvalue env
  refine ⟨{ m₁ with realm := target.context }, hget, hsize, fun v m₂ hmember hhost => ?_⟩
  obtain ⟨h, m', hreceive, hsame, hobjects, hown'⟩ := receive_spec (ε := Failure) target.context v env
    { m₂ with realm := m₁.realm }
  have hrun : (getProperty target key) env m = .ok h m' := by
    unfold getProperty performValue perform checkNul
    rw [hkey, Task.run_bind_ok (show (pure () : Operation κ τ Unit) env m = .ok () m from rfl)]
    have hperform : (perform target.context fun env => Convert.getMember env target.value (.ofString key)) env m =
        .ok v { m₂ with realm := m₁.realm } := by
      unfold perform
      rw [Task.run_bind_ok hsettle, Task.run_bind_ok (within_ok hmember)]
      rfl
    exact (Task.run_bind_ok hperform _).trans hreceive
  have htidy := (getProperty_keeps target key).run env m hands hheld.tidy
  rw [hrun] at htidy
  have hsame' : m'.host.own = m.host.own := by
    rw [hown', show m₂.host.own = m₁.host.own from congrArg World.own hhost, hown]
  exact ⟨h, m', hrun, hsame, hobjects, hsame', Run.balanced_of_run hheld.balanced hrun, htidy,
    hsame' ▸ Handle.mem_behind h hheld.mem⟩

/-- An own property with a value is read, and the program gets that value. -/
theorem getProperty_holds (hheld : m.host.Holds hands target) (hvalue : target.value = .object id)
    (hshows : m.Shows id own) {key : String} (hkey : nulPosition? key = none) {p : Property} {v : Value}
    (hp : own (.ofString key) = some p) (hv : p.content = .data v) (env : Env (World κ τ)) :
    ∃ h m', (getProperty target key) env m = .ok h m' ∧ h.value.unnumbered = v.unnumbered ∧ m'.Shows id own ∧
      m'.host.Holds (h :: hands) target := by
  obtain ⟨m₁, hget, hsize, hrun⟩ := getProperty_run hheld hvalue hkey env
  obtain ⟨m₂, hread, hhost, hshows₂⟩ := get_shows env (hshows.congr hget hsize) hp hv target.value
  have hmember : (Convert.getMember env target.value (.ofString key)) m₁ = .ok v m₂ := by
    rw [hvalue] at hread ⊢
    exact hread
  obtain ⟨h, m', hgot, hsame, hobjects, -, hheld'⟩ := hrun v m₂ hmember hhost
  exact ⟨h, m', hgot, hsame, hshows₂.congr (by rw [hobjects]) (by rw [hobjects]), hheld'⟩

end Operation

/-- A program that has an object, whatever it is. -/
theorem exists_object (o : Object) : ∃ (m : Engine Empty Unit) (target : Handle), Run m [target] ∧
    target.value = .object 0 ∧ m.objects[0]? = some (some o) := by
  let env := environment (⟨fun k _ => k.elim, fun k _ => k.elim⟩ : Respond Empty Unit) .default
  obtain ⟨m, target, old, hrun, hvalue, hobject⟩ : ∃ (m : Engine Empty Unit) (target : Handle) (old : Object),
      Run m [target] ∧ target.value = .object 0 ∧ m.objects[0]? = some (some old) := by
    have hmade : Run _ [_] := .done (.newObject 0) env (.start .default () rfl) rfl
    exact ⟨_, _, _, hmade, rfl, rfl⟩
  refine ⟨_, target, hrun.script (Action.modifyObject 0 fun _ => o), hvalue, ?_⟩
  change (m.objects.modify 0 _)[0]? = _
  rw [Array.getElem?_modify, if_pos rfl, hobject]
  rfl

end Embedding

end PluginRelay
