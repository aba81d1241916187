import PluginRelay.Script.Retention
import Std.Data.HashMap.Lemmas

/-!
# References of the program

What the engine counts lies in cells, and the header of a cell says how many references to it there are. The program
changes a header when it duplicates a reference or frees one, and the engine when it hands a value out. Beside that the
engine has references of its own; it takes and frees them as it likes, and counts along. The ledger has the headers and
the engine's share in them, and on the other side what became of the references that the program had.
-/
namespace PluginRelay.Embedding

open Script

/-- A number for each cell. -/
structure Tally where
  entries : Std.HashMap Reference Int
  deriving Inhabited

namespace Tally

def none : Tally := ⟨∅⟩

def of (t : Tally) (r : Reference) : Int := t.entries.getD r 0

def set (t : Tally) (r : Reference) (n : Int) : Tally := ⟨t.entries.insert r n⟩

/-- Adds to the number of the cell in which a value lies, if it lies in one. -/
def add (t : Tally) (v : Value) (n : Int) : Tally :=
  match v.reference? with
  | some r => t.set r (t.of r + n)
  | .none => t

@[simp]
theorem of_none (r : Reference) : none.of r = 0 := by simp [none, of]

@[simp]
theorem of_set (t : Tally) (r s : Reference) (n : Int) : (t.set r n).of s = if r = s then n else t.of s := by
  simp [set, of, Std.HashMap.getD_insert]

@[simp]
theorem of_add (t : Tally) (v : Value) (n : Int) (r : Reference) :
    (t.add v n).of r = t.of r + n * v.references.count r := by
  unfold add Value.references
  cases v.reference? with
  | none => simp
  | some s =>
    rw [of_set]
    by_cases h : s = r
    · simp [h]
    · simp [h]

end Tally

structure Ledger where
  /-- What the headers say. -/
  count : Tally
  /-- How many of these references are the engine's own. -/
  engine : Tally
  /-- References that the engine gave out with values. -/
  received : Tally
  /-- References that the program duplicated. -/
  duplicated : Tally
  /-- References that the program freed. -/
  freed : Tally
  /-- References that the engine took over. -/
  consumed : Tally
  /-- The values that the program has. -/
  live : Tally

namespace Ledger

def none : Ledger := ⟨.none, .none, .none, .none, .none, .none, .none⟩

/-- The engine hands a value out, with a new reference to it. -/
def receive (l : Ledger) (v : Value) : Ledger :=
  { l with count := l.count.add v 1, received := l.received.add v 1 }

/-- The program duplicates a reference. -/
def duplicate (l : Ledger) (v : Value) : Ledger :=
  { l with count := l.count.add v 1, duplicated := l.duplicated.add v 1 }

/-- The program frees a reference. -/
def free (l : Ledger) (v : Value) : Ledger := { l with count := l.count.add v (-1), freed := l.freed.add v 1 }

/-- A reference goes over to the engine. -/
def consume (l : Ledger) (v : Value) : Ledger :=
  { l with engine := l.engine.add v 1, consumed := l.consumed.add v 1 }

/-- A reference becomes a value of the program. -/
def wrap (l : Ledger) (v : Value) : Ledger := { l with live := l.live.add v 1 }

/-- A value of the program is no more; its reference is left. -/
def unwrap (l : Ledger) (v : Value) : Ledger := { l with live := l.live.add v (-1) }

/-- The engine is at work on its own references, and has some number of them to a cell afterwards. -/
def work (l : Ledger) (r : Reference) (share : Nat) : Ledger :=
  { l with count := l.count.set r (l.count.of r + share - l.engine.of r), engine := l.engine.set r share }

/-- What the references hold that are not the engine's. -/
def holders (l : Ledger) : List Reference :=
  l.count.entries.keys.flatMap fun r => List.replicate (l.count.of r - l.engine.of r).toNat r

theorem mem_holders {l : Ledger} {r : Reference} (hengine : 0 ≤ l.engine.of r) (h : l.engine.of r < l.count.of r) :
    r ∈ l.holders := by
  have hmem : r ∈ l.count.entries := Decidable.byContradiction fun hnot => by
    have hzero : l.count.of r = 0 := Std.HashMap.getD_eq_fallback hnot
    omega
  refine List.mem_flatMap.mpr ⟨r, Std.HashMap.mem_keys.mpr hmem, List.mem_replicate.mpr ⟨?_, rfl⟩⟩
  omega

/-- References are in order, where some are set aside: the headers count the engine's references, those of the
program's values and those aside, and each reference that the program was given or has made it has freed or given up,
or has a value for it, or it is aside. -/
structure Balanced (l : Ledger) (aside : List Reference) : Prop where
  counted : ∀ r, l.count.of r = l.engine.of r + l.live.of r + aside.count r
  matched : ∀ r, l.received.of r + l.duplicated.of r = l.freed.of r + l.consumed.of r + l.live.of r + aside.count r
  engine_nonneg : ∀ r, 0 ≤ l.engine.of r

theorem Balanced.perm {l : Ledger} {aside others : List Reference} (h : l.Balanced aside)
    (hperm : aside.Perm others) : l.Balanced others :=
  ⟨fun r => hperm.count_eq r ▸ h.counted r, fun r => hperm.count_eq r ▸ h.matched r, h.engine_nonneg⟩

theorem balanced_none : none.Balanced [] := by
  constructor <;> simp [none]

/-! ### Steps -/

variable {l l' : Ledger} {v : Value} {aside aside' : List Reference}

/-- A step keeps the order if each cell's header changes by as much as those who have references to it, and what the
program was given or has made changes by as much as what has become of it. -/
theorem Balanced.change (h : l.Balanced aside)
    (hstep : ∀ r,
      l'.count.of r - l.count.of r =
        l'.engine.of r - l.engine.of r + (l'.live.of r - l.live.of r) + (aside'.count r - aside.count r) ∧
      l'.received.of r - l.received.of r + (l'.duplicated.of r - l.duplicated.of r) =
        l'.freed.of r - l.freed.of r + (l'.consumed.of r - l.consumed.of r) + (l'.live.of r - l.live.of r) +
          (aside'.count r - aside.count r) ∧
      l.engine.of r ≤ l'.engine.of r) : l'.Balanced aside' := by
  refine ⟨fun r => ?_, fun r => ?_, fun r => ?_⟩
  · have hcounted := h.counted r
    have hchange := (hstep r).1
    omega
  · have hmatched := h.matched r
    have hchange := (hstep r).2.1
    omega
  · exact Int.le_trans (h.engine_nonneg r) (hstep r).2.2

theorem Balanced.receive (h : l.Balanced aside) (v : Value) : (l.receive v).Balanced (v.references ++ aside) :=
  h.change fun r => by
    simp only [Ledger.receive, Tally.of_add, List.count_append]
    omega

theorem Balanced.duplicate (h : l.Balanced aside) (v : Value) :
    (l.duplicate v).Balanced (v.references ++ aside) :=
  h.change fun r => by
    simp only [Ledger.duplicate, Tally.of_add, List.count_append]
    omega

theorem Balanced.free (h : l.Balanced (v.references ++ aside)) : (l.free v).Balanced aside :=
  h.change fun r => by
    simp only [Ledger.free, Tally.of_add, List.count_append]
    omega

theorem Balanced.consume (h : l.Balanced (v.references ++ aside)) : (l.consume v).Balanced aside :=
  h.change fun r => by
    simp only [Ledger.consume, Tally.of_add, List.count_append]
    omega

theorem Balanced.wrap (h : l.Balanced (v.references ++ aside)) : (l.wrap v).Balanced aside :=
  h.change fun r => by
    simp only [Ledger.wrap, Tally.of_add, List.count_append]
    omega

theorem Balanced.unwrap (h : l.Balanced aside) (v : Value) : (l.unwrap v).Balanced (v.references ++ aside) :=
  h.change fun r => by
    simp only [Ledger.unwrap, Tally.of_add, List.count_append]
    omega

theorem Balanced.work (h : l.Balanced aside) (r : Reference) (share : Nat) : (l.work r share).Balanced aside := by
  refine ⟨fun s => ?_, h.matched, fun s => ?_⟩
  · have hs := h.counted s
    simp only [Ledger.work, Tally.of_set]
    split
    · next heq =>
      subst heq
      omega
    · exact hs
  · have hs := h.engine_nonneg s
    simp only [Ledger.work, Tally.of_set]
    split
    · omega
    · exact hs

end Ledger

end PluginRelay.Embedding
