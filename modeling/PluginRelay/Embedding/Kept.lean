import PluginRelay.Embedding.Failure
import PluginRelay.Script.Retention
import Std.Data.HashMap.Lemmas

/-!
# Exceptions that contexts keep

All engines of a process take the numbers for their exceptions from one counter of 64 bits. An exception that is taken
gets a number from there, and its context keeps the value until it takes another one, throws this one again, or is gone.
`Reached` tells how the state of one engine comes about step by step, while others use up numbers too, and `Fits` what
the record of these steps then says about it.
-/
namespace PluginRelay.Embedding

open Script

/-- A context is known by the place of its globals. -/
abbrev ContextId := RealmId

/-- The number that a process hands out in some turn; turns count from zero. After `2 ^ 64` turns numbers come again. -/
def serialOf (turn : Nat) : UInt64 := .ofNat (turn + 1)

theorem serialOf_succ (turn : Nat) : serialOf (turn + 1) = serialOf turn + 1 := UInt64.ofNat_add (turn + 1) 1

theorem serialOf_eq_iff {m n : Nat} : serialOf m = serialOf n ↔ m % UInt64.size = n % UInt64.size := by
  rw [← UInt64.toNat_inj]
  simp only [serialOf, UInt64.toNat_ofNat', UInt64.size]
  omega

/-- No number comes again before all have been used. -/
theorem serialOf_inj {m n : Nat} (hm : m < UInt64.size) (hn : n < UInt64.size) (h : serialOf m = serialOf n) : m = n := by
  rw [serialOf_eq_iff] at h
  rwa [Nat.mod_eq_of_lt hm, Nat.mod_eq_of_lt hn] at h

/-- What can become of the exception that a context keeps. -/
inductive Occurrence where
  /-- A value was taken in some turn of the process; this is what the program got for it. -/
  | taken (id : ContextId) (turn : Nat) (e : Thrown) (v : Value)
  /-- The exception of this turn was thrown again. -/
  | rethrown (id : ContextId) (turn : Nat)
  | forgotten (id : ContextId)
  deriving Repr, Inhabited

namespace Occurrence

def context : Occurrence → ContextId
  | taken id _ _ _ | rethrown id _ | forgotten id => id

/-- The turns that exceptions were taken in. -/
def turns : Occurrence → List Nat
  | taken _ turn _ _ => [turn]
  | _ => []

/-- What the context keeps from then on. -/
def leaves : Occurrence → Option (Nat × Value)
  | taken _ turn _ v => some (turn, v)
  | _ => none

end Occurrence

/-- What a context keeps after all that has happened: its own last occurrence decides. -/
def keptAfter (id : ContextId) (record : List Occurrence) : Option (Nat × Value) :=
  (record.find? (·.context = id)).bind Occurrence.leaves

def turnsOf (record : List Occurrence) : List Nat := record.flatMap Occurrence.turns

@[simp]
theorem keptAfter_cons (id : ContextId) (o : Occurrence) (record : List Occurrence) :
    keptAfter id (o :: record) = if o.context = id then o.leaves else keptAfter id record := by
  by_cases h : o.context = id <;> simp [keptAfter, h]

@[simp]
theorem turnsOf_cons (o : Occurrence) (record : List Occurrence) :
    turnsOf (o :: record) = o.turns ++ turnsOf record := by
  simp [turnsOf]

@[simp]
theorem turnsOf_append (since record : List Occurrence) :
    turnsOf (since ++ record) = turnsOf since ++ turnsOf record := by
  simp [turnsOf]

structure Exceptions where
  /-- The number for the next exception, as the process has it. -/
  next : UInt64
  /-- The exception that each context took last, with its number. -/
  kept : Std.HashMap ContextId (UInt64 × Value)
  deriving Inhabited

namespace Exceptions

def none : Exceptions := ⟨1, ∅⟩

/-- Uses up a number. -/
def number (x : Exceptions) : Exceptions := { x with next := x.next + 1 }

/-- A context keeps an exception, and no longer the one before. -/
def keep (x : Exceptions) (id : ContextId) (serial : UInt64) (v : Value) : Exceptions :=
  { x with kept := x.kept.insert id (serial, v) }

/-- A context keeps nothing any more. -/
def clear (x : Exceptions) (id : ContextId) : Exceptions := { x with kept := x.kept.erase id }

@[simp]
theorem kept_clear (x : Exceptions) (id other : ContextId) :
    (x.clear id).kept[other]? = if id = other then Option.none else x.kept[other]? := by
  simp [Exceptions.clear, Std.HashMap.getElem?_erase]

@[simp]
theorem kept_keep (x : Exceptions) (id other : ContextId) (serial : UInt64) (v : Value) :
    (x.keep id serial v).kept[other]? = if id = other then some (serial, v) else x.kept[other]? := by
  simp [Exceptions.keep, Std.HashMap.getElem?_insert]

/-- How the state of an engine has come about: how many turns its process has used up, which of them belong to
exceptions that are still being described, and what has happened, the latest first. -/
inductive Reached : (used : Nat) → (pending : List Nat) → (record : List Occurrence) → Exceptions → Prop where
  | start : Reached 0 [] [] none
  /-- An exception gets its number, and its description begins. -/
  | number {used pending record x} (before : Reached used pending record x) :
      Reached (used + 1) (used :: pending) record x.number
  /-- Another engine of the process uses up a number. -/
  | elsewhere {used pending record x} (before : Reached used pending record x) :
      Reached (used + 1) pending record x.number
  /-- An exception has been described, and the context keeps its value. -/
  | keep {used turn pending record x} (id : ContextId) (e : Thrown) (v : Value) (hserial : e.serial = serialOf turn)
      (before : Reached used (turn :: pending) record x) :
      Reached used pending (.taken id turn e v :: record) (x.keep id e.serial v)
  /-- The value that the context keeps is thrown again. -/
  | rethrow {used pending record x} {id : ContextId} {turn : Nat} {v : Value}
      (before : Reached used pending record x) (hkept : keptAfter id record = some (turn, v)) :
      Reached used pending (.rethrown id turn :: record) (x.clear id)
  | forget {used pending record x} (id : ContextId) (before : Reached used pending record x) :
      Reached used pending (.forgotten id :: record) (x.clear id)

/-- What holds of every state that is reached. -/
structure Fits (x : Exceptions) (used : Nat) (pending : List Nat) (record : List Occurrence) : Prop where
  next : x.next = serialOf used
  kept : ∀ id, x.kept[id]? = (keptAfter id record).map fun (turn, v) => (serialOf turn, v)
  distinct : (pending ++ turnsOf record).Nodup
  before : ∀ turn ∈ pending ++ turnsOf record, turn < used
  described : ∀ id turn e v, .taken id turn e v ∈ record → e.serial = serialOf turn

variable {x : Exceptions} {used turn : Nat} {pending : List Nat} {record : List Occurrence}

theorem fits_none : none.Fits 0 [] [] := by
  constructor
  · rfl
  · intro id
    simp [none, keptAfter]
  · simp [turnsOf]
  · simp [turnsOf]
  · nofun

theorem next_number (h : x.next = serialOf used) : x.number.next = serialOf (used + 1) := by
  rw [serialOf_succ, ← h]
  rfl

theorem Fits.number (h : x.Fits used pending record) : x.number.Fits (used + 1) (used :: pending) record := by
  constructor
  · exact next_number h.next
  · exact h.kept
  · rw [List.cons_append, List.nodup_cons]
    exact ⟨fun hn => Nat.lt_irrefl _ (h.before _ hn), h.distinct⟩
  · intro n hn
    rw [List.cons_append, List.mem_cons] at hn
    obtain rfl | hn := hn
    · exact Nat.lt_succ_self n
    · exact Nat.lt_succ_of_lt (h.before n hn)
  · exact h.described

theorem Fits.elsewhere (h : x.Fits used pending record) : x.number.Fits (used + 1) pending record :=
  ⟨next_number h.next, h.kept, h.distinct, fun n hn => Nat.lt_succ_of_lt (h.before n hn), h.described⟩

/-- The turn of an exception that has been described goes into the record. -/
theorem Fits.keep {e : Thrown} (h : x.Fits used (turn :: pending) record) (hserial : e.serial = serialOf turn)
    (id : ContextId) (v : Value) : (x.keep id e.serial v).Fits used pending (.taken id turn e v :: record) := by
  have hperm : (pending ++ turnsOf (.taken id turn e v :: record)).Perm (turn :: pending ++ turnsOf record) := by
    rw [turnsOf_cons, Occurrence.turns]
    exact List.perm_middle
  constructor
  · exact h.next
  · intro other
    rw [keptAfter_cons, kept_keep]
    by_cases ho : id = other
    · simp [ho, Occurrence.context, Occurrence.leaves, hserial]
    · simpa [ho, Occurrence.context] using h.kept other
  · exact hperm.nodup_iff.mpr h.distinct
  · exact fun n hn => h.before n (hperm.mem_iff.mp hn)
  · intro other n f w hmem
    obtain heq | hmem := List.mem_cons.mp hmem
    · cases heq
      exact hserial
    · exact h.described other n f w hmem

/-- A context comes to keep nothing by an occurrence of its own. -/
theorem Fits.clear (h : x.Fits used pending record) {o : Occurrence} (hleaves : o.leaves = Option.none)
    (hturns : o.turns = []) : (x.clear o.context).Fits used pending (o :: record) := by
  have hsame : turnsOf (o :: record) = turnsOf record := by simp [hturns]
  constructor
  · exact h.next
  · intro id
    rw [keptAfter_cons, kept_clear]
    by_cases ho : o.context = id
    · simp [ho, hleaves]
    · simpa [ho] using h.kept id
  · rw [hsame]
    exact h.distinct
  · rw [hsame]
    exact h.before
  · intro id n e v hmem
    obtain rfl | hmem := List.mem_cons.mp hmem
    · cases hturns
    · exact h.described id n e v hmem

theorem Reached.fits (h : Reached used pending record x) : x.Fits used pending record := by
  induction h with
  | start => exact fits_none
  | number _ ih => exact ih.number
  | elsewhere _ ih => exact ih.elsewhere
  | keep id e v hserial _ ih => exact ih.keep hserial id v
  | @rethrow _ _ _ _ id turn _ _ _ ih => exact ih.clear (o := .rethrown id turn) rfl rfl
  | forget id _ ih => exact ih.clear (o := .forgotten id) rfl rfl

/-- What a context keeps was taken in some turn, and has the number of that turn. -/
theorem Fits.turn_of_kept (h : x.Fits used pending record) {id : ContextId} {serial : UInt64} {v : Value}
    (hkept : x.kept[id]? = some (serial, v)) : ∃ turn, keptAfter id record = some (turn, v) ∧ serialOf turn = serial := by
  rw [h.kept id] at hkept
  obtain ⟨⟨turn, w⟩, hafter, heq⟩ := Option.map_eq_some_iff.mp hkept
  obtain ⟨rfl, rfl⟩ := Prod.mk.inj heq
  exact ⟨turn, hafter, rfl⟩

/-! ### Other engines -/

/-- The process hands out other numbers from now on. -/
def lend (x : Exceptions) (next : UInt64) : Exceptions := { x with next := next }

/-- While an engine rests, others use up numbers. -/
theorem Reached.lend (h : Reached used pending record x) {later : Nat} (hlater : used ≤ later) :
    Reached later pending record (x.lend (serialOf later)) := by
  obtain ⟨more, rfl⟩ := Nat.le.dest hlater
  induction more with
  | zero =>
    rw [Exceptions.lend, Nat.add_zero, ← h.fits.next]
    exact h
  | succ n ih =>
    rw [← Nat.add_assoc, serialOf_succ]
    exact (ih (Nat.le_add_right used n)).elsewhere

/-! ### What is held -/

/-- The references that contexts hold by what they keep. -/
def references (x : Exceptions) : List Reference := x.kept.toList.flatMap fun (_, _, v) => v.references

@[simp]
theorem references_none : none.references = [] := by simp [references, none]

/-- Those of one context. -/
def referencesOf (x : Exceptions) (id : ContextId) : List Reference :=
  x.kept[id]?.toList.flatMap fun (_, v) => v.references

theorem referencesOf_some {x : Exceptions} {id : ContextId} {n : UInt64} {v : Value}
    (h : x.kept[id]? = some (n, v)) : x.referencesOf id = v.references := by
  simp [referencesOf, h]

theorem referencesOf_none {x : Exceptions} {id : ContextId} (h : x.kept[id]? = Option.none) :
    x.referencesOf id = [] := by
  simp [referencesOf, h]

theorem nodup_kept (x : Exceptions) : x.kept.toList.Nodup := by
  refine (Std.HashMap.distinct_keys_toList (m := x.kept)).imp ?_
  rintro a b hab rfl
  simp at hab

/-- States in which contexts keep the same hold the same. -/
theorem references_perm {x y : Exceptions} (h : ∀ id : ContextId, x.kept[id]? = y.kept[id]?) :
    x.references.Perm y.references := by
  refine List.Perm.flatMap_right _ ?_
  rw [List.perm_ext_iff_of_nodup x.nodup_kept y.nodup_kept]
  rintro ⟨id, n, v⟩
  simp [Std.HashMap.mem_toList_iff_getElem?_eq_some, h id]

/-- What one context keeps, and what the others keep. -/
theorem references_clear (x : Exceptions) (id : ContextId) :
    x.references.Perm (x.referencesOf id ++ (x.clear id).references) := by
  have hnodup : (x.kept[id]?.toList.map (id, ·) ++ (x.clear id).kept.toList).Nodup := by
    refine List.nodup_append.mpr ⟨?_, (x.clear id).nodup_kept, ?_⟩
    · cases x.kept[id]? <;> simp
    · rintro _ ha ⟨k, v⟩ hb rfl
      obtain ⟨_, -, h⟩ := List.mem_map.mp ha
      obtain ⟨rfl, -⟩ := Prod.mk.inj h
      simp [Std.HashMap.mem_toList_iff_getElem?_eq_some, kept_clear] at hb
  have hkept : x.kept.toList.Perm (x.kept[id]?.toList.map (id, ·) ++ (x.clear id).kept.toList) := by
    rw [List.perm_ext_iff_of_nodup x.nodup_kept hnodup]
    rintro ⟨k, v⟩
    by_cases hk : id = k
    · subst hk
      simp [Std.HashMap.mem_toList_iff_getElem?_eq_some, kept_clear]
    · simp [Std.HashMap.mem_toList_iff_getElem?_eq_some, kept_clear, hk]
  have h := hkept.flatMap_right fun (_, _, v) => v.references
  rw [List.flatMap_append, List.flatMap_map] at h
  exact h

theorem references_keep (x : Exceptions) (id : ContextId) (serial : UInt64) (v : Value) :
    (x.keep id serial v).references.Perm (v.references ++ (x.clear id).references) := by
  have hothers : ((x.keep id serial v).clear id).references.Perm (x.clear id).references := by
    refine references_perm fun other => ?_
    rw [kept_clear, kept_clear, kept_keep]
    split <;> rfl
  have h := ((x.keep id serial v).references_clear id).trans (hothers.append_left _)
  simpa [referencesOf, kept_keep] using h

end Exceptions

end PluginRelay.Embedding
