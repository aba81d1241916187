import PluginRelay.Wasm.Type

/-!
# Tables

A table has references to functions, some of which are missing. References of other types are only ever missing, since
nothing hands them in. An access that is not within the size has no result.
-/
namespace PluginRelay.Wasm

structure Table where
  type : ValueType
  /-- How many entries the table may have. -/
  most : Nat
  entries : Array (Option Nat)

namespace Table

/-- No table starts with more entries. -/
def startLimit : Nat := 10000000

def ofType (t : TableType) : Table :=
  ⟨t.type, t.limits.most.getD (UInt32.size - 1), Array.replicate t.limits.least none⟩

def size (t : Table) : Nat := t.entries.size

def get? (t : Table) (place : Nat) : Option Value :=
  (t.entries[place]?).map (.reference t.type)

/-- Entries from a list, as far as all of them are there. -/
def slice? (entries : List (Option Nat)) (start count : Nat) : Option (List (Option Nat)) :=
  if start + count ≤ entries.length then some ((entries.drop start).take count) else none

/-- Puts entries from a place on into the table, which must have room for all of them. -/
def write? (t : Table) (start : Nat) (targets : List (Option Nat)) : Option Table :=
  if start + targets.length ≤ t.size then
    let entries := (targets.zipIdx start).foldl (fun es (target, i) => es.setIfInBounds i target) t.entries
    some { t with entries := entries }
  else none

/-- Grows by some entries, unless there would be more than the table may have. -/
def grow? (t : Table) (count : Nat) (target : Option Nat) : Option Table :=
  if t.size + count ≤ t.most then some { t with entries := t.entries ++ Array.replicate count target } else none

end Table

end PluginRelay.Wasm
