import PluginRelay.Embedding.Operation

/-!
# Engines of one process

A process can have several engines, each with contexts and values of its own. What they share is the counter for the
numbers of exceptions: an engine that runs takes its numbers from there, and the next one goes on behind it.
-/
namespace PluginRelay.Embedding

open Script

structure Engines (κ τ : Type) where
  /-- The number for the next exception. -/
  next : UInt64
  members : Array (Engine κ τ)

namespace Engines

variable {κ τ ε α : Type}

def start : Engines κ τ := ⟨1, #[]⟩

/-- One more engine, which has no contexts yet. -/
def add (p : Engines κ τ) (config : Config) (own : τ) : Engines κ τ :=
  { p with members := p.members.push (.start (.new config own)) }

/-- An engine as it gets to run, with the counter of the process. -/
def engine? (p : Engines κ τ) (i : Nat) : Option (Engine κ τ) :=
  p.members[i]?.map fun m => { m with host := m.host.lend p.next }

/-- An engine has run up to here, and the counter is where it left it. -/
def put (p : Engines κ τ) (i : Nat) (m : Engine κ τ) : Engines κ τ :=
  ⟨m.host.exceptions.next, p.members.setIfInBounds i m⟩

theorem engine?_add (p : Engines κ τ) (config : Config) (own : τ) (i : Nat) :
    (p.add config own).engine? i =
      if i = p.members.size then some (.start ((World.new config own).lend p.next)) else p.engine? i := by
  unfold engine? add
  rw [Array.getElem?_push]
  split
  · rfl
  · rfl

theorem engine?_put_self {p : Engines κ τ} {i : Nat} {m : Engine κ τ} (hm : p.engine? i = some m) (m' : Engine κ τ) :
    (p.put i m').engine? i = some m' := by
  obtain ⟨old, hold, -⟩ := Option.map_eq_some_iff.mp hm
  have hlt : i < p.members.size := (Array.getElem?_eq_some_iff.mp hold).1
  unfold engine? put
  rw [Array.getElem?_setIfInBounds_self_of_lt hlt]
  rfl

/-- The other engines go on with the counter as this one left it. -/
theorem engine?_put_ne {p : Engines κ τ} {i j : Nat} (hij : i ≠ j) (m' : Engine κ τ) :
    (p.put i m').engine? j =
      (p.engine? j).map fun m => { m with host := m.host.lend m'.host.exceptions.next } := by
  unfold engine? put
  rw [Array.getElem?_setIfInBounds_ne hij, Option.map_map]
  rfl

variable [Holding τ]

/-- Has an engine do something. -/
def run (p : Engines κ τ) (i : Nat) (env : Env (World κ τ)) (t : Task ε κ τ α) : Option (Except ε α × Engines κ τ) := do
  match t env (← p.engine? i) with
  | .ok x m => return (.ok x, p.put i m)
  | .error e m => return (.error e, p.put i m)

theorem run_eq {p : Engines κ τ} {i : Nat} {m : Engine κ τ} (hm : p.engine? i = some m) (env : Env (World κ τ))
    (t : Task ε κ τ α) : ∃ result, p.run i env t = some (result, p.put i (t env m).machine) := by
  unfold run
  rw [hm]
  cases h : t env m with
  | ok x m' => exact ⟨.ok x, by simp [h, Ending.machine]⟩
  | error e m' => exact ⟨.error e, by simp [h, Ending.machine]⟩

end Engines

end PluginRelay.Embedding
