import Mathlib.Tactic.SplitIfs
import PluginRelay.Proofs.Readers
import PluginRelay.Wasm.Instance

/-!
# Calls to the outside

The state of the host changes only in the functions that it offers. A run has the list of the calls that
it makes of them, and the host's state at its end is what these calls make of the state before, one after
the other.
-/
namespace PluginRelay.Wasm

open Cbor (bind_eq_ok)

/-- A call of a function from outside, with the memory as the call finds it. -/
structure Outcall where
  function : Nat
  arguments : List Value
  memory : Memory

variable {σ : Type}

namespace Environment

variable (e : Environment σ)

/-- The call to the outside, if there is one, that calling the function with that index is. -/
def outcall? (world : World σ) (index : Nat) (arguments : List Value) : Option Outcall := do
  let _ ← (← e.hosts[index]?)
  let memory ← world.memories[(← e.sharedMemory)]?
  return ⟨index, arguments, memory⟩

/-- The same for a function called with the operands on a stack. -/
def outcallOn? (world : World σ) (index : Nat) (stack : List Value) : Option Outcall := do
  let type ← e.types[index]?
  e.outcall? world index (stack.take type.params.length).reverse

end Environment

namespace Progress

def host : Progress σ → σ
  | .running m => m.world.host
  | .ended world _ => world.host

end Progress

namespace Machine

variable (e : Environment σ)

/-- The call to the outside, if there is one, of what a place of a table refers to. -/
def outcallAt? (world : World σ) (table place : Nat) (type : FunctionType) (stack : List Value) : Option Outcall :=
  match indirect e world table place type with
  | .ok index => e.outcallOn? world index stack
  | .error _ => none

/-- The call to the outside, if there is one, that the next instruction makes. -/
def outcall? (m : Machine σ) : Option Outcall :=
  match m.frame.code, m.frame.stack with
  | .call index :: _, stack => e.outcallOn? m.world index stack
  | .callIndirect table type :: _, .i32 place :: stack => outcallAt? e m.world table place.toNat type stack
  | .returnCall index :: _, stack => e.outcallOn? m.world index stack
  | .returnCallIndirect table type :: _, .i32 place :: stack => outcallAt? e m.world table place.toNat type stack
  | _, _ => none

/-- The calls to the outside of a run, in order. -/
def outcalls (limit : Nat) (p : Progress σ) : List Outcall :=
  match p, limit with
  | .running m, limit + 1 => (m.outcall? e).toList ++ outcalls limit (m.step e)
  | _, _ => []

end Machine

/-- The calls to the outside while a function of the instance is called. -/
def Environment.outcalls (e : Environment σ) (world : World σ) (index : Nat) (arguments : List Value) :
    List Outcall :=
  (e.outcall? world index arguments).toList ++
    Machine.outcalls e stepLimit (Machine.callFunction e world [] 0 index arguments)

/-! ## One step -/

/-- If there is a result, its world has this state of the host. -/
def Keeps (host : σ) (result : Except Stop (List Value × Array Value × World σ)) : Prop :=
  ∀ stack locals world, result = .ok (stack, locals, world) → world.host = host

namespace Keeps

variable {host : σ}

theorem ok {stack : List Value} {locals : Array Value} {world : World σ} (h : world.host = host) :
    Keeps host (.ok (stack, locals, world)) := by
  rintro _ _ _ ⟨⟩
  exact h

theorem error (reason : Stop) : Keeps host (.error reason) := by
  rintro _ _ _ ⟨⟩

theorem bind {α : Type} {x : Except Stop α}
    {f : α → Except Stop (List Value × Array Value × World σ)} (h : ∀ a, Keeps host (f a)) :
    Keeps host (x >>= f) := by
  cases x with
  | ok a => exact h a
  | error reason => exact error reason

end Keeps

theorem Instruction.perform_keeps (i : Instruction) (stack : List Value) (locals : Array Value)
    (w : World σ) : Keeps w.host (i.perform stack locals w) := by
  unfold Instruction.perform
  split
  all_goals
    repeat' first
      | exact .ok rfl
      | exact .error _
      | refine .bind fun _ => ?_
      | split
      | dsimp only

namespace Machine

variable (e : Environment σ)

end Machine

namespace Instance

/-- The world with all segments in place. -/
def placed (i : Instance σ) : Except Stop (World σ) := do
  let w ← i.source.elements.foldlM placeElements i.world
  i.source.datas.foldlM placeData w

/-- The calls to the outside of the start function. -/
def startOutcalls (i : Instance σ) : List Outcall :=
  match i.placed, i.source.start with
  | .ok world, some f => i.environment.outcalls world f []
  | _, _ => []

theorem getElem?_of_mapM {α β : Type} {f : α → Option β} {xs : List α} {ys : List β}
    (h : xs.mapM f = some ys) (index : Nat) : ys[index]? = xs[index]?.bind f := by
  induction xs generalizing ys index with
  | nil =>
    obtain rfl := Option.some.inj h
    simp
  | cons x rest ih =>
    rw [List.mapM_cons] at h
    obtain ⟨y, hy, h⟩ := Option.bind_eq_some_iff.mp h
    obtain ⟨tail, htail, h⟩ := Option.bind_eq_some_iff.mp h
    obtain rfl := Option.some.inj h
    cases index with
    | zero => simp [hy]
    | succ index => simpa using ih htail index

theorem of_new? {m : Module} {linker : Linker σ} {fuel : Option Nat} {host : σ} {i : Instance σ}
    (h : new? m linker fuel host = some i) :
    i.source = m ∧ i.world.host = host ∧
      ∀ index : Nat, i.environment.hosts[index]? = m.imports[index]?.bind (linker.resolve? m.imports) := by
  unfold new? at h
  obtain ⟨hosts, hhosts, h⟩ := Option.bind_eq_some_iff.mp h
  obtain ⟨globals, -, h⟩ := Option.bind_eq_some_iff.mp h
  obtain ⟨elements, -, h⟩ := Option.bind_eq_some_iff.mp h
  obtain rfl := Option.some.inj h
  refine ⟨rfl, rfl, fun index => ?_⟩
  rw [← getElem?_of_mapM hhosts]
  simp [environmentOf]

end Instance

end PluginRelay.Wasm
