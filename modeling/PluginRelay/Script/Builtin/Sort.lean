import PluginRelay.Script.Builtin.Array
import PluginRelay.Script.Sorting

/-!
# Sorting lists

Elements are compared by a function, or by their texts. Where the comparison finds no difference, elements
keep their order. Those that are `undefined` come last, and missing ones after them.
-/
namespace PluginRelay.Script.Builtin.ArrayFunctions

open Script.Action Script.Access Script.Convert

variable {σ : Type} [Evolving σ]

/-- An element with its text, if texts are compared, and its place before the sort. -/
structure Ranked where
  value : Value
  text : Units
  place : Nat

def signOf (x : Binary64) : Int :=
  if x.isNaN || x.isZero then 0 else if x.isNegative then -1 else 1

def byPlace (a b : Ranked) : Int := compareOfLessAndEq a.place b.place |> fun
  | .lt => -1
  | .eq => 0
  | .gt => 1

/-- The comparison of two elements by a function. -/
def byFunction (env : Env σ) (f : Value) : Sorting.Comparison Ranked (Action σ) := fun a b => do
  if a.value = b.value then return byPlace a b
  let result ← env.call f .undefined #[a.value, b.value]
  let sign ← match result with
    | .int n => pure n.sign
    | v => pure (signOf (← toDouble env v))
  return if sign = 0 then byPlace a b else sign

def byText : Sorting.Comparison Ranked (Action σ) := fun a b => do
  if a.text == b.text then return byPlace a b
  return if a.text.less b.text then -1 else 1

/-- Values in order. -/
def sorted (env : Env σ) (f : Value) (values : List Value) : Action σ (List Value) := do
  let ranked ← values.zipIdx.mapM fun (v, i) => do
    let text ← if f.isUndefined && 1 < values.length then toUnits env v else pure #[]
    return (⟨v, text, i⟩ : Ranked)
  let compare := if f.isUndefined then byText else byFunction env f
  return ((← Sorting.sort compare ranked.toArray).map (·.value)).toList

/-- The function that compares elements, or `undefined`. -/
def comparison (v : Value) : Action σ Value := do
  if v.isUndefined then return v else callback v

def sort : Native σ := fun env c => do
  let f ← comparison (c.arg 0)
  let (id, n) ← thisList env c
  let mut items : List Value := []
  for i in [0:n] do
    match ← present? env id i with
    | some v => items := v :: items
    | none => continue
  let (missing, values) := items.reverse.partition (·.isUndefined)
  let result ← sorted env f values
  for (v, i) in (result ++ missing).zipIdx do setElement env id i v
  for i in [items.length:n] do deleteElement env id i
  return .object id

def toSorted : Native σ := fun env c => do
  let f ← comparison (c.arg 0)
  let (id, n) ← thisList env c
  let (missing, values) := (← allElements env id n).partition (·.isUndefined)
  return .object (← newArray ((← sorted env f values) ++ missing))

def sortTable : List (Builtin σ) :=
  let proto := Owner.intrinsic .arrayPrototype
  [method proto "sort" 1 sort, method proto "toSorted" 1 toSorted]

end PluginRelay.Script.Builtin.ArrayFunctions
