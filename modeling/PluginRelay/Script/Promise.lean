import PluginRelay.Script.Function

/-!
# Promises

A promise is settled once. Then its reactions become jobs, in the order in which they were added.
-/
namespace PluginRelay.Script.Promise

open Script.Action Script.Access Script.Convert
open Evolution (attempt)

variable {σ : Type} [Evolving σ]

def newPromise : Action σ ObjectId := newObject .promisePrototype (.promise .pending [])

/-- Settles a promise that is pending. -/
def settle (id : ObjectId) (rejected : Bool) (v : Value) : Action σ Unit := do
  match ← payload id with
  | .promise .pending reactions =>
    setPayload id (.promise (if rejected then .rejected v else .fulfilled v) [])
    for r in reactions do enqueue (.react r rejected v (← read).realm)
  | _ => return

/-- Lets a promise follow a value: it is fulfilled with it, or waits for it. -/
def resolve (env : Env σ) (id : ObjectId) (v : Value) : Action σ Unit := do
  if v = .object id then
    let e ← newError .typeError (Units.ofString "promise self resolution")
    addTrace e "" 0
    settle id true (.object e)
  else
    match v with
    | .object _ =>
      match ← attempt (getMember env v (named "then")) with
      | .error e => settle id true e
      | .ok f =>
        if ← isCallable f then enqueue (.follow (.object id) v f (← read).realm)
        else settle id false v
    | _ => settle id false v

/-- The two functions that settle a promise; only the first call of either counts. -/
def functionsFor (id : ObjectId) : Action σ (Value × Value) := do
  let flag ← allocate (.new none (.primitive (.bool false)))
  let data := #[Value.object id, .object flag]
  let onResolve ← Function.newInternal (.settle false) data 1
  let onReject ← Function.newInternal (.settle true) data 1
  return (onResolve, onReject)

/-- A call of one of these functions. -/
def settleOnce (env : Env σ) (rejects : Bool) (data : Array Value) (v : Value) : Action σ Unit := do
  match data.toList with
  | [.object id, .object flag] =>
    match ← payload flag with
    | .primitive (.bool false) =>
      setPayload flag (.primitive (.bool true))
      if rejects then settle id true v else resolve env id v
    | _ => return
  | _ => return

/-- A promise made by any constructor, with its two functions. -/
def newCapability (env : Env σ) (constructor : Value) : Action σ Capability := do
  let builtin ← intrinsic (.constructor "Promise")
  if constructor = .object builtin then
    let id ← newPromise
    let (onResolve, onReject) ← functionsFor id
    return ⟨.object id, onResolve, onReject⟩
  else
    if !(← isConstructor constructor) then throwType "not a constructor"
    let holder ← newArray []
    let executor ← Function.newInternal .executor #[.object holder] 2
    let promise ← env.construct constructor #[executor] constructor
    let onResolve ← Access.get env holder (.index 0) (.object holder)
    let onReject ← Access.get env holder (.index 1) (.object holder)
    if !(← isCallable onResolve) || !(← isCallable onReject) then throwType "not a function"
    return ⟨promise, onResolve, onReject⟩

def ownCapability : Action σ Capability := do
  let id ← newPromise
  let (onResolve, onReject) ← functionsFor id
  return ⟨.object id, onResolve, onReject⟩

/-- A promise for a value; a promise of the same constructor is its own. -/
def ofValue (env : Env σ) (constructor v : Value) : Action σ Value := do
  let own ← match v with
    | .object id =>
      match ← payload id with
      | .promise _ _ => pure ((← getMember env v constructorKey) == constructor)
      | _ => pure false
    | _ => pure false
  if own then return v
  let c ← newCapability env constructor
  let _ ← env.call c.resolve .undefined #[v]
  return c.promise

/-- Adds a reaction to a promise; it becomes a job at once if the promise is settled. -/
def addReaction (id : ObjectId) (r : Reaction) : Action σ Unit := do
  match ← payload id with
  | .promise .pending reactions => setPayload id (.promise .pending (reactions ++ [r]))
  | .promise (.fulfilled v) _ => enqueue (.react r false v (← read).realm)
  | .promise (.rejected v) _ => enqueue (.react r true v (← read).realm)
  | _ => return

/-- Lets two functions wait for a value. -/
def awaitWith (env : Env σ) (v onFulfilled onRejected : Value) : Action σ Unit := do
  let builtin ← intrinsic (.constructor "Promise")
  match ← ofValue env (.object builtin) v with
  | .object id => addReaction id ⟨none, onFulfilled, onRejected⟩
  | _ => return

/-- Runs a reaction. -/
def react (env : Env σ) (r : Reaction) (rejected : Bool) (v : Value) : Action σ Value := do
  let handler := if rejected then r.onRejected else r.onFulfilled
  let outcome ← if ← isCallable handler then attempt (env.call handler .undefined #[v])
    else pure (if rejected then .error v else .ok v)
  match r.capability, outcome with
  | none, _ => return .undefined
  | some c, .ok result => env.call c.resolve .undefined #[result]
  | some c, .error e => env.call c.reject .undefined #[e]

/-- Lets a promise wait for another object by its method. -/
def follow (env : Env σ) (promise thenable method : Value) : Action σ Value := do
  match promise with
  | .object id =>
    let (onResolve, onReject) ← functionsFor id
    match ← attempt (env.call method thenable #[onResolve, onReject]) with
    | .ok v => return v
    | .error e => env.call onReject .undefined #[e]
  | _ => return .undefined

/-- The name of a module without the steps that stay where they are. -/
def moduleName : List UInt16 → List UInt16
  | 0x2E :: 0x2F :: rest => moduleName rest
  | units => units

/-- Looks for a module; there are none. -/
def load (env : Env σ) (promise : ObjectId) (name : Value) : Action σ Value := do
  let search : Action σ Unit := do
    let units ← toUnits env name
    throwUnits .referenceError
      (Units.ofString "could not load module '" ++ (moduleName units.toList).toArray ++ Units.ofString "'")
  match ← attempt search with
  | .ok _ => return .undefined
  | .error e =>
    settle promise true e
    return .undefined

/-- A promise for a module. -/
def requestModule (name : Value) : Action σ Value := do
  let promise ← newPromise
  enqueue (.load promise name (← read).realm)
  return .object promise

end PluginRelay.Script.Promise
