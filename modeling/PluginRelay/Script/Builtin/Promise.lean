import PluginRelay.Script.Builtin.Basic

/-!
# Promise

The methods of promises, and what the functions do that they leave behind.
-/
namespace PluginRelay.Script.Builtin.PromiseFunctions

open Script.Action Script.Access Script.Convert
open Evolution (attempt)

variable {σ : Type} [Evolving σ]

def construct : Native σ := fun env c => do
  mustBeNew c
  let executor ← callback (c.arg 0)
  let id ← create env c .promisePrototype (.promise .pending [])
  let (onResolve, onReject) ← Promise.functionsFor id
  match ← attempt (env.call executor .undefined #[onResolve, onReject]) with
  | .ok _ => return .object id
  | .error e =>
    let _ ← env.call onReject .undefined #[e]
    return .object id

/-! ### Reactions -/

def thisPromise (c : Call) : Action σ ObjectId := do
  match c.this with
  | .object id =>
    match ← payload id with
    | .promise _ _ => return id
    | _ => expected "Promise"
  | _ => expected "Promise"

def then_ : Native σ := fun env c => do
  let id ← thisPromise c
  let builtin ← intrinsic (.constructor "Promise")
  let constructor ← species env id (.object builtin)
  let capability ← Promise.newCapability env constructor
  Promise.addReaction id ⟨some capability, c.arg 0, c.arg 1⟩
  return capability.promise

def catch_ : Native σ := fun env c => invokeNamed env c.this "then" #[.undefined, c.arg 0]

def finally_ : Native σ := fun env c => do
  let id ← mustBeObject c.this
  let constructor ← species env id .undefined
  let f := c.arg 0
  if ← isCallable f then
    let onFulfilled ← Function.newInternal (.finallyThen false) #[constructor, f] 1
    let onRejected ← Function.newInternal (.finallyThen true) #[constructor, f] 1
    invokeNamed env c.this "then" #[onFulfilled, onRejected]
  else invokeNamed env c.this "then" #[f, f]

/-- Runs the function that `finally` was given, and then goes on with the outcome as it was. -/
def afterFinally (env : Env σ) (rejects : Bool) (constructor f outcome : Value) : Action σ Value := do
  let result ← env.call f .undefined #[]
  if !constructor.isObject then throwType "not an object"
  let promise ← Promise.ofValue env constructor result
  let goOn ← Function.newInternal (if rejects then .thrower else .constant) #[outcome] 0
  invokeNamed env promise "then" #[goOn]

/-! ### Settled promises -/

def resolve : Native σ := fun env c => do
  let _ ← mustBeObject c.this
  Promise.ofValue env c.this (c.arg 0)

def reject : Native σ := fun env c => do
  let _ ← mustBeObject c.this
  let capability ← Promise.newCapability env c.this
  let _ ← env.call capability.reject .undefined #[c.arg 0]
  return capability.promise

def withResolvers : Native σ := fun env c => do
  let _ ← mustBeObject c.this
  let capability ← Promise.newCapability env c.this
  let id ← newPlain
  putProperty id (named "promise") (.plain capability.promise)
  putProperty id (named "resolve") (.plain capability.resolve)
  putProperty id (named "reject") (.plain capability.reject)
  return .object id

/-! ### Several promises -/

/-- How several promises make one. -/
inductive Combination where
  | all | allSettled | any
  deriving DecidableEq

/-- The number by which the functions for the elements know what to do. -/
def Combination.number : Combination → Nat
  | all => 0
  | allSettled => 1
  | any => 2

/-- The number for an element that is rejected. -/
def rejectedNumber : Nat := 4

/-- A counter that functions share. -/
def newCounter (n : Int) : Action σ Value := return .object (← allocate (.new none (.primitive (.int n))))

/-- Adds to a counter, and says whether it is zero then. -/
def count (counter : Value) (n : Int) : Action σ Bool := do
  match counter with
  | .object id =>
    match ← payload id with
    | .primitive (.int m) =>
      setPayload id (.primitive (.int (m + n)))
      return m + n = 0
    | _ => return false
  | _ => return false

/-- The error for a list of errors. -/
def aggregate (errors : Value) : Action σ Value := do
  let id ← newObject (.errorPrototype .aggregateError) .error
  putProperty id (named "errors") (.hidden errors)
  return .object id

/-- Takes the outcome of one element. Its data: whether it is done, its place, the list of outcomes, the
function for the whole, and the counter. -/
def takeElement (env : Env σ) (which : Nat) (f : ObjectId) (data : Array Value) (v : Value) :
    Action σ Value := do
  match data.toList with
  | [.bool false, place, .object values, finish, counter] =>
    let realm := (← read).realm
    setPayload f (.internal (.element which) (data.set! 0 (.bool true)) realm)
    let outcome ← if which % 4 = Combination.allSettled.number then do
        let id ← newPlain
        let rejected := rejectedNumber ≤ which
        putProperty id (named "status") (.plain (.ofString (if rejected then "rejected" else "fulfilled")))
        putProperty id (named (if rejected then "reason" else "value")) (.plain v)
        pure (Value.object id)
      else pure v
    defineStrict env values (← toKey env place) outcome
    if ← count counter (-1) then
      let result ← if which % 4 = Combination.any.number then aggregate (.object values)
        else pure (.object values)
      let _ ← env.call finish .undefined #[result]
    return .undefined
  | _ => return .undefined

/-- Rejects the promise of a capability if the work for it fails. -/
def guarded (env : Env σ) (capability : Capability) (work : Action σ Unit) : Action σ Value := do
  match ← attempt work with
  | .ok _ => return capability.promise
  | .error e =>
    let _ ← env.call capability.reject .undefined #[e]
    return capability.promise

def resolver (env : Env σ) (constructor : Value) : Action σ Value := do
  callback (← getMember env constructor (named "resolve"))

def combine (how : Combination) : Native σ := fun env c => do
  let _ ← mustBeObject c.this
  let capability ← Promise.newCapability env c.this
  guarded env capability do
    let toPromise ← resolver env c.this
    let values ← newArray []
    let counter ← newCounter 1
    let finish := if how = .any then capability.reject else capability.resolve
    let next ← newCell (some (.int 0))
    Iterate.forEach env (c.arg 0) fun v => do
      let place ← match ← cell next with
        | some (.int n) => pure n
        | _ => pure 0
      let promise ← env.call toPromise c.this #[v]
      let data := #[.bool false, .int place, .object values, finish, counter]
      let element ← Function.newInternal (.element how.number) data 1
      let (onFulfilled, onRejected) ← match how with
        | .all => pure (element, capability.reject)
        | .allSettled => do
          let other ← Function.newInternal (.element (how.number + rejectedNumber)) data 1
          pure (element, other)
        | .any => do
          defineStrict env values (.ofNat place.toNat) .undefined
          pure (capability.resolve, element)
      let _ ← count counter 1
      let _ ← invokeNamed env promise "then" #[onFulfilled, onRejected]
      setCell next (some (.int (place + 1)))
    if ← count counter (-1) then
      let result ← if how = .any then aggregate (.object values) else pure (.object values)
      let _ ← env.call finish .undefined #[result]

def race : Native σ := fun env c => do
  let _ ← mustBeObject c.this
  let capability ← Promise.newCapability env c.this
  guarded env capability do
    let toPromise ← resolver env c.this
    Iterate.forEach env (c.arg 0) fun v => do
      let promise ← env.call toPromise c.this #[v]
      let _ ← invokeNamed env promise "then" #[capability.resolve, capability.reject]

def table : List (Builtin σ) :=
  let static := Owner.intrinsic (.constructor "Promise")
  let proto := Owner.intrinsic .promisePrototype
  [constructor "Promise" 1 .promisePrototype construct,
    method static "resolve" 1 resolve,
    method static "reject" 1 reject,
    method static "all" 1 (combine .all),
    method static "allSettled" 1 (combine .allSettled),
    method static "any" 1 (combine .any),
    method static "withResolvers" 0 withResolvers,
    method static "race" 1 race,
    symbolGetter static .species speciesGetter,
    method proto "then" 2 then_,
    method proto "catch" 1 catch_,
    method proto "finally" 1 finally_]

end PluginRelay.Script.Builtin.PromiseFunctions
