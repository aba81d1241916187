import PluginRelay.Script.Function

/-!
# Iteration

Iterators are asked for one result after the other, and are told when no more is wanted.
-/
namespace PluginRelay.Script.Iterate

open Script.Action Script.Access Script.Convert
open Evolution (attempt)

variable {σ : Type} [Evolving σ]

/-- The iterator of a value, and its method for the next result. -/
def start (env : Env σ) (source : Value) : Action σ (Value × Value) := do
  let f ← getMember env source WellKnown.iterator.key
  if !(← isCallable f) then throwType "value is not iterable"
  let iterator ← env.call f source #[]
  if !iterator.isObject then throwType "not an object"
  return (iterator, ← getMember env iterator (named "next"))

/-- The iterator of a value for asynchronous loops; a plain one is wrapped. -/
def startAsync (env : Env σ) (source : Value) : Action σ (Value × Value) := do
  match ← getMethod env source WellKnown.asyncIterator.key with
  | some f =>
    let iterator ← env.call f source #[]
    if !iterator.isObject then throwType "not an object"
    return (iterator, ← getMember env iterator (named "next"))
  | none =>
    let (iterator, next) ← start env source
    let wrapper ← newObject .asyncFromSyncPrototype (.asyncFromSync iterator next)
    return (.object wrapper, ← getMember env (.object wrapper) (named "next"))

/-- What a result of an iterator holds: a value, or nothing at the end. -/
def unpack (env : Env σ) (result : Value) : Action σ (Option Value) := do
  if !result.isObject then throwType "iterator must return an object"
  if truthy (← getMember env result (named "done")) then return none
  return some (← getMember env result (named "value"))

def advance (env : Env σ) (iterator next : Value) : Action σ (Option Value) := do
  unpack env (← env.advance iterator next)

/-- Tells an iterator that no more is wanted. -/
def close (env : Env σ) (iterator : Value) : Action σ Unit := do
  match ← getMethod env iterator (named "return") with
  | some f =>
    let result ← env.call f iterator #[]
    if !result.isObject then throwType "not an object"
  | none => return

def closeQuietly (env : Env σ) (iterator : Value) : Action σ Unit := do
  let _ ← attempt (close env iterator)

/-- Works on each result in turn; the iterator is closed if the work fails. -/
def forEach (env : Env σ) (source : Value) (work : Value → Action σ Unit) : Action σ Unit := do
  let (iterator, next) ← start env source
  let rec go (fuel : Nat) : Action σ Unit := do
    match fuel with
    | 0 => throwRange "too many elements"
    | fuel + 1 =>
      match ← advance env iterator next with
      | none => return
      | some v =>
        match ← attempt (work v) with
        | .ok _ => go fuel
        | .error e =>
          closeQuietly env iterator
          throw e
  go (1 <<< 53)

/-- All results as a list. -/
def toList (env : Env σ) (source : Value) : Action σ (List Value) := do
  let (iterator, next) ← start env source
  let rec go (fuel : Nat) (items : List Value) : Action σ (List Value) := do
    match fuel with
    | 0 => throwRange "too many elements"
    | fuel + 1 =>
      match ← advance env iterator next with
      | none => return items.reverse
      | some v => go fuel (v :: items)
  go (1 <<< 53) []

/-- A result of an iterator. -/
def newResult (v : Value) (isDone : Bool) : Action σ Value := do
  let id ← newPlain
  putProperty id (named "value") (.plain v)
  putProperty id (named "done") (.plain (.bool isDone))
  return .object id

/-! ### Keys -/

/-- The keys of an object and its prototypes that a loop over keys visits. -/
def keysFrom (env : Env σ) : (fuel : Nat) → Option ObjectId → (seen : List PropertyKey) →
    Action σ (List PropertyKey)
  | 0, _, _ => return []
  | _, none, _ => return []
  | fuel + 1, some id, seen => do
    let mut found : List PropertyKey := []
    let mut seen := seen
    for key in ← Access.ownKeys env id do
      if !key.isSymbol && !seen.contains key then
        match ← Access.getOwn env id key with
        | some p =>
          seen := key :: seen
          if p.enumerable then found := found ++ [key]
        | none => continue
    return found ++ (← keysFrom env fuel (← Access.getPrototype env id) seen)

/-- What a loop over the keys of a value goes through. -/
def enumerate (env : Env σ) (v : Value) : Action σ Value := do
  if v.isNullish then
    return .object (← newObject .objectPrototype (.enumeration .undefined []))
  let id ← toObject v
  let keys ← keysFrom env (← chainBound) (some id) []
  return .object (← newObject .objectPrototype (.enumeration (.object id) keys))

/-- The next key that is still there. -/
def nextKey (env : Env σ) (enumeration : ObjectId) (target : Value) :
    List PropertyKey → Action σ (Option Value)
  | [] => do
    setPayload enumeration (.enumeration target [])
    return none
  | key :: rest => do
    match target with
    | .object id =>
      if ← Access.has env id key then
        setPayload enumeration (.enumeration target rest)
        return some key.toValue
      else nextKey env enumeration target rest
    | _ => return none

end PluginRelay.Script.Iterate
