import PluginRelay.Script.Builtin.Regexp

/-!
# Iterators and generators

The objects that loops ask for one value after the other.
-/
namespace PluginRelay.Script.Builtin.IteratorFunctions

open Script.Action Script.Access Script.Convert
open Evolution (attempt)

variable {σ : Type} [Evolving σ]

def finished : Action σ Value := Iterate.newResult .undefined true

def item (v : Value) : Action σ Value := Iterate.newResult v false

/-- The value that an iteration gives for an index or key. -/
def select (kind : Iteration) (key v : Value) : Action σ Value := do
  match kind with
  | .keys => return key
  | .values => return v
  | .entries => return .object (← newArray [key, v])

/-! ### Lists -/

def listLength (env : Env σ) (id : ObjectId) : Action σ Nat := do
  match ← payload id with
  | .typedArray _ _ _ length => return length
  | _ => lengthOf env id

def arrayNext : Native σ := fun env c => do
  match c.this with
  | .object id =>
    match ← payload id with
    | .arrayIterator (.object target) i kind =>
      if i < (← listLength env target) then
        setPayload id (.arrayIterator (.object target) (i + 1) kind)
        match kind with
        | .keys => item (.ofNat i)
        | _ =>
          let v ← Access.get env target (.ofNat i) (.object target)
          item (← select kind (.ofNat i) v)
      else
        setPayload id (.arrayIterator .undefined i kind)
        finished
    | .arrayIterator _ _ _ => finished
    | _ => expected "Array Iterator"
  | _ => expected "Array Iterator"

/-! ### Texts -/

def stringNext : Native σ := fun _ c => do
  match c.this with
  | .object id =>
    match ← payload id with
    | .stringIterator s i =>
      match Units.codePointsOf (s.slice i (i + 2)).toList with
      | [] => finished
      | n :: _ =>
        let part := (Units.ofCodePoint n).toArray
        setPayload id (.stringIterator s (i + part.size))
        item (.text part)
    | _ => expected "String Iterator"
  | _ => expected "String Iterator"

/-! ### Maps and sets -/

/-- The first entry at or after a place, and the place after it. -/
def nextEntry (t : Table) : (count : Nat) → (i : Nat) → Option (Nat × Value × Value)
  | 0, _ => none
  | count + 1, i =>
    match t.entries[i]? with
    | some (some (k, v)) => some (i + 1, k, v)
    | some none => nextEntry t count (i + 1)
    | none => none

def tableOf (v : Value) : Action σ (Option Table) := do
  match v with
  | .object id =>
    match ← payload id with
    | .map t _ | .set t _ => return some t
    | _ => return none
  | _ => return none

def tableNext (isMap : Bool) : Native σ := fun _ c => do
  let name := if isMap then "Map Iterator" else "Set Iterator"
  match c.this with
  | .object id =>
    match ← payload id with
    | .tableIterator target i kind ofMap =>
      if ofMap ≠ isMap then expected name
      else
        match ← tableOf target with
        | none => finished
        | some t =>
          match nextEntry t (t.entries.size - i) i with
          | some (j, k, v) =>
            setPayload id (.tableIterator target j kind ofMap)
            item (← select kind k (if isMap then v else k))
          | none =>
            setPayload id (.tableIterator .undefined i kind ofMap)
            finished
    | _ => expected name
  | _ => expected name

/-! ### Matches -/

def regexpNext : Native σ := fun env c => do
  match c.this with
  | .object id =>
    match ← payload id with
    | .regexpIterator matcher text isGlobal isUnicode isDone =>
      let leave : Action σ Unit := setPayload id (.regexpIterator matcher text isGlobal isUnicode true)
      if isDone then finished
      else
        match ← RegexpFunctions.execute env matcher (.string text) with
        | .null =>
          leave
          finished
        | found =>
          if isGlobal then
            let part ← toUnits env (← getMember env found (.index 0))
            if part.isEmpty then RegexpFunctions.passEmpty env matcher text.units isUnicode
          else leave
          item found
    | _ => expected "RegExp String Iterator"
  | _ => expected "RegExp String Iterator"

/-! ### Generators -/

def generatorStep (mode : Resumption) : Native σ := fun env c => do
  match c.this with
  | .object id => resumeGenerator env id mode (c.arg 0)
  | _ => throwType "not a generator"

def asyncGeneratorStep (mode : Resumption) : Native σ := fun env c =>
  requestNext env c.this mode (c.arg 0)

/-- The method of a plain iterator that an asynchronous one stands for. -/
def syncMethod (env : Env σ) (iterator next : Value) (mode : Resumption) : Action σ (Option Value) := do
  let method (name : String) : Action σ (Option Value) := do
    let f ← getMember env iterator (named name)
    return if f.isNullish then none else some f
  match mode with
  | .next => return some next
  | .throw => method "throw"
  | .return => method "return"

/-- A step of a plain iterator in an asynchronous loop: its value is waited for. -/
def fromSync (mode : Resumption) : Native σ := fun env c => do
  let capability ← Promise.ownCapability
  let outcome ← attempt do
    match c.this with
    | .object id =>
      match ← payload id with
      | .asyncFromSync iterator next =>
        match ← syncMethod env iterator next mode, mode with
        | none, .throw => throw (c.arg 0)
        | none, _ =>
          let result ← Iterate.newResult (c.arg 0) true
          let _ ← env.call capability.resolve .undefined #[result]
          return ()
        | some f, _ =>
          let result ← if f = next then env.advance iterator next
            else env.call f iterator (c.arguments.extract 0 1)
          if !result.isObject then throwType "iterator must return an object"
          let isDone := truthy (← getMember env result (named "done"))
          let v ← getMember env result (named "value")
          let builtin ← intrinsic (.constructor "Promise")
          match ← Promise.ofValue env (.object builtin) v with
          | .object promise =>
            let unwrap ← Function.newInternal .unwrapped #[.bool isDone] 1
            Promise.addReaction promise ⟨some capability, unwrap, .undefined⟩
          | _ => return ()
      | _ => throwType "not an Async-from-Sync Iterator"
    | _ => throwType "not an Async-from-Sync Iterator"
  match outcome with
  | .ok _ => return capability.promise
  | .error e =>
    let _ ← env.call capability.reject .undefined #[e]
    return capability.promise

def table : List (Builtin σ) :=
  let steps (make : String → Resumption → Builtin σ) : List (Builtin σ) :=
    [make "next" .next, make "return" .return, make "throw" .throw]
  let own (i : Intrinsic) := Owner.intrinsic i
  [symbolMethod (own .iteratorPrototype) .iterator 0 speciesGetter,
    symbolMethod (own .asyncIteratorPrototype) .asyncIterator 0 speciesGetter,
    step (own .arrayIteratorPrototype) "next" 0 arrayNext,
    step (own .stringIteratorPrototype) "next" 0 stringNext,
    step (own .mapIteratorPrototype) "next" 0 (tableNext true),
    step (own .setIteratorPrototype) "next" 0 (tableNext false),
    step (own .regexpIteratorPrototype) "next" 0 regexpNext] ++
    steps (fun name mode =>
      step (own .generatorPrototype) name 1 (generatorStep mode)) ++
    steps (fun name mode =>
      method (own .asyncGeneratorPrototype) name 1 (asyncGeneratorStep mode)) ++
    steps (fun name mode =>
      method (own .asyncFromSyncPrototype) name 1 (fromSync mode))

end PluginRelay.Script.Builtin.IteratorFunctions
