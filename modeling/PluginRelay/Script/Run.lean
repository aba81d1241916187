import PluginRelay.Script.Promise
import PluginRelay.Script.Step

/-!
# Running functions

A frame runs until it returns or is suspended. An exception goes to the nearest handler of the frame, and
out of the frame if there is none.
-/
namespace PluginRelay.Script

open Script.Action Script.Access Script.Convert
open Evolution (attempt update)

variable {σ : Type} [Evolving σ]

/-- No run takes more instructions than this. -/
def stepLimit : Nat := 1 <<< 60

namespace Frame

/-- Goes on at the handler for an exception. -/
def unwind? (f : Frame) (e : Value) : Option Frame :=
  match f.handlers with
  | (label, stack) :: rest => some { f.jumpTo label (e :: stack) with handlers := rest }
  | [] => none

def activation (f : Frame) : Activation := ⟨f.function, some f.code.file, none, f.code.lastPlace⟩

end Frame

/-- Gives an error that has no trace yet the trace of the functions that are running. -/
def noteTrace (place : Position) (e : Value) : Action σ Unit := do
  match e with
  | .object id =>
    let o ← object id
    match o.payload with
    | .error =>
      if (o.find? stackKey).isNone then
        markPlace place
        addTrace id "" 0
    | _ => return
  | _ => return

/-- The loop of a frame that runs until it leaves off. -/
def runFrom (env : Env σ) : (fuel : Nat) → Frame → Machine σ → Ending Value σ Outcome
  | 0, _, m => (throwKind .internalError "interrupted" : Action σ Outcome).run m
  | fuel + 1, f, m =>
    match (step env f).run m with
    | .ok (.next g) m => runFrom env fuel g m
    | .ok (.left outcome) m => .ok outcome m
    | .error e m =>
      match (noteTrace f.place e).run m with
      | .ok _ m =>
        match f.unwind? e with
        | some g => runFrom env fuel g m
        | none => .error e m
      | .error e m => .error e m

theorem runFrom_evolves (env : Env σ) (fuel : Nat) (f : Frame) (m : Machine σ) :
    Evolves m.host (runFrom env fuel f m).machine.host := by
  induction fuel generalizing f m with
  | zero => exact Evolution.evolves _ m
  | succ fuel ih =>
    have hstep := (step env f).evolves m
    rw [runFrom]
    split <;> rename_i heq <;> rw [heq] at hstep
    · exact Evolving.trans hstep (ih _ _)
    · exact hstep
    · next e m =>
      have hnote := Evolving.trans hstep ((noteTrace f.place e).evolves m)
      split <;> rename_i heq <;> rw [heq] at hnote
      · split
        · exact Evolving.trans hnote (ih _ _)
        · exact hnote
      · exact hnote

/-- Runs a frame until it leaves off. -/
def run (env : Env σ) (fuel : Nat) (f : Frame) : Action σ Outcome :=
  ⟨runFrom env fuel f, runFrom_evolves env fuel f⟩

/-- Runs a frame on after an exception at the place where it was suspended. -/
def raise (env : Env σ) (f : Frame) (e : Value) : Action σ Outcome := do
  noteTrace f.place e
  match f.unwind? e with
  | some g => run env stepLimit g
  | none => throw e

/-! ### Entering functions -/

/-- The arguments of a call, as an object. -/
def newArguments (f : Value) (args : Array Value) (strict : Bool) : Action σ Value := do
  let id ← newObject .objectPrototype .arguments
  for (v, i) in args.toList.zipIdx do putProperty id (.index i) (.plain v)
  putProperty id lengthKey (.hidden (.ofNat args.size))
  putProperty id WellKnown.iterator.key (.hidden (.object (← intrinsic .arrayValues)))
  if strict then
    let thrower := Value.object (← intrinsic .throwTypeError)
    putProperty id (named "callee") ⟨.accessor thrower thrower, false, false, false⟩
  else putProperty id (named "callee") (.hidden f)
  return .object id

/-- What `this` is in code that is not strict: always an object. -/
def looseThis (this : Value) : Action σ Value := do
  if this.isNullish then return .object (← globalObject) else return .object (← toObject this)

/-- The frame of a call, with cells for the variables of the function. `this` is missing where it is still
to be bound. -/
def newFrame (id : ObjectId) (c : Closure) (this : Option Value) (args : Array Value)
    (newTarget : Value) : Action σ Frame := do
  let code := c.code
  let first := (← read).cells.size
  update fun m => { m with cells := m.cells ++ Array.replicate code.slotCount (some Value.undefined) }
  let slots := (Array.range code.slotCount).map (first + ·)
  for (which, i) in code.pseudos do
    let v ← match which with
      | .this =>
        match this with
        | some v => if code.strict then pure (some v) else do pure (some (← looseThis v))
        | none => pure none
      | .newTarget => pure (some newTarget)
      | .home => pure (some c.home)
      | .function => pure (some (.object id))
      | .arguments => do pure (some (← newArguments (.object id) args code.strict))
    setCell (first + i) v
  return ⟨c.codes, code, 0, [], slots, c.captured, [], .object id, args⟩

/-! ### Asynchronous functions -/

/-- Takes up the outcome of a part of an asynchronous function. -/
def routineLeft (env : Env σ) (routine : ObjectId) (c : Capability)
    (outcome : Except Value Outcome) : Action σ Unit := do
  match outcome with
  | .ok (.awaiting v frame) =>
    setPayload routine (.routine (.waiting frame) c)
    let onFulfilled ← Function.newInternal (.resume false) #[.object routine] 1
    let onRejected ← Function.newInternal (.resume true) #[.object routine] 1
    match ← attempt (Promise.awaitWith env v onFulfilled onRejected) with
    | .ok _ => return
    | .error e =>
      let _ ← env.call onRejected .undefined #[e]
      return
  | .ok (.returned v) | .ok (.yielded v _) =>
    setPayload routine (.routine .finished c)
    let _ ← env.call c.resolve .undefined #[v]
    return
  | .ok (.started _) => return
  | .error e =>
    setPayload routine (.routine .finished c)
    let _ ← env.call c.reject .undefined #[e]
    return

/-- Lets an asynchronous function go on with the outcome that it has waited for. -/
def resumeRoutine (env : Env σ) (routine : ObjectId) (rejected : Bool) (v : Value) :
    Action σ Unit := do
  match ← payload routine with
  | .routine (.waiting frame) c =>
    setPayload routine (.routine .running c)
    let outcome ← framed frame.activation (← read).realm <| attempt <|
      if rejected then raise env frame v
      else run env stepLimit { frame with stack := v :: frame.stack }
    routineLeft env routine c outcome
  | _ => return

/-! ### Generators -/

/-- A frame that is resumed where it yielded: with a value, and what to do with it. -/
def resumedFrame (frame : Frame) (mode : Resumption) (v : Value) : Frame :=
  let n : Int := match mode with
    | .next => 0
    | .throw => 1
    | .return => 2
  { frame with stack := .int n :: v :: frame.stack }

/-- Asks a generator for its next result. -/
def resumeGenerator (env : Env σ) (id : ObjectId) (mode : Resumption) (v : Value) :
    Action σ Value := do
  let go (frame : Frame) : Action σ Value := do
    setPayload id (.generator .running)
    match ← framed frame.activation (← read).realm (attempt (run env stepLimit frame)) with
    | .ok (.yielded v frame) =>
      setPayload id (.generator (.atYield frame))
      Iterate.newResult v false
    | .ok (.returned v) =>
      setPayload id (.generator .finished)
      Iterate.newResult v true
    | .ok _ =>
      setPayload id (.generator .finished)
      Iterate.newResult .undefined true
    | .error e =>
      setPayload id (.generator .finished)
      throw e
  match ← payload id with
  | .generator .running => throwType "cannot invoke a running generator"
  | .generator (.atYield frame) => go (resumedFrame frame mode v)
  | .generator state =>
    match mode, state with
    | .next, .atStart frame => go frame
    | .next, _ => Iterate.newResult .undefined true
    | .return, _ =>
      setPayload id (.generator .finished)
      Iterate.newResult v true
    | .throw, _ =>
      setPayload id (.generator .finished)
      throw v
  | _ => throwType "not a generator"

/-! ### Asynchronous generators -/

def setAsyncState (id : ObjectId) (state : Suspension) : Action σ Unit := do
  match ← payload id with
  | .asyncGenerator _ queue => setPayload id (.asyncGenerator state queue)
  | _ => return

/-- Answers the first request to an asynchronous generator. -/
def answer (env : Env σ) (id : ObjectId) (outcome : Except Value (Value × Bool)) : Action σ Unit := do
  match ← payload id with
  | .asyncGenerator state (request :: rest) =>
    setPayload id (.asyncGenerator state rest)
    match outcome with
    | .ok (v, isDone) =>
      let result ← Iterate.newResult v isDone
      let _ ← env.call request.capability.resolve .undefined #[result]
      return
    | .error e =>
      let _ ← env.call request.capability.reject .undefined #[e]
      return
  | _ => return

/-- Lets the generator be resumed when a value is there. -/
def awaitInGenerator (env : Env σ) (id : ObjectId) (v : Value) : Action σ Unit := do
  let onFulfilled ← Function.newInternal (.resumeGenerator false) #[.object id] 1
  let onRejected ← Function.newInternal (.resumeGenerator true) #[.object id] 1
  match ← attempt (Promise.awaitWith env v onFulfilled onRejected) with
  | .ok _ => return
  | .error e => enqueue (.react ⟨none, onFulfilled, onRejected⟩ true e (← read).realm)

/-- Takes up the outcome of a part of an asynchronous generator; `true` if it has answered a request. -/
def asyncLeft (env : Env σ) (id : ObjectId) (outcome : Except Value Outcome) : Action σ Bool := do
  match outcome with
  | .ok (.awaiting v frame) =>
    setAsyncState id (.waiting frame)
    awaitInGenerator env id v
    return false
  | .ok (.yielded v frame) =>
    setAsyncState id (.atYield frame)
    answer env id (.ok (v, false))
    return true
  | .ok (.returned v) =>
    setAsyncState id .finished
    answer env id (.ok (v, true))
    return true
  | .ok (.started frame) =>
    setAsyncState id (.atStart frame)
    return false
  | .error e =>
    setAsyncState id .finished
    answer env id (.error e)
    return true

def runAsync (env : Env σ) (id : ObjectId) (frame : Frame) (action : Action σ Outcome) :
    Action σ Bool := do
  setAsyncState id .running
  let outcome ← framed frame.activation (← read).realm (attempt action)
  asyncLeft env id outcome

/-- Works on the requests to an asynchronous generator, as long as it does not wait. -/
def drain (env : Env σ) (id : ObjectId) : (fuel : Nat) → Action σ Unit
  | 0 => return
  | fuel + 1 => do
    match ← payload id with
    | .asyncGenerator state (request :: _) =>
      match state, request.mode with
      | .running, _ | .waiting _, _ => return
      | .atYield frame, mode =>
        let frame := resumedFrame frame mode request.value
        if ← runAsync env id frame (run env stepLimit frame) then drain env id fuel
      | .atStart frame, .next =>
        if ← runAsync env id frame (run env stepLimit frame) then drain env id fuel
      | .finished, .next =>
        answer env id (.ok (.undefined, true))
        drain env id fuel
      | _, .throw =>
        setAsyncState id .finished
        answer env id (.error request.value)
        drain env id fuel
      | _, .return =>
        setAsyncState id .running
        awaitInGenerator env id request.value
    | _ => return

/-- How many requests there are at most. -/
def queueBound (id : ObjectId) : Action σ Nat := do
  match ← payload id with
  | .asyncGenerator _ queue => return queue.length + 1
  | _ => return 0

def drainAll (env : Env σ) (id : ObjectId) : Action σ Unit := do drain env id (← queueBound id)

/-- Lets an asynchronous generator go on with the outcome that it has waited for. -/
def resumeAsync (env : Env σ) (id : ObjectId) (rejected : Bool) (v : Value) : Action σ Unit := do
  match ← payload id with
  | .asyncGenerator (.waiting frame) _ =>
    let action := if rejected then raise env frame v
      else run env stepLimit { frame with stack := v :: frame.stack }
    if ← runAsync env id frame action then drainAll env id
  | .asyncGenerator .running _ =>
    setAsyncState id .finished
    answer env id (if rejected then .error v else .ok (v, true))
    drainAll env id
  | _ => return

/-- Asks an asynchronous generator for its next result; gives a promise for it. -/
def requestNext (env : Env σ) (this : Value) (mode : Resumption) (v : Value) : Action σ Value := do
  let c ← Promise.ownCapability
  match this with
  | .object id =>
    match ← payload id with
    | .asyncGenerator state queue =>
      setPayload id (.asyncGenerator state (queue ++ [⟨mode, v, c⟩]))
      drainAll env id
      return c.promise
    | _ => pure ()
  | _ => pure ()
  let e ← newError .typeError (Units.ofString "not an AsyncGenerator object")
  addTrace e "" 0
  let _ ← env.call c.reject .undefined #[.object e]
  return c.promise

/-! ### Calls -/

/-- The object that a function that makes generators gives them as prototype. -/
def generatorPrototype (env : Env σ) (id : ObjectId) (default : Intrinsic) : Action σ ObjectId := do
  match ← Access.get env id prototypeKey (.object id) with
  | .object proto => return proto
  | _ => intrinsic default

/-- Runs the code of a function from its start. -/
def enter (env : Env σ) (id : ObjectId) (c : Closure) (this : Option Value) (args : Array Value)
    (newTarget : Value) : Action σ Value := do
  let frame ← newFrame id c this args newTarget
  if c.code.isAsync && !c.code.isGenerator then
    let capability ← Promise.ownCapability
    let routine ← allocate (.new none (.routine .running capability))
    routineLeft env routine capability (← attempt (run env stepLimit frame))
    return capability.promise
  else
    match ← run env stepLimit frame with
    | .returned v => return v
    | .started frame =>
      if c.code.isAsync then
        let proto ← generatorPrototype env id .asyncGeneratorPrototype
        return .object (← allocate (.new (some proto) (.asyncGenerator (.atStart frame) [])))
      else
        let proto ← generatorPrototype env id .generatorPrototype
        return .object (← allocate (.new (some proto) (.generator (.atStart frame))))
    | .yielded v _ | .awaiting v _ => return v

def closureActivation (id : ObjectId) (c : Closure) : Activation :=
  ⟨.object id, some c.code.file, none, c.code.lastPlace⟩

def isClass (c : Closure) : Bool :=
  match c.code.kind with
  | .constructor | .derivedConstructor => true
  | _ => false

def callClosure (env : Env σ) (id : ObjectId) (c : Closure) (this : Value) (args : Array Value) :
    Action σ Value :=
  framed (closureActivation id c) c.realm do
    if isClass c then
      markPlace c.code.start
      let e ← newError .typeError (Units.ofString "class constructors must be invoked with 'new'")
      addTrace e "" 0
      throw (.object e)
    enter env id c (some this) args .undefined

def constructClosure (env : Env σ) (id : ObjectId) (c : Closure) (args : Array Value)
    (newTarget : Value) : Action σ Value := do
  if c.code.kind = .derivedConstructor then
    framed (closureActivation id c) c.realm (enter env id c none args newTarget)
  else
    let proto ← Function.prototypeFrom env newTarget .objectPrototype
    let this := Value.object (← allocate (.new (some proto) .ordinary))
    let result ← framed (closureActivation id c) c.realm do
      Step.addFields env this (.object id)
      enter env id c (some this) args newTarget
    return if result.isObject then result else this

/-! ### Proxies -/

def callProxy (env : Env σ) (parts : Option (ObjectId × ObjectId)) (this : Value) (args : Array Value) :
    Action σ Value := do
  let (target, handler, f) ← trap env parts "apply"
  match f with
  | none => env.call (.object target) this args
  | some f =>
    let list ← newArray args.toList
    env.call f handler #[.object target, this, .object list]

def constructProxy (env : Env σ) (parts : Option (ObjectId × ObjectId)) (args : Array Value)
    (newTarget : Value) : Action σ Value := do
  let (target, handler, f) ← trap env parts "construct"
  match f with
  | none => env.construct (.object target) args newTarget
  | some f =>
    let list ← newArray args.toList
    let result ← env.call f handler #[.object target, .object list, newTarget]
    if !result.isObject then throwType "not an object"
    return result

end PluginRelay.Script
