import PluginRelay.Embedding.Property

/-!
# Functions of the host program

Scripts call functions of the host program. A function answers with a value, fails, or panics. A failure
that is an exception the context still keeps goes on as that very value; every other failure becomes an
`InternalError` with its message.
-/
namespace PluginRelay.Embedding

open Script

variable {κ τ ε : Type} [Holding τ]

/-- How a function ends that does not fail. -/
inductive Answer where
  /-- The function gives up a value. -/
  | value (h : Handle)
  /-- The function broke off; the message is missing if it is no text. -/
  | panic (message : Option String)
  deriving Repr, Inhabited

/-- What a function gives up with its answer. -/
def Answer.handles : Answer → List Handle
  | value h => [h]
  | panic _ => []

/-- A call of a function: the context of the caller, `this` and the arguments. -/
structure Invocation where
  context : ContextId
  function : FunctionId
  this : Handle
  arguments : List Handle
  deriving Inhabited

namespace Invocation

def ofCall (context : ContextId) (function : FunctionId) (call : Call) : Invocation :=
  ⟨context, function, ⟨context, call.this⟩, call.arguments.toList.map (⟨context, ·⟩)⟩

/-- What the program has while the function runs. -/
def handles (i : Invocation) : List Handle := i.this :: i.arguments

/-- An argument; missing ones are `undefined`. -/
def argument (i : Invocation) (n : Nat) : Given :=
  match i.arguments[n]? with
  | some h => .lent h
  | none => .primitive .undefined

end Invocation

/-- What the functions do that the program adds. They are only lent `this` and the arguments, and all that
they get themselves they give up with their answer or put into the program's state. -/
structure Respond (κ τ : Type) [Holding τ] where
  run : κ → Invocation → Operation κ τ Answer
  keeps : ∀ code i, (run code i).Keeps [] Answer.handles

namespace Operation

/-! ### Writing lines -/

def stream (id : StreamId) : Operation κ τ Stream :=
  return ((← world).streams[id]?).getD ⟨"", some "closed"⟩

theorem stream_sure (id : StreamId) : (stream id : Operation κ τ Stream).Sure [] fun _ => [] := by
  unfold stream
  exact Task.Sure.bind world_sure fun _ => .pure rfl

/-- Writes to a stream. An empty text is never too much. -/
def write (id : StreamId) (text : String) : Operation κ τ Unit := do
  if text.isEmpty then return
  match (← stream id).fault with
  | some fault => throw (.refused ("console: " ++ fault))
  | none => modifyWorld (·.print id text) fun w => w.evolves_print id text

theorem write_keeps (id : StreamId) (text : String) : (write id text : Operation κ τ Unit).Keeps [] fun _ => [] := by
  unfold write
  split
  · exact .pure rfl
  · refine Task.Keeps.bind (stream_sure id).keeps fun s => ?_
    split
    · exact .throw _
    · exact Task.Sure.keeps (modifyWorld_sure_of_eq (fun _ => rfl) fun _ => rfl)

/-- Writes values with blanks between them. -/
def writeWords (id : StreamId) : List Handle → Operation κ τ Unit
  | [] => return
  | [h] => do write id (← lossyText h)
  | h :: rest => do
    write id (← lossyText h)
    write id " "
    writeWords id rest

theorem writeWords_keeps (id : StreamId) (values : List Handle) :
    (writeWords id values : Operation κ τ Unit).Keeps [] fun _ => [] := by
  induction values using writeWords.induct with
  | case1 => exact .pure rfl
  | case2 h => exact Task.Keeps.bind (lossyText_sure h).keeps fun _ => write_keeps id _
  | case3 h rest hrest ih =>
    rw [writeWords.eq_3 id h rest hrest]
    refine Task.Keeps.bind (lossyText_sure h).keeps fun _ => ?_
    refine Task.Keeps.bind (write_keeps id _) fun _ => ?_
    exact Task.Keeps.bind (write_keeps id _) fun _ => ih

/-- Writes values and ends the line. -/
def writeLine (id : StreamId) (values : List Handle) : Operation κ τ Unit := do
  writeWords id values
  write id "\n"

theorem writeLine_keeps (id : StreamId) (values : List Handle) :
    (writeLine id values : Operation κ τ Unit).Keeps [] fun _ => [] :=
  Task.Keeps.bind (writeWords_keeps id values) fun _ => write_keeps id _

/-- Does something while a function is in the middle of writing. -/
def marking {α : Type} (f : FunctionId) (t : Task ε κ τ α) : Task ε κ τ α := fun env =>
  { run := fun m =>
      match t env { m with host := m.host.mark f } with
      | .ok x m => .ok x { m with host := m.host.unmark f }
      | .error e m => .error e { m with host := m.host.unmark f }
    evolves := fun m => by
      have h := (t env).evolves { m with host := m.host.mark f }
      split <;> rename_i heq <;> rw [heq] at h <;> exact World.evolves_marked h }

theorem marking_keeps {α : Type} {f : FunctionId} {t : Task ε κ τ α} {takes : List Handle} {gives : α → List Handle}
    (h : t.Keeps takes gives) : (marking f t).Keeps takes gives := by
  refine ⟨fun env m others htidy => ?_⟩
  have hrun := h.run env { m with host := m.host.mark f } others htidy
  simp only [marking]
  cases hr : t env { m with host := m.host.mark f } with
  | ok x m' =>
    rw [hr] at hrun
    exact hrun.of_eq rfl rfl
  | error e m' =>
    rw [hr] at hrun
    exact hrun.of_eq rfl rfl

/-- A function that writes cannot be called again until it is done. -/
def writeCall (id : StreamId) (i : Invocation) : Operation κ τ Answer := do
  if (← world).writing.contains i.function then return .panic (some "RefCell already borrowed")
  marking i.function (writeLine id i.arguments)
  return .value (← ofPrimitive i.context .undefined)

theorem writeCall_keeps (id : StreamId) (i : Invocation) :
    (writeCall id i : Operation κ τ Answer).Keeps [] Answer.handles := by
  unfold writeCall
  refine Task.Keeps.bind world_sure.keeps fun w => ?_
  split
  · exact .pure rfl
  · refine Task.Keeps.bind (marking_keeps (writeLine_keeps id i.arguments)) fun _ => ?_
    exact Task.Keeps.bind (ofPrimitive_keeps _ _) fun _ => .pure rfl

/-! ### Answering -/

def versionText : String := "0.1.0"

def runCode (respond : Respond κ τ) (code : HostCode κ) (i : Invocation) : Operation κ τ Answer := do
  match code with
  | .write id => writeCall id i
  | .version => return .value (← ofPrimitive i.context (.str versionText))
  | .custom c => respond.run c i

theorem runCode_keeps (respond : Respond κ τ) (code : HostCode κ) (i : Invocation) :
    (runCode respond code i).Keeps [] Answer.handles := by
  cases code with
  | write id => exact writeCall_keeps id i
  | version => exact Task.Keeps.bind (ofPrimitive_keeps _ _) fun _ => .pure rfl
  | custom c => exact respond.keeps c i

/-- Runs a function, and counts it among those that are running. -/
def runCounted (respond : Respond κ τ) (code : HostCode κ) (i : Invocation) :
    Task ε κ τ (Except Failure Answer) := do
  modifyWorld fun w => { w with depth := w.depth + 1 }
  let outcome ← attempt (runCode respond code i)
  modifyWorld fun w => { w with depth := w.depth - 1 }
  return outcome

theorem runCounted_sure (respond : Respond κ τ) (code : HostCode κ) (i : Invocation) :
    (runCounted respond code i : Task ε κ τ (Except Failure Answer)).Sure [] (givenBy Answer.handles) := by
  unfold runCounted
  refine Task.Sure.bind (modifyWorld_sure_of_eq (fun _ => rfl) fun _ => rfl) fun _ => ?_
  refine Task.Sure.bind (attempt_sure (runCode_keeps respond code i)) fun outcome => ?_
  refine Task.Sure.bind ?_ fun _ => .pure rfl
  exact modifyWorld_sure fun _ _ htidy => htidy.of_eq rfl rfl

end Operation

/-! ### Exceptions for scripts -/

namespace HostError

/-- Messages end after this many bytes. -/
def limit : Nat := 255

/-- A message without NULs. -/
def escaped (message : String) : String :=
  String.ofList (message.toList.flatMap fun c => if c = '\x00' then ['\\', '0'] else [c])

/-- A message as scripts see it: without NULs, cut, and with one character in place of a broken one at the
end. -/
def shown (message : String) : Units :=
  let cut := (Utf8.encode (escaped message)).take limit
  let whole := Utf8.validUpTo 0 0 cut
  let units := Units.ofString (Utf8.decodeLossy (cut.take whole))
  if whole < cut.length then units.push 0xFFFD else units

def panicMessage : Option String → String
  | some message => "panic in callback: " ++ message
  | none => "panic in callback"

def panicEvent (message : String) : Log.Event :=
  ⟨.error, .callback, "rust callback panicked", [("panic", message)]⟩

end HostError

/-- How a call ends for a script. -/
inductive Conclusion where
  | value (v : Value)
  | exception (v : Value)
  /-- A new error with a message. -/
  | error (message : String)
  deriving Repr, Inhabited

/-- What a script gets from the outcome of a function. Values and exceptions go over to the engine. -/
def conclude (id : ContextId) (outcome : Except Failure Answer) : Task ε κ τ Conclusion := do
  match outcome with
  | .ok (.value h) => return .value (← Operation.handOver h)
  | .ok (.panic message) =>
    let text := HostError.panicMessage message
    Operation.log (HostError.panicEvent text)
    return .error text
  | .error (.thrown e) =>
    match ← Operation.takeThrown id e with
    | some h => return .exception (← Operation.handOver h)
    | none => return .error e.message
  | .error f => return .error f.message

/-- Whatever the function has given up goes over to the engine. -/
theorem conclude_sure (id : ContextId) (outcome : Except Failure Answer) :
    (conclude id outcome : Task ε κ τ Conclusion).Sure (Operation.givenBy Answer.handles outcome) fun _ => [] := by
  cases outcome with
  | ok answer =>
    cases answer with
    | value h => exact Task.Sure.bind (Operation.handOver_sure h) fun _ => .pure rfl
    | panic message => exact Task.Sure.bind (Operation.log_sure _) fun _ => .pure rfl
  | error f =>
    cases f with
    | thrown e =>
      refine Task.Sure.bind (Operation.takeThrown_sure id e) fun kept => ?_
      cases kept with
      | some h => exact Task.Sure.bind (Operation.handOver_sure h) fun _ => .pure rfl
      | none => exact .pure rfl
    | _ => exact .pure rfl

/-- Runs a function, which has `this` and the arguments meanwhile. -/
def runHolding (respond : Respond κ τ) (code : HostCode κ) (i : Invocation) :
    Task ε κ τ (Except Failure Answer) := do
  i.handles.forM Operation.hold
  Operation.runCounted respond code i

theorem runHolding_sure (respond : Respond κ τ) (code : HostCode κ) (i : Invocation) :
    (runHolding respond code i : Task ε κ τ (Except Failure Answer)).Sure []
      fun outcome => Operation.givenBy Answer.handles outcome ++ i.handles :=
  Task.Sure.bind (Operation.forM_hold_sure i.handles) fun _ =>
    (Operation.runCounted_sure respond code i).frame i.handles

/-- Does something for a call of a script, which has a handle to its context meanwhile. -/
def calling {α : Type} (id : ContextId) (t : Task ε κ τ α) : Task ε κ τ α := fun env =>
  { run := fun m =>
      match t env { m with host := m.host.enterContext id } with
      | .ok x m => .ok x { m with host := m.host.leaveContext id }
      | .error e m => .error e { m with host := m.host.leaveContext id }
    evolves := fun m => by
      have h := (t env).evolves { m with host := m.host.enterContext id }
      split <;> rename_i heq <;> rw [heq] at h <;> exact World.evolves_call h }

theorem calling_sure {α : Type} {id : ContextId} {t : Task ε κ τ α} {takes : List Handle}
    {gives : α → List Handle} (h : t.Sure takes gives) : (calling id t).Sure takes gives := by
  intro env m others htidy
  obtain ⟨x, m', hrun, htidy'⟩ := h env { m with host := m.host.enterContext id } others htidy
  refine ⟨x, { m' with host := m'.host.leaveContext id }, ?_, htidy'.lessen id _⟩
  simp only [calling]
  rw [hrun]

/-- Runs a function of the program, and gives up what it has had. -/
def invoke (respond : Respond κ τ) (code : HostCode κ) (i : Invocation) : Task ε κ τ Conclusion :=
  calling i.context do
    let conclusion ← conclude i.context (← runHolding respond code i)
    i.handles.forM Operation.drop
    return conclusion

theorem invoke_sure (respond : Respond κ τ) (code : HostCode κ) (i : Invocation) :
    (invoke respond code i : Task ε κ τ Conclusion).Sure [] fun _ => [] := by
  refine calling_sure (Task.Sure.bind (runHolding_sure respond code i) fun outcome => ?_)
  refine Task.Sure.bind ((conclude_sure i.context outcome).frame i.handles) fun conclusion => ?_
  exact Task.Sure.bind (Operation.forM_drop_sure i.handles) fun _ => .pure rfl

/-- What the program does for the engine: nothing is left of it. -/
def serving {α : Type} {t : Task Value κ τ α} (h : t.Sure [] fun _ => []) (env : Env (World κ τ)) :
    Action (World κ τ) α where
  run := (t env).run
  evolves m := by
    refine ⟨(t env).evolves m, fun others htidy => ?_⟩
    obtain ⟨x, m', hrun, htidy'⟩ := h env m others htidy
    rw [hrun]
    exact htidy'

def throwMessage {α : Type} (message : String) : Action (World κ τ) α :=
  Action.throwUnits .internalError (HostError.shown message)

/-- The end of a call, as the engine sees it. -/
def Conclusion.act : Conclusion → Action (World κ τ) Value
  | .value v => return v
  | .exception v => throw v
  | .error message => throwMessage message

/-- A call from a script. Contexts that the program has given up cannot make it. -/
def answer (respond : Respond κ τ) : HostFunction (World κ τ) := fun env id call => do
  let m ← read
  if m.host.manages m.realm then
    match m.host.functions[id]? with
    | none => throwMessage "callback has been released"
    | some code => do (← serving (invoke_sure respond code (.ofCall m.realm id call)) env).act
  else throwMessage "callback invoked on an unmanaged context"

/-- The operations of an engine with the functions of a program. -/
def environment (respond : Respond κ τ) (config : Config) : Env (World κ τ) :=
  Level.operations ⟨Builtin.table, answer respond⟩
    (Engine.levelsFor (config.stackSize.getD Engine.defaultStackSize))

namespace Operation

/-- Makes a function object for a function of the program. -/
def newFunction (id : ContextId) (name : String) (code : HostCode κ) : Operation κ τ Handle := do
  let index := (← world).functions.size
  modifyWorld fun w => { w with functions := w.functions.push code }
  let name ← ofPrimitive id (.str name)
  settle
  let name ← handOver name
  performValue id fun _ => return .object (← Function.newHost index name)

theorem newFunction_keeps (id : ContextId) (name : String) (code : HostCode κ) :
    (newFunction id name code : Operation κ τ Handle).Keeps [] fun h => [h] := by
  unfold newFunction
  refine Task.Keeps.bind world_sure.keeps fun w => ?_
  refine Task.Keeps.bind (Task.Sure.keeps (modifyWorld_sure_of_eq (fun _ => rfl) fun _ => rfl)) fun _ => ?_
  refine Task.Keeps.bind (ofPrimitive_keeps _ _) fun name => ?_
  refine Task.Keeps.bind (settle_sure.frame [name]).keeps fun _ => ?_
  exact Task.Keeps.bind (handOver_sure name).keeps fun _ => performValue_keeps _ _

end Operation

end PluginRelay.Embedding
