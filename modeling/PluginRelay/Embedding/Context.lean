import PluginRelay.Embedding.Function

/-!
# Contexts

A context has globals of its own; contexts of one engine share everything else. Primed contexts get a
console and the version, as the configuration says.
-/
namespace PluginRelay.Embedding.Operation

open Script

variable {κ τ ε : Type} [Holding τ]

/-! ### Globals -/

def global (id : ContextId) : Task ε κ τ Handle := do
  match ← within id fun _ => Action.globalObject with
  | .ok o => receive id (.object o)
  | .error e => receive id e

theorem global_sure (id : ContextId) : (global id : Task ε κ τ Handle).Sure [] fun h => [h] := by
  unfold global
  refine Task.Sure.bind (within_sure _ _) fun result => ?_
  cases result with
  | ok o => exact receive_sure _ _
  | error e => exact receive_sure _ _

/-- Puts a value among the globals of a context. -/
def setGlobal (id : ContextId) (name : String) (g : Given) : Operation κ τ Unit := do
  let global ← global id
  thenDrop global (setProperty global name g)

theorem setGlobal_keeps (id : ContextId) (name : String) (g : Given) :
    (setGlobal id name g : Operation κ τ Unit).Keeps g.handles fun _ => [] := by
  unfold setGlobal
  exact Task.Keeps.bind ((global_sure id).frame g.handles).keeps fun global =>
    thenDrop_keeps (setProperty_keeps global name g)

/-- A stream that nothing has been written to. -/
def newStream (fault : Option String) : Operation κ τ StreamId := do
  let id := (← world).streams.size
  modifyWorld (·.addStream fault) fun w => w.evolves_addStream fault
  return id

/-- Sets a member to a new function. -/
def setFunction (target : Handle) (name : String) (code : HostCode κ) : Operation κ τ Unit := do
  setProperty target name (.moved (← newFunction target.context name code))

theorem setFunction_keeps (target : Handle) (name : String) (code : HostCode κ) :
    (setFunction target name code : Operation κ τ Unit).Keeps [] fun _ => [] := by
  unfold setFunction
  exact Task.Keeps.bind (newFunction_keeps _ name code) fun f => setProperty_keeps target name (.moved f)

/-- A `console` whose functions write to two streams, in place of the one before. -/
def registerConsole (id : ContextId) (out err : StreamId) : Operation κ τ Unit := do
  let console ← newObject id
  let console ← orDrop console do
    setFunction console "log" (.write out)
    setFunction console "error" (.write err)
  setGlobal id "console" (.moved console)

theorem registerConsole_keeps (id : ContextId) (out err : StreamId) :
    (registerConsole id out err : Operation κ τ Unit).Keeps [] fun _ => [] := by
  unfold registerConsole
  refine Task.Keeps.bind (newObject_keeps id) fun console => ?_
  refine Task.Keeps.bind (orDrop_keeps ?_) fun console => setGlobal_keeps id _ (.moved console)
  exact Task.Keeps.bind (setFunction_keeps console _ _) fun _ => setFunction_keeps console _ _

def registerVersion (id : ContextId) : Operation κ τ Unit := do
  setGlobal id "VERSION" (.primitive (.str versionText))
  setGlobal id "getVersion" (.moved (← newFunction id "getVersion" .version))

theorem registerVersion_keeps (id : ContextId) :
    (registerVersion id : Operation κ τ Unit).Keeps [] fun _ => [] := by
  unfold registerVersion
  refine Task.Keeps.bind (setGlobal_keeps id _ (.primitive _)) fun _ => ?_
  exact Task.Keeps.bind (newFunction_keeps id _ _) fun f => setGlobal_keeps id _ (.moved f)

/-! ### Making contexts -/

def addContext : Task ε κ τ Unit := modifyWorld World.addContext World.evolves_addContext

theorem addContext_sure : (addContext : Task ε κ τ Unit).Sure [] fun _ => [] :=
  modifyWorld_sure_of_eq (fun _ => rfl) fun _ => rfl

/-- Makes a context that the program holds. -/
def createContext : Operation κ τ ContextId := do
  match ← within 0 fun _ => Realm.create with
  | .ok id =>
    addContext
    return id
  | .error _ => throw .contextStart

theorem createContext_keeps : (createContext : Operation κ τ ContextId).Keeps [] fun _ => [] := by
  unfold createContext
  refine Task.Keeps.bind (within_sure _ _).keeps fun result => ?_
  cases result with
  | ok id => exact Task.Keeps.bind addContext_sure.keeps fun _ => .pure rfl
  | error e => exact .throw _

/-- A context with nothing but what the language has, if the configuration allows it. -/
def emptyContext : Operation κ τ ContextId := do
  settle
  if (← world).config.allowsContexts then createContext else throw .contextStart

theorem emptyContext_keeps : (emptyContext : Operation κ τ ContextId).Keeps [] fun _ => [] := by
  unfold emptyContext
  refine Task.Keeps.bind settle_sure.keeps fun _ => ?_
  refine Task.Keeps.bind world_sure.keeps fun w => ?_
  split
  · exact createContext_keeps
  · exact .throw _

/-- The globals that the configuration asks for; `console` says where to it writes. -/
def prime (id : ContextId) (console : StreamId) : Operation κ τ Unit := do
  let globals := (← world).config.globals
  if globals.console then registerConsole id console console
  if globals.version then registerVersion id

theorem prime_keeps (id : ContextId) (console : StreamId) :
    (prime id console : Operation κ τ Unit).Keeps [] fun _ => [] := by
  unfold prime
  refine Task.Keeps.bind world_sure.keeps fun w => ?_
  dsimp only
  split
  · refine Task.Keeps.bind (registerConsole_keeps id console console) fun _ => ?_
    split
    · exact registerVersion_keeps id
    · exact .pure rfl
  · split
    · exact registerVersion_keeps id
    · exact .pure rfl

/-- A context with its globals. -/
def primedContext (console : StreamId) : Operation κ τ ContextId := do
  let id ← emptyContext
  onFailure (prime id console) (dropContext id)
  return id

theorem primedContext_keeps (console : StreamId) :
    (primedContext console : Operation κ τ ContextId).Keeps [] fun _ => [] := by
  unfold primedContext
  refine Task.Keeps.bind emptyContext_keeps fun id => ?_
  exact Task.Keeps.bind (onFailure_keeps (prime_keeps id console) (dropContext_sure id)) fun _ => .pure rfl

/-! ### Running scripts -/

/-- Runs a script under a name that traces show. -/
def eval (id : ContextId) (name code : String) : Operation κ τ Handle := do
  checkNul code
  checkNul name
  performValue id fun env => Engine.evaluate env name code

theorem eval_keeps (id : ContextId) (name code : String) :
    (eval id name code : Operation κ τ Handle).Keeps [] fun h => [h] := by
  unfold eval
  refine Task.Keeps.bind (checkNul_keeps code) fun _ => ?_
  exact Task.Keeps.bind (checkNul_keeps name) fun _ => performValue_keeps _ _

/-- The name of scripts that were given none. -/
def scriptName : String := "<script>"

/-- Calls a function, which only borrows what it is called with. -/
def call (f this : Handle) (args : List Handle) : Operation κ τ Handle :=
  performValue f.context fun env => env.call f.value this.value (args.map Handle.value).toArray

theorem call_keeps (f this : Handle) (args : List Handle) :
    (call f this args : Operation κ τ Handle).Keeps [] fun h => [h] := performValue_keeps _ _

/-- Runs what scripts have put off, until nothing is left or something fails. -/
def runPending (id : ContextId) : Operation κ τ Unit :=
  perform id fun env => Engine.runJobs env Engine.jobLimit

theorem runPending_keeps (id : ContextId) : (runPending id : Operation κ τ Unit).Keeps [] fun _ => [] :=
  perform_keeps _ _

end PluginRelay.Embedding.Operation
