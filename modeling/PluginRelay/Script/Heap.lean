import PluginRelay.Script.Evolution

/-!
# The heap

Actions on the heap may end with an exception, which is a value.
-/
namespace PluginRelay.Script

/-- What happens on the heap; an exception is a value. -/
abbrev Action (σ : Type) [R : Evolving σ] := Evolution R Value

variable {σ : Type} [Evolving σ] {α : Type}

namespace Action

open Evolution (update updateGet)

/-! ### Objects and cells -/

def allocate (o : Object) : Action σ ObjectId :=
  updateGet fun m => (m.objects.size, { m with objects := m.objects.push (some o) })

def object (id : ObjectId) : Action σ Object := return ((← read).objects[id]?.join).getD default

def modifyObject (id : ObjectId) (f : Object → Object) : Action σ Unit :=
  update fun m => { m with objects := m.objects.modify id fun o => o.map f }

def payload (id : ObjectId) : Action σ Payload := return (← object id).payload

def setPayload (id : ObjectId) (p : Payload) : Action σ Unit :=
  modifyObject id fun o => { o with payload := p }

/-- Puts a property, whatever was there. -/
def putProperty (id : ObjectId) (key : PropertyKey) (p : Property) : Action σ Unit :=
  modifyObject id fun o => o.put key p

def newCell (v : Option Value) : Action σ CellId :=
  updateGet fun m => (m.cells.size, { m with cells := m.cells.push v })

def cell (id : CellId) : Action σ (Option Value) := return ((← read).cells[id]?).join

def setCell (id : CellId) (v : Option Value) : Action σ Unit :=
  update fun m => { m with cells := m.cells.set! id v }

def newSymbol (info : SymbolInfo) : Action σ SymbolId :=
  updateGet fun m => (m.symbols.size, { m with symbols := m.symbols.push info })

def symbol (id : SymbolId) : Action σ SymbolInfo := return ((← read).symbols[id]?).getD default

def enqueue (job : Job) : Action σ Unit := update fun m => { m with jobs := m.jobs ++ [job] }

/-! ### The current context -/

def realmOf (id : RealmId) : Action σ Realm := return ((← read).realms[id]?).getD default

def currentRealm : Action σ Realm := do realmOf (← read).realm

def intrinsicOf (realm : RealmId) (i : Intrinsic) : Action σ ObjectId :=
  return ((← realmOf realm).intrinsics[i]?).getD 0

def intrinsic (i : Intrinsic) : Action σ ObjectId := do intrinsicOf (← read).realm i

def globalObject : Action σ ObjectId := return (← currentRealm).global

/-- An object with a built-in prototype. -/
def newObject (proto : Intrinsic) (payload : Payload) : Action σ ObjectId := do
  allocate (.new (some (← intrinsic proto)) payload)

def newPlain : Action σ ObjectId := newObject .objectPrototype .ordinary

/-- A list as an array. -/
def newArray (items : List Value) : Action σ ObjectId := do
  let proto ← intrinsic .arrayPrototype
  let o := Object.new (some proto) (.array items.length false)
  allocate (items.zipIdx.foldl (fun o (v, i) => o.put (.index i) (.plain v)) o)

/-! ### Exceptions -/

/-- The name that traces show for a function. -/
def shownName (function : Value) : Action σ Units := do
  match function with
  | .object id =>
    match (← object id).find? (.name (Units.ofString "name")) with
    | some p =>
      match p.content with
      | .data (.string t) => return if t.units.isEmpty then Units.ofString "<anonymous>" else t.units
      | _ => return Units.ofString "<anonymous>"
    | none => return Units.ofString "<anonymous>"
  | _ => return Units.ofString "<anonymous>"

def shownPlace (file : String) (p : Position) : String :=
  file ++ ":" ++ toString p.line ++ ":" ++ toString p.column

/-- One line for each running function. -/
def traceLines : List Activation → Action σ Units
  | [] => return #[]
  | a :: rest => do
    let name ← shownName a.function
    let site := match a.file with
      | some file => shownPlace file (a.place.getD a.last)
      | none => "native"
    let line := Units.ofString "    at " ++ name ++ Units.ofString (" (" ++ site ++ ")\n")
    return line ++ (← traceLines rest)

def stackKey : PropertyKey := .name (Units.ofString "stack")

def messageKey : PropertyKey := .name (Units.ofString "message")

/-- Gives an error the trace of the functions that are running, without the innermost `skipped`. `first`
is a line to put before them. -/
def addTrace (error : ObjectId) (first : String) (skipped : Nat) : Action σ Unit := do
  let lines ← traceLines ((← read).trace.drop skipped)
  putProperty error stackKey (.hidden (.text (Units.ofString first ++ lines)))

def newError (kind : ErrorKind) (message : Units) : Action σ ObjectId := do
  let id ← newObject (.errorPrototype kind) .error
  putProperty id messageKey (.hidden (.text message))
  return id

/-- Whether the innermost running function is a script's: then the trace is added when the exception
leaves its instruction. -/
def inScript : Action σ Bool := do
  match (← read).trace with
  | a :: _ => return a.file.isSome
  | [] => return false

def throwUnits (kind : ErrorKind) (message : Units) : Action σ α := do
  let id ← newError kind message
  if !(← inScript) then addTrace id "" 0
  throw (.object id)

def throwKind (kind : ErrorKind) (message : String) : Action σ α :=
  throwUnits kind (Units.ofString message)

def throwType (message : String) : Action σ α := throwKind .typeError message

def throwRange (message : String) : Action σ α := throwKind .rangeError message

/-- Runs an action with other functions running and in another context, and goes back. -/
def framed (a : Activation) (realm : RealmId) (action : Action σ α) : Action σ α where
  run m :=
    let trace := m.trace
    let before := m.realm
    match action.run { m with trace := a :: trace, realm := realm } with
    | .ok x m => .ok x { m with trace := trace, realm := before }
    | .error e m => .error e { m with trace := trace, realm := before }
  evolves m := by
    have h := action.evolves { m with trace := a :: m.trace, realm := realm }
    dsimp only
    split <;> rename_i heq <;> rw [heq] at h <;> exact h

def inRealm (realm : RealmId) (action : Action σ α) : Action σ α where
  run m :=
    let before := m.realm
    match action.run { m with realm := realm } with
    | .ok x m => .ok x { m with realm := before }
    | .error e m => .error e { m with realm := before }
  evolves m := by
    have h := action.evolves { m with realm := realm }
    dsimp only
    split <;> rename_i heq <;> rw [heq] at h <;> exact h

/-- Lets the innermost running function be shown at a place. -/
def markPlace (p : Position) : Action σ Unit :=
  update fun m => { m with trace := match m.trace with
    | a :: rest => { a with place := some p } :: rest
    | [] => [] }

end Action

/-! ### Operations that may run scripts -/

/-- What a function is called with. -/
structure Call where
  function : ObjectId
  this : Value
  arguments : Array Value
  /-- The constructor that is called by `new`; `undefined` in plain calls. -/
  newTarget : Value
  /-- What the function holds, for the engine's own functions. -/
  data : Array Value
  deriving Inhabited

namespace Call

/-- An argument; missing ones are `undefined`. -/
def arg (c : Call) (i : Nat) : Value := (c.arguments[i]?).getD .undefined

def isNew (c : Call) : Bool := !c.newTarget.isUndefined

end Call

/-- The operations by which objects work on each other. Where one needs another, it takes it from the
level below, so no run goes deeper than there are levels. `none` as an answer says that a change was
made, and a text why it was refused. -/
structure Env (σ : Type) [Evolving σ] where
  call : Value → Value → Array Value → Action σ Value
  /-- Asks an iterator for a result by its method; traces do not show the built-in methods. -/
  advance : (iterator next : Value) → Action σ Value
  construct : Value → Array Value → Value → Action σ Value
  getPrototype : ObjectId → Action σ (Option ObjectId)
  setPrototype : ObjectId → Option ObjectId → Action σ (Option String)
  isExtensible : ObjectId → Action σ Bool
  preventExtensions : ObjectId → Action σ Bool
  getOwn : ObjectId → PropertyKey → Action σ (Option Property)
  define : ObjectId → PropertyKey → Change → Action σ (Option String)
  has : ObjectId → PropertyKey → Action σ Bool
  get : ObjectId → PropertyKey → Value → Action σ Value
  set : ObjectId → PropertyKey → Value → Value → Action σ (Option String)
  delete : ObjectId → PropertyKey → Action σ (Option String)
  ownKeys : ObjectId → Action σ (List PropertyKey)
  /-- Reads code and runs it in the current context. -/
  evaluate : Units → Action σ Value
  /-- In which cell a text or a large integer lies that leaves the engine. The same one may lie there again. -/
  place : Nat → Nat

/-- A built-in function. -/
abbrev Native (σ : Type) [Evolving σ] := Env σ → Call → Action σ Value

/-- How a function from outside answers: by its number, `this` and the arguments. -/
abbrev HostFunction (σ : Type) [Evolving σ] := Env σ → (id : Nat) → Call → Action σ Value

end PluginRelay.Script
