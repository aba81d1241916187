import PluginRelay.Script.Convert

/-!
# Making functions

Functions of all kinds are objects with a length and a name.
-/
namespace PluginRelay.Script.Function

open Script.Action Script.Access

variable {σ : Type} [Evolving σ]

/-- Length and name, as every function has them. -/
def setProperties (id : ObjectId) (name : Units) (length : Nat) : Action σ Unit := do
  putProperty id lengthKey ⟨.data (.ofNat length), false, false, true⟩
  putProperty id nameKey ⟨.data (.text name), false, false, true⟩

/-- One of the engine's own functions, with what it holds. -/
def newInternal (which : Internal) (data : Array Value) (length : Nat) : Action σ Value := do
  let id ← newObject .functionPrototype (.internal which data (← read).realm)
  setProperties id #[] length
  return .object id

/-- A function from outside. -/
def newHost (hostId : Nat) (name : Value) : Action σ ObjectId := do
  let id ← newObject .functionPrototype (.host hostId)
  putProperty id nameKey ⟨.data name, false, false, true⟩
  return id

def prototypeFor (code : Code) : Intrinsic :=
  match code.isAsync, code.isGenerator with
  | false, false => .functionPrototype
  | false, true => .generatorFunctionPrototype
  | true, false => .asyncFunctionPrototype
  | true, true => .asyncGeneratorFunctionPrototype

/-- Whether the object that a function gives its instances is made only when it is first asked for. -/
def makesPrototypeLater (code : Code) : Bool :=
  match code.kind with
  | .normal => !code.isAsync && !code.isGenerator
  | _ => false

/-- A function made from code, with the cells that it shares. -/
def newClosure (codes : CodeTable) (code : Code) (captured : Array CellId) : Action σ ObjectId := do
  let isLazy := makesPrototypeLater code
  let closure : Closure := ⟨codes, code, captured, .undefined, .undefined, (← read).realm, isLazy⟩
  let id ← newObject (prototypeFor code) (.function closure)
  setProperties id (Units.ofString code.name) code.length
  if isLazy then putProperty id prototypeKey ⟨.data .undefined, true, false, false⟩
  else if code.isGenerator then
    let base := if code.isAsync then Intrinsic.asyncGeneratorPrototype else .generatorPrototype
    let proto ← newObject base .ordinary
    putProperty id prototypeKey ⟨.data (.object proto), true, false, false⟩
  return id

def modifyClosure (f : Value) (change : Closure → Closure) : Action σ Unit := do
  match f with
  | .object id =>
    match ← payload id with
    | .function c => setPayload id (.function (change c))
    | _ => return
  | _ => return

/-- The name that a key gives to a function. -/
def nameOfKey (key : PropertyKey) : Action σ Units := do
  match key with
  | .symbol id =>
    match ← symbol id with
    | ⟨some d, isHidden, _⟩ =>
      return if isHidden then d else Units.ofString "[" ++ d ++ Units.ofString "]"
    | _ => return #[]
  | k => return (k.units?).getD #[]

def setName (f : Value) (name : Units) : Action σ Unit := do
  match f with
  | .object id => putProperty id nameKey ⟨.data (.text name), false, false, true⟩
  | _ => return

/-- Names a function that has no name yet. -/
def nameIfMissing (f : Value) (name : Units) : Action σ Unit := do
  match f with
  | .object id =>
    match (← object id).find? nameKey with
    | some p => if p.content = .data (.text #[]) then setName f name
    | none => setName f name
  | _ => return

/-- The prototype of a new object: that of the constructor that was called by `new`. -/
def prototypeFrom (env : Env σ) (newTarget : Value) (default : Intrinsic) : Action σ ObjectId := do
  match newTarget with
  | .object id =>
    match ← Access.get env id prototypeKey newTarget with
    | .object proto => return proto
    | _ => intrinsic default
  | _ => intrinsic default

/-- The class of a constructor and the object for its instances. -/
def newClass (env : Env σ) (codes : CodeTable) (code : Code) (captured : Array CellId)
    (parent : Option Value) : Action σ (ObjectId × ObjectId) := do
  let (protoParent, parentFunction) : Option ObjectId × Option ObjectId ← match parent with
    | none => pure (some (← intrinsic .objectPrototype), some (← intrinsic .functionPrototype))
    | some .null => pure (none, some (← intrinsic .functionPrototype))
    | some p =>
      if !(← isConstructor p) then throwType "parent class must be constructor"
      match ← Convert.getMember env p prototypeKey with
      | .object o => pure (some o, match p with
          | .object f => some f
          | _ => none)
      | .null => pure (none, match p with
          | .object f => some f
          | _ => none)
      | _ => throwType "parent prototype must be an object or null"
  let proto ← allocate (.new protoParent .ordinary)
  let id ← newClosure codes code captured
  modifyObject id fun o => { o with prototype := parentFunction }
  modifyClosure (.object id) fun c => { c with home := .object proto }
  putProperty id prototypeKey (.fixed (.object proto))
  putProperty proto constructorKey (.hidden (.object id))
  return (id, proto)

end PluginRelay.Script.Function
