import PluginRelay.Script.Builtin.Basic

/-!
# Object
-/
namespace PluginRelay.Script.Builtin.ObjectFunctions

open Script.Action Script.Access Script.Convert

variable {σ : Type} [Evolving σ]

def construct : Native σ := fun env c => do
  let isPlain := !c.isNew || c.newTarget = .object c.function
  if isPlain then
    if (c.arg 0).isNullish then return .object (← newPlain)
    return .object (← toObject (c.arg 0))
  return .object (← create env c .objectPrototype .ordinary)

/-! ### Prototypes -/

def asValue : Option ObjectId → Value
  | some id => .object id
  | none => .null

def getPrototypeOf : Native σ := fun env c => do
  return asValue (← Access.getPrototype env (← toObject (c.arg 0)))

def prototypeArgument (v : Value) : Action σ (Option ObjectId) := do
  match v with
  | .object id => return some id
  | .null => return none
  | _ => throwType "not an object"

def setPrototypeOf : Native σ := fun env c => do
  if (c.arg 0).isNullish then throwType "not an object"
  let proto ← prototypeArgument (c.arg 1)
  match c.arg 0 with
  | .object id => must (Access.setPrototype env id proto)
  | _ => pure ()
  return c.arg 0

/-- Changes the properties of an object as another object describes. -/
def defineAll (env : Env σ) (id : ObjectId) (descriptions : Value) : Action σ Unit := do
  let source ← toObject descriptions
  let mut changes : List (PropertyKey × Change) := []
  for key in ← Access.ownKeys env source do
    match ← Access.getOwn env source key with
    | some p =>
      if p.enumerable then
        let change ← changeOf env (← Access.get env source key (.object source))
        changes := changes ++ [(key, change)]
    | none => continue
  for (key, change) in changes do must (Convert.define env id key change)

def createFrom : Native σ := fun env c => do
  let proto ← match c.arg 0 with
    | .object id => pure (some id)
    | .null => pure none
    | _ => throwType "not a prototype"
  let id ← allocate (.new proto .ordinary)
  if !(c.arg 1).isUndefined then defineAll env id (c.arg 1)
  return .object id

/-! ### Properties -/

def defineProperty : Native σ := fun env c => do
  let id ← mustBeObject (c.arg 0)
  let key ← toKey env (c.arg 1)
  let change ← changeOf env (c.arg 2)
  must (Convert.define env id key change)
  return c.arg 0

def defineProperties : Native σ := fun env c => do
  let id ← mustBeObject (c.arg 0)
  defineAll env id (c.arg 1)
  return c.arg 0

def getOwnPropertyDescriptor : Native σ := fun env c => do
  let id ← toObject (c.arg 0)
  match ← Access.getOwn env id (← toKey env (c.arg 1)) with
  | some p => return .object (← describe p)
  | none => return .undefined

def getOwnPropertyDescriptors : Native σ := fun env c => do
  let id ← toObject (c.arg 0)
  let result ← newPlain
  for key in ← Access.ownKeys env id do
    match ← Access.getOwn env id key with
    | some p => defineStrict env result key (.object (← describe p))
    | none => continue
  return .object result

def ownNames (env : Env σ) (v : Value) (symbols : Bool) : Action σ Value := do
  let id ← toObject v
  let keys ← Access.ownKeys env id
  return .object (← newArray ((keys.filter (·.isSymbol = symbols)).map (·.toValue)))

def getOwnPropertyNames : Native σ := fun env c => ownNames env (c.arg 0) false

def getOwnPropertySymbols : Native σ := fun env c => ownNames env (c.arg 0) true

/-- The keys that loops visit, with what is made of key and value. -/
def visited (env : Env σ) (v : Value) (make : PropertyKey → Action σ Value → Action σ Value) :
    Action σ Value := do
  let id ← toObject v
  let mut items : List Value := []
  for key in ← Access.ownKeys env id do
    if !key.isSymbol then
      match ← Access.getOwn env id key with
      | some p =>
        if p.enumerable then
          let item ← make key (Access.get env id key (.object id))
          items := item :: items
      | none => continue
  return .object (← newArray items.reverse)

def keys : Native σ := fun env c => visited env (c.arg 0) fun key _ => return key.toValue

def values : Native σ := fun env c => visited env (c.arg 0) fun _ v => v

def entries : Native σ := fun env c => visited env (c.arg 0) fun key v => do
  return .object (← newArray [key.toValue, ← v])

def assign : Native σ := fun env c => do
  let id ← toObject (c.arg 0)
  for source in c.arguments.toList.drop 1 do
    if !source.isNullish then
      let from_ ← toObject source
      for key in ← Access.ownKeys env from_ do
        match ← Access.getOwn env from_ key with
        | some p => if p.enumerable then setStrict env id key (← Access.get env from_ key source)
        | none => continue
  return .object id

def fromEntries : Native σ := fun env c => do
  let id ← newPlain
  Iterate.forEach env (c.arg 0) fun entry => do
    let e ← mustBeObject entry
    let key ← Access.get env e (.index 0) entry
    let v ← Access.get env e (.index 1) entry
    defineStrict env id (← toKey env key) v
  return .object id

def groupBy : Native σ := fun env c => do
  let f ← callback (c.arg 1)
  let items ← Iterate.toList env (c.arg 0)
  let id ← allocate (.new none .ordinary)
  for (v, i) in items.zipIdx do
    let key ← toKey env (← env.call f .undefined #[v, .ofNat i])
    match ← Access.get env id key (.object id) with
    | .object group => Step.append (.object group) v
    | _ => defineStrict env id key (.object (← newArray [v]))
  return .object id

/-! ### Integrity -/

/-- Makes all properties of an object permanent, and constant too if it is frozen. -/
def restrict (env : Env σ) (v : Value) (isFrozen : Bool) : Action σ Value := do
  match v with
  | .object id =>
    if !(← Access.preventExtensions env id) then
      throwType "proxy preventExtensions handler returned false"
    for key in ← Access.ownKeys env id do
      match ← Access.getOwn env id key with
      | some p =>
        let writable := if isFrozen && p.isData then some false else none
        must (Convert.define env id key { Change.none with
          writable := writable
          configurable := some false })
      | none => continue
    return v
  | _ => return v

def freezeAll : Native σ := fun env c => restrict env (c.arg 0) true

def sealAll : Native σ := fun env c => restrict env (c.arg 0) false

def preventExtensions : Native σ := fun env c => do
  match c.arg 0 with
  | .object id =>
    if !(← Access.preventExtensions env id) then
      throwType "proxy preventExtensions handler returned false"
    return c.arg 0
  | v => return v

def isRestricted (env : Env σ) (v : Value) (isFrozen : Bool) : Action σ Value := do
  match v with
  | .object id =>
    if ← Access.isExtensible env id then return .bool false
    let mut restricted := true
    for key in ← Access.ownKeys env id do
      match ← Access.getOwn env id key with
      | some p => if p.configurable || (isFrozen && p.isData && p.writable) then restricted := false
      | none => continue
    return .bool restricted
  | _ => return .bool true

def isFrozen : Native σ := fun env c => isRestricted env (c.arg 0) true

def isSealed : Native σ := fun env c => isRestricted env (c.arg 0) false

def isExtensible : Native σ := fun env c => do
  match c.arg 0 with
  | .object id => return .bool (← Access.isExtensible env id)
  | _ => return .bool false

def is : Native σ := fun _ c => return .bool ((c.arg 0).sameValue (c.arg 1))

def hasOwn : Native σ := fun env c => do
  let id ← toObject (c.arg 0)
  return .bool (← Access.getOwn env id (← toKey env (c.arg 1))).isSome

/-! ### The prototype -/

/-- Whether a value is a list, or a proxy of one. -/
def isArray : (fuel : Nat) → Value → Action σ Bool
  | 0, _ => return false
  | fuel + 1, v => do
    match v with
    | .object id =>
      match ← payload id with
      | .array _ _ => return true
      | .proxy (some (target, _)) _ _ => isArray fuel (.object target)
      | .proxy none _ _ => throwType "revoked proxy"
      | _ => return false
    | _ => return false

def classTag (id : ObjectId) : Action σ String := do
  let o ← object id
  if ← isArray 64 (.object id) then return "Array"
  if o.isCallable then return "Function"
  match o.payload with
  | .arguments => return "Arguments"
  | .error => return "Error"
  | .primitive (.bool _) => return "Boolean"
  | .primitive (.int _) | .primitive (.double _) => return "Number"
  | .primitive (.string _) => return "String"
  | .date _ => return "Date"
  | .regexp _ _ _ => return "RegExp"
  | _ => return "Object"

/-- The text of an object that has no better one. -/
def tagText (env : Env σ) (v : Value) : Action σ Units := do
  match v with
  | .undefined => return Units.ofString "[object Undefined]"
  | .null => return Units.ofString "[object Null]"
  | _ =>
    let id ← toObject v
    let tag ← classTag id
    match ← Access.get env id WellKnown.toStringTag.key v with
    | .string t => return Units.ofString "[object " ++ t.units ++ Units.ofString "]"
    | _ => return Units.ofString ("[object " ++ tag ++ "]")

def toStringMethod : Native σ := fun env c => do units (← tagText env c.this)

def toLocaleString : Native σ := fun env c => invokeNamed env c.this "toString" #[]

def valueOf : Native σ := fun _ c => return .object (← thisObject c)

def hasOwnProperty : Native σ := fun env c => do
  let key ← toKey env (c.arg 0)
  let id ← thisObject c
  return .bool (← Access.getOwn env id key).isSome

def isPrototypeOf : Native σ := fun env c => do
  match c.arg 0 with
  | .object id =>
    let target ← thisObject c
    let rec climb (fuel : Nat) (id : ObjectId) : Action σ Bool := do
      match fuel with
      | 0 => return false
      | fuel + 1 =>
        match ← Access.getPrototype env id with
        | none => return false
        | some next => if next = target then return true else climb fuel next
    return .bool (← climb (← chainBound) id)
  | _ => return .bool false

def propertyIsEnumerable : Native σ := fun env c => do
  let key ← toKey env (c.arg 0)
  let id ← thisObject c
  return .bool ((← Access.getOwn env id key).any (·.enumerable))

def getProto : Native σ := fun env c => do
  return asValue (← Access.getPrototype env (← thisObject c))

def setProto : Native σ := fun env c => do
  if c.this.isNullish then throwType "not an object"
  match c.this, c.arg 0 with
  | .object id, .object proto => must (Access.setPrototype env id (some proto))
  | .object id, .null => must (Access.setPrototype env id none)
  | _, _ => pure ()
  return .undefined

/-- Makes an own property with a getter, or one with a setter. -/
def defineAccessor (isGetter : Bool) : Native σ := fun env c => do
  let id ← thisObject c
  let f ← callback (c.arg 1)
  let key ← toKey env (c.arg 0)
  let change := { Change.none with enumerable := some true, configurable := some true }
  must (Convert.define env id key
    (if isGetter then { change with getter := some f } else { change with setter := some f }))
  nothing

/-- The getter, or the setter, of a property of an object or of what it inherits from. -/
def lookUpAccessor (isGetter : Bool) : Native σ := fun env c => do
  let start ← thisObject c
  let key ← toKey env (c.arg 0)
  let rec climb (fuel : Nat) (id : ObjectId) : Action σ Value := do
    match fuel with
    | 0 => nothing
    | fuel + 1 =>
      match ← Access.getOwn env id key with
      | some p =>
        match p.content with
        | .accessor g s => ok (if isGetter then g else s)
        | .data _ => nothing
      | none =>
        match ← Access.getPrototype env id with
        | some next => climb fuel next
        | none => nothing
  climb (← chainBound) start

def table : List (Builtin σ) :=
  let static := Owner.intrinsic (.constructor "Object")
  let proto := Owner.intrinsic .objectPrototype
  [constructor "Object" 1 .objectPrototype construct,
    method static "create" 2 createFrom,
    method static "getPrototypeOf" 1 getPrototypeOf,
    method static "setPrototypeOf" 2 setPrototypeOf,
    method static "defineProperty" 3 defineProperty,
    method static "defineProperties" 2 defineProperties,
    method static "getOwnPropertyNames" 1 getOwnPropertyNames,
    method static "getOwnPropertySymbols" 1 getOwnPropertySymbols,
    method static "groupBy" 2 groupBy,
    method static "keys" 1 keys,
    method static "values" 1 values,
    method static "entries" 1 entries,
    method static "isExtensible" 1 isExtensible,
    method static "preventExtensions" 1 preventExtensions,
    method static "getOwnPropertyDescriptor" 2 getOwnPropertyDescriptor,
    method static "getOwnPropertyDescriptors" 1 getOwnPropertyDescriptors,
    method static "is" 2 is,
    method static "assign" 2 assign,
    method static "seal" 1 sealAll,
    method static "freeze" 1 freezeAll,
    method static "isSealed" 1 isSealed,
    method static "isFrozen" 1 isFrozen,
    method static "fromEntries" 1 fromEntries,
    method static "hasOwn" 2 hasOwn,
    method proto "toString" 0 toStringMethod,
    method proto "toLocaleString" 0 toLocaleString,
    method proto "valueOf" 0 valueOf,
    method proto "hasOwnProperty" 1 hasOwnProperty,
    method proto "isPrototypeOf" 1 isPrototypeOf,
    method proto "propertyIsEnumerable" 1 propertyIsEnumerable,
    getter proto "__proto__" getProto,
    setter proto "__proto__" setProto,
    method proto "__defineGetter__" 2 (defineAccessor true),
    method proto "__defineSetter__" 2 (defineAccessor false),
    method proto "__lookupGetter__" 1 (lookUpAccessor true),
    method proto "__lookupSetter__" 1 (lookUpAccessor false)]

end PluginRelay.Script.Builtin.ObjectFunctions
