import PluginRelay.Script.Elements
import PluginRelay.Script.Numeral

/-!
# Access to objects

Reading, writing and listing properties. Lists keep their length above their indices; texts and typed
arrays have properties that are not stored; proxies ask their handlers.
-/
namespace PluginRelay.Script.Access

open Script.Action

variable {σ : Type} [Evolving σ]

def lengthKey : PropertyKey := .name (Units.ofString "length")

def nameKey : PropertyKey := .name (Units.ofString "name")

/-- A key as error messages name it. -/
def keyUnits (key : PropertyKey) : Action σ Units := do
  match key with
  | .symbol id => return ((← symbol id).description).getD #[]
  | k => return (k.units?).getD #[]

/-- `'key'` with the rest of a message. -/
def quotedKey (key : PropertyKey) (rest : String) : Action σ String := do
  return "'" ++ (← keyUnits key).toStringLossy ++ "'" ++ rest

def readOnly (key : PropertyKey) : Action σ (Option String) :=
  return some (← quotedKey key " is read-only")

def isCallable (v : Value) : Action σ Bool := do
  match v with
  | .object id => return (← object id).isCallable
  | _ => return false

/-- Whether an object can be called by `new`; a bound function stands for its target. -/
def constructs : (fuel : Nat) → ObjectId → Action σ Bool
  | 0, _ => return false
  | fuel + 1, id => do
    match ← payload id with
    | .function f =>
      return match f.code.kind with
        | .normal => !f.code.isAsync && !f.code.isGenerator
        | .constructor | .derivedConstructor => true
        | _ => false
    | .builtin _ constructs _ => return constructs
    | .bound target _ _ => constructs fuel target
    | .proxy _ _ constructible => return constructible
    | _ => return false

def isConstructor (v : Value) : Action σ Bool := do
  match v with
  | .object id => constructs (← read).objects.size id
  | _ => return false

/-! ### Own properties -/

/-- A simple value as a number. -/
def simpleNumber (v : Value) : Binary64 :=
  match v with
  | .int n => .ofInt n
  | .double x => x
  | .bool b => if b then .one else .zero
  | .null => .zero
  | .string t => Numeral.ofChars t.units.toChars
  | _ => .nan

def elementProperty (v : Value) : Property := ⟨.data v, true, true, true⟩

/-- The bytes of an element of a typed array. -/
def elementBytes (kind : ElementKind) (buffer : ObjectId) (offset i : Nat) : Action σ (List UInt8) := do
  match ← payload buffer with
  | .arrayBuffer bytes =>
    let start := offset + i * kind.width
    return (bytes.extract start (start + kind.width)).toList
  | _ => return []

def writeElement (kind : ElementKind) (buffer : ObjectId) (offset i : Nat) (v : Value) :
    Action σ Unit := do
  let bytes := match v with
    | .bigint n => ElementKind.writeBig n.value
    | v => kind.write (simpleNumber v)
  match ← payload buffer with
  | .arrayBuffer old =>
    let start := offset + i * kind.width
    setPayload buffer (.arrayBuffer
      (bytes.zipIdx.foldl (fun a (b, j) => a.set! (start + j) b) old))
  | _ => return

def prototypeKey : PropertyKey := .name (Units.ofString "prototype")

def constructorKey : PropertyKey := .name (Units.ofString "constructor")

/-- Makes the object from which the instances of a function inherit. -/
def makePrototype (id : ObjectId) (f : Closure) : Action σ Unit := do
  let proto ← allocate (.new (some (← intrinsicOf f.realm .objectPrototype)) .ordinary)
  putProperty proto constructorKey (.hidden (.object id))
  setPayload id (.function { f with isLazy := false })
  putProperty id prototypeKey ⟨.data (.object proto), true, false, false⟩

/-- An own property of an object that is no proxy. -/
def plainOwn (id : ObjectId) (key : PropertyKey) : Action σ (Option Property) := do
  let o ← object id
  match o.payload, key with
  | .function f, .name _ =>
    if f.isLazy && key = prototypeKey then
      makePrototype id f
      return (← object id).find? key
    else return o.find? key
  | .array length isFixed, .name _ =>
    if key = lengthKey then return some ⟨.data (.ofNat length), !isFixed, false, false⟩
    else return o.find? key
  | .primitive (.string t), .index i =>
    match t.units[i]? with
    | some u => return some ⟨.data (.text #[u]), false, true, false⟩
    | none => return o.find? key
  | .primitive (.string t), .name _ =>
    if key = lengthKey then return some (.fixed (.ofNat t.units.size)) else return o.find? key
  | .typedArray kind buffer offset length, .index i =>
    if i < length then
      return some (elementProperty (kind.read (← elementBytes kind buffer offset i)))
    else return none
  | _, _ => return o.find? key

def notExtensible : String := "object is not extensible"

/-- Whether a change of a property is allowed, and what comes of it. -/
def checkedChange (isExtensible : Bool) (old : Option Property) (c : Change) :
    Except String Property :=
  match old with
  | none => if isExtensible then .ok c.fresh else .error notExtensible
  | some p =>
    let refused : Except String Property := .error "property is not configurable"
    if p.configurable then .ok (c.applyTo p)
    else if c.configurable = some true || (c.enumerable.any (· ≠ p.enumerable)) then refused
    else
      match p.content with
      | .accessor g s =>
        if c.isData || (c.getter.any (!·.sameValue g)) || (c.setter.any (!·.sameValue s)) then refused
        else .ok (c.applyTo p)
      | .data v =>
        if c.isAccessor then refused
        else if p.writable then .ok (c.applyTo p)
        else if c.writable = some true || (c.value.any (!·.sameValue v)) then refused
        else .ok p

def plainDefine (id : ObjectId) (key : PropertyKey) (c : Change) : Action σ (Option String) := do
  match checkedChange (← object id).isExtensible (← plainOwn id key) c with
  | .ok p =>
    putProperty id key p
    return none
  | .error message => return some message

/-- The indices from a length on that an array of some length may have to give up, the last one first. -/
def doomed (o : Object) (length n : Nat) : List Nat :=
  if length - n ≤ o.properties.size then (List.range (length - n)).reverse.map (n + ·)
  else
    let all := o.properties.toList.filterMap fun (key, _) =>
      match key with
      | .index i => if n ≤ i then some i else none
      | _ => none
    all.mergeSort fun a b => b ≤ a

/-- Removes the elements from the end down to a new length; stops at one that cannot be removed, and
says where. -/
def truncate (id : ObjectId) : (keys : List Nat) → Action σ (Option Nat)
  | [] => return none
  | i :: rest => do
    match (← object id).find? (.index i) with
    | some p =>
      if p.configurable then
        modifyObject id (·.erase (.index i))
        truncate id rest
      else return some i
    | none => truncate id rest

/-- The length that a value asks for. -/
def lengthOf? (v : Value) : Option Nat :=
  let x := simpleNumber v
  match x.toInt? with
  | some n => if 0 ≤ n && n < 4294967296 then some n.toNat else none
  | none => none

def changeLength (id : ObjectId) (length : Nat) (isFixed : Bool) (c : Change) :
    Action σ (Option String) := do
  match c.value with
  | none =>
    if c.isAccessor || c.configurable = some true || c.enumerable = some true ||
        (isFixed && c.writable = some true) then
      return some "property is not configurable"
    setPayload id (.array length (isFixed || c.writable = some false))
    return none
  | some v =>
    match lengthOf? v with
    | none => throwRange "invalid array length"
    | some n =>
      if c.isAccessor || c.configurable = some true || c.enumerable = some true ||
          (isFixed && (c.writable = some true || n ≠ length)) then
        return some "property is not configurable"
      let stopped ← truncate id (doomed (← object id) length n)
      let final := match stopped with
        | some i => i + 1
        | none => n
      setPayload id (.array final (isFixed || c.writable = some false))
      return if stopped.isSome then some "not configurable" else none

/-- Whether an array has all elements up to a number, and nothing special about any of them. -/
def isDense (o : Object) (count : Nat) : Bool :=
  (List.range count).all fun i =>
    match o.find? (.index i) with
    | some p => p.isData && p.writable && p.enumerable && p.configurable
    | none => false

/-- Makes a new element of an array. An array that takes no elements refuses; unless the element would
have been the next of a plain list, the length grows nevertheless. -/
def defineElement (id : ObjectId) (length : Nat) (isFixed : Bool) (i : Nat) (c : Change) :
    Action σ (Option String) := do
  let o ← object id
  if !o.isExtensible && i = length && isDense o i then return some notExtensible
  if isFixed then readOnly lengthKey
  else
    setPayload id (.array (i + 1) isFixed)
    plainDefine id (.index i) c

/-- Makes or changes an own property of an object that is no proxy. -/
def ownDefine (id : ObjectId) (key : PropertyKey) (c : Change) : Action σ (Option String) := do
  match (← object id).payload, key with
  | .array length isFixed, .index i =>
    if i < length then plainDefine id key c
    else defineElement id length isFixed i c
  | .array length isFixed, _ =>
    if key = lengthKey then changeLength id length isFixed c else plainDefine id key c
  | .primitive (.string t), .index i =>
    if i < t.units.size then
      match checkedChange false (← plainOwn id key) c with
      | .ok _ => return none
      | .error message => return some message
    else plainDefine id key c
  | .typedArray kind buffer offset length, .index i =>
    if i < length then
      match c.value with
      | some v => writeElement kind buffer offset i v
      | none => pure ()
      return none
    else return some "invalid index for typed array"
  | _, _ => plainDefine id key c

def ownDelete (id : ObjectId) (key : PropertyKey) : Action σ (Option String) := do
  match ← plainOwn id key with
  | none => return none
  | some p =>
    if p.configurable then
      modifyObject id (·.erase key)
      return none
    else return some "could not delete property"

def visibleKeys (keys : List PropertyKey) : Action σ (List PropertyKey) := do
  let symbols := (← read).symbols
  return keys.filter fun
    | .symbol id => !((symbols[id]?).getD default).isHidden
    | _ => true

/-- The keys of an object that is no proxy. -/
def plainKeys (id : ObjectId) : Action σ (List PropertyKey) := do
  let o ← object id
  let stored ← visibleKeys o.ownKeys
  match o.payload with
  | .array _ _ =>
    let (indices, others) := stored.span fun
      | .index _ => true
      | _ => false
    return indices ++ lengthKey :: others
  | .primitive (.string t) =>
    let (indices, others) := stored.span fun
      | .index _ => true
      | _ => false
    return (List.range t.units.size).map .index ++ indices ++ lengthKey :: others
  | .typedArray _ _ _ length => return (List.range length).map .index ++ stored
  | _ => return stored

/-! ### Descriptors -/

def named (s : String) : PropertyKey := .name (Units.ofString s)

/-- The object that describes a property. -/
def describe (p : Property) : Action σ ObjectId := do
  let id ← newPlain
  let put (name : String) (v : Value) := putProperty (σ := σ) id (named name) (.plain v)
  match p.content with
  | .data v =>
    put "value" v
    put "writable" (.bool p.writable)
  | .accessor g s =>
    put "get" g
    put "set" s
  put "enumerable" (.bool p.enumerable)
  put "configurable" (.bool p.configurable)
  return id

def truthy : Value → Bool
  | .undefined | .null => false
  | .bool b => b
  | .int n => n ≠ 0
  | .double x => !x.isZero && !x.isNaN
  | .string t => t.units.size ≠ 0
  | .bigint n => n.value ≠ 0
  | .symbol _ | .object _ => true

/-- The change that an object describes. -/
def changeOf (env : Env σ) (v : Value) : Action σ Change := do
  match v with
  | .object id =>
    let field (name : String) : Action σ (Option Value) := do
      if ← env.has id (named name) then return some (← env.get id (named name) v) else return none
    let enumerable ← field "enumerable"
    let configurable ← field "configurable"
    let value ← field "value"
    let writable ← field "writable"
    let getter ← field "get"
    if let some g := getter then
      if !g.isUndefined && !(← isCallable g) then throwType "invalid getter"
    let setter ← field "set"
    if let some s := setter then
      if !s.isUndefined && !(← isCallable s) then throwType "invalid setter"
    if (getter.isSome || setter.isSome) && (value.isSome || writable.isSome) then
      throwType "cannot have setter/getter and value or writable"
    return ⟨value, getter, setter, writable.map truthy, enumerable.map truthy,
      configurable.map truthy⟩
  | _ => throwType "not an object"

/-! ### Proxies -/

/-- The target and the handler of a proxy, and the function that the handler has for an operation. -/
def trap (env : Env σ) (parts : Option (ObjectId × ObjectId)) (name : String) :
    Action σ (ObjectId × Value × Option Value) := do
  match parts with
  | none => throwType "revoked proxy"
  | some (target, handler) =>
    let f ← env.get handler (named name) (.object handler)
    if f.isNullish then return (target, .object handler, none)
    else if ← isCallable f then return (target, .object handler, some f)
    else throwType "not a function"

def proxyGetOwn (env : Env σ) (parts : Option (ObjectId × ObjectId)) (key : PropertyKey) :
    Action σ (Option Property) := do
  let (target, handler, f) ← trap env parts "getOwnPropertyDescriptor"
  match f with
  | none => env.getOwn target key
  | some f =>
    let result ← env.call f handler #[.object target, key.toValue]
    let own ← env.getOwn target key
    match result with
    | .undefined =>
      match own with
      | some p =>
        if !p.configurable || !(← env.isExtensible target) then
          throwType "proxy: inconsistent getOwnPropertyDescriptor"
        return none
      | none => return none
    | .object _ =>
      let c ← changeOf env result
      let p := c.fresh
      match checkedChange (← env.isExtensible target) own (.ofProperty p) with
      | .ok _ =>
        if !p.configurable && !(own.any fun q => !q.configurable) then
          throwType "proxy: inconsistent getOwnPropertyDescriptor"
        return some p
      | .error _ => throwType "proxy: inconsistent getOwnPropertyDescriptor"
    | _ => throwType "proxy: inconsistent getOwnPropertyDescriptor"

def describeChange (c : Change) : Action σ ObjectId := do
  let id ← newPlain
  let put (name : String) (v : Option Value) : Action σ Unit :=
    match v with
    | some v => putProperty id (named name) (.plain v)
    | none => return
  put "value" c.value
  put "get" c.getter
  put "set" c.setter
  put "writable" (c.writable.map .bool)
  put "enumerable" (c.enumerable.map .bool)
  put "configurable" (c.configurable.map .bool)
  return id

def proxyDefine (env : Env σ) (parts : Option (ObjectId × ObjectId)) (key : PropertyKey) (c : Change) :
    Action σ (Option String) := do
  let (target, handler, f) ← trap env parts "defineProperty"
  match f with
  | none => env.define target key c
  | some f =>
    let description ← describeChange c
    let result ← env.call f handler #[.object target, key.toValue, .object description]
    if !truthy result then return some "proxy: defineProperty exception"
    let own ← env.getOwn target key
    let settles := c.configurable = some false
    match own with
    | none =>
      if !(← env.isExtensible target) || settles then throwType "proxy: inconsistent defineProperty"
      return none
    | some p =>
      match checkedChange true (some p) c with
      | .error _ => throwType "proxy: inconsistent defineProperty"
      | .ok _ =>
        if settles && p.configurable then throwType "proxy: inconsistent defineProperty"
        return none

def proxyHas (env : Env σ) (parts : Option (ObjectId × ObjectId)) (key : PropertyKey) :
    Action σ Bool := do
  let (target, handler, f) ← trap env parts "has"
  match f with
  | none => env.has target key
  | some f =>
    let found := truthy (← env.call f handler #[.object target, key.toValue])
    if !found then
      match ← env.getOwn target key with
      | some p =>
        if !p.configurable || !(← env.isExtensible target) then throwType "proxy: inconsistent has"
      | none => pure ()
    return found

def proxyGet (env : Env σ) (parts : Option (ObjectId × ObjectId)) (key : PropertyKey)
    (receiver : Value) : Action σ Value := do
  let (target, handler, f) ← trap env parts "get"
  match f with
  | none => env.get target key receiver
  | some f =>
    let result ← env.call f handler #[.object target, key.toValue, receiver]
    match ← env.getOwn target key with
    | some p =>
      match p.content with
      | .data v =>
        if !p.configurable && !p.writable && !v.sameValue result then
          throwType "proxy: inconsistent get"
      | .accessor g _ =>
        if !p.configurable && g.isUndefined && !result.isUndefined then
          throwType "proxy: inconsistent get"
    | none => pure ()
    return result

def proxySet (env : Env σ) (parts : Option (ObjectId × ObjectId)) (key : PropertyKey)
    (v receiver : Value) : Action σ (Option String) := do
  let (target, handler, f) ← trap env parts "set"
  match f with
  | none => env.set target key v receiver
  | some f =>
    let result ← env.call f handler #[.object target, key.toValue, v, receiver]
    if !truthy result then return some "proxy: cannot set property"
    match ← env.getOwn target key with
    | some p =>
      match p.content with
      | .data old =>
        if !p.configurable && !p.writable && !old.sameValue v then
          throwType "proxy: inconsistent set"
      | .accessor _ s =>
        if !p.configurable && s.isUndefined then throwType "proxy: inconsistent set"
    | none => pure ()
    return none

def proxyDelete (env : Env σ) (parts : Option (ObjectId × ObjectId)) (key : PropertyKey) :
    Action σ (Option String) := do
  let (target, handler, f) ← trap env parts "deleteProperty"
  match f with
  | none => env.delete target key
  | some f =>
    let result ← env.call f handler #[.object target, key.toValue]
    if !truthy result then return some "could not delete property"
    match ← env.getOwn target key with
    | some p => if !p.configurable then throwType "proxy: inconsistent deleteProperty"
    | none => pure ()
    return none

def keyOfValue? : Value → Option PropertyKey
  | .string t => some (.ofUnits t.units)
  | .symbol id => some (.symbol id)
  | _ => none

/-- The elements of a list-like object, up to a length. -/
def elements (env : Env σ) (id : ObjectId) : (count : Nat) → (i : Nat) → Action σ (List Value)
  | 0, _ => return []
  | count + 1, i => do
    let v ← env.get id (.ofNat i) (.object id)
    return v :: (← elements env id count (i + 1))

/-- The elements of a list-like object. -/
def listOf (env : Env σ) (v : Value) : Action σ (List Value) := do
  match v with
  | .object id =>
    let length ← env.get id lengthKey v
    let n := ((simpleNumber length).truncate?).getD 0
    elements env id n.toNat 0
  | _ => throwType "not an object"

def proxyKeys (env : Env σ) (parts : Option (ObjectId × ObjectId)) : Action σ (List PropertyKey) := do
  let (target, handler, f) ← trap env parts "ownKeys"
  match f with
  | none => env.ownKeys target
  | some f =>
    let result ← env.call f handler #[.object target]
    let keys ← (← listOf env result).mapM fun v => do
      match keyOfValue? v with
      | some key => return key
      | none => throwType "proxy: properties must be strings or symbols"
    if keys.eraseDups.length ≠ keys.length then throwType "proxy: duplicate property"
    let extensible ← env.isExtensible target
    let own ← env.ownKeys target
    for key in own do
      if !keys.contains key then
        let settled := !extensible || ((← env.getOwn target key).any fun p => !p.configurable)
        if settled then throwType "proxy: target property must be present in proxy ownKeys"
    if !extensible && keys.any (!own.contains ·) then
      throwType "proxy: property not present in target were returned by non extensible proxy"
    return keys

def proxyPrototype (env : Env σ) (parts : Option (ObjectId × ObjectId)) :
    Action σ (Option ObjectId) := do
  let (target, handler, f) ← trap env parts "getPrototypeOf"
  match f with
  | none => env.getPrototype target
  | some f =>
    let result ← env.call f handler #[.object target]
    let proto ← match result with
      | .object id => pure (some id)
      | .null => pure none
      | _ => throwType "proxy: inconsistent prototype"
    if !(← env.isExtensible target) && (← env.getPrototype target) ≠ proto then
      throwType "proxy: inconsistent prototype"
    return proto

def proxySetPrototype (env : Env σ) (parts : Option (ObjectId × ObjectId)) (proto : Option ObjectId) :
    Action σ (Option String) := do
  let (target, handler, f) ← trap env parts "setPrototypeOf"
  match f with
  | none => env.setPrototype target proto
  | some f =>
    let value := match proto with
      | some id => Value.object id
      | none => .null
    if !truthy (← env.call f handler #[.object target, value]) then return some "proxy: bad prototype"
    if !(← env.isExtensible target) && (← env.getPrototype target) ≠ proto then
      throwType "proxy: inconsistent prototype"
    return none

/-! ### The operations -/

def getPrototype (env : Env σ) (id : ObjectId) : Action σ (Option ObjectId) := do
  let o ← object id
  match o.payload with
  | .proxy parts _ _ => proxyPrototype env parts
  | _ => return o.prototype

/-- Whether an object is among the prototypes that start at another. -/
def isInChain (target : ObjectId) : (fuel : Nat) → Option ObjectId → Action σ Bool
  | 0, _ => return false
  | _, none => return false
  | fuel + 1, some id => do
    if id = target then return true
    let o ← object id
    match o.payload with
    | .proxy _ _ _ => return false
    | _ => isInChain target fuel o.prototype

def setPrototype (env : Env σ) (id : ObjectId) (proto : Option ObjectId) :
    Action σ (Option String) := do
  let o ← object id
  match o.payload with
  | .proxy parts _ _ => proxySetPrototype env parts proto
  | _ =>
    if o.prototype = proto then return none
    if !o.isExtensible then return some "object is not extensible"
    if ← isInChain id (← read).objects.size proto then return some "circular prototype chain"
    modifyObject id fun o => { o with prototype := proto }
    return none

def isExtensible (env : Env σ) (id : ObjectId) : Action σ Bool := do
  let o ← object id
  match o.payload with
  | .proxy parts _ _ =>
    let (target, handler, f) ← trap env parts "isExtensible"
    match f with
    | none => env.isExtensible target
    | some f =>
      let result := truthy (← env.call f handler #[.object target])
      if result ≠ (← env.isExtensible target) then throwType "proxy: inconsistent isExtensible"
      return result
  | _ => return o.isExtensible

def preventExtensions (env : Env σ) (id : ObjectId) : Action σ Bool := do
  let o ← object id
  match o.payload with
  | .proxy parts _ _ =>
    let (target, handler, f) ← trap env parts "preventExtensions"
    match f with
    | none => env.preventExtensions target
    | some f =>
      let result := truthy (← env.call f handler #[.object target])
      if result && (← env.isExtensible target) then
        throwType "proxy: inconsistent preventExtensions"
      return result
  | _ =>
    modifyObject id fun o => { o with isExtensible := false }
    return true

def getOwn (env : Env σ) (id : ObjectId) (key : PropertyKey) : Action σ (Option Property) := do
  match ← payload id with
  | .proxy parts _ _ => proxyGetOwn env parts key
  | _ => plainOwn id key

def define (env : Env σ) (id : ObjectId) (key : PropertyKey) (c : Change) :
    Action σ (Option String) := do
  match ← payload id with
  | .proxy parts _ _ => proxyDefine env parts key c
  | _ => ownDefine id key c

def ownKeys (env : Env σ) (id : ObjectId) : Action σ (List PropertyKey) := do
  match ← payload id with
  | .proxy parts _ _ => proxyKeys env parts
  | _ => plainKeys id

def delete (env : Env σ) (id : ObjectId) (key : PropertyKey) : Action σ (Option String) := do
  match ← payload id with
  | .proxy parts _ _ => proxyDelete env parts key
  | _ => ownDelete id key

def hasFrom (env : Env σ) (key : PropertyKey) : (fuel : Nat) → Option ObjectId → Action σ Bool
  | 0, _ => return false
  | _, none => return false
  | fuel + 1, some id => do
    let o ← object id
    match o.payload with
    | .proxy parts _ _ => proxyHas env parts key
    | _ =>
      if (← plainOwn id key).isSome then return true else hasFrom env key fuel o.prototype

/-- Chains of prototypes are no longer than there are objects. -/
def chainBound : Action σ Nat := return (← read).objects.size + 1

def has (env : Env σ) (id : ObjectId) (key : PropertyKey) : Action σ Bool := do
  hasFrom env key (← chainBound) (some id)

def getFrom (env : Env σ) (key : PropertyKey) (receiver : Value) :
    (fuel : Nat) → Option ObjectId → Action σ Value
  | 0, _ => return .undefined
  | _, none => return .undefined
  | fuel + 1, some id => do
    let o ← object id
    match o.payload with
    | .proxy parts _ _ => proxyGet env parts key receiver
    | _ =>
      match ← plainOwn id key with
      | some p =>
        match p.content with
        | .data v => return v
        | .accessor g _ => if g.isUndefined then return .undefined else env.call g receiver #[]
      | none => getFrom env key receiver fuel o.prototype

/-- The property of an object or of its prototypes; getters see the receiver as `this`. -/
def get (env : Env σ) (id : ObjectId) (key : PropertyKey) (receiver : Value) : Action σ Value := do
  getFrom env key receiver (← chainBound) (some id)

/-- Writes a property of the receiver itself, for a set that found no setter. -/
def setOnReceiver (env : Env σ) (key : PropertyKey) (v receiver : Value) :
    Action σ (Option String) := do
  match receiver with
  | .object id =>
    match ← getOwn env id key with
    | some p =>
      match p.content with
      | .accessor _ _ => return some "setter is forbidden"
      | .data _ =>
        if p.writable then define env id key { Change.none with value := some v } else readOnly key
    | none =>
      let o ← object id
      match o.payload with
      | .proxy _ _ _ | .typedArray _ _ _ _ => define env id key (.ofProperty (.plain v))
      | _ =>
        if o.isExtensible then define env id key (.ofProperty (.plain v))
        else return some notExtensible
  | _ => return some "not an object"

def setFrom (env : Env σ) (key : PropertyKey) (v receiver : Value) :
    (fuel : Nat) → Option ObjectId → Action σ (Option String)
  | 0, _ => return none
  | _, none => setOnReceiver env key v receiver
  | fuel + 1, some id => do
    let o ← object id
    match o.payload with
    | .proxy parts _ _ => proxySet env parts key v receiver
    | _ =>
      match ← plainOwn id key with
      | some p =>
        match p.content with
        | .data _ =>
          if !p.writable then readOnly key
          else if receiver = .object id then
            define env id key { Change.none with value := some v }
          else setOnReceiver env key v receiver
        | .accessor _ s =>
          if s.isUndefined then return some "no setter for property"
          else
            let _ ← env.call s receiver #[v]
            return none
      | none => setFrom env key v receiver fuel o.prototype

def set (env : Env σ) (id : ObjectId) (key : PropertyKey) (v receiver : Value) :
    Action σ (Option String) := do
  setFrom env key v receiver (← chainBound) (some id)

/-- Ends with an exception if a change was refused. -/
def must (outcome : Action σ (Option String)) : Action σ Unit := do
  match ← outcome with
  | none => return
  | some message => throwType message

end PluginRelay.Script.Access
