import PluginRelay.Script.Builtin

/-!
# Making contexts

A context has its own global object, prototypes and built-in functions. Prototypes are made first, then
the functions of the table, and last the members that are no functions.
-/
namespace PluginRelay.Script.Realm

open Script.Action Script.Access
open Evolution (update)

variable {σ : Type} [Evolving σ]

/-! ### Prototypes -/

/-- The prototypes with what they inherit from, each after its own prototype. -/
def prototypes : List (Intrinsic × Intrinsic × Payload) :=
  [(.functionPrototype, .objectPrototype, .ordinary),
    (.arrayPrototype, .objectPrototype, .array 0 false),
    (.stringPrototype, .objectPrototype, .primitive (.text #[])),
    (.numberPrototype, .objectPrototype, .primitive (.int 0)),
    (.booleanPrototype, .objectPrototype, .primitive (.bool false)),
    (.symbolPrototype, .objectPrototype, .ordinary),
    (.bigintPrototype, .objectPrototype, .ordinary),
    (.iteratorPrototype, .objectPrototype, .ordinary),
    (.asyncIteratorPrototype, .objectPrototype, .ordinary),
    (.arrayIteratorPrototype, .iteratorPrototype, .ordinary),
    (.mapIteratorPrototype, .iteratorPrototype, .ordinary),
    (.setIteratorPrototype, .iteratorPrototype, .ordinary),
    (.stringIteratorPrototype, .iteratorPrototype, .ordinary),
    (.regexpIteratorPrototype, .iteratorPrototype, .ordinary),
    (.generatorPrototype, .iteratorPrototype, .ordinary),
    (.asyncGeneratorPrototype, .asyncIteratorPrototype, .ordinary),
    (.asyncFromSyncPrototype, .asyncIteratorPrototype, .ordinary),
    (.generatorFunctionPrototype, .functionPrototype, .ordinary),
    (.asyncFunctionPrototype, .functionPrototype, .ordinary),
    (.asyncGeneratorFunctionPrototype, .functionPrototype, .ordinary),
    (.promisePrototype, .objectPrototype, .ordinary),
    (.regexpPrototype, .objectPrototype, .ordinary),
    (.datePrototype, .objectPrototype, .ordinary),
    (.mapPrototype, .objectPrototype, .ordinary),
    (.setPrototype, .objectPrototype, .ordinary),
    (.weakMapPrototype, .objectPrototype, .ordinary),
    (.weakSetPrototype, .objectPrototype, .ordinary),
    (.arrayBufferPrototype, .objectPrototype, .ordinary),
    (.sharedBufferPrototype, .objectPrototype, .ordinary),
    (.dataViewPrototype, .objectPrototype, .ordinary),
    (.typedArrayPrototype, .objectPrototype, .ordinary),
    (.errorPrototype .error, .objectPrototype, .ordinary)] ++
    ((ErrorKind.all.filter (· ≠ .error)).map fun kind =>
      (.errorPrototype kind, .errorPrototype .error, .ordinary)) ++
    ElementKind.all.map fun kind => (.elementsPrototype kind, .typedArrayPrototype, .ordinary)

def changeRealm (change : Realm → Realm) : Action σ Unit :=
  update fun m => { m with realms := m.realms.modify m.realm change }

def register (i : Intrinsic) (id : ObjectId) : Action σ Unit :=
  changeRealm fun r => { r with intrinsics := r.intrinsics.insert i id }

def makePrototypes : Action σ Unit := do
  register .objectPrototype (← allocate (.new none .ordinary))
  for (i, parent, payload) in prototypes do register i (← newObject parent payload)
  let f ← intrinsic .functionPrototype
  setPayload f (.internal .constant #[.undefined] (← read).realm)
  Function.setProperties f #[] 0

/-! ### Functions -/

/-- The object that gets a function as its member, if any. -/
def ownerObject : Owner → Action σ (Option ObjectId)
  | .global => return some (← globalObject)
  | .nowhere => return none
  | .intrinsic (.module name) => do
    match (← currentRealm).intrinsics[Intrinsic.module name]? with
    | some id => return some id
    | none =>
      let id ← newPlain
      register (.module name) id
      putProperty (← globalObject) (.ofString name) (.hidden (.object id))
      return some id
  | .intrinsic i => return some (← intrinsic i)

def newFunction (index : Nat) (b : Builtin σ) (parent : ObjectId) (constructs : Bool) :
    Action σ ObjectId := do
  let id ← allocate (.new (some parent) (.builtin index constructs (← read).realm))
  Function.setProperties id (Units.ofString b.name) b.length
  return id

def putMember (b : Builtin σ) (p : Property) : Action σ Unit := do
  match ← ownerObject b.owner with
  | some owner => putProperty owner b.key p
  | none => return

/-- Makes a getter or a setter beside what is there. -/
def putAccessor (b : Builtin σ) (f : ObjectId) (isGetter : Bool) : Action σ Unit := do
  match ← ownerObject b.owner with
  | some owner =>
    let (g, s) := match ((← object owner).find? b.key).map (·.content) with
      | some (.accessor g s) => (g, s)
      | _ => (.undefined, .undefined)
    let content := if isGetter then Content.accessor (.object f) s else .accessor g (.object f)
    putProperty owner b.key ⟨content, false, false, true⟩
  | none => return

def makeFunction (index : Nat) (b : Builtin σ) : Action σ Unit := do
  let base ← intrinsic .functionPrototype
  match b.role with
  | .method | .step => putMember b (.hidden (.object (← newFunction index b base false)))
  | .getter => putAccessor b (← newFunction index b base false) true
  | .setter => putAccessor b (← newFunction index b base false) false
  | .known i => register i (← newFunction index b base false)
  | .constructor proto parent =>
    let parent ← match parent with
      | some name => intrinsic (.constructor name)
      | none => pure base
    let id ← newFunction index b parent true
    register (.constructor b.name) id
    match proto with
    | some p =>
      let p ← intrinsic p
      putProperty id prototypeKey (.fixed (.object p))
      putProperty p constructorKey (.hidden (.object id))
    | none => pure ()
    putMember b (.hidden (.object id))

/-! ### Other members -/

/-- A member that only a new definition can change. -/
def lasting (v : Value) : Property := ⟨.data v, false, false, true⟩

/-- What objects are called in texts. -/
def tags : List (Intrinsic × String) :=
  [(.symbolPrototype, "Symbol"), (.bigintPrototype, "BigInt"), (.module "Math", "Math"),
    (.module "JSON", "JSON"), (.module "Reflect", "Reflect"), (.promisePrototype, "Promise"),
    (.mapPrototype, "Map"), (.setPrototype, "Set"), (.weakMapPrototype, "WeakMap"),
    (.weakSetPrototype, "WeakSet"), (.arrayBufferPrototype, "ArrayBuffer"),
    (.sharedBufferPrototype, "SharedArrayBuffer"), (.dataViewPrototype, "DataView"),
    (.module "Atomics", "Atomics"),
    (.arrayIteratorPrototype, "Array Iterator"), (.stringIteratorPrototype, "String Iterator"),
    (.mapIteratorPrototype, "Map Iterator"), (.setIteratorPrototype, "Set Iterator"),
    (.regexpIteratorPrototype, "RegExp String Iterator"), (.generatorPrototype, "Generator"),
    (.asyncGeneratorPrototype, "AsyncGenerator"), (.generatorFunctionPrototype, "GeneratorFunction"),
    (.asyncFunctionPrototype, "AsyncFunction"),
    (.asyncGeneratorFunctionPrototype, "AsyncGeneratorFunction")]

/-- Members that are the same function as another member: where, the new key, and the other place. -/
def aliases : List (Intrinsic × PropertyKey × Option Intrinsic × String) :=
  [(.arrayPrototype, WellKnown.iterator.key, some .arrayPrototype, "values"),
    (.typedArrayPrototype, WellKnown.iterator.key, some .typedArrayPrototype, "values"),
    (.typedArrayPrototype, "toString", some .arrayPrototype, "toString"),
    (.mapPrototype, WellKnown.iterator.key, some .mapPrototype, "entries"),
    (.setPrototype, "keys", some .setPrototype, "values"),
    (.setPrototype, WellKnown.iterator.key, some .setPrototype, "values"),
    (.stringPrototype, "trimRight", some .stringPrototype, "trimEnd"),
    (.stringPrototype, "trimLeft", some .stringPrototype, "trimStart"),
    (.datePrototype, "toGMTString", some .datePrototype, "toUTCString"),
    (.constructor "Number", "parseInt", none, "parseInt"),
    (.constructor "Number", "parseFloat", none, "parseFloat")]

/-- Numbers that stand under a name; doubles by their bits. -/
def numbers : List (Intrinsic × String × Binary64) :=
  let double (bits : UInt64) : Binary64 := ⟨bits⟩
  [(.constructor "Number", "MAX_VALUE", double 0x7FEFFFFFFFFFFFFF),
    (.constructor "Number", "MIN_VALUE", double 1),
    (.constructor "Number", "NaN", .nan),
    (.constructor "Number", "NEGATIVE_INFINITY", Binary64.infinity.neg),
    (.constructor "Number", "POSITIVE_INFINITY", .infinity),
    (.constructor "Number", "EPSILON", double 0x3CB0000000000000),
    (.constructor "Number", "MAX_SAFE_INTEGER", .ofInt 9007199254740991),
    (.constructor "Number", "MIN_SAFE_INTEGER", .ofInt (-9007199254740991)),
    (.module "Math", "E", double 0x4005BF0A8B145769),
    (.module "Math", "LN10", double 0x40026BB1BBB55516),
    (.module "Math", "LN2", double 0x3FE62E42FEFA39EF),
    (.module "Math", "LOG2E", double 0x3FF71547652B82FE),
    (.module "Math", "LOG10E", double 0x3FDBCB7B1526E50E),
    (.module "Math", "PI", double 0x400921FB54442D18),
    (.module "Math", "SQRT1_2", double 0x3FE6A09E667F3BCD),
    (.module "Math", "SQRT2", double 0x3FF6A09E667F3BCD)]

/-- Methods of lists that do not count as names in blocks with an object's names. -/
def unscopable : List String :=
  ["at", "copyWithin", "entries", "fill", "find", "findIndex", "findLast", "findLastIndex", "flat",
    "flatMap", "includes", "keys", "toReversed", "toSorted", "toSpliced", "values"]

def memberOf (id : ObjectId) (key : PropertyKey) : Action σ Value := do
  return (((← object id).find? key).map (·.value)).getD .undefined

def makeAliases : Action σ Unit := do
  for (target, key, source, name) in aliases do
    let from_ ← match source with
      | some i => intrinsic i
      | none => globalObject
    putProperty (← intrinsic target) key (.hidden (← memberOf from_ (.ofString name)))
  match ← memberOf (← intrinsic .arrayPrototype) (.ofString "values") with
  | .object id => register .arrayValues id
  | _ => pure ()
  match ← memberOf (← globalObject) (.ofString "eval") with
  | .object id => register .evaluate id
  | _ => pure ()

def makeConstants : Action σ Unit := do
  for (target, name, x) in numbers do
    putProperty (← intrinsic target) (.ofString name) (.fixed (.ofDouble x))
  let symbol ← intrinsic (.constructor "Symbol")
  for w in WellKnown.all do putProperty symbol (.ofString w.name) (.fixed (.symbol w.id))
  for kind in ElementKind.all do
    let width := Property.fixed (.ofNat kind.width)
    putProperty (← intrinsic (.constructor kind.name)) "BYTES_PER_ELEMENT" width
    putProperty (← intrinsic (.elementsPrototype kind)) "BYTES_PER_ELEMENT" width
  for kind in ErrorKind.all do
    let proto ← intrinsic (.errorPrototype kind)
    putProperty proto nameKey (.hidden (.ofString kind.name))
    putProperty proto messageKey (.hidden (.ofString ""))
  for (i, tag) in tags do
    putProperty (← intrinsic i) WellKnown.toStringTag.key (lasting (.ofString tag))
  let names ← allocate (.new none .ordinary)
  for name in unscopable do putProperty names (.ofString name) (.plain (.bool true))
  putProperty (← intrinsic .arrayPrototype) WellKnown.unscopables.key (lasting (.object names))

/-- Functions that make generators inherit from an object that leads to the prototype of generators. -/
def linkGenerators : Action σ Unit := do
  for (f, proto) in [(Intrinsic.generatorFunctionPrototype, Intrinsic.generatorPrototype),
      (.asyncGeneratorFunctionPrototype, .asyncGeneratorPrototype)] do
    let f ← intrinsic f
    let proto ← intrinsic proto
    putProperty f prototypeKey (lasting (.object proto))
    putProperty proto constructorKey (lasting (.object f))

def makeGlobals : Action σ Unit := do
  let id ← globalObject
  putProperty id "Infinity" (.fixed (.double .infinity))
  putProperty id "NaN" (.fixed .nan)
  putProperty id "undefined" (.fixed .undefined)
  putProperty id "globalThis" (.hidden (.object id))
  putProperty id WellKnown.toStringTag.key (lasting (.ofString "global"))

/-- Makes a context. -/
def create : Action σ RealmId := do
  let id := (← read).realms.size
  update fun m => { m with realms := m.realms.push ⟨0, ∅, ∅⟩ }
  inRealm id do
    makePrototypes
    let global ← newPlain
    changeRealm fun r => { r with global := global }
    for (b, i) in (Builtin.table (σ := σ)).toList.zipIdx do makeFunction i b
    makeAliases
    makeConstants
    linkGenerators
    makeGlobals
  return id

end PluginRelay.Script.Realm
