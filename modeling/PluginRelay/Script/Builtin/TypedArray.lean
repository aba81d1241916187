import PluginRelay.Script.Builtin.Sort

/-!
# Typed arrays

Lists of numbers of a fixed width, over the bytes of a buffer. Methods that only read are those of other
lists.
-/
namespace PluginRelay.Script.Builtin.TypedArrayFunctions

open Script.Action Script.Access Script.Convert

variable {σ : Type} [Evolving σ]

/-! ### Buffers -/

def newBuffer (size : Nat) : Action σ ObjectId :=
  newObject .arrayBufferPrototype (.arrayBuffer (Array.replicate size 0))

/-- No buffer is larger. -/
def bufferLimit : Int := 2147483647

/-- A size or place that an argument names. -/
def index (env : Env σ) (v : Value) (message : String) : Action σ Nat := do
  match ← toWhole env v with
  | .finite n => if 0 ≤ n && n ≤ lengthLimit then return n.toNat else throwRange message
  | .infinite _ => throwRange message

def constructBuffer (proto : Intrinsic) : Native σ := fun env c => do
  mustBeNew c
  let size ← index env (c.arg 0) "invalid array index"
  if bufferLimit < size then throwRange "invalid array buffer length"
  return .object (← create env c proto (.arrayBuffer (Array.replicate size 0)))

def bytesOf (v : Value) : Action σ (Array UInt8) := do
  match v with
  | .object id =>
    match ← payload id with
    | .arrayBuffer bytes => return bytes
    | _ => expected "ArrayBuffer"
  | _ => expected "ArrayBuffer"

def bufferLength : Native σ := fun _ c => do return .ofNat (← bytesOf c.this).size

def bufferSlice (proto : Intrinsic) : Native σ := fun env c => do
  let bytes ← bytesOf c.this
  let start ← toPlace env (c.arg 0) bytes.size 0
  let stop ← toPlace env (c.arg 1) bytes.size bytes.size
  return .object (← newObject proto (.arrayBuffer (bytes.extract start stop)))

def isView : Native σ := fun _ c => do
  match c.arg 0 with
  | .object id =>
    match ← payload id with
    | .typedArray _ _ _ _ | .dataView _ _ _ => return .bool true
    | _ => return .bool false
  | _ => return .bool false

/-! ### Lists over buffers -/

structure View where
  id : ObjectId
  kind : ElementKind
  buffer : ObjectId
  offset : Nat
  length : Nat

def view? (v : Value) : Action σ (Option View) := do
  match v with
  | .object id =>
    match ← payload id with
    | .typedArray kind buffer offset length => return some ⟨id, kind, buffer, offset, length⟩
    | _ => return none
  | _ => return none

def view (v : Value) : Action σ View := do
  match ← view? v with
  | some w => return w
  | none => throwType "not a TypedArray"

def store (w : View) (i : Nat) (v : Value) : Action σ Unit := writeElement w.kind w.buffer w.offset i v

def load (w : View) (i : Nat) : Action σ Value := do
  return w.kind.read (← elementBytes w.kind w.buffer w.offset i)

def newView (proto : ObjectId) (kind : ElementKind) (length : Nat) : Action σ View := do
  let buffer ← newBuffer (length * kind.width)
  let id ← allocate (.new (some proto) (.typedArray kind buffer 0 length))
  return ⟨id, kind, buffer, 0, length⟩

def fillView (env : Env σ) (w : View) (values : List Value) : Action σ Unit := do
  for (v, i) in values.zipIdx do store w i (← toElement env w.kind v)

/-- A list over a part of a buffer. -/
def overBuffer (env : Env σ) (proto : ObjectId) (kind : ElementKind) (buffer : ObjectId) (size : Nat)
    (offset length : Value) : Action σ ObjectId := do
  let start ← index env offset "invalid offset"
  if start % kind.width ≠ 0 || size < start then throwRange "invalid offset"
  let count ← if length.isUndefined then
      if (size - start) % kind.width ≠ 0 then throwRange "invalid length"
      else pure ((size - start) / kind.width)
    else index env length "invalid length"
  if size < start + count * kind.width then throwRange "invalid length"
  allocate (.new (some proto) (.typedArray kind buffer start count))

def construct (kind : ElementKind) : Native σ := fun env c => do
  mustBeNew c
  let proto ← Function.prototypeFrom env c.newTarget (.elementsPrototype kind)
  match c.arg 0 with
  | .object source =>
    match ← payload source with
    | .arrayBuffer bytes =>
      return .object (← overBuffer env proto kind source bytes.size (c.arg 1) (c.arg 2))
    | _ =>
      let method ← getMember env (c.arg 0) WellKnown.iterator.key
      let values ← if method.isNullish then do
          let n ← lengthOf env source
          (List.range n).mapM fun i => Access.get env source (.ofNat i) (c.arg 0)
        else Iterate.toList env (c.arg 0)
      let w ← newView proto kind values.length
      fillView env w values
      return .object w.id
  | v =>
    let n ← index env v "invalid array index"
    if bufferLimit < (n * kind.width : Nat) then throwRange "invalid array buffer length"
    return .object (← newView proto kind n).id

def constructNone : Native σ := fun _ _ => throwType "cannot be called"

/-! ### Reading -/

def ofView (select : View → Value) : Native σ := fun _ c => do return select (← view c.this)

def tag : Native σ := fun _ c => do
  match ← view? c.this with
  | some w => return .ofString w.kind.name
  | none => nothing

/-- A method of other lists, for typed arrays only. -/
def checked (run : Native σ) : Native σ := fun env c => do
  let _ ← view c.this
  run env c

/-! ### New lists -/

/-- A new list of the kind that the class of a list names. -/
def speciesView (env : Env σ) (w : View) (args : Array Value) : Action σ View := do
  let default ← intrinsic (.constructor w.kind.name)
  let constructor ← species env w.id (.object default)
  view (← env.construct constructor args constructor)

/-- A new list of the same kind. -/
def sameView (w : View) (length : Nat) : Action σ View := do
  newView (← intrinsic (.elementsPrototype w.kind)) w.kind length

def values (w : View) : Action σ (List Value) := (List.range w.length).mapM (load w)

def map : Native σ := fun env c => do
  let w ← view c.this
  let f ← callback (c.arg 0)
  let result ← speciesView env w #[.ofNat w.length]
  for i in [0:w.length] do
    let v ← env.call f (c.arg 1) #[← load w i, .ofNat i, c.this]
    store result i (← toElement env result.kind v)
  return .object result.id

def filter : Native σ := fun env c => do
  let w ← view c.this
  let f ← callback (c.arg 0)
  let kept ← (List.range w.length).filterMapM fun i => do
    let v ← load w i
    return if truthy (← env.call f (c.arg 1) #[v, .ofNat i, c.this]) then some v else none
  let result ← speciesView env w #[.ofNat kept.length]
  fillView env result kept
  return .object result.id

def slice : Native σ := fun env c => do
  let w ← view c.this
  let start ← toPlace env (c.arg 0) w.length 0
  let stop ← toPlace env (c.arg 1) w.length w.length
  let result ← speciesView env w #[.ofNat (stop - start)]
  fillView env result (((← values w).take stop).drop start)
  return .object result.id

def subarray : Native σ := fun env c => do
  let w ← view c.this
  let start ← toPlace env (c.arg 0) w.length 0
  let stop ← toPlace env (c.arg 1) w.length w.length
  let args := #[.object w.buffer, .ofNat (w.offset + start * w.kind.width), .ofNat (stop - start)]
  return .object (← speciesView env w args).id

def fill : Native σ := fun env c => do
  let w ← view c.this
  let v ← toElement env w.kind (c.arg 0)
  let start ← toPlace env (c.arg 1) w.length 0
  let stop ← toPlace env (c.arg 2) w.length w.length
  for i in [start:stop] do store w i v
  return c.this

def set : Native σ := fun env c => do
  let w ← view c.this
  let start ← index env (c.arg 1) "invalid array index"
  let source ← toObject (c.arg 0)
  let n ← lengthOf env source
  if w.length < start + n then throwRange "invalid array length"
  let items ← (List.range n).mapM fun i => Access.get env source (.ofNat i) (.object source)
  for (v, i) in items.zipIdx do store w (start + i) (← toElement env w.kind v)
  nothing

/-- The order of numbers: negative zero comes before zero, and what is no number last. -/
def byNumber : Sorting.Comparison Value (Action σ) := fun a b => do
  match a, b with
  | .bigint m, .bigint n => return if m.value < n.value then -1 else if n.value < m.value then 1 else 0
  | _, _ =>
    let x := (a.number?).getD .nan
    let y := (b.number?).getD .nan
    match compareDoubles x y with
    | some .lt => return -1
    | some .gt => return 1
    | some .eq => return if x.isNegative && !y.isNegative then -1 else if y.isNegative && !x.isNegative then 1 else 0
    | none => return if x.isNaN then (if y.isNaN then 0 else 1) else -1

def sortedValues (env : Env σ) (f : Value) (w : View) : Action σ (List Value) := do
  let f ← ArrayFunctions.comparison f
  let items ← values w
  if f.isUndefined then return (← Sorting.sort byNumber items.toArray).toList
  else ArrayFunctions.sorted env f items

def sort : Native σ := fun env c => do
  let w ← view c.this
  fillView env w (← sortedValues env (c.arg 0) w)
  return c.this

def toSorted : Native σ := fun env c => do
  let w ← view c.this
  let items ← sortedValues env (c.arg 0) w
  let result ← sameView w w.length
  fillView env result items
  return .object result.id

def toReversed : Native σ := fun env c => do
  let w ← view c.this
  let result ← sameView w w.length
  fillView env result (← values w).reverse
  return .object result.id

def with_ : Native σ := fun env c => do
  let w ← view c.this
  let place ← toWhole env (c.arg 0)
  let v ← toElement env w.kind (c.arg 1)
  match place with
  | .finite i =>
    let i := if i < 0 then i + w.length else i
    if i < 0 || (w.length : Int) ≤ i then throwRange "invalid array index"
    let result ← sameView w w.length
    fillView env result ((← values w).set i.toNat v)
    return .object result.id
  | .infinite _ => throwRange "invalid array index"

def listBy (env : Env σ) (c : Call) (items : List Value) : Action σ Value := do
  if !(← isConstructor c.this) then throwType "not a constructor"
  let made ← env.construct c.this #[.ofNat items.length] c.this
  let w ← view made
  if w.length < items.length then throwType "TypedArray length is too small"
  fillView env w items
  return made

def fromValues : Native σ := fun env c => do
  let mapper ← ArrayFunctions.comparison (c.arg 1)
  let source := c.arg 0
  let method ← getMember env source WellKnown.iterator.key
  let items ← if method.isNullish then do
      let id ← toObject source
      let n ← lengthOf env id
      (List.range n).mapM fun i => Access.get env id (.ofNat i) (.object id)
    else Iterate.toList env source
  let items ← if mapper.isUndefined then pure items
    else items.zipIdx.mapM fun (v, i) => env.call mapper (c.arg 2) #[v, .ofNat i]
  listBy env c items

def ofValues : Native σ := fun env c => listBy env c c.arguments.toList

/-- The name of the constructor from which those of all kinds inherit. -/
def baseName : String := "TypedArray"

def table : List (Builtin σ) :=
  let buffer := Owner.intrinsic .arrayBufferPrototype
  let static := Owner.intrinsic (.constructor baseName)
  let proto := Owner.intrinsic .typedArrayPrototype
  let borrowed (name : String) (length : Nat) (run : Native σ) : Builtin σ :=
    method proto name length (checked run)
  let sharedBuffer := Owner.intrinsic .sharedBufferPrototype
  [constructor "ArrayBuffer" 1 .arrayBufferPrototype (constructBuffer .arrayBufferPrototype),
    method (.intrinsic (.constructor "ArrayBuffer")) "isView" 1 isView,
    symbolGetter (.intrinsic (.constructor "ArrayBuffer")) .species speciesGetter,
    getter buffer "byteLength" bufferLength,
    method buffer "slice" 2 (bufferSlice .arrayBufferPrototype),
    constructor "SharedArrayBuffer" 1 .sharedBufferPrototype (constructBuffer .sharedBufferPrototype),
    symbolGetter (.intrinsic (.constructor "SharedArrayBuffer")) .species speciesGetter,
    getter sharedBuffer "byteLength" bufferLength,
    method sharedBuffer "slice" 2 (bufferSlice .sharedBufferPrototype),
    ⟨.nowhere, .ofString baseName, baseName, 0, .constructor (some .typedArrayPrototype) none, constructNone⟩,
    method static "from" 1 fromValues,
    method static "of" 0 ofValues,
    symbolGetter static .species speciesGetter,
    getter proto "length" (ofView fun w => .ofNat w.length),
    method proto "at" 1 (checked ArrayFunctions.at_),
    method proto "with" 2 with_,
    getter proto "buffer" (ofView fun w => .object w.buffer),
    getter proto "byteLength" (ofView fun w => .ofNat (w.length * w.kind.width)),
    getter proto "byteOffset" (ofView fun w => .ofNat w.offset),
    method proto "set" 1 set,
    borrowed "values" 0 (ArrayFunctions.iterator .values),
    borrowed "keys" 0 (ArrayFunctions.iterator .keys),
    borrowed "entries" 0 (ArrayFunctions.iterator .entries),
    symbolGetter proto .toStringTag tag,
    borrowed "copyWithin" 2 ArrayFunctions.copyWithin,
    borrowed "every" 1 ArrayFunctions.every,
    borrowed "some" 1 ArrayFunctions.some_,
    borrowed "forEach" 1 ArrayFunctions.forEach,
    method proto "map" 1 map,
    method proto "filter" 1 filter,
    borrowed "reduce" 1 (ArrayFunctions.reduce false),
    borrowed "reduceRight" 1 (ArrayFunctions.reduce true),
    method proto "fill" 1 fill,
    borrowed "find" 1 (ArrayFunctions.find false false),
    borrowed "findIndex" 1 (ArrayFunctions.find false true),
    borrowed "findLast" 1 (ArrayFunctions.find true false),
    borrowed "findLastIndex" 1 (ArrayFunctions.find true true),
    borrowed "reverse" 0 ArrayFunctions.reverse,
    method proto "toReversed" 0 toReversed,
    method proto "slice" 2 slice,
    method proto "subarray" 2 subarray,
    method proto "sort" 1 sort,
    method proto "toSorted" 1 toSorted,
    borrowed "join" 1 ArrayFunctions.join,
    borrowed "toLocaleString" 0 ArrayFunctions.toLocaleString,
    borrowed "indexOf" 1 ArrayFunctions.indexOf,
    borrowed "lastIndexOf" 1 ArrayFunctions.lastIndexOf,
    borrowed "includes" 1 ArrayFunctions.includes] ++
    ElementKind.all.map fun kind =>
      childConstructor kind.name 3 (.elementsPrototype kind) baseName (construct kind)

end PluginRelay.Script.Builtin.TypedArrayFunctions
