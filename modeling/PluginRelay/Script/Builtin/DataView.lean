import PluginRelay.Script.Builtin.TypedArray

/-!
# Views of bytes, and shared elements

A view reads and writes numbers of all kinds at any place of a buffer, in either order of bytes. Elements
of typed arrays that several threads could see are changed by one operation each.
-/
namespace PluginRelay.Script.Builtin.DataViewFunctions

open Script.Action Script.Access Script.Convert
open TypedArrayFunctions (index bytesOf View view? store load)

variable {σ : Type} [Evolving σ]

/-! ### Views of bytes -/

structure Window where
  buffer : ObjectId
  offset : Nat
  length : Nat

def window? (v : Value) : Action σ (Option Window) := do
  match v with
  | .object id =>
    match ← payload id with
    | .dataView buffer offset length => return some ⟨buffer, offset, length⟩
    | _ => return none
  | _ => return none

def window (v : Value) : Action σ Window := do
  match ← window? v with
  | some w => return w
  | none => expected "DataView"

def construct : Native σ := fun env c => do
  mustBeNew c
  let size := (← bytesOf (c.arg 0)).size
  let buffer ← mustBeObject (c.arg 0)
  let offset ← index env (c.arg 1) "invalid array index"
  if size < offset then throwRange "invalid byteOffset"
  let length ← if (c.arg 2).isUndefined then pure (size - offset)
    else index env (c.arg 2) "invalid array index"
  if size - offset < length then throwRange "invalid byteLength"
  return .object (← create env c .dataViewPrototype (.dataView buffer offset length))

def ofWindow (select : Window → Value) : Native σ := fun _ c => do
  match ← window? c.this with
  | some w => return select w
  | none => throwType "not a DataView"

/-- What the numbers of a kind are called in the names of methods. -/
def kindName (kind : ElementKind) : String := String.ofList (kind.name.toList.take (kind.name.length - 5))

/-- Bytes in the order of a view: the least significant one comes first only if that is asked for. -/
def ordered (littleEndian : Value) (bytes : List UInt8) : List UInt8 :=
  if truthy littleEndian then bytes else bytes.reverse

def read (kind : ElementKind) : Native σ := fun env c => do
  let w ← window c.this
  let place ← index env (c.arg 0) "invalid array index"
  if w.length < place + kind.width then throwRange "out of bound"
  let start := w.offset + place
  let bytes := ((← bytesOf (.object w.buffer)).extract start (start + kind.width)).toList
  return kind.read (ordered (c.arg 1) bytes)

def write (kind : ElementKind) : Native σ := fun env c => do
  let w ← window c.this
  let place ← index env (c.arg 0) "invalid array index"
  let bytes ← match ← toElement env kind (c.arg 1) with
    | .bigint n => pure (ElementKind.writeBig n.value)
    | v => pure (kind.write (simpleNumber v))
  if w.length < place + kind.width then throwRange "out of bound"
  let old ← bytesOf (.object w.buffer)
  let new := (ordered (c.arg 2) bytes).zipIdx.foldl
    (fun (a : Array UInt8) (b, i) => a.set! (w.offset + place + i) b) old
  setPayload w.buffer (.arrayBuffer new)
  nothing

/-- The kinds of numbers that have methods. -/
def kinds : List ElementKind := ElementKind.all.filter (· ≠ .uint8Clamped)

/-! ### Shared elements -/

/-- An element of a list of integers. -/
def element (env : Env σ) (c : Call) (isWaitable : Bool) : Action σ (View × Nat) := do
  let isSuitable : ElementKind → Bool
    | .int32 | .bigInt64 => true
    | .float32 | .float64 | .uint8Clamped => false
    | _ => !isWaitable
  match ← view? (c.arg 0) with
  | some w =>
    if !isSuitable w.kind then throwType "integer TypedArray expected"
    let i ← index env (c.arg 1) "invalid array index"
    if w.length ≤ i then throwRange "out-of-bound access"
    return (w, i)
  | none => throwType "integer TypedArray expected"

/-- An integer as an element is given. -/
def toInteger (env : Env σ) (w : View) (v : Value) : Action σ Value := do
  if w.kind.isBig then return .large (← toBigint env v) else return .int (← toInt32 env v)

/-- Changes an element by an operation on bits of 64 digits; the old element is the answer. -/
def exchange (change : Int → Int → Int) : Native σ := fun env c => do
  let (w, i) ← element env c false
  let v ← toInteger env w (c.arg 2)
  let old ← load w i
  let number : Value → Int
    | .bigint n => n.value
    | .int n => n
    | .double x => (x.truncate?).getD 0
    | _ => 0
  let new := change (number old) (number v)
  store w i (if w.kind.isBig then .large new else .ofInt new)
  return old

/-- An operation on the last 64 digits of two integers. -/
def bitwise (f : UInt64 → UInt64 → UInt64) (m n : Int) : Int :=
  let digits (k : Int) : UInt64 := UInt64.ofNat (k % UInt64.size).toNat
  (f (digits m) (digits n)).toNat

def compareExchange : Native σ := fun env c => do
  let (w, i) ← element env c false
  let wanted ← toInteger env w (c.arg 2)
  let v ← toInteger env w (c.arg 3)
  let old ← load w i
  store w i wanted
  let asStored ← load w i
  store w i (if old.sameValue asStored then v else old)
  return old

def loadElement : Native σ := fun env c => do
  let (w, i) ← element env c false
  load w i

def storeElement : Native σ := fun env c => do
  let (w, i) ← element env c false
  if w.kind.isBig then
    let n ← toBigint env (c.arg 2)
    store w i (.large n)
    return .large n
  else
    match ← toWhole env (c.arg 2) with
    | .finite n =>
      store w i (.ofInt n)
      return .ofInt n
    | .infinite negative =>
      store w i (.int 0)
      return .double (if negative then Binary64.infinity.neg else .infinity)

def isLockFree : Native σ := fun env c => do
  let n ← toInt32 env (c.arg 0)
  bool ([1, 2, 4, 8].contains n)

def wait : Native σ := fun env c => do
  let _ ← element env c true
  throwType "not a SharedArrayBuffer TypedArray"

def notify : Native σ := fun env c => do
  let _ ← element env c true
  ok (.int 0)

def table : List (Builtin σ) :=
  let proto := Owner.intrinsic .dataViewPrototype
  let atomics := Owner.module "Atomics"
  [constructor "DataView" 1 .dataViewPrototype construct,
    getter proto "buffer" (ofWindow fun w => .object w.buffer),
    getter proto "byteLength" (ofWindow fun w => .ofNat w.length),
    getter proto "byteOffset" (ofWindow fun w => .ofNat w.offset)] ++
    kinds.map (fun kind => method proto ("get" ++ kindName kind) 1 (read kind)) ++
    kinds.map (fun kind => method proto ("set" ++ kindName kind) 2 (write kind)) ++
  [method atomics "add" 3 (exchange (· + ·)),
    method atomics "and" 3 (exchange (bitwise (· &&& ·))),
    method atomics "or" 3 (exchange (bitwise (· ||| ·))),
    method atomics "sub" 3 (exchange (· - ·)),
    method atomics "xor" 3 (exchange (bitwise (· ^^^ ·))),
    method atomics "exchange" 3 (exchange fun _ n => n),
    method atomics "compareExchange" 4 compareExchange,
    method atomics "load" 2 loadElement,
    method atomics "store" 3 storeElement,
    method atomics "isLockFree" 1 isLockFree,
    method atomics "wait" 4 wait,
    method atomics "notify" 3 notify]

end PluginRelay.Script.Builtin.DataViewFunctions
