import PluginRelay.Cbor.Value

/-!
# CBOR headers

Each item starts with a header: a major type and an argument of up to eight bytes. Writing uses the
shortest form of the argument, for floats too; reading takes every form.
-/
namespace PluginRelay.Cbor

/-- Why bytes do not decode. -/
inductive Fault where
  /-- The input stops inside an item. -/
  | ended
  /-- The bytes are no CBOR. -/
  | malformed
  /-- An item of another shape is asked for. -/
  | mismatch
  /-- Too many arrays, maps and tags around an item. -/
  | tooDeep
  deriving DecidableEq, Repr, Inhabited

/-- A reader takes something off the front of the bytes. -/
abbrev Reader (α : Type) := Bytes → Except Fault (α × Bytes)

inductive Header where
  | natural (n : UInt64)
  | negative (n : UInt64)
  | bytes (length : Option Nat)
  | text (length : Option Nat)
  | array (length : Option Nat)
  | map (length : Option Nat)
  | tag (number : UInt64)
  | simple (n : UInt8)
  | float (x : Binary64)
  | stop
  deriving DecidableEq, Repr

namespace Header

def falseCode : UInt8 := 20
def trueCode : UInt8 := 21
def nullCode : UInt8 := 22
def undefinedCode : UInt8 := 23

/-- A major type with the shortest form of its argument. -/
def writeArgument (major n : Nat) : Bytes :=
  let first (low : Nat) : UInt8 := UInt8.ofNat (major * 32 + low)
  if n < 24 then [first n]
  else if n < UInt8.size then first 24 :: Bytes.ofNat 1 n
  else if n < UInt16.size then first 25 :: Bytes.ofNat 2 n
  else if n < UInt32.size then first 26 :: Bytes.ofNat 4 n
  else first 27 :: Bytes.ofNat 8 n

def writeLength (major : Nat) : Option Nat → Bytes
  | some n => writeArgument major n
  | none => [UInt8.ofNat (major * 32 + 31)]

/-- The narrowest of the three formats that keeps every bit. -/
def writeFloat (x : Binary64) : Bytes :=
  match BinaryFormat.double.narrow? .half x.toNat with
  | some bits => 0xF9 :: Bytes.ofNat 2 bits
  | none =>
    match BinaryFormat.double.narrow? .single x.toNat with
    | some bits => 0xFA :: Bytes.ofNat 4 bits
    | none => 0xFB :: Bytes.ofNat 8 x.toNat

def write : Header → Bytes
  | .natural n => writeArgument 0 n.toNat
  | .negative n => writeArgument 1 n.toNat
  | .bytes length => writeLength 2 length
  | .text length => writeLength 3 length
  | .array length => writeLength 4 length
  | .map length => writeLength 5 length
  | .tag n => writeArgument 6 n.toNat
  | .simple n => if n < 24 then [0xE0 + n] else [0xF8, n]
  | .float x => writeFloat x
  | .stop => [0xFF]

/-- An argument in a number of bytes of its own. -/
def readWide (width : Nat) : Reader (Option Nat) := fun input =>
  match Bytes.take? width input with
  | some (front, rest) => .ok (some (Bytes.toNat front), rest)
  | none => .error .ended

/-- The argument that the low five bits of the first byte announce; `none` is the indefinite one. -/
def readArgument (low : Nat) : Reader (Option Nat) := fun input =>
  if low < 24 then .ok (some low, input)
  else match low with
    | 24 => readWide 1 input
    | 25 => readWide 2 input
    | 26 => readWide 4 input
    | 27 => readWide 8 input
    | 31 => .ok (none, input)
    | _ => .error .malformed

/-- The header of a major type with its argument; integers and tags need one. -/
def ofParts (major low : Nat) (argument : Option Nat) : Except Fault Header :=
  let word (make : UInt64 → Header) : Except Fault Header :=
    match argument with
    | some n => .ok (make (UInt64.ofNat n))
    | none => .error .malformed
  match major with
  | 0 => word .natural
  | 1 => word .negative
  | 2 => .ok (.bytes argument)
  | 3 => .ok (.text argument)
  | 4 => .ok (.array argument)
  | 5 => .ok (.map argument)
  | 6 => word .tag
  | _ =>
    match argument with
    | none => .ok .stop
    | some n =>
      match low with
      | 25 => .ok (.float (Binary64.ofHalfBits n))
      | 26 => .ok (.float (Binary64.ofSingleBits n))
      | 27 => .ok (.float (Binary64.ofNatBits n))
      | _ => .ok (.simple (UInt8.ofNat n))

def read : Reader Header
  | [] => .error .ended
  | first :: rest => do
    let major := first.toNat / 32
    let low := first.toNat % 32
    let (argument, rest) ← readArgument low rest
    let header ← ofParts major low argument
    return (header, rest)

end Header

end PluginRelay.Cbor
