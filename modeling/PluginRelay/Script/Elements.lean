import PluginRelay.Number.Decimal
import PluginRelay.Script.Heap

/-!
# Elements of typed arrays

Numbers of a fixed width, as bytes with the least significant one first.
-/
namespace PluginRelay.Script.ElementKind

def all : List ElementKind :=
  [int8, uint8, uint8Clamped, int16, uint16, int32, uint32, bigInt64, bigUint64, float32, float64]

def name : ElementKind → String
  | int8 => "Int8Array"
  | uint8 => "Uint8Array"
  | uint8Clamped => "Uint8ClampedArray"
  | int16 => "Int16Array"
  | uint16 => "Uint16Array"
  | int32 => "Int32Array"
  | uint32 => "Uint32Array"
  | bigInt64 => "BigInt64Array"
  | bigUint64 => "BigUint64Array"
  | float32 => "Float32Array"
  | float64 => "Float64Array"

/-- The number of bytes of an element. -/
def width : ElementKind → Nat
  | int8 | uint8 | uint8Clamped => 1
  | int16 | uint16 => 2
  | int32 | uint32 | float32 => 4
  | bigInt64 | bigUint64 | float64 => 8

def isBig : ElementKind → Bool
  | bigInt64 | bigUint64 => true
  | _ => false

def natOf (bytes : List UInt8) : Nat := bytes.foldr (fun b n => b.toNat + 256 * n) 0

def bytesOf (width n : Nat) : List UInt8 :=
  (List.range width).map fun i => UInt8.ofNat (n >>> (8 * i) % 256)

/-- A number below `2 ^ bits` as one with a sign. -/
def asSigned (bits n : Nat) : Int := if n < 1 <<< (bits - 1) then n else (n : Int) - (1 <<< bits : Nat)

/-- The value of an element. -/
def read (kind : ElementKind) (bytes : List UInt8) : Value :=
  let n := natOf bytes
  match kind with
  | int8 => .ofInt (asSigned 8 n)
  | uint8 | uint8Clamped | uint16 | uint32 => .ofNat n
  | int16 => .ofInt (asSigned 16 n)
  | int32 => .ofInt (asSigned 32 n)
  | bigInt64 => .large (asSigned 64 n)
  | bigUint64 => .large n
  | float32 => .ofDouble (.ofSingleBits n)
  | float64 => .ofDouble (.ofNatBits n)

/-- A double as an integer modulo `2 ^ bits`. -/
def wrapped (bits : Nat) (x : Binary64) : Nat := (((x.truncate?).getD 0) % (1 <<< bits : Nat)).toNat

/-- A double as a byte: nearest, with halves to even, and no further than the ends of the range. -/
def clamped (x : Binary64) : Nat :=
  if x.isNaN || x.isNegative then 0
  else if x.isInfinite then 255
  else
    let (n, d) := Decimal.quotient x
    min 255 (if x.isZero then 0 else Binary64.roundHalfEven n d)

/-- The bytes of a number as an element. -/
def write (kind : ElementKind) (x : Binary64) : List UInt8 :=
  match kind with
  | uint8Clamped => bytesOf 1 (clamped x)
  | float32 => bytesOf 4 x.toSingleBits
  | float64 => bytesOf 8 x.toNat
  | _ => bytesOf kind.width (wrapped (8 * kind.width) x)

def writeBig (n : Int) : List UInt8 := bytesOf 8 (n % UInt64.size).toNat

end PluginRelay.Script.ElementKind
