import PluginRelay.Number.BinaryFormat

/-!
# Doubles

A double is its 64 bits. Values of finite doubles are exact rationals `significand * 2 ^ power`;
`ofQuotient` rounds a quotient of natural numbers to the nearest double, ties to the even
significand. Only the four operations and the elementary functions go through the machine.
-/
namespace PluginRelay

structure Binary64 where
  bits : UInt64
  deriving DecidableEq, Hashable, Repr, Inhabited

namespace Binary64

def toNat (x : Binary64) : Nat := x.bits.toNat

def ofNatBits (bits : Nat) : Binary64 := ⟨UInt64.ofNat bits⟩

def toFloat (x : Binary64) : Float := Float.ofBits x.bits

def ofFloat (x : Float) : Binary64 := ⟨x.toBits⟩

def nan : Binary64 := ⟨0x7FF8000000000000⟩
def infinity : Binary64 := ⟨0x7FF0000000000000⟩
def zero : Binary64 := ⟨0⟩
def one : Binary64 := ⟨0x3FF0000000000000⟩

def isNaN (x : Binary64) : Bool := BinaryFormat.double.isNaN x.toNat
def isInfinite (x : Binary64) : Bool := BinaryFormat.double.isInfinite x.toNat
def isFinite (x : Binary64) : Bool := !x.isNaN && !x.isInfinite
def isNegative (x : Binary64) : Bool := 0x8000000000000000 ≤ x.toNat
def isZero (x : Binary64) : Bool := x.toNat % 0x8000000000000000 == 0

def neg (x : Binary64) : Binary64 := ⟨x.bits ^^^ 0x8000000000000000⟩
def abs (x : Binary64) : Binary64 := ⟨x.bits &&& 0x7FFFFFFFFFFFFFFF⟩

/-- A finite double is `significand * 2 ^ power`, up to its sign. -/
def significand (x : Binary64) : Nat := BinaryFormat.double.significand x.toNat
def power (x : Binary64) : Int := BinaryFormat.double.power x.toNat

/-- The same datum, where all data that are no numbers count as one. -/
def same (x y : Binary64) : Bool := x == y || (x.isNaN && y.isNaN)

/-- Equality of values: both zeros are equal, and what is no number equals nothing. -/
def equal (x y : Binary64) : Bool :=
  !x.isNaN && !y.isNaN && (x == y || (x.isZero && y.isZero))

/-- The integer that a finite integral double stands for. -/
def toInt? (x : Binary64) : Option Int :=
  if !x.isFinite then none
  else
    let m := x.significand
    let q := x.power
    let magnitude? : Option Nat :=
      if 0 ≤ q then some (m <<< q.toNat)
      else if m % 1 <<< (-q).toNat = 0 then some (m >>> (-q).toNat) else none
    magnitude?.map fun n => if x.isNegative then -(n : Int) else n

/-- The integer part of a finite double, towards zero. -/
def truncate? (x : Binary64) : Option Int :=
  if !x.isFinite then none
  else
    let m := x.significand
    let q := x.power
    let n : Nat := if 0 ≤ q then m <<< q.toNat else m >>> (-q).toNat
    some (if x.isNegative then -(n : Int) else n)

/-- Where a double stands among the others. Both zeros stand at the same place. -/
def rank (x : Binary64) : Int :=
  let n := x.toNat % 0x8000000000000000
  if x.isNegative then -(n : Int) else n

/-- Order of values; what is no number is neither below nor above anything. -/
def lt (x y : Binary64) : Bool := !x.isNaN && !y.isNaN && x.rank < y.rank
def le (x y : Binary64) : Bool := !x.isNaN && !y.isNaN && x.rank ≤ y.rank

/-- `num / den` rounded to an integer, ties to even. -/
def roundHalfEven (num den : Nat) : Nat :=
  let q := num / den
  let twice := 2 * (num % den)
  if twice < den then q
  else if den < twice then q + 1
  else if q % 2 = 0 then q else q + 1

/-- The double nearest to `num / den`. -/
def ofQuotient (negative : Bool) (num den : Nat) : Binary64 :=
  let sign := if negative then 0x8000000000000000 else 0
  if num = 0 then ofNatBits sign
  else
    let scaled (q : Int) : Nat × Nat :=
      if 0 ≤ q then (num, den <<< q.toNat) else (num <<< (-q).toNat, den)
    let guess : Int := (num.log2 : Int) - den.log2 - 53
    let (n, d) := scaled guess
    let q := max (if n / d < 1 <<< 53 then guess else guess + 1) (-1074)
    let (n, d) := scaled q
    let bits := (q + 1074).toNat <<< 52 + roundHalfEven n d
    ofNatBits (sign + min bits infinity.toNat)

def ofInt (n : Int) : Binary64 := ofQuotient (n < 0) n.natAbs 1

def ofNat (n : Nat) : Binary64 := ofQuotient false n 1

/-- The integer part as a double of the same sign; what is not finite stays. -/
def trunc (x : Binary64) : Binary64 :=
  match x.truncate? with
  | some n => ofQuotient x.isNegative n.natAbs 1
  | none => x

/-- Any power this far out is beyond the range of doubles, whatever significand goes with it. -/
def decimalRange : Nat := 5000

/-- The double nearest to `digits * 10 ^ exponent`, for a numeral of `length` digits. -/
def ofDecimal (negative : Bool) (digits : Nat) (exponent : Int) : Binary64 :=
  let sign := if negative then 0x8000000000000000 else 0
  if digits = 0 then ofNatBits sign
  else
    let size := (digits.log2 : Int) * 3 / 10
    if (decimalRange : Int) < exponent + size then ofNatBits (sign + infinity.toNat)
    else if exponent + size < -(decimalRange : Int) then ofNatBits sign
    else if 0 ≤ exponent then ofQuotient negative (digits * Nat.pow 10 exponent.toNat) 1
    else ofQuotient negative digits (Nat.pow 10 (-exponent).toNat)

def ofHalfBits (bits : Nat) : Binary64 := ofNatBits (BinaryFormat.half.widen .double bits)
def ofSingleBits (bits : Nat) : Binary64 := ofNatBits (BinaryFormat.single.widen .double bits)

/-- The bits of the single nearest to a double; what is no number keeps its leading bits. -/
def toSingleBits (x : Binary64) : Nat :=
  let sign := if x.isNegative then 1 <<< 31 else 0
  if x.isNaN then sign + 0x7FC00000 + x.toNat >>> 29 % 1 <<< 22
  else if x.isInfinite then sign + 0x7F800000
  else if x.significand = 0 then sign
  else
    let m := x.significand
    let q := max (x.power + m.log2 - 23) (-149)
    let shift := q - x.power
    let rounded := if shift ≤ 0 then m <<< (-shift).toNat else roundHalfEven m (1 <<< shift.toNat)
    sign + min ((q + 149).toNat <<< 23 + rounded) 0x7F800000

/-- The nearest single, as a double. -/
def toSingle (x : Binary64) : Binary64 := ofSingleBits x.toSingleBits

def add (x y : Binary64) : Binary64 := ofFloat (x.toFloat + y.toFloat)
def sub (x y : Binary64) : Binary64 := ofFloat (x.toFloat - y.toFloat)
def mul (x y : Binary64) : Binary64 := ofFloat (x.toFloat * y.toFloat)
def div (x y : Binary64) : Binary64 := ofFloat (x.toFloat / y.toFloat)

/-- The remainder of the division towards zero; it has the sign of the dividend. -/
def rem (x y : Binary64) : Binary64 :=
  if x.isNaN || y.isNaN || x.isInfinite || y.isZero then nan
  else if y.isInfinite || x.isZero then x
  else
    let q := min x.power y.power
    let a := x.significand <<< (x.power - q).toNat
    let b := y.significand <<< (y.power - q).toNat
    let r := a % b
    if 0 ≤ q then ofQuotient x.isNegative (r <<< q.toNat) 1
    else ofQuotient x.isNegative r (1 <<< (-q).toNat)

end Binary64

end PluginRelay
