import PluginRelay.Number.Binary64

/-!
# Decimal digits of a double

`Decimal` is a numeral `digits * 10 ^ exponent`. Three rules produce one from a positive finite
double: a given number of significant digits, the fewest digits inside the interval of reals that
round to the double, and the fewest digits whose nearest numeral reads back.
-/
namespace PluginRelay

structure Decimal where
  digits : Nat
  exponent : Int
  deriving DecidableEq, Repr, Inhabited

namespace Decimal

/-- What happens to a value half way between two numerals. -/
inductive Tie where
  | even
  | away
  deriving DecidableEq, Repr

def roundQuotient (tie : Tie) (num den : Nat) : Nat :=
  match tie with
  | .even => Binary64.roundHalfEven num den
  | .away => (2 * num + den) / (2 * den)

/-- `num / den` over `10 ^ k`, again as a quotient. -/
def overPower (num den : Nat) (k : Int) : Nat × Nat :=
  if 0 ≤ k then (num, den * Nat.pow 10 k.toNat) else (num * Nat.pow 10 (-k).toNat, den)

/-- A positive double as a quotient. -/
def quotient (x : Binary64) : Nat × Nat :=
  if 0 ≤ x.power then (x.significand <<< x.power.toNat, 1)
  else (x.significand, 1 <<< (-x.power).toNat)

/-- The `e` with `10 ^ e ≤ x < 10 ^ (e + 1)`, for a positive finite double. -/
def magnitude (x : Binary64) : Int :=
  let (n, d) := quotient x
  let guess : Int := ((n.log2 : Int) - d.log2 - 1) * 30103 / 100000
  let below (k : Int) : Bool :=
    let (a, b) := overPower n d k
    a < b
  if below (guess + 1) then guess
  else if below (guess + 2) then guess + 1 else guess + 2

/-- Drops zeros at the end of the digits. -/
def trim (fuel : Nat) (d : Decimal) : Decimal :=
  match fuel with
  | 0 => d
  | fuel + 1 =>
    if d.digits ≠ 0 ∧ d.digits % 10 = 0 then trim fuel ⟨d.digits / 10, d.exponent + 1⟩ else d

/-- The nearest numeral on the grid `10 ^ k`. -/
def onGrid (tie : Tie) (x : Binary64) (k : Int) : Nat :=
  let (n, d) := quotient x
  let (n, d) := overPower n d k
  roundQuotient tie n d

/-- The nearest numeral with `count` significant digits; rounding up may leave a power of ten. -/
def significant (tie : Tie) (x : Binary64) (count : Nat) : Decimal :=
  let k := magnitude x + 1 - count
  let digits := onGrid tie x k
  if digits = Nat.pow 10 count then ⟨Nat.pow 10 (count - 1), k + 1⟩ else ⟨digits, k⟩

def toBinary64 (d : Decimal) : Binary64 := Binary64.ofDecimal false d.digits d.exponent

/-- Of the two grid points around `x`, those that read back, the nearer one first. -/
def gridCandidate (x : Binary64) (k : Int) : Option Decimal :=
  let (n, d) := quotient x
  let (n, d) := overPower n d k
  let low : Decimal := ⟨n / d, k⟩
  let high : Decimal := ⟨n / d + 1, k⟩
  let reads (c : Decimal) : Bool := c.digits ≠ 0 && c.toBinary64 = x
  let nearer := if 2 * (n % d) < d then [low, high]
    else if d < 2 * (n % d) then [high, low]
    else if low.digits % 2 = 0 then [low, high] else [high, low]
  nearer.find? reads

def fewestInside (fuel : Nat) (k : Int) (x : Binary64) : Decimal :=
  match fuel with
  | 0 => significant .even x 17
  | fuel + 1 => (gridCandidate x k).getD (fewestInside fuel (k - 1) x)

/-- The shortest numeral that rounds to `x`; of several, the nearest to `x`. -/
def shortest (x : Binary64) : Decimal :=
  (fewestInside 17 (magnitude x) x).trim 17

/-- The digits as text. -/
def digitText (n : Nat) : List Char := Nat.toDigits 10 n

end Decimal

end PluginRelay
