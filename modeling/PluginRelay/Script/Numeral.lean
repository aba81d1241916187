import PluginRelay.Number.Decimal
import PluginRelay.Script.Token

/-!
# Numerals

How scripts write numbers, and which texts they read as numbers.
-/
namespace PluginRelay.Script.Numeral

def zeros (n : Nat) : List Char := List.replicate n '0'

/-! ### Writing -/

/-- Numbers are written positionally from `10 ^ -6` on and below `10 ^ 21`. -/
def positionalFrom : Int := -6

def positionalUpTo : Int := 21

def exponentText (e : Int) : List Char :=
  'e' :: (if e < 0 then '-' else '+') :: Decimal.digitText e.natAbs

/-- One digit, a point before the others if there are any, and the exponent. -/
def scientific (digits : List Char) (e : Int) : List Char :=
  match digits with
  | [] => []
  | [d] => d :: exponentText e
  | d :: rest => d :: '.' :: rest ++ exponentText e

/-- Digits with a point behind the first `n`. -/
def withPoint (digits : List Char) (n : Int) : List Char :=
  let k := digits.length
  if (k : Int) ≤ n then digits ++ zeros (n - k).toNat
  else if 0 < n then digits.take n.toNat ++ '.' :: digits.drop n.toNat
  else '0' :: '.' :: zeros (-n).toNat ++ digits

/-- A positive double by the fewest digits that stand for it. -/
def positiveChars (x : Binary64) : List Char :=
  let d := Decimal.shortest x
  let digits := Decimal.digitText d.digits
  let n : Int := digits.length + d.exponent
  if positionalFrom < n && n ≤ positionalUpTo then withPoint digits n
  else scientific digits (n - 1)

def signed (negative : Bool) (cs : List Char) : String :=
  String.ofList (if negative then '-' :: cs else cs)

/-- The text of a double. -/
def text (x : Binary64) : String :=
  if x.isNaN then "NaN"
  else if x.isInfinite then signed x.isNegative "Infinity".toList
  else if x.isZero then "0"
  else signed x.isNegative (positiveChars x.abs)

def intText (n : Int) : String := signed (n < 0) (Decimal.digitText n.natAbs)

/-- The text of a finite double with `places` digits behind the point; halves go up. -/
def fixed (x : Binary64) (places : Nat) : String :=
  let n := if x.isZero then 0 else Decimal.onGrid .away x.abs (-(places : Int))
  let digits := Decimal.digitText n
  let padded := zeros (places + 1 - digits.length) ++ digits
  let whole := padded.take (padded.length - places)
  let cs := if places = 0 then whole else whole ++ '.' :: padded.drop (padded.length - places)
  signed (x.isNegative && !x.isZero) cs

/-- The text of a finite double with one digit before the point and `places` behind it, or as many as are
needed. -/
def exponential (x : Binary64) (places : Option Nat) : String :=
  if x.isZero then
    String.ofList (scientific (zeros (places.getD 0 + 1)) 0)
  else
    let d := match places with
      | some n => Decimal.significant .away x.abs (n + 1)
      | none => Decimal.shortest x.abs
    let digits := Decimal.digitText d.digits
    signed x.isNegative (scientific digits (digits.length + d.exponent - 1))

/-- The text of a finite double with `count` significant digits. -/
def precise (x : Binary64) (count : Nat) : String :=
  if x.isZero then String.ofList (withPoint (zeros count) 1)
  else
    let d := Decimal.significant .away x.abs count
    let digits := Decimal.digitText d.digits
    let e : Int := digits.length + d.exponent - 1
    signed x.isNegative
      (if e < positionalFrom || (count : Int) ≤ e then scientific digits e else withPoint digits (e + 1))

def digitChar (n : Nat) : Char := if n < 10 then Char.ofNat (48 + n) else Char.ofNat (87 + n)

def natChars (radix n : Nat) : List Char :=
  let rec go (fuel n : Nat) (cs : List Char) : List Char :=
    match fuel with
    | 0 => cs
    | fuel + 1 =>
      let cs := digitChar (n % radix) :: cs
      if n < radix then cs else go fuel (n / radix) cs
  go (n.log2 + 1) n []

def intRadixText (radix : Nat) (n : Int) : String := signed (n < 0) (natChars radix n.natAbs)

/-- The greatest number up to which every integer has a double of its own. -/
def safeLimit : Nat := 9007199254740991

/-- Digits of a fraction below one, in reverse, as long as the digits so far leave room for more; and
the fraction that is left. -/
def fractionDigits (radix : Nat) : (fuel : Nat) → (taken : Nat) → Binary64 → List Nat → List Nat × Binary64
  | 0, _, rest, digits => (digits, rest)
  | fuel + 1, taken, rest, digits =>
    if rest.isZero || safeLimit / 2 < taken then (digits, rest)
    else
      let scaled := rest.mul (.ofNat radix)
      let digit := ((scaled.truncate?).getD 0).toNat
      fractionDigits radix fuel (taken * radix + digit) (scaled.sub (.ofNat digit)) (digit :: digits)

/-- Digits in reverse after rounding the last of them up; `true` if that goes over the point. -/
def roundUp (radix : Nat) : List Nat → List Nat × Bool
  | [] => ([], true)
  | d :: rest => if d + 1 = radix then roundUp radix rest else ((d + 1) :: rest, false)

/-- The text of a finite double in another base. -/
def radixText (radix : Nat) (x : Binary64) : String :=
  let whole := ((x.abs.truncate?).getD 0).toNat
  let rest := x.abs.sub (.ofNat whole)
  if rest.isZero || safeLimit < whole then signed x.isNegative (natChars radix whole)
  else
    let (digits, left) := fractionDigits radix 1100 whole rest []
    let up := Binary64.le (Binary64.ofNat radix) ((left.mul (.ofNat radix)).mul (.ofNat 2))
    let (digits, carries) := if up then roundUp radix digits else (digits.dropWhile (· = 0), false)
    let whole := if carries then whole + 1 else whole
    let fraction := (digits.reverse.map digitChar)
    signed x.isNegative (natChars radix whole ++ (if fraction.isEmpty then [] else '.' :: fraction))

/-! ### Reading -/

def isBlank (c : Char) : Bool := Lexical.isSpace c || Lexical.isLineEnd c

def trimStart (cs : List Char) : List Char := cs.dropWhile isBlank

def trimEnd (cs : List Char) : List Char := (cs.reverse.dropWhile isBlank).reverse

def sign (cs : List Char) : Bool × List Char :=
  match cs with
  | '+' :: rest => (false, rest)
  | '-' :: rest => (true, rest)
  | _ => (false, cs)

def digitsOf (radix : Nat) : List Char → (value count : Nat) → Nat × Nat × List Char
  | [], value, count => (value, count, [])
  | c :: rest, value, count =>
    let digit := if c.isDigit then c.toNat - 48
      else if 'a' ≤ c && c ≤ 'z' then c.toNat - 87
      else if 'A' ≤ c && c ≤ 'Z' then c.toNat - 55 else 99
    if digit < radix then digitsOf radix rest (value * radix + digit) (count + 1)
    else (value, count, c :: rest)

/-- A decimal numeral with fraction and exponent, and what follows it. -/
def decimalPrefix? (cs : List Char) : Option (Binary64 × List Char) :=
  let (negative, cs) := sign cs
  if "Infinity".toList.isPrefixOf cs then
    some (if negative then Binary64.infinity.neg else .infinity, cs.drop 8)
  else
    let (whole, count, cs) := digitsOf 10 cs 0 0
    let (value, places, rest) : Nat × Nat × List Char := match cs with
      | '.' :: more =>
        let (value, places, rest) := digitsOf 10 more whole 0
        if count + places = 0 then (whole, 0, cs) else (value, places, rest)
      | _ => (whole, 0, cs)
    if count + places = 0 then none
    else
      let (e, rest) : Int × List Char := match rest with
        | c :: more =>
          if c = 'e' || c = 'E' then
            let (down, digits) := sign more
            match digitsOf 10 digits 0 0 with
            | (n, _ + 1, after) => (if down then -(n : Int) else n, after)
            | _ => (0, rest)
          else (0, rest)
        | [] => (0, rest)
      some (.ofDecimal negative value (e - places), rest)

/-- The base that a numeral announces. -/
def radixMark? : List Char → Option (Nat × List Char)
  | '0' :: c :: rest =>
    match c with
    | 'x' | 'X' => some (16, rest)
    | 'o' | 'O' => some (8, rest)
    | 'b' | 'B' => some (2, rest)
    | _ => none
  | _ => none

/-- The number that a whole text stands for; no number if it stands for none. -/
def ofChars (cs : List Char) : Binary64 :=
  let cs := trimEnd (trimStart cs)
  if cs.isEmpty then .zero
  else
    match radixMark? cs with
    | some (radix, digits) =>
      match digitsOf radix digits 0 0 with
      | (n, _ + 1, []) => .ofNat n
      | _ => .nan
    | none =>
      match decimalPrefix? cs with
      | some (x, []) => x
      | _ => .nan

/-- The big integer that a whole text stands for. -/
def bigint? (cs : List Char) : Option Int :=
  let cs := trimEnd (trimStart cs)
  if cs.isEmpty then some 0
  else
    match radixMark? cs with
    | some (radix, digits) =>
      match digitsOf radix digits 0 0 with
      | (n, _ + 1, []) => some n
      | _ => none
    | none =>
      let (negative, digits) := sign cs
      match digitsOf 10 digits 0 0 with
      | (n, _ + 1, []) => some (if negative then -(n : Int) else n)
      | _ => none

/-- The integer that a text starts with, in a given base; the base is sixteen if the text says so and no
other is given. -/
def integerPrefix (radix : Nat) (cs : List Char) : Binary64 :=
  let (negative, cs) := sign (trimStart cs)
  let (radix, cs) := match cs with
    | '0' :: c :: rest =>
      if (c = 'x' || c = 'X') && (radix = 0 || radix = 16) then (16, rest) else (radix, cs)
    | _ => (radix, cs)
  let radix := if radix = 0 then 10 else radix
  if radix < 2 || 36 < radix then .nan
  else
    match digitsOf radix cs 0 0 with
    | (n, _ + 1, _) => .ofQuotient negative n 1
    | _ => .nan

end PluginRelay.Script.Numeral
