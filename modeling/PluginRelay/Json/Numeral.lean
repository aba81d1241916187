import PluginRelay.Json.Basic

/-!
# JSON numerals

A numeral is an integer if it has neither point nor exponent and its value fits; otherwise it is a
double. The digits are gathered in 64 bits as long as they fit, later ones only move the decimal
exponent, and the power of ten is applied by one multiplication or division of doubles, so that the
last place may be off.
-/
namespace PluginRelay.Json.Numeral

/-- What has been read of a numeral: `significand * 10 ^ exponent`, signed. -/
structure Parts where
  negative : Bool
  significand : Nat
  exponent : Int

def digit? (c : Char) : Option Nat :=
  if '0' ≤ c ∧ c ≤ '9' then some (c.toNat - 48) else none

def fits (n : Nat) : Bool := n < UInt64.size

def powerOfTen (n : Nat) : Binary64 := Binary64.ofDecimal false 1 n

/-- Applies the power of ten; `none` beyond the largest double. -/
def scale (fuel : Nat) (x : Binary64) (exponent : Int) : Option Binary64 :=
  if exponent.natAbs ≤ 308 then
    if 0 ≤ exponent then
      let y := x.mul (powerOfTen exponent.natAbs)
      if y.isInfinite then none else some y
    else some (x.div (powerOfTen exponent.natAbs))
  else if x.isZero then some x
  else if 0 ≤ exponent then none
  else match fuel with
    | 0 => some .zero
    | fuel + 1 => scale fuel (x.div (powerOfTen 308)) (exponent + 308)

def Parts.toDouble (p : Parts) : Option Number := do
  let x ← scale 4 (Binary64.ofNat p.significand) p.exponent
  return .double (if p.negative then x.neg else x)

/-- An integer numeral; minus zero and what is below `-2 ^ 63` are doubles. -/
def Parts.toInteger (p : Parts) : Number :=
  if !p.negative then .natural (UInt64.ofNat p.significand)
  else if p.significand = 0 ∨ 1 <<< 63 < p.significand then .double (Binary64.ofNat p.significand).neg
  else .negative (Int64.ofInt (-(p.significand : Int)))

def skipDigits : List Char → List Char
  | [] => []
  | c :: rest => if (digit? c).isSome then skipDigits rest else c :: rest

/-- The value of the digits of an exponent, up to the first that leaves 32 bits. -/
def exponentDigits (value : Nat) : List Char → Option Nat × List Char
  | [] => (some value, [])
  | c :: rest =>
    match digit? c with
    | none => (some value, c :: rest)
    | some d => if value * 10 + d < 1 <<< 31 then exponentDigits (value * 10 + d) rest else (none, c :: rest)

/-- What follows the letter of an exponent. -/
def exponentPart (p : Parts) (text : List Char) : Option (Number × List Char) := do
  let (down, text) := match text with
    | '+' :: rest => (false, rest)
    | '-' :: rest => (true, rest)
    | _ => (false, text)
  let c ← text.head?
  let _ ← digit? c
  match exponentDigits 0 text with
  | (some e, rest) =>
    let exponent := if down then p.exponent - e else p.exponent + e
    let x ← { p with exponent }.toDouble
    return (x, rest)
  | (none, rest) =>
    if p.significand ≠ 0 ∧ !down then none
    else return (.double (if p.negative then Binary64.zero.neg else .zero), skipDigits rest)

def doubleEnd (p : Parts) (text : List Char) : Option (Number × List Char) :=
  match text with
  | 'e' :: rest => exponentPart p rest
  | 'E' :: rest => exponentPart p rest
  | _ => p.toDouble.map fun x => (x, text)

/-- The digits behind the point; from the first that does not fit on they are ignored. -/
def fractionDigits (p : Parts) : List Char → Option (Number × List Char)
  | [] => doubleEnd p []
  | c :: rest =>
    match digit? c with
    | none => doubleEnd p (c :: rest)
    | some d =>
      if fits (p.significand * 10 + d) then
        fractionDigits { p with significand := p.significand * 10 + d, exponent := p.exponent - 1 } rest
      else doubleEnd p (skipDigits rest)

def fractionPart (p : Parts) (text : List Char) : Option (Number × List Char) := do
  let c ← text.head?
  let _ ← digit? c
  fractionDigits p text

/-- The digits of an integer part that does not fit any more. -/
def longInteger (p : Parts) : List Char → Option (Number × List Char)
  | [] => doubleEnd p []
  | '.' :: rest => fractionPart p rest
  | c :: rest =>
    if (digit? c).isSome then longInteger { p with exponent := p.exponent + 1 } rest
    else doubleEnd p (c :: rest)

def integerEnd (p : Parts) (text : List Char) : Option (Number × List Char) :=
  match text with
  | '.' :: rest => fractionPart p rest
  | 'e' :: rest => exponentPart p rest
  | 'E' :: rest => exponentPart p rest
  | _ => some (p.toInteger, text)

def integerDigits (p : Parts) : List Char → Option (Number × List Char)
  | [] => integerEnd p []
  | c :: rest =>
    match digit? c with
    | none => integerEnd p (c :: rest)
    | some d =>
      if fits (p.significand * 10 + d) then
        integerDigits { p with significand := p.significand * 10 + d } rest
      else longInteger p (c :: rest)

/-- A numeral without its sign: a zero in front stands alone. -/
def unsigned (negative : Bool) (text : List Char) : Option (Number × List Char) :=
  match text with
  | '0' :: rest =>
    match rest.head?.bind digit? with
    | some _ => none
    | none => integerEnd ⟨negative, 0, 0⟩ rest
  | c :: _ => do
    let _ ← digit? c
    integerDigits ⟨negative, 0, 0⟩ text
  | [] => none

/-- The numeral in front of the text, and the text behind it. -/
def read? : List Char → Option (Number × List Char)
  | '-' :: rest => unsigned true rest
  | text => unsigned false text

end PluginRelay.Json.Numeral
