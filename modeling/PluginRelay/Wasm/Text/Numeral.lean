import PluginRelay.Bytes
import PluginRelay.Wasm.Type

/-!
# Numerals of the text format

Numerals have an optional sign, decimal or hexadecimal digits, and single underscores between digits.
-/
namespace PluginRelay.Wasm.Text

def digitValue? (base : Nat) (c : Char) : Option Nat := do
  let n ← Bytes.hexValue? c
  if n < base then some n else none

/-- The leading digits: their value, their number, and the rest. -/
def digitRun (base value count : Nat) : List Char → Nat × Nat × List Char
  | [] => (value, count, [])
  | '_' :: c :: rest =>
    match count, digitValue? base c with
    | 0, _ => (value, count, '_' :: c :: rest)
    | _, some n => digitRun base (value * base + n) (count + 1) rest
    | _, none => (value, count, '_' :: c :: rest)
  | c :: rest =>
    match digitValue? base c with
    | some n => digitRun base (value * base + n) (count + 1) rest
    | none => (value, count, c :: rest)

def signed : List Char → Bool × Bool × List Char
  | '+' :: rest => (true, false, rest)
  | '-' :: rest => (true, true, rest)
  | rest => (false, false, rest)

def radix : List Char → Nat × List Char
  | '0' :: 'x' :: rest => (16, rest)
  | rest => (10, rest)

/-- A numeral that is nothing but digits. -/
def natural? (text : List Char) : Option Nat :=
  let (base, text) := radix text
  match digitRun base 0 0 text with
  | (value, _ + 1, []) => some value
  | _ => none

/-- A word of the width, given as a number with or without a sign. -/
def integer? (bits : Nat) (text : List Char) : Option (BitVec bits) := do
  let (_, negative, digits) := signed text
  let n ← natural? digits
  if negative then
    if n ≤ 1 <<< (bits - 1) then some (BitVec.ofInt bits (-n)) else none
  else if n < 1 <<< bits then some (BitVec.ofNat bits n) else none

/-- An exponent after its mark. -/
def exponent? (text : List Char) : Option Int := do
  let (_, negative, digits) := signed text
  match digitRun 10 0 0 digits with
  | (value, _ + 1, []) => some (if negative then -(value : Int) else value)
  | _ => none

/-- A magnitude with optional fraction and exponent. -/
def magnitude? (negative : Bool) (text : List Char) : Option Binary64 :=
  let (base, text) := radix text
  let mark : Char × Char := if base = 16 then ('p', 'P') else ('e', 'E')
  match digitRun base 0 0 text with
  | (_, 0, _) => none
  | (whole, _, rest) =>
    let (value, places, rest) : Nat × Nat × List Char := match rest with
      | '.' :: rest =>
        let (value, count, rest) := digitRun base whole 0 rest
        (value, count, rest)
      | rest => (whole, 0, rest)
    let scaled (power : Int) : Option Binary64 :=
      if base = 16 then
        let q := power - 4 * places
        if 5000 < q.natAbs then none
        else if 0 ≤ q then some (.ofQuotient negative (value <<< q.toNat) 1)
        else some (.ofQuotient negative value (1 <<< (-q).toNat))
      else some (.ofDecimal negative value (power - places))
    match rest with
    | [] => scaled 0
    | c :: rest => if c = mark.1 || c = mark.2 then (exponent? rest).bind scaled else none

def float? (text : List Char) : Option Binary64 :=
  let (_, negative, rest) := signed text
  let withSign (x : Binary64) : Binary64 := if negative then x.neg else x
  match rest with
  | ['i', 'n', 'f'] => some (withSign .infinity)
  | 'n' :: 'a' :: 'n' :: rest =>
    match rest with
    | [] => some (withSign .nan)
    | ':' :: '0' :: 'x' :: digits =>
      match digitRun 16 0 0 digits with
      | (value, _ + 1, []) =>
        if 0 < value ∧ value < 1 <<< 52 then some (withSign (.ofNatBits (0x7FF0000000000000 + value)))
        else none
      | _ => none
    | _ => none
  | rest =>
    match magnitude? negative rest with
    | some x => if x.isFinite then some x else none
    | none => none

end PluginRelay.Wasm.Text
