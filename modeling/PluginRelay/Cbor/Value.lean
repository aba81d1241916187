import PluginRelay.Bytes
import PluginRelay.Number.Binary64

/-!
# CBOR values

An integer is a natural number below `2 ^ 64` or `-1 - n` of one. Maps keep their entries in order,
repeated keys included. Integers outside the range are byte strings under tag 2 or 3.
-/
namespace PluginRelay.Cbor

/-- The integers of major types 0 and 1, from `-2 ^ 64` to `2 ^ 64 - 1`. -/
inductive Integer where
  | natural (n : UInt64)
  | negative (n : UInt64)
  deriving DecidableEq, Repr, Inhabited

def Integer.toInt : Integer → Int
  | .natural n => n.toNat
  | .negative n => -1 - (n.toNat : Int)

def Integer.ofInt? (n : Int) : Option Integer :=
  if 0 ≤ n then if n < UInt64.size then some (.natural (UInt64.ofNat n.toNat)) else none
  else if -UInt64.size ≤ n then some (.negative (UInt64.ofNat (-1 - n).toNat)) else none

inductive Value where
  | null
  | bool (b : Bool)
  | integer (n : Integer)
  | float (x : Binary64)
  | text (s : String)
  | bytes (b : Bytes)
  | array (items : List Value)
  | map (entries : List (Value × Value))
  | tag (number : UInt64) (item : Value)
  deriving Repr, Inhabited

namespace Value

/-- The tags of integers that are written as byte strings. -/
def positiveTag : UInt64 := 2
def negativeTag : UInt64 := 3

/-- The widest byte string that stands for an integer in a value. -/
def integerWidth : Nat := 16

/-- The digits of the integer that an item under a tag is read as, if it is one. -/
def integerDigits? (number : UInt64) : Value → Option Bytes
  | .bytes b => if (number = positiveTag ∨ number = negativeTag) ∧ b.length ≤ integerWidth then some b else none
  | _ => none

def ofNat (n : Nat) : Value := .integer (.natural (UInt64.ofNat n))

def digits256 (fuel n : Nat) (digits : Bytes) : Bytes :=
  match fuel with
  | 0 => digits
  | fuel + 1 => if n = 0 then digits else digits256 fuel (n / 256) (UInt8.ofNat (n % 256) :: digits)

/-- The bytes of a number below `2 ^ 128`, without zeros in front. -/
def magnitude (n : Nat) : Bytes := digits256 16 n []

/-- An integer, as a byte string under a tag if it is out of range. -/
def ofInt (n : Int) : Value :=
  match Integer.ofInt? n with
  | some i => .integer i
  | none =>
    if 0 ≤ n then .tag positiveTag (.bytes (magnitude n.toNat))
    else .tag negativeTag (.bytes (magnitude (-1 - n).toNat))

mutual

/-- Equality of values as a program sees it: both zeros are equal, and a float that is no number
differs from everything. -/
def equal : Value → Value → Bool
  | .null, .null => true
  | .bool a, .bool b => a == b
  | .integer a, .integer b => a == b
  | .float a, .float b => a.equal b
  | .text a, .text b => a == b
  | .bytes a, .bytes b => a == b
  | .array a, .array b => equalItems a b
  | .map a, .map b => equalEntries a b
  | .tag m a, .tag n b => m == n && equal a b
  | _, _ => false

def equalItems : List Value → List Value → Bool
  | [], [] => true
  | a :: as, b :: bs => equal a b && equalItems as bs
  | _, _ => false

def equalEntries : List (Value × Value) → List (Value × Value) → Bool
  | [], [] => true
  | (k, a) :: as, (l, b) :: bs => equal k l && equal a b && equalEntries as bs
  | _, _ => false

end

end Value

end PluginRelay.Cbor
