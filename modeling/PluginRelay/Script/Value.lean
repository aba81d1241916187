import PluginRelay.Number.Binary64
import PluginRelay.Text.Utf16

/-!
# Script values

Numbers come in two forms: integers of 32 bits, and doubles. The same number may have either form;
`ofDouble` chooses the integer where there is one. Objects and symbols are known by their place in the
heap.
-/
namespace PluginRelay.Script

abbrev ObjectId := Nat

abbrev SymbolId := Nat

abbrev CellId := Nat

/-- A text. Texts that have been outside of the engine carry the number of the cell where it keeps them, so that
references to them can be counted; to scripts equal texts are the same. -/
structure Text where
  units : Units
  serial : Nat
  deriving DecidableEq, Hashable, Repr, Inhabited

/-- An integer of any size, which the engine keeps in a cell like a text. -/
structure Large where
  value : Int
  serial : Nat
  deriving DecidableEq, Hashable, Repr, Inhabited

inductive Value where
  | undefined
  | null
  | bool (b : Bool)
  | int (n : Int)
  | double (x : Binary64)
  | string (text : Text)
  | bigint (n : Large)
  | symbol (id : SymbolId)
  | object (id : ObjectId)
  deriving DecidableEq, Hashable, Repr, Inhabited

namespace Value

def text (units : Units) : Value := .string ⟨units, 0⟩

def ofString (s : String) : Value := text (Units.ofString s)

def large (n : Int) : Value := .bigint ⟨n, 0⟩

/-- The value without the number of its cell. -/
def unnumbered : Value → Value
  | string t => text t.units
  | bigint n => large n.value
  | v => v

def isShort (n : Int) : Bool := -2147483648 ≤ n && n ≤ 2147483647

/-- A number as an integer of 32 bits if it is one, and else as a double. -/
def ofInt (n : Int) : Value := if isShort n then .int n else .double (.ofInt n)

def ofNat (n : Nat) : Value := ofInt n

/-- A double in the form of an integer where that loses nothing. -/
def ofDouble (x : Binary64) : Value :=
  match x.toInt? with
  | some n => if isShort n && !(n = 0 && x.isNegative) then .int n else .double x
  | none => .double x

def isUndefined : Value → Bool
  | undefined => true
  | _ => false

def isNullish : Value → Bool
  | undefined | null => true
  | _ => false

def isObject : Value → Bool
  | object _ => true
  | _ => false

/-- The number, in whichever form it is given. -/
def number? : Value → Option Binary64
  | int n => some (.ofInt n)
  | double x => some x
  | _ => none

def nan : Value := .double .nan

/-- The same value, where all that is no number counts as one and zeros differ by their sign. -/
def sameValue (a b : Value) : Bool :=
  match a, b with
  | string s, string t => s.units == t.units
  | bigint m, bigint n => m.value = n.value
  | int m, int n => m = n
  | int _, double _ | double _, int _ | double _, double _ =>
    match a.number?, b.number? with
    | some x, some y => x.same y
    | _, _ => false
  | _, _ => a == b

/-- Equality without conversions: no number equals nothing, and zeros are equal. -/
def strictlyEquals (a b : Value) : Bool :=
  match a, b with
  | string s, string t => s.units == t.units
  | bigint m, bigint n => m.value = n.value
  | int m, int n => m = n
  | int _, double _ | double _, int _ | double _, double _ =>
    match a.number?, b.number? with
    | some x, some y => x.equal y
    | _, _ => false
  | _, _ => a == b

/-- Strict equality, except that all that is no number counts as one. -/
def sameValueZero (a b : Value) : Bool := a.strictlyEquals b || a.sameValue b

end Value

/-- Keys of properties: array indices, other names, and symbols. -/
inductive PropertyKey where
  | index (n : Nat)
  | name (units : Units)
  | symbol (id : SymbolId)
  deriving DecidableEq, Hashable, Repr, Inhabited

namespace PropertyKey

/-- Array indices lie below this number. -/
def indexLimit : Nat := 4294967295

def digitsValue (units : List UInt16) : Nat :=
  units.foldl (fun n u => n * 10 + (u.toNat - 48)) 0

/-- The index whose decimal numeral the units are. -/
def indexOf? (units : Units) : Option Nat :=
  match units.toList with
  | [] => none
  | [u] => if 48 ≤ u && u ≤ 57 then some (u.toNat - 48) else none
  | u :: rest =>
    if units.size ≤ 10 && 49 ≤ u && u ≤ 57 && rest.all (fun u => 48 ≤ u && u ≤ 57) then
      let n := digitsValue (u :: rest)
      if n < indexLimit then some n else none
    else none

def ofUnits (units : Units) : PropertyKey :=
  match indexOf? units with
  | some n => .index n
  | none => .name units

def ofString (s : String) : PropertyKey := ofUnits (Units.ofString s)

instance : Coe String PropertyKey := ⟨ofString⟩

def natUnits (n : Nat) : Units := Units.ofChars (Nat.toDigits 10 n)

def ofNat (n : Nat) : PropertyKey :=
  if n < indexLimit then .index n else .name (natUnits n)

/-- The text of a key that is no symbol. -/
def units? : PropertyKey → Option Units
  | .index n => some (natUnits n)
  | .name s => some s
  | .symbol _ => none

def isSymbol : PropertyKey → Bool
  | .symbol _ => true
  | _ => false

/-- The key as a value: a text or a symbol. -/
def toValue : PropertyKey → Value
  | .index n => .text (natUnits n)
  | .name s => .text s
  | .symbol id => .symbol id

end PropertyKey

/-- A place in a script: line and column, both from 1. -/
structure Position where
  line : Nat
  column : Nat
  deriving DecidableEq, Repr, Inhabited

end PluginRelay.Script
