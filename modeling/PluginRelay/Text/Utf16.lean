import PluginRelay.Text.Utf8

/-!
# UTF-16

Script texts are sequences of 16-bit units. A surrogate may stand alone: then the text has no strict
UTF-8 form, and its bytes are those that the general scheme gives for the surrogate.
-/
namespace PluginRelay

abbrev Units := Array UInt16

namespace Units

def isLead (u : UInt16) : Bool := 0xD800 ≤ u && u < 0xDC00

def isTrail (u : UInt16) : Bool := 0xDC00 ≤ u && u < 0xE000

/-- The units of a number below 0x110000. -/
def ofCodePoint (n : Nat) : List UInt16 :=
  if n < 0x10000 then [UInt16.ofNat n]
  else [UInt16.ofNat (0xD800 + (n - 0x10000) / 0x400), UInt16.ofNat (0xDC00 + (n - 0x10000) % 0x400)]

def ofChars (cs : List Char) : Units := (cs.flatMap fun c => ofCodePoint c.toNat).toArray

def ofString (s : String) : Units := ofChars s.toList

instance : Coe String Units := ⟨ofString⟩

/-- The number that a pair of surrogates stands for. -/
def pair (lead trail : UInt16) : Nat :=
  0x10000 + (lead.toNat - 0xD800) * 0x400 + (trail.toNat - 0xDC00)

/-- Pairs are joined; a surrogate that stands alone counts by itself. -/
def codePointsOf : List UInt16 → List Nat
  | [] => []
  | [u] => [u.toNat]
  | u :: v :: rest =>
    if isLead u && isTrail v then pair u v :: codePointsOf rest
    else u.toNat :: codePointsOf (v :: rest)

def codePoints (s : Units) : List Nat := codePointsOf s.toList

def isSurrogate (n : Nat) : Bool := 0xD800 ≤ n && n < 0xE000

/-- The bytes of a number below 0x110000 by the scheme of UTF-8. -/
def codePointBytes (n : Nat) : Bytes :=
  if n < 0x80 then [UInt8.ofNat n]
  else if n < 0x800 then [UInt8.ofNat (0xC0 + n / 64), UInt8.ofNat (0x80 + n % 64)]
  else if n < 0x10000 then
    [UInt8.ofNat (0xE0 + n / 4096), UInt8.ofNat (0x80 + n / 64 % 64), UInt8.ofNat (0x80 + n % 64)]
  else
    [UInt8.ofNat (0xF0 + n / 262144), UInt8.ofNat (0x80 + n / 4096 % 64),
      UInt8.ofNat (0x80 + n / 64 % 64), UInt8.ofNat (0x80 + n % 64)]

def toBytes (s : Units) : Bytes := s.codePoints.flatMap codePointBytes

def isWellFormed (s : Units) : Bool := s.codePoints.all (!isSurrogate ·)

/-- The text with every byte of a lone surrogate replaced. -/
def toStringLossy (s : Units) : String := Utf8.decodeLossy s.toBytes

/-- The characters, with one replacement for each lone surrogate. -/
def toChars (s : Units) : List Char :=
  s.codePoints.map fun n => if isSurrogate n then '\uFFFD' else Char.ofNat n

/-- Order by units. -/
def lessFrom : List UInt16 → List UInt16 → Bool
  | _, [] => false
  | [], _ :: _ => true
  | a :: as, b :: bs => if a = b then lessFrom as bs else a < b

def less (s t : Units) : Bool := lessFrom s.toList t.toList

def slice (s : Units) (start stop : Nat) : Units := s.extract start stop

/-- Whether `part` stands in `s` from `start` on. -/
def hasAt (s part : Units) (start : Nat) : Bool :=
  start + part.size ≤ s.size && s.extract start (start + part.size) == part

/-- The first place from `start` on, of `count` places tried, where `part` stands. -/
def findFrom (s part : Units) (start : Nat) : (count : Nat) → Option Nat
  | 0 => none
  | count + 1 => if s.hasAt part start then some start else findFrom s part (start + 1) count

def find? (s part : Units) (start : Nat) : Option Nat :=
  s.findFrom part start (s.size + 1 - start)

/-- The last place not after `start` where `part` stands. -/
def findBack (s part : Units) : (start : Nat) → Option Nat
  | 0 => if s.hasAt part 0 then some 0 else none
  | start + 1 => if s.hasAt part (start + 1) then some (start + 1) else findBack s part start

def joined (separator : Units) : List Units → Units
  | [] => #[]
  | [s] => s
  | s :: rest => s ++ separator ++ joined separator rest

end Units

end PluginRelay
