import PluginRelay.Text.Utf16

/-!
# Upper and lower case

The case of letters by ranges of code points: a range is shifted as a whole, or its letters alternate
between the cases. A few letters have an upper case of several letters.
-/
namespace PluginRelay.Casing

/-- Lower-case letters from `first` to `last`, whose upper case lies `distance` below. -/
structure Shift where
  first : Nat
  last : Nat
  distance : Nat

def shifts : List Shift :=
  [⟨0x61, 0x7A, 0x20⟩, ⟨0xE0, 0xF6, 0x20⟩, ⟨0xF8, 0xFE, 0x20⟩, ⟨0x3AC, 0x3AC, 38⟩, ⟨0x3AD, 0x3AF, 37⟩,
    ⟨0x3B1, 0x3C1, 0x20⟩, ⟨0x3C3, 0x3CB, 0x20⟩, ⟨0x3CC, 0x3CC, 64⟩, ⟨0x3CD, 0x3CE, 63⟩,
    ⟨0x430, 0x44F, 0x20⟩, ⟨0x450, 0x45F, 0x50⟩, ⟨0x4CF, 0x4CF, 15⟩, ⟨0x561, 0x586, 0x30⟩,
    ⟨0x2170, 0x217F, 0x10⟩, ⟨0x24D0, 0x24E9, 26⟩, ⟨0xFF41, 0xFF5A, 0x20⟩, ⟨0x10428, 0x1044F, 0x28⟩]

/-- Ranges that start with an upper-case letter, each followed by its lower case. -/
def alternations : List (Nat × Nat) :=
  [(0x100, 0x12F), (0x132, 0x137), (0x139, 0x148), (0x14A, 0x177), (0x179, 0x17E), (0x1CD, 0x1DC),
    (0x1DE, 0x1EF), (0x1F8, 0x21F), (0x222, 0x233), (0x3D8, 0x3EF), (0x460, 0x481), (0x48A, 0x4BF),
    (0x4C1, 0x4CE), (0x4D0, 0x52F), (0x1E00, 0x1E95), (0x1EA0, 0x1EFF), (0x2C80, 0x2CE3)]

/-- The upper case of a code point where it is one code point. -/
def upper (n : Nat) : Nat :=
  if n = 0xFF then 0x178
  else if n = 0xB5 then 0x39C
  else if n = 0x131 then 0x49
  else if n = 0x17F then 0x53
  else if n = 0x3C2 then 0x3A3
  else match shifts.find? fun s => s.first ≤ n && n ≤ s.last with
    | some s => n - s.distance
    | none =>
      match alternations.find? fun (first, last) => first ≤ n && n ≤ last with
      | some (first, _) => if (n - first) % 2 = 1 then n - 1 else n
      | none => n

/-- The lower case of a code point where it is one code point. -/
def lower (n : Nat) : Nat :=
  if n = 0x178 then 0xFF
  else match shifts.find? fun s => s.first ≤ n + s.distance && n + s.distance ≤ s.last with
    | some s => n + s.distance
    | none =>
      match alternations.find? fun (first, last) => first ≤ n && n ≤ last with
      | some (first, _) => if (n - first) % 2 = 0 then n + 1 else n
      | none => n

def upperAll (n : Nat) : List Nat :=
  if n = 0xDF then [0x53, 0x53]
  else if n = 0xFB00 then [0x46, 0x46]
  else if n = 0xFB01 then [0x46, 0x49]
  else if n = 0xFB02 then [0x46, 0x4C]
  else if n = 0x149 then [0x2BC, 0x4E]
  else if n = 0x1F0 then [0x4A, 0x30C]
  else [upper n]

def lowerAll (n : Nat) : List Nat := if n = 0x130 then [0x69, 0x307] else [lower n]

def isCased (n : Nat) : Bool := upper n ≠ n || lower n ≠ n

def toUpper (s : Units) : Units :=
  ((s.codePoints.flatMap upperAll).flatMap Units.ofCodePoint).toArray

/-- A sigma at the end of a word has a form of its own. -/
def lowerFrom (afterLetter : Bool) : List Nat → List Nat
  | [] => []
  | n :: rest =>
    let last := n = 0x3A3 && afterLetter && !(rest.head?.any isCased)
    (if last then [0x3C2] else lowerAll n) ++ lowerFrom (isCased n) rest

def toLower (s : Units) : Units :=
  ((lowerFrom false s.codePoints).flatMap Units.ofCodePoint).toArray

end PluginRelay.Casing
