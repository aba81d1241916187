import PluginRelay.Text.Casing

/-!
# Regular expressions

A regular expression is a tree. Characters are units, or code points if the flags say so.
-/
namespace PluginRelay.Script.Regexp

structure Flags where
  hasIndices : Bool
  isGlobal : Bool
  ignoreCase : Bool
  multiline : Bool
  dotAll : Bool
  unicode : Bool
  sticky : Bool
  deriving DecidableEq, Repr, Inhabited

namespace Flags

def none : Flags := ⟨false, false, false, false, false, false, false⟩

/-- The flags that letters stand for; each letter may occur once. -/
def ofLetters? (f : Flags) : List UInt16 → Option Flags
  | [] => some f
  | u :: rest =>
    match Char.ofNat u.toNat with
    | 'd' => if f.hasIndices then Option.none else ofLetters? { f with hasIndices := true } rest
    | 'g' => if f.isGlobal then Option.none else ofLetters? { f with isGlobal := true } rest
    | 'i' => if f.ignoreCase then Option.none else ofLetters? { f with ignoreCase := true } rest
    | 'm' => if f.multiline then Option.none else ofLetters? { f with multiline := true } rest
    | 's' => if f.dotAll then Option.none else ofLetters? { f with dotAll := true } rest
    | 'u' => if f.unicode then Option.none else ofLetters? { f with unicode := true } rest
    | 'y' => if f.sticky then Option.none else ofLetters? { f with sticky := true } rest
    | _ => Option.none

end Flags

inductive ClassItem where
  | range (low high : Nat)
  | digit (negated : Bool)
  | space (negated : Bool)
  | word (negated : Bool)
  deriving DecidableEq, Repr, Inhabited

inductive Node where
  | empty
  | char (n : Nat)
  | any
  | set (negated : Bool) (items : List ClassItem)
  | seq (a b : Node)
  | alt (a b : Node)
  /-- A group whose match is kept. -/
  | capture (index : Nat) (inside : Node)
  | reference (index : Nat)
  /-- `inside` at least `low` and at most `high` times; `first` and `count` are the groups in it. -/
  | loop (inside : Node) (low : Nat) (high : Option Nat) (greedy : Bool) (first count : Nat)
  | look (isBack negated : Bool) (inside : Node)
  | lineStart
  | lineEnd
  | boundary (negated : Bool)
  deriving Repr, Inhabited

namespace Node

def size : Node → Nat
  | seq a b | alt a b => a.size + b.size + 1
  | capture _ x | look _ _ x => x.size + 1
  | loop x low _ _ _ _ => x.size + low + 1
  | _ => 1

end Node

/-- A regular expression that is ready to be matched. -/
structure Program where
  flags : Flags
  node : Node
  /-- The number of groups, the whole match among them. -/
  groupCount : Nat
  /-- The names of groups. -/
  names : List (String × Nat)
  deriving Repr, Inhabited

def isDigit (n : Nat) : Bool := 48 ≤ n && n ≤ 57

def isWord (n : Nat) : Bool := isDigit n || (65 ≤ n && n ≤ 90) || (97 ≤ n && n ≤ 122) || n = 95

def isLineEnd (n : Nat) : Bool := n = 10 || n = 13 || n = 0x2028 || n = 0x2029

def isSpace (n : Nat) : Bool :=
  n = 32 || (9 ≤ n && n ≤ 13) || n = 0xA0 || n = 0x1680 || (0x2000 ≤ n && n ≤ 0x200A) || n = 0x2028 ||
  n = 0x2029 || n = 0x202F || n = 0x205F || n = 0x3000 || n = 0xFEFF

def ClassItem.holds (n : Nat) : ClassItem → Bool
  | range low high => low ≤ n && n ≤ high
  | digit negated => isDigit n != negated
  | space negated => isSpace n != negated
  | word negated => isWord n != negated

end PluginRelay.Script.Regexp
