import PluginRelay.Json.Numeral
import PluginRelay.Keyed

/-!
# Reading JSON

`parse?` reads one value that fills the whole text but for blanks. The depth is the number of
arrays and objects that may still be opened.
-/
namespace PluginRelay.Json

/-- The nesting that texts from outside may have. -/
def depthLimit : Nat := 127

def isBlank (c : Char) : Bool := c = ' ' || c = '\n' || c = '\t' || c = '\r'

def skipBlanks (text : List Char) : List Char := text.dropWhile isBlank

def hexValue? (c : Char) : Option Nat :=
  if '0' ≤ c ∧ c ≤ '9' then some (c.toNat - 48)
  else if 'a' ≤ c ∧ c ≤ 'f' then some (c.toNat - 87)
  else if 'A' ≤ c ∧ c ≤ 'F' then some (c.toNat - 55)
  else none

/-- The 16-bit unit written by four hexadecimal digits. -/
def unit? (a b c d : Char) : Option Nat := do
  return (((← hexValue? a) * 16 + (← hexValue? b)) * 16 + (← hexValue? c)) * 16 + (← hexValue? d)

def escaped? (c : Char) : Option Char :=
  match c with
  | '"' => some '"'
  | '\\' => some '\\'
  | '/' => some '/'
  | 'b' => some '\x08'
  | 'f' => some '\x0c'
  | 'n' => some '\n'
  | 'r' => some '\r'
  | 't' => some '\t'
  | _ => none

/-- The characters of a string up to its closing quote. An escaped surrogate must have its partner
right behind it. -/
def stringBody : List Char → Option (List Char × List Char)
  | [] => none
  | '"' :: rest => some ([], rest)
  | '\\' :: 'u' :: a :: b :: c :: d :: '\\' :: 'u' :: e :: f :: g :: h :: rest => do
    let high ← unit? a b c d
    if 0xD800 ≤ high ∧ high < 0xDC00 then
      let low ← unit? e f g h
      if 0xDC00 ≤ low ∧ low < 0xE000 then
        let (chars, rest) ← stringBody rest
        return (Char.ofNat (0x10000 + (high - 0xD800) * 0x400 + (low - 0xDC00)) :: chars, rest)
      else none
    else if 0xDC00 ≤ high ∧ high < 0xE000 then none
    else
      let (chars, rest) ← stringBody ('\\' :: 'u' :: e :: f :: g :: h :: rest)
      return (Char.ofNat high :: chars, rest)
  | '\\' :: 'u' :: a :: b :: c :: d :: rest => do
    let unit ← unit? a b c d
    if 0xD800 ≤ unit ∧ unit < 0xE000 then none
    else
      let (chars, rest) ← stringBody rest
      return (Char.ofNat unit :: chars, rest)
  | '\\' :: c :: rest => do
    let e ← escaped? c
    let (chars, rest) ← stringBody rest
    return (e :: chars, rest)
  | c :: rest =>
    if c = '\\' ∨ c.toNat < 0x20 then none
    else do
      let (chars, rest) ← stringBody rest
      return (c :: chars, rest)

/-- Reads `word` off the front of the text. -/
def afterWord? : List Char → List Char → Option (List Char)
  | [], text => some text
  | _ :: _, [] => none
  | w :: word, c :: text => if w = c then afterWord? word text else none

/-- A reader takes a value off the front of a text. -/
abbrev Reader (α : Type) := List Char → Option (α × List Char)

/-- The items behind the first one of an array; `fuel` bounds their number. -/
def itemsTail (item : Reader Value) (fuel : Nat) (text : List Char) : Option (List Value × List Char) :=
  match fuel, skipBlanks text with
  | _, ']' :: rest => some ([], rest)
  | fuel + 1, ',' :: rest => do
    let (value, rest) ← item rest
    let (values, rest) ← itemsTail item fuel rest
    return (value :: values, rest)
  | _, _ => none

def items (item : Reader Value) (text : List Char) : Option (List Value × List Char) :=
  match skipBlanks text with
  | ']' :: rest => some ([], rest)
  | text => do
    let (value, rest) ← item text
    let (values, rest) ← itemsTail item rest.length rest
    return (value :: values, rest)

def entry (item : Reader Value) (text : List Char) : Option ((String × Value) × List Char) :=
  match skipBlanks text with
  | '"' :: rest => do
    let (key, rest) ← stringBody rest
    match skipBlanks rest with
    | ':' :: rest =>
      let (value, rest) ← item rest
      return ((String.ofList key, value), rest)
    | _ => none
  | _ => none

def entriesTail (item : Reader Value) (fuel : Nat) (text : List Char) :
    Option (List (String × Value) × List Char) :=
  match fuel, skipBlanks text with
  | _, '}' :: rest => some ([], rest)
  | fuel + 1, ',' :: rest => do
    let (member, rest) ← entry item rest
    let (others, rest) ← entriesTail item fuel rest
    return (member :: others, rest)
  | _, _ => none

def entries (item : Reader Value) (text : List Char) : Option (List (String × Value) × List Char) :=
  match skipBlanks text with
  | '}' :: rest => some ([], rest)
  | text => do
    let (member, rest) ← entry item text
    let (others, rest) ← entriesTail item rest.length rest
    return (member :: others, rest)

/-- A value that holds no other value. -/
def scalar (text : List Char) : Option (Value × List Char) :=
  match text with
  | 'n' :: rest => (afterWord? ['u', 'l', 'l'] rest).map fun rest => (.null, rest)
  | 't' :: rest => (afterWord? ['r', 'u', 'e'] rest).map fun rest => (.bool true, rest)
  | 'f' :: rest => (afterWord? ['a', 'l', 's', 'e'] rest).map fun rest => (.bool false, rest)
  | '"' :: rest => (stringBody rest).map fun (chars, rest) => (.string (String.ofList chars), rest)
  | _ => (Numeral.read? text).map fun (n, rest) => (.number n, rest)

def value (depth : Nat) (text : List Char) : Option (Value × List Char) :=
  match depth, skipBlanks text with
  | 0, '[' :: _ => none
  | 0, '{' :: _ => none
  | depth + 1, '[' :: rest => (items (value depth) rest).map fun (vs, rest) => (.array vs, rest)
  | depth + 1, '{' :: rest => (entries (value depth) rest).map fun (es, rest) => (.object (Keyed.ofList es), rest)
  | _, text => scalar text

/-- The value that a text of bounded nesting writes. -/
def parseWithin? (depth : Nat) (text : String) : Option Value :=
  match value depth text.toList with
  | some (v, rest) => if (skipBlanks rest).isEmpty then some v else none
  | none => none

def parse? (text : String) : Option Value := parseWithin? depthLimit text

end PluginRelay.Json
