import PluginRelay.Bytes
import PluginRelay.Script.Numeral

/-!
# Data as scripts read and write it

The notation for data, with the place of a fault. Texts may hold surrogates that stand alone.
-/
namespace PluginRelay.Script.JsonText

/-- What a text of the notation stands for. -/
inductive Tree where
  | null
  | bool (b : Bool)
  | number (v : Value)
  | text (units : Units)
  | list (items : List Tree)
  | members (entries : List (Units × Tree))
  deriving Inhabited

/-! ### Tokens -/

inductive Kind where
  | finish
  | mark (character : Nat)
  | word (name : List Nat)
  | number (v : Value)
  | text (units : Units)
  deriving Inhabited, BEq

/-- A place in a text: the code points that are left, the line from 1 and the column from 0. -/
structure Place where
  rest : List Nat
  line : Nat
  column : Nat
  deriving Inhabited

structure Token where
  kind : Kind
  start : Place
  after : Place
  deriving Inhabited

def fault {α : Type} (p : Place) (message : String) : Except SyntaxFault α :=
  .error ⟨message, some ⟨p.line, p.column⟩⟩

def Place.drop (p : Place) (n : Nat) : Place := ⟨p.rest.drop n, p.line, p.column + n⟩

def isDigit (n : Nat) : Bool := 48 ≤ n && n ≤ 57

def isWord (n : Nat) : Bool :=
  isDigit n || (65 ≤ n && n ≤ 90) || (97 ≤ n && n ≤ 122) || n = 95 || n = 36

/-- Past blanks and the ends of lines. -/
def skipBlanks : List Nat → (line column : Nat) → Place
  | [], line, column => ⟨[], line, column⟩
  | n :: rest, line, column =>
    if n = 32 || n = 9 then skipBlanks rest line (column + 1)
    else if n = 13 && rest.head? = some 10 then skipBlanks rest line column
    else if n = 10 || n = 13 then skipBlanks rest (line + 1) 0
    else ⟨n :: rest, line, column⟩

def hexValue? (n : Nat) : Option Nat := Bytes.hexValue? (Char.ofNat n)

/-- A number of exactly `count` hexadecimal digits. -/
def hex? : (count : Nat) → Nat → List Nat → Option (Nat × List Nat)
  | 0, value, rest => some (value, rest)
  | _ + 1, _, [] => none
  | count + 1, value, n :: rest => do hex? count (value * 16 + (← hexValue? n)) rest

/-- A number of hexadecimal digits up to a brace. -/
def braced? : (value : Nat) → List Nat → Option (Nat × List Nat)
  | _, [] => none
  | value, n :: rest => do
    let value := value * 16 + (← hexValue? n)
    if 0x10FFFF < value then none
    else if rest.head? = some 125 then some (value, rest.tail)
    else braced? value rest

/-- The character that an escape stands for, and what follows it; nothing if it stands for none. -/
def escape (p : Place) : List Nat → Except SyntaxFault (List Nat × List Nat)
  | [] => fault p "unexpected end of string"
  | n :: rest =>
    let malformed : Except SyntaxFault (List Nat × List Nat) :=
      fault p "malformed escape sequence in string literal"
    let number (found : Option (Nat × List Nat)) : Except SyntaxFault (List Nat × List Nat) :=
      match found with
      | some (value, rest) => .ok ([value], rest)
      | none => malformed
    if isDigit n then malformed
    else
      match Char.ofNat n with
      | 'b' => .ok ([8], rest)
      | 'f' => .ok ([12], rest)
      | 'n' => .ok ([10], rest)
      | 'r' => .ok ([13], rest)
      | 't' => .ok ([9], rest)
      | 'v' => .ok ([11], rest)
      | 'x' | 'u' =>
        if rest.head? = some 123 then number (braced? 0 rest.tail)
        else number (hex? (if n = 120 then 2 else 4) 0 rest)
      | '\n' => .ok ([], rest)
      | '\r' => .ok ([], if rest.head? = some 10 then rest.tail else rest)
      | '\u2028' | '\u2029' => .ok ([], rest)
      | _ => .ok ([n], rest)

/-- The characters of a text, in reverse, and what follows its closing quote. -/
def textFrom (p : Place) : (fuel : Nat) → List Nat → List Nat → Except SyntaxFault (List Nat × List Nat)
  | 0, _, _ => fault p "unexpected end of string"
  | _, [], _ => fault p "unexpected end of string"
  | fuel + 1, n :: rest, found =>
    if n < 32 then fault p "invalid character in a JSON string"
    else if n = 34 then .ok (found, rest)
    else if n = 92 then
      match escape p rest with
      | .ok (cs, rest) => textFrom p fuel rest (cs ++ found)
      | .error e => .error e
    else textFrom p fuel rest (n :: found)

def asChar (n : Nat) : Char := Char.ofNat n

/-- The next token. -/
def next (p : Place) : Except SyntaxFault Token := do
  let p := skipBlanks p.rest p.line p.column
  match p.rest with
  | [] => return ⟨.finish, p, p⟩
  | n :: rest =>
    let mark : Token := ⟨.mark n, p, p.drop 1⟩
    if n = 34 then
      let (found, after) ← textFrom p (rest.length + 1) rest []
      let units := (found.reverse.flatMap Units.ofCodePoint).toArray
      return ⟨.text units, p, p.drop (p.rest.length - after.length)⟩
    else if isDigit n || (n = 45 && (rest.head?).any isDigit) then
      if n = 48 && (rest.head?).any isDigit then return mark
      match Numeral.decimalPrefix? (p.rest.map asChar) with
      | some (x, after) =>
        return ⟨.number (.ofDouble x), p, p.drop (p.rest.length - after.length)⟩
      | none => return mark
    else if isWord n then
      let name := p.rest.takeWhile isWord
      return ⟨.word name, p, p.drop name.length⟩
    else if 128 ≤ n then fault p "unexpected character"
    else return mark

/-! ### Reading -/

/-- The characters of a token. -/
def Token.shown (t : Token) : String :=
  String.ofList ((t.start.rest.take (t.start.rest.length - t.after.rest.length)).map asChar)

def expect (t : Token) (c : Char) : Except SyntaxFault Token :=
  if t.kind == .mark c.toNat then next t.after
  else fault t.start ("expecting '" ++ String.singleton c ++ "'")

def unexpected {α : Type} (t : Token) : Except SyntaxFault α :=
  match t.kind with
  | .finish => fault t.start "Unexpected end of JSON input"
  | _ => fault t.start ("unexpected token: '" ++ t.shown ++ "'")

abbrev Reading := Token → Except SyntaxFault (Tree × Token)

/-- The elements of a list, in reverse, and the token after them. -/
def items (inner : Reading) : (fuel : Nat) → Token → List Tree → Except SyntaxFault (List Tree × Token)
  | 0, t, found => .ok (found, t)
  | fuel + 1, t, found => do
    let (v, t) ← inner t
    if t.kind == .mark 44 then items inner fuel (← next t.after) (v :: found)
    else return (v :: found, t)

def entries (inner : Reading) :
    (fuel : Nat) → Token → List (Units × Tree) → Except SyntaxFault (List (Units × Tree) × Token)
  | 0, t, found => .ok (found, t)
  | fuel + 1, t, found => do
    match t.kind with
    | .text key =>
      let (v, t) ← inner (← expect (← next t.after) ':')
      if t.kind == .mark 44 then entries inner fuel (← next t.after) ((key, v) :: found)
      else return ((key, v) :: found, t)
    | _ => fault t.start "expecting property name"

/-- A value that starts with a token, and the token after it. -/
def value (length : Nat) : (depth : Nat) → Reading
  | 0, t => fault t.start "stack overflow"
  | depth + 1, t => do
    let done (v : Tree) : Except SyntaxFault (Tree × Token) := return (v, ← next t.after)
    match t.kind with
    | .text units => done (.text units)
    | .number v => done (.number v)
    | .word name =>
      match String.ofList (name.map asChar) with
      | "true" => done (.bool true)
      | "false" => done (.bool false)
      | "null" => done .null
      | _ => unexpected t
    | .mark 91 =>
      let t ← next t.after
      if t.kind == .mark 93 then return (.list [], ← expect t ']')
      let (found, t) ← items (value length depth) length t []
      return (.list found.reverse, ← expect t ']')
    | .mark 123 =>
      let t ← next t.after
      if t.kind == .mark 125 then return (.members [], ← expect t '\x7d')
      let (found, t) ← entries (value length depth) length t []
      return (.members found.reverse, ← expect t '\x7d')
    | _ => unexpected t

/-- Values may be nested this deep. -/
def depthLimit : Nat := 1000

/-- Reads a whole text. -/
def read (s : Units) : Except SyntaxFault Tree := do
  let points := s.codePoints
  let t ← next ⟨points, 1, 0⟩
  let (v, t) ← value (points.length + 1) depthLimit t
  match t.kind with
  | .finish => return v
  | _ => fault t.start "unexpected data at the end"

/-! ### Writing -/

def hexLower (n : Nat) : Nat := if n < 10 then 48 + n else 87 + n

def escapedPoint (n : Nat) : List UInt16 :=
  let letter (c : Char) : List UInt16 := [92, UInt16.ofNat c.toNat]
  if n = 9 then letter 't'
  else if n = 13 then letter 'r'
  else if n = 10 then letter 'n'
  else if n = 8 then letter 'b'
  else if n = 12 then letter 'f'
  else if n = 34 || n = 92 then [92, UInt16.ofNat n]
  else if n < 32 || Units.isSurrogate n then
    [92, 117] ++ [n / 4096, n / 256 % 16, n / 16 % 16, n % 16].map fun d => UInt16.ofNat (hexLower d)
  else Units.ofCodePoint n

/-- A text in quotes. -/
def quoted (s : Units) : Units := (34 :: s.codePoints.flatMap escapedPoint ++ [34]).toArray

end PluginRelay.Script.JsonText
