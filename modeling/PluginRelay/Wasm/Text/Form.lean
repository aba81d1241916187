import PluginRelay.Bytes
import PluginRelay.Text.Utf8

/-!
# Forms of the text format

Text is read in two steps: characters make tokens, and balanced brackets make forms. A form is a
word, a byte string or a group of forms.
-/
namespace PluginRelay.Wasm.Text

inductive Token where
  | openGroup
  | closeGroup
  | word (characters : String)
  | string (bytes : Bytes)
  deriving DecidableEq, Repr

/-- Characters of words: visible ASCII but for quotes, commas, semicolons and brackets. -/
def isWordCharacter (c : Char) : Bool :=
  let reserved := ['"', '(', ')', ',', ';', '[', ']', '\x7b', '\x7d']
  '!' ≤ c && c ≤ '~' && !reserved.contains c

/-- What the characters before have left open. -/
inductive Mode where
  /-- A token may start here. -/
  | ready
  /-- A byte string has just ended: a bracket or a blank must follow. -/
  | closed
  | word (reversed : List Char)
  | string (reversed : Bytes)
  | escape (reversed : Bytes)
  | secondDigit (reversed : Bytes) (first : Nat)
  | unicode (reversed : Bytes) (value : Nat)
  | lineComment
  | blockComment (depth : Nat)

def pushUtf8 (reversed : Bytes) (c : Char) : Bytes :=
  (Utf8.encode (String.singleton c)).reverse ++ reversed

def escaped? (c : Char) : Option UInt8 :=
  match c with
  | 't' => some 9
  | 'n' => some 10
  | 'r' => some 13
  | '"' => some 34
  | '\'' => some 39
  | '\\' => some 92
  | _ => none

def wordToken (reversed : List Char) : Token := .word (String.ofList reversed.reverse)

/-- Blanks and brackets end every token. -/
def separator? (c : Char) : Option (List Token) :=
  if c = '(' then some [.openGroup]
  else if c = ')' then some [.closeGroup]
  else if c = ' ' || c = '\t' || c = '\n' || c = '\r' then some []
  else none

/-- The tokens of a text, put before those already read, which are in reverse. -/
def tokensFrom (done : List Token) : Mode → List Char → Option (List Token)
  | .ready, [] | .closed, [] | .lineComment, [] => some done.reverse
  | .word w, [] => some (wordToken w :: done).reverse
  | _, [] => none
  | .blockComment n, '(' :: ';' :: rest => tokensFrom done (.blockComment (n + 1)) rest
  | .blockComment n, ';' :: ')' :: rest =>
    tokensFrom done (if n = 0 then .ready else .blockComment (n - 1)) rest
  | .blockComment n, _ :: rest => tokensFrom done (.blockComment n) rest
  | .lineComment, c :: rest => tokensFrom done (if c = '\n' then .ready else .lineComment) rest
  | .string s, c :: rest =>
    if c = '"' then tokensFrom (.string s.reverse :: done) .closed rest
    else if c = '\\' then tokensFrom done (.escape s) rest
    else if c < ' ' || c = '\x7f' then none
    else tokensFrom done (.string (pushUtf8 s c)) rest
  | .escape s, 'u' :: '\x7b' :: rest => tokensFrom done (.unicode s 0) rest
  | .escape s, c :: rest =>
    match escaped? c, Bytes.hexValue? c with
    | some b, _ => tokensFrom done (.string (b :: s)) rest
    | none, some n => tokensFrom done (.secondDigit s n) rest
    | none, none => none
  | .secondDigit s first, c :: rest =>
    match Bytes.hexValue? c with
    | some n => tokensFrom done (.string (UInt8.ofNat (first * 16 + n) :: s)) rest
    | none => none
  | .unicode s value, c :: rest =>
    if c = '\x7d' then
      if value.isValidChar then tokensFrom done (.string (pushUtf8 s (Char.ofNat value))) rest else none
    else
      match Bytes.hexValue? c with
      | some n => if value < 2 ^ 32 then tokensFrom done (.unicode s (value * 16 + n)) rest else none
      | none => none
  | .ready, '(' :: ';' :: rest => tokensFrom done (.blockComment 0) rest
  | .closed, '(' :: ';' :: rest => tokensFrom done (.blockComment 0) rest
  | .word w, '(' :: ';' :: rest => tokensFrom (wordToken w :: done) (.blockComment 0) rest
  | .ready, ';' :: ';' :: rest => tokensFrom done .lineComment rest
  | .closed, ';' :: ';' :: rest => tokensFrom done .lineComment rest
  | .word w, ';' :: ';' :: rest => tokensFrom (wordToken w :: done) .lineComment rest
  | .ready, '"' :: rest => tokensFrom done (.string []) rest
  | .word w, c :: rest =>
    match separator? c with
    | some tokens => tokensFrom (tokens ++ wordToken w :: done) .ready rest
    | none => if isWordCharacter c then tokensFrom done (.word (c :: w)) rest else none
  | .ready, c :: rest =>
    match separator? c with
    | some tokens => tokensFrom (tokens ++ done) .ready rest
    | none => if isWordCharacter c then tokensFrom done (.word [c]) rest else none
  | .closed, c :: rest =>
    match separator? c with
    | some tokens => tokensFrom (tokens ++ done) .ready rest
    | none => none

def tokens? (text : List Char) : Option (List Token) := tokensFrom [] .ready text

inductive Form where
  | word (characters : String)
  | string (bytes : Bytes)
  | group (forms : List Form)
  deriving Inhabited

/-- The forms that tokens make. `current` is the group that is open, in reverse, and `outer` holds
the groups around it. -/
def formsFrom (current : List Form) (outer : List (List Form)) : List Token → Option (List Form)
  | [] => if outer.isEmpty then some current.reverse else none
  | .openGroup :: rest => formsFrom [] (current :: outer) rest
  | .closeGroup :: rest =>
    match outer with
    | [] => none
    | last :: outer => formsFrom (.group current.reverse :: last) outer rest
  | .word w :: rest => formsFrom (.word w :: current) outer rest
  | .string s :: rest => formsFrom (.string s :: current) outer rest

def forms? (text : List Char) : Option (List Form) := (tokens? text).bind (formsFrom [] [])

mutual

/-- The number of words, byte strings and groups. -/
def Form.size : Form → Nat
  | .word _ => 1
  | .string _ => 1
  | .group forms => sizeOfAll forms + 1

def sizeOfAll : List Form → Nat
  | [] => 0
  | f :: rest => f.size + sizeOfAll rest

end

end PluginRelay.Wasm.Text
