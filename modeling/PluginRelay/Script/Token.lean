import PluginRelay.Script.Value

/-!
# Tokens

A token says where it stands. Which token starts at a place depends on what the grammar expects
there: a slash may start a regular expression, and a closing brace may go on with a template.
-/
namespace PluginRelay.Script

/-- Why a text is no script, and where, if that is known: lines from 1, columns from 0. -/
structure SyntaxFault where
  message : String
  place : Option Position
  deriving Repr, Inhabited

/-- What a trace says of the place of a fault. -/
def SyntaxFault.traceLine (fault : SyntaxFault) (file : String) : String :=
  match fault.place with
  | some p => "    at " ++ file ++ ":" ++ toString p.line ++ ":" ++ toString p.column ++ "\n"
  | none => ""

inductive TokenKind where
  | eof
  | punctuator (text : String)
  /-- A name or keyword. -/
  | word (name : String) (escaped : Bool)
  | privateName (name : String)
  | number (value : Value)
  | string (units : Units) (hasEscape : Bool)
  /-- A piece of a template: `cooked` is absent if an escape is malformed. -/
  | template (cooked : Option Units) (raw : Units) (isLast : Bool)
  | regexp (body flags : Units)
  deriving Repr, Inhabited, BEq

structure Token where
  kind : TokenKind
  start : Nat
  stop : Nat
  line : Nat
  column : Nat
  newlineBefore : Bool
  deriving Repr, Inhabited

/-- The characters that are left, and where they start. -/
structure Cursor where
  rest : List Char
  offset : Nat
  line : Nat
  column : Nat
  deriving Inhabited

namespace Lexical

def isLineEnd (c : Char) : Bool := c = '\n' || c = '\r' || c = '\u2028' || c = '\u2029'

def isSpace (c : Char) : Bool :=
  c = ' ' || c = '\t' || c = '\x0b' || c = '\x0c' || c = '\u00a0' || c = '\ufeff' || c = '\u1680' ||
  ('\u2000' ≤ c && c ≤ '\u200a') || c = '\u202f' || c = '\u205f' || c = '\u3000'

/-- Ranges of letters beyond ASCII. -/
def letterRanges : List (Nat × Nat) :=
  [(0xAA, 0xAA), (0xB5, 0xB5), (0xBA, 0xBA), (0xC0, 0xD6), (0xD8, 0xF6), (0xF8, 0x2C1), (0x2C6, 0x2D1),
    (0x2E0, 0x2E4), (0x370, 0x374), (0x376, 0x377), (0x37A, 0x37D), (0x37F, 0x37F), (0x386, 0x386),
    (0x388, 0x3FF), (0x400, 0x481), (0x48A, 0x52F), (0x531, 0x556), (0x560, 0x588), (0x5D0, 0x5EA),
    (0x620, 0x64A), (0x66E, 0x66F), (0x671, 0x6D3), (0x710, 0x72F), (0x780, 0x7A5), (0x904, 0x939),
    (0x985, 0x9B9), (0xA05, 0xA39), (0xA85, 0xAB9), (0xB05, 0xB39), (0xB85, 0xBB9), (0xC05, 0xC39),
    (0xC85, 0xCB9), (0xD05, 0xD3A), (0xE01, 0xE30), (0xE81, 0xEB0), (0xF40, 0xF6C), (0x1000, 0x102A),
    (0x10A0, 0x10FF), (0x1100, 0x1248), (0x13A0, 0x13F5), (0x1401, 0x166C), (0x1780, 0x17B3),
    (0x1820, 0x1878), (0x1E00, 0x1FBC), (0x1FC2, 0x1FCC), (0x1FD0, 0x1FDB), (0x1FE0, 0x1FEC),
    (0x1FF2, 0x1FFC), (0x2071, 0x2071), (0x207F, 0x207F), (0x2102, 0x2102), (0x2107, 0x2107),
    (0x210A, 0x2113), (0x2115, 0x2115), (0x2119, 0x211D), (0x2124, 0x2124), (0x2126, 0x2126),
    (0x212A, 0x2139), (0x2160, 0x2188), (0x2C00, 0x2CE4), (0x3005, 0x3007), (0x3021, 0x3029),
    (0x3041, 0x3096), (0x309D, 0x309F), (0x30A1, 0x30FA), (0x30FC, 0x30FF), (0x3105, 0x312F),
    (0x3131, 0x318E), (0x3400, 0x4DBF), (0x4E00, 0xA48C), (0xA4D0, 0xA4FD), (0xA500, 0xA60C),
    (0xA640, 0xA66E), (0xAC00, 0xD7A3), (0xF900, 0xFAD9), (0xFB00, 0xFB06), (0xFE70, 0xFEFC),
    (0xFF21, 0xFF3A), (0xFF41, 0xFF5A), (0xFF66, 0xFFDC), (0x10000, 0x100FA), (0x10280, 0x1031F),
    (0x10400, 0x1049D), (0x1D400, 0x1D7CB), (0x20000, 0x2FA1D), (0x30000, 0x323AF)]

/-- Ranges of marks and digits beyond ASCII, which may follow a letter. -/
def markRanges : List (Nat × Nat) :=
  [(0xB7, 0xB7), (0x300, 0x36F), (0x483, 0x487), (0x591, 0x5BD), (0x64B, 0x669), (0x6F0, 0x6F9),
    (0x900, 0x903), (0x93A, 0x94F), (0x966, 0x96F), (0xE31, 0xE3A), (0xE47, 0xE4E), (0xE50, 0xE59),
    (0x200C, 0x200D), (0x203F, 0x2040), (0x20D0, 0x20DC), (0x3099, 0x309A), (0xFE00, 0xFE0F),
    (0xFE20, 0xFE2F), (0xFF10, 0xFF19), (0xFF3F, 0xFF3F), (0x1D7CE, 0x1D7FF)]

def within (ranges : List (Nat × Nat)) (c : Char) : Bool :=
  ranges.any fun (low, high) => low ≤ c.toNat && c.toNat ≤ high

def isNameStart (c : Char) : Bool :=
  c.isAlpha || c = '_' || c = '$' || (0x80 ≤ c.toNat && within letterRanges c)

def isNamePart (c : Char) : Bool :=
  isNameStart c || c.isDigit || (0x80 ≤ c.toNat && within markRanges c)

end Lexical

namespace Cursor

open Lexical

def fault {α : Type} (c : Cursor) (message : String) : Except SyntaxFault α :=
  .error ⟨message, some ⟨c.line, c.column⟩⟩

/-- Past `n` characters none of which ends a line. -/
def drop (c : Cursor) (n : Nat) : Cursor := ⟨c.rest.drop n, c.offset + n, c.line, c.column + n⟩

/-- Past the given characters, which are next. -/
def past (c : Cursor) (taken : List Char) (rest : List Char) : Cursor :=
  let (line, column) := taken.foldl (fun (line, column) ch =>
    if ch = '\n' then (line + 1, 0) else (line, column + 1)) (c.line, c.column)
  ⟨rest, c.offset + taken.length, line, column⟩

/-- A comment up to its end, in reverse, and what follows. -/
def blockComment (taken : List Char) : List Char → Option (List Char × List Char)
  | '*' :: '/' :: rest => some ('/' :: '*' :: taken, rest)
  | ch :: rest => blockComment (ch :: taken) rest
  | [] => none

/-- A line up to its end, in reverse, and what follows. -/
def lineComment (taken rest : List Char) : List Char × List Char :=
  ((rest.takeWhile (!isLineEnd ·)).reverse ++ taken, rest.dropWhile (!isLineEnd ·))

/-- Blanks and comments in reverse, and what follows; `none` if a comment does not end. No more than
`fuel` of them are skipped. The marks of comments in HTML start comments too; the closing one only where
a line starts. -/
def blanksFrom (fuel : Nat) (startsLine : Bool) (taken : List Char) (rest : List Char) :
    Option (List Char × List Char) :=
  match fuel, rest with
  | fuel + 1, '/' :: '/' :: rest =>
    let (taken, rest) := lineComment taken ('/' :: '/' :: rest)
    blanksFrom fuel startsLine taken rest
  | fuel + 1, '/' :: '*' :: rest =>
    match blockComment ('*' :: '/' :: taken) rest with
    | some (taken, rest) => blanksFrom fuel startsLine taken rest
    | none => none
  | fuel + 1, '<' :: '!' :: '-' :: '-' :: rest =>
    let (taken, rest) := lineComment taken ('<' :: '!' :: '-' :: '-' :: rest)
    blanksFrom fuel startsLine taken rest
  | fuel + 1, '-' :: '-' :: '>' :: rest =>
    if startsLine || taken.any isLineEnd then
      let (taken, rest) := lineComment taken ('-' :: '-' :: '>' :: rest)
      blanksFrom fuel startsLine taken rest
    else some (taken, '-' :: '-' :: '>' :: rest)
  | fuel + 1, ch :: rest =>
    if isLineEnd ch || isSpace ch then blanksFrom fuel startsLine (ch :: taken) rest
    else some (taken, ch :: rest)
  | _, rest => some (taken, rest)

/-- Past blanks and comments; also whether a line ended among them. -/
def skipBlanks (c : Cursor) : Except SyntaxFault (Cursor × Bool) :=
  match blanksFrom (c.rest.length + 1) (c.offset = 0) [] c.rest with
  | some (taken, rest) => .ok (c.past taken.reverse rest, taken.any isLineEnd)
  | none => c.fault "unexpected end of comment"

end Cursor

namespace Lexical

/-- Hexadecimal digits: their value, how many, and what follows; at most `most` are taken. -/
def hexRun (most value count : Nat) : List Char → Nat × Nat × List Char
  | [] => (value, count, [])
  | ch :: rest =>
    match most, Bytes.hexValue? ch with
    | most + 1, some n => hexRun most (value * 16 + n) (count + 1) rest
    | _, _ => (value, count, ch :: rest)

/-- The code point of an escape after its `u`. -/
def unicodeEscape? : List Char → Option (Nat × List Char)
  | '\x7b' :: rest =>
    match hexRun 64 0 0 rest with
    | (n, _ + 1, '\x7d' :: rest) => if n < 0x110000 then some (n, rest) else none
    | _ => none
  | rest =>
    match hexRun 4 0 0 rest with
    | (n, 4, rest) => some (n, rest)
    | _ => none

/-- The characters of a name in reverse, what follows, and whether an escape stood in it. -/
def nameFrom (fuel : Nat) (taken : List Char) (escaped : Bool) (rest : List Char) :
    List Char × List Char × Bool :=
  match fuel, rest with
  | fuel + 1, '\\' :: 'u' :: more =>
    match unicodeEscape? more with
    | some (n, more) =>
      let ch := Char.ofNat n
      if (if taken.isEmpty then isNameStart ch else isNamePart ch) then
        nameFrom fuel (ch :: taken) true more
      else (taken, rest, escaped)
    | none => (taken, rest, escaped)
  | fuel + 1, ch :: more =>
    if (if taken.isEmpty then isNameStart ch else isNamePart ch) then
      nameFrom fuel (ch :: taken) escaped more
    else (taken, rest, escaped)
  | 0, _ | _, [] => (taken, rest, escaped)

def simpleEscape? : Char → Option UInt16
  | 'b' => some 8
  | 't' => some 9
  | 'n' => some 10
  | 'v' => some 11
  | 'f' => some 12
  | 'r' => some 13
  | _ => none

def isOctal (c : Char) : Bool := '0' ≤ c && c ≤ '7'

/-- The value of an octal escape of up to three digits. -/
def octalEscape : List Char → Nat × List Char
  | a :: b :: c :: rest =>
    let value (c : Char) : Nat := c.toNat - 48
    if !isOctal b then (value a, b :: c :: rest)
    else if isOctal c && a ≤ '3' then (value a * 64 + value b * 8 + value c, rest)
    else (value a * 8 + value b, c :: rest)
  | [a, b] => if isOctal b then ((a.toNat - 48) * 8 + (b.toNat - 48), []) else (a.toNat - 48, [b])
  | [a] => (a.toNat - 48, [])
  | [] => (0, [])

/-- What can be wrong with an escape. -/
inductive EscapeFault where
  | ended
  | malformed
  | octal

/-- The units of an escape after its backslash, and what follows. Octal escapes are refused in strict
code and in templates. -/
def escape (strict inTemplate : Bool) : List Char → Except EscapeFault (List UInt16 × List Char)
  | [] => .error .ended
  | '\r' :: '\n' :: rest => .ok ([], rest)
  | 'x' :: rest =>
    match hexRun 2 0 0 rest with
    | (n, 2, rest) => .ok ([UInt16.ofNat n], rest)
    | _ => .error .malformed
  | 'u' :: rest =>
    match unicodeEscape? rest with
    | some (n, rest) => .ok (Units.ofCodePoint n, rest)
    | none => .error .malformed
  | ch :: rest =>
    if isLineEnd ch then .ok ([], rest)
    else match simpleEscape? ch with
      | some u => .ok ([u], rest)
      | none =>
        if ch.isDigit then
          if ch = '0' && !(rest.head?.any Char.isDigit) then .ok ([0], rest)
          else if strict || inTemplate then
            .error (if '8' ≤ ch || inTemplate then .malformed else .octal)
          else if isOctal ch then
            let (n, rest) := octalEscape (ch :: rest)
            .ok ([UInt16.ofNat n], rest)
          else .ok ([UInt16.ofNat ch.toNat], rest)
        else .ok (Units.ofCodePoint ch.toNat, rest)

/-- A literal after its opening quote: its units in reverse, what follows the closing quote, and
whether it holds an escape. -/
def stringFrom (fuel : Nat) (quote : Char) (strict : Bool) (taken : List UInt16) (escapes : Bool)
    (rest : List Char) : Except EscapeFault (List UInt16 × List Char × Bool) :=
  match fuel, rest with
  | 0, _ | _, [] => .error .ended
  | fuel + 1, ch :: rest =>
    if ch = quote then .ok (taken, rest, escapes)
    else if ch = '\\' then
      match escape strict false rest with
      | .ok (units, rest) => stringFrom fuel quote strict (units.reverse ++ taken) true rest
      | .error fault => .error fault
    else if ch = '\n' || ch = '\r' then .error .ended
    else stringFrom fuel quote strict ((Units.ofCodePoint ch.toNat).reverse ++ taken) escapes rest

/-- A piece of a template: cooked and raw units in reverse, what follows, and whether it is the last
piece. -/
def templateFrom (fuel : Nat) (cooked : Option (List UInt16)) (raw : List UInt16) (rest : List Char) :
    Option (Option (List UInt16) × List UInt16 × List Char × Bool) :=
  let plain (units : List UInt16) := (cooked.map (units.reverse ++ ·), units.reverse ++ raw)
  match fuel, rest with
  | 0, _ | _, [] => none
  | _ + 1, '`' :: rest => some (cooked, raw, rest, true)
  | _ + 1, '$' :: '\x7b' :: rest => some (cooked, raw, rest, false)
  | fuel + 1, '\r' :: '\n' :: rest =>
    let (cooked, raw) := plain [10]
    templateFrom fuel cooked raw rest
  | fuel + 1, '\r' :: rest =>
    let (cooked, raw) := plain [10]
    templateFrom fuel cooked raw rest
  | fuel + 1, '\\' :: rest =>
    match escape true true rest with
    | .ok (units, after) =>
      let taken := rest.take (rest.length - after.length)
      let rawUnits := (taken.filter (· ≠ '\r')).flatMap fun ch => Units.ofCodePoint ch.toNat
      templateFrom fuel (cooked.map (units.reverse ++ ·)) (rawUnits.reverse ++ 92 :: raw) after
    | .error _ => templateFrom fuel none (92 :: raw) rest
  | fuel + 1, ch :: rest =>
    let (cooked, raw) := plain (Units.ofCodePoint ch.toNat)
    templateFrom fuel cooked raw rest

/-- The body of a regular expression in reverse, and what follows the closing slash. -/
def regexpFrom (inClass : Bool) (taken : List Char) : List Char → Option (List Char × List Char)
  | [] => none
  | '\\' :: ch :: rest => if isLineEnd ch then none else regexpFrom inClass (ch :: '\\' :: taken) rest
  | ch :: rest =>
    if isLineEnd ch then none
    else if ch = '/' && !inClass then some (taken, rest)
    else regexpFrom (if ch = '[' then true else if ch = ']' then false else inClass) (ch :: taken) rest

/-! ### Numbers -/

def digitIn (base : Nat) (ch : Char) : Option Nat := do
  let n ← Bytes.hexValue? ch
  if n < base then some n else none

/-- Digits with single underscores between them: value, count and what follows. -/
def digitRun (base value count : Nat) : List Char → Nat × Nat × List Char
  | [] => (value, count, [])
  | '_' :: ch :: rest =>
    match count, digitIn base ch with
    | _ + 1, some n => digitRun base (value * base + n) (count + 1) rest
    | _, _ => (value, count, '_' :: ch :: rest)
  | ch :: rest =>
    match digitIn base ch with
    | some n => digitRun base (value * base + n) (count + 1) rest
    | none => (value, count, ch :: rest)

/-- An exponent after its mark, if there is one. -/
def exponentRun (rest : List Char) : Option (Int × List Char) :=
  let (negative, digits) := match rest with
    | '+' :: ds => (false, ds)
    | '-' :: ds => (true, ds)
    | ds => (false, ds)
  match digitRun 10 0 0 digits with
  | (n, _ + 1, rest) => some (if negative then -(n : Int) else n, rest)
  | _ => none

/-- A decimal numeral, with fraction and exponent or as big integer, and what follows. No underscore
stands behind a zero at its start. -/
def decimalRun (rest : List Char) : Option (Value × List Char) :=
  let (whole, count, rest) : Nat × Nat × List Char := match rest with
    | '0' :: '_' :: rest => (0, 1, '_' :: rest)
    | _ => digitRun 10 0 0 rest
  match rest with
  | 'n' :: rest => if count = 0 then none else some (.large whole, rest)
  | _ =>
    let (value, places, rest) : Nat × Nat × List Char := match rest with
      | '.' :: more => digitRun 10 whole 0 more
      | _ => (whole, 0, rest)
    if count + places = 0 then none
    else
      let mark := rest.head?
      if mark = some 'e' || mark = some 'E' then
        (exponentRun rest.tail).map fun (e, rest) => (.ofDouble (.ofDecimal false value (e - places)), rest)
      else some (.ofDouble (.ofDecimal false value (-(places : Int))), rest)

def radixRun (base : Nat) (rest : List Char) : Option (Value × List Char) :=
  match digitRun base 0 0 rest with
  | (n, _ + 1, 'n' :: rest) => some (.large n, rest)
  | (n, _ + 1, rest) => some (.ofDouble (.ofNat n), rest)
  | _ => none

inductive NumberFault where
  | invalid
  | octalInStrict

/-- The number that starts here. A leading zero before octal digits is an old form that strict code
refuses. -/
def number (strict : Bool) (rest : List Char) : Except NumberFault (Value × List Char) :=
  let checked (r : Option (Value × List Char)) : Except NumberFault (Value × List Char) :=
    match r with
    | some (v, rest) =>
      if rest.head?.any (fun ch => isNamePart ch || ch = '\\') then .error .invalid else .ok (v, rest)
    | none => .error .invalid
  match rest with
  | '0' :: 'x' :: rest => checked (radixRun 16 rest)
  | '0' :: 'X' :: rest => checked (radixRun 16 rest)
  | '0' :: 'o' :: rest => checked (radixRun 8 rest)
  | '0' :: 'O' :: rest => checked (radixRun 8 rest)
  | '0' :: 'b' :: rest => checked (radixRun 2 rest)
  | '0' :: 'B' :: rest => checked (radixRun 2 rest)
  | '0' :: ch :: more =>
    if ch.isDigit then
      if strict then .error .octalInStrict
      else
        let digits := (ch :: more).takeWhile Char.isDigit
        let after := (ch :: more).dropWhile Char.isDigit
        if after.head? = some '_' then .error .invalid
        else if digits.all isOctal then
          checked (some (.ofDouble (.ofNat (digitRun 8 0 0 digits).1), after))
        else checked (decimalRun rest)
    else checked (decimalRun rest)
  | rest => checked (decimalRun rest)

/-- Punctuators, longer ones before their beginnings. -/
def punctuators : List String :=
  [">>>=", "...", "===", "!==", "**=", "<<=", ">>=", ">>>", "&&=", "||=", "??=", "=>", "==", "!=", "<=",
    ">=", "&&", "||", "??", "?.", "++", "--", "+=", "-=", "*=", "/=", "%=", "&=", "|=", "^=", "<<", ">>",
    "**"]

def punctuatorAt (rest : List Char) : String :=
  match punctuators.find? fun p => p.toList.isPrefixOf rest with
  | some "?." =>
    match rest with
    | _ :: _ :: ch :: _ => if ch.isDigit then "?" else "?."
    | _ => "?."
  | some p => p
  | none => String.ofList (rest.take 1)

end Lexical

namespace Cursor

open Lexical

/-- A token whose characters are next, up to `rest`. -/
def emit (c : Cursor) (newline : Bool) (kind : TokenKind) (rest : List Char) : Token × Cursor :=
  let taken := c.rest.take (c.rest.length - rest.length)
  let after := c.past taken rest
  (⟨kind, c.offset, after.offset, c.line, c.column, newline⟩, after)

def escapeMessage : EscapeFault → String
  | .ended => "unexpected end of string"
  | .malformed => "malformed escape sequence in string literal"
  | .octal => "octal escape sequences are not allowed in strict mode"

/-- The piece of a template that starts here, behind a back quote or a closing brace. -/
def templatePiece (c : Cursor) (newline : Bool) (skip : Nat) : Except SyntaxFault (Token × Cursor) :=
  match templateFrom (c.rest.length + 1) (some []) [] (c.rest.drop skip) with
  | some (cooked, raw, rest, isLast) =>
    .ok (c.emit newline (.template (cooked.map (·.reverse.toArray)) raw.reverse.toArray isLast) rest)
  | none => c.fault "unexpected end of string"

/-- The token that starts here, where no regular expression can start. -/
def token (c : Cursor) (newline strict : Bool) : Except SyntaxFault (Token × Cursor) :=
  match c.rest with
  | [] => .ok (c.emit newline .eof [])
  | '`' :: _ => c.templatePiece newline 1
  | '#' :: rest =>
    match nameFrom (rest.length + 1) [] false rest with
    | ([], _, _) => c.fault "invalid first character of private name"
    | (name, rest, _) => .ok (c.emit newline (.privateName (String.ofList name.reverse)) rest)
  | ch :: rest =>
    if ch = '"' || ch = '\'' then
      match stringFrom (rest.length + 1) ch strict [] false rest with
      | .ok (units, rest, escapes) => .ok (c.emit newline (.string units.reverse.toArray escapes) rest)
      | .error fault => c.fault (escapeMessage fault)
    else if ch.isDigit || (ch = '.' && rest.head?.any Char.isDigit) then
      match number strict c.rest with
      | .ok (v, rest) => .ok (c.emit newline (.number v) rest)
      | .error .invalid => c.fault "invalid number literal"
      | .error .octalInStrict => c.fault "octal literals are deprecated in strict mode"
    else
      match nameFrom (c.rest.length + 1) [] false c.rest with
      | (first :: name, rest, escaped) =>
        .ok (c.emit newline (.word (String.ofList (first :: name).reverse) escaped) rest)
      | ([], _, _) =>
        if 0x80 ≤ ch.toNat then c.fault "unexpected character"
        else
          let p := punctuatorAt c.rest
          .ok (c.emit newline (.punctuator p) (c.rest.drop p.length))

/-- The next token. -/
def next (c : Cursor) (strict : Bool) : Except SyntaxFault (Token × Cursor) := do
  let (c, newline) ← c.skipBlanks
  c.token newline strict

/-- The regular expression whose opening slash is here. -/
def regexp (c : Cursor) (newline : Bool) : Except SyntaxFault (Token × Cursor) :=
  match regexpFrom false [] (c.rest.drop 1) with
  | none => c.fault "unexpected end of regexp"
  | some (body, rest) =>
    let flags := rest.takeWhile isNamePart
    .ok (c.emit newline (.regexp (Units.ofChars body.reverse) (Units.ofChars flags))
      (rest.drop flags.length))

end Cursor

end PluginRelay.Script
