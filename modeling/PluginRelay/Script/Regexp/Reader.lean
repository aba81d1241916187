import PluginRelay.Script.Regexp.Basic

/-!
# Reading regular expressions

Outside of the mode for code points, braces and brackets that make no sense stand for themselves, and
numbers beyond the last group are octal escapes.
-/
namespace PluginRelay.Script.Regexp

structure ReaderState where
  rest : List Nat
  unicode : Bool
  ignoreCase : Bool
  /-- The number of groups met so far, the whole match among them. -/
  count : Nat
  /-- The number of groups in all. -/
  total : Nat
  names : List (String × Nat)
  hasNames : Bool

abbrev Read := EStateM String ReaderState

namespace Read

def code (c : Char) : Nat := c.toNat

def skip (n : Nat) : Read Unit := modify fun s => { s with rest := s.rest.drop n }

/-- Whether the given characters come next. -/
def isNext (text : String) : Read Bool :=
  return (text.toList.map Char.toNat).isPrefixOf (← get).rest

/-- Takes the given characters if they come next. -/
def optional (text : String) : Read Bool := do
  if ← isNext text then
    skip text.length
    return true
  else return false

def expect (text : String) : Read Unit := do
  if !(← optional text) then throw ("expecting '" ++ text ++ "'")

/-- A decimal number, if one comes next. -/
def decimal? : Read (Option Nat) := do
  let digits := (← get).rest.takeWhile isDigit
  if digits.isEmpty then return none
  skip digits.length
  return some (digits.foldl (fun n d => n * 10 + (d - 48)) 0)

def hexDigit? (n : Nat) : Option Nat :=
  if isDigit n then some (n - 48)
  else if 97 ≤ n && n ≤ 102 then some (n - 87)
  else if 65 ≤ n && n ≤ 70 then some (n - 55)
  else none

/-- A number of exactly `count` hexadecimal digits. -/
def hex? (count : Nat) (rest : List Nat) : Option Nat :=
  let digits := (rest.take count).filterMap hexDigit?
  if digits.length = count then some (digits.foldl (fun n d => n * 16 + d) 0) else none

/-- The escape after `u`, if it is one. -/
def unicodeEscape? : Read (Option Nat) := do
  let s ← get
  if s.unicode && s.rest.head? = some (code '\x7b') then
    let digits := s.rest.tail.takeWhile fun n => (hexDigit? n).isSome
    let value := (digits.filterMap hexDigit?).foldl (fun n d => n * 16 + d) 0
    if digits.isEmpty || 0x10FFFF < value ||
        (s.rest.drop (digits.length + 1)).head? ≠ some (code '\x7d') then return none
    skip (digits.length + 2)
    return some value
  match hex? 4 s.rest with
  | none => return none
  | some high =>
    skip 4
    let s ← get
    if s.unicode && 0xD800 ≤ high && high < 0xDC00 && (← isNext "\\u") then
      match hex? 4 (s.rest.drop 2) with
      | some low =>
        if 0xDC00 ≤ low && low < 0xE000 then
          skip 6
          return some (0x10000 + (high - 0xD800) * 0x400 + (low - 0xDC00))
        else return some high
      | none => return some high
    else return some high

/-- Characters that stand for themselves behind a backslash in every mode. -/
def isSyntaxCharacter (n : Nat) : Bool :=
  ("^$\\.*+?()[]\x7b\x7d|/".toList.map Char.toNat).contains n

/-- An octal number of up to three digits. -/
def octal : Read Nat := do
  let digits := ((← get).rest.take 3).takeWhile fun n => 48 ≤ n && n ≤ 55
  let digits := if 51 < digits.headD 48 then digits.take 2 else digits
  skip digits.length
  return digits.foldl (fun n d => n * 8 + (d - 48)) 0

inductive Atom where
  | char (n : Nat)
  | item (i : ClassItem)

/-- What an escape stands for, after its backslash. -/
def escape (inClass : Bool) : Read Atom := do
  let s ← get
  match s.rest with
  | [] => throw "unexpected end"
  | n :: rest =>
    let take (a : Atom) : Read Atom := do
      skip 1
      return a
    match Char.ofNat n with
    | 'd' => take (.item (.digit false))
    | 'D' => take (.item (.digit true))
    | 's' => take (.item (.space false))
    | 'S' => take (.item (.space true))
    | 'w' => take (.item (.word false))
    | 'W' => take (.item (.word true))
    | 't' => take (.char 9)
    | 'n' => take (.char 10)
    | 'v' => take (.char 11)
    | 'f' => take (.char 12)
    | 'r' => take (.char 13)
    | 'c' =>
      match rest.head? with
      | some letter =>
        let isLetter := (65 ≤ letter && letter ≤ 90) || (97 ≤ letter && letter ≤ 122)
        let isOther := inClass && !s.unicode && (isDigit letter || letter = 95)
        if isLetter || isOther then
          skip 2
          return .char (letter % 32)
        else if s.unicode then throw "invalid escape sequence in regular expression"
        else return .char 92
      | none => if s.unicode then throw "invalid escape sequence in regular expression" else
          return .char 92
    | 'x' =>
      match hex? 2 rest with
      | some value =>
        skip 3
        return .char value
      | none =>
        if s.unicode then throw "invalid escape sequence in regular expression" else take (.char n)
    | 'u' =>
      skip 1
      match ← unicodeEscape? with
      | some value => return .char value
      | none =>
        if s.unicode then throw "invalid escape sequence in regular expression" else return .char n
    | '0' =>
      if s.unicode && (rest.head?.any isDigit) then
        throw "invalid decimal escape in regular expression"
      else if s.unicode then take (.char 0)
      else return .char (← octal)
    | c =>
      if inClass && c = 'b' then take (.char 8)
      else if inClass && c = '-' && s.unicode then take (.char n)
      else if s.unicode then
        if isSyntaxCharacter n then take (.char n)
        else throw "invalid escape sequence in regular expression"
      else if isDigit n && n < 56 then return .char (← octal)
      else take (.char n)

def classAtom : Read Atom := do
  match (← get).rest with
  | [] => throw "unexpected end"
  | n :: _ =>
    skip 1
    if n = 92 then escape true else return .char n

/-- The items of a class up to its closing bracket. -/
def classItems : Nat → Read (List ClassItem)
  | 0 => throw "unexpected end"
  | fuel + 1 => do
    if ← optional "]" then return []
    let low ← classAtom
    let s ← get
    let isRange := s.rest.head? = some (code '-') && (s.rest.drop 1).head? ≠ some (code ']') &&
      !(s.rest.drop 1).isEmpty
    let one : Atom → ClassItem
      | .char n => .range n n
      | .item i => i
    if isRange then
      skip 1
      let high ← classAtom
      match low, high with
      | .char a, .char b =>
        if b < a then throw "invalid class range"
        return .range a b :: (← classItems fuel)
      | a, b =>
        if (← get).unicode then throw "invalid class range"
        return one a :: .range 45 45 :: one b :: (← classItems fuel)
    else return one low :: (← classItems fuel)

/-- A name of a group up to its closing angle bracket. -/
def groupName : Read String := do
  let s ← get
  let name := s.rest.takeWhile (· ≠ code '>')
  let isStart (n : Nat) := isWord n && !isDigit n || n = 36 || 0x80 ≤ n
  let valid := match name with
    | [] => false
    | n :: more => isStart n && more.all fun n => isStart n || isDigit n
  if !valid || name.length = s.rest.length then throw "invalid group name"
  skip (name.length + 1)
  return String.ofList (name.map Char.ofNat)

/-- Bounds of a repetition in braces: the least and the greatest number of times. -/
def bounds? : Read (Option (Nat × Option Nat)) := do
  let before ← get
  skip 1
  match ← decimal? with
  | none =>
    set before
    return none
  | some low =>
    if ← optional "," then
      let high ← decimal?
      if ← optional "\x7d" then return some (low, high)
      set before
      return none
    else if ← optional "\x7d" then return some (low, some low)
    else
      set before
      return none

/-- The number of times that a suffix asks for, if there is one. -/
def quantifier? : Read (Option (Nat × Option Nat)) := do
  if ← optional "*" then return some (0, none)
  if ← optional "+" then return some (1, none)
  if ← optional "?" then return some (0, some 1)
  if ← isNext "\x7b" then
    match ← bounds? with
    | some (low, high) =>
      if high.any (· < low) then throw "invalid repetition count"
      return some (low, high)
    | none =>
      if (← get).unicode then throw "invalid repetition count"
      return none
  return none

/-- A number or name of a group behind a backslash. -/
def reference? : Read (Option Node) := do
  let s ← get
  match s.rest with
  | [] => return none
  | n :: _ =>
    if 49 ≤ n && n ≤ 57 then
      match ← decimal? with
      | some index =>
        if index < s.total then return some (.reference index)
        else if s.unicode then throw "back reference out of range in regular expression"
        else
          set s
          return none
      | none => return none
    else if n = code 'k' && (s.unicode || s.hasNames) then
      skip 1
      if !(← optional "<") then throw "expecting group name"
      let name ← groupName
      match s.names.lookup name with
      | some index => return some (.reference index)
      | none => throw "group name not defined"
    else return none

/-- A disjunction, given the reader for what stands in groups. -/
def term (inner : Read Node) (fuel : Nat) : Read (Option (Node × Bool)) := do
  let s ← get
  match s.rest with
  | [] => return none
  | n :: _ =>
    match Char.ofNat n with
    | '|' => return none
    | ')' => return none
    | '^' =>
      skip 1
      return some (.lineStart, false)
    | '$' =>
      skip 1
      return some (.lineEnd, false)
    | '.' =>
      skip 1
      return some (.any, true)
    | '*' | '+' | '?' => throw "nothing to repeat"
    | '(' =>
      skip 1
      let group (build : Node → Node) (repeats : Bool) : Read (Option (Node × Bool)) := do
        let x ← inner
        expect ")"
        return some (build x, repeats)
      if ← optional "?:" then group id true
      else if ← optional "?=" then group (.look false false) (!s.unicode)
      else if ← optional "?!" then group (.look false true) (!s.unicode)
      else if ← optional "?<=" then group (.look true false) false
      else if ← optional "?<!" then group (.look true true) false
      else if ← optional "?<" then
        let name ← groupName
        let index := (← get).count
        modify fun s => { s with count := index + 1 }
        if s.names.lookup name ≠ some index then throw "duplicate group name"
        group (.capture index) true
      else if ← isNext "?" then throw "invalid group"
      else
        let index := (← get).count
        modify fun s => { s with count := index + 1 }
        group (.capture index) true
    | '[' =>
      skip 1
      let negated ← optional "^"
      return some (.set negated (← classItems fuel), true)
    | '\\' =>
      skip 1
      match (← get).rest.head?.map Char.ofNat with
      | some 'b' =>
        skip 1
        return some (.boundary false, false)
      | some 'B' =>
        skip 1
        return some (.boundary true, false)
      | _ =>
        match ← reference? with
        | some r => return some (r, true)
        | none =>
          match ← escape false with
          | .char c => return some (.char c, true)
          | .item i => return some (.set false [i], true)
    | '\x7b' =>
      if s.unicode then throw "syntax error"
      match ← bounds? with
      | some _ => throw "nothing to repeat"
      | none =>
        skip 1
        return some (.char n, true)
    | ']' | '\x7d' =>
      if s.unicode then throw "syntax error"
      skip 1
      return some (.char n, true)
    | _ =>
      skip 1
      return some (.char n, true)

/-- A term with the number of times that it may match. -/
def repeated (inner : Read Node) (fuel : Nat) : Read (Option Node) := do
  let first := (← get).count
  match ← term inner fuel with
  | none => return none
  | some (x, repeats) =>
    if !repeats then
      match (← get).rest.head?.map Char.ofNat with
      | some '*' | some '+' | some '?' => throw "nothing to repeat"
      | _ => return some x
    else
      match ← quantifier? with
      | none => return some x
      | some (low, high) =>
        let lazy ← optional "?"
        return some (.loop x low high (!lazy) first ((← get).count - first))

def alternative (inner : Read Node) : Nat → Read Node
  | 0 => throw "unexpected end"
  | fuel + 1 => do
    match ← repeated inner fuel with
    | none => return .empty
    | some x => return .seq x (← alternative inner fuel)

def alternatives (inner : Read Node) : Nat → Read Node
  | 0 => throw "unexpected end"
  | fuel + 1 => do
    let x ← alternative inner (fuel + 1)
    if ← optional "|" then return .alt x (← alternatives inner fuel) else return x

/-- A disjunction with groups nested no deeper than `depth`. -/
def disjunction (length : Nat) : (depth : Nat) → Read Node
  | 0 => throw "stack overflow"
  | depth + 1 => alternatives (disjunction length depth) (length + 2)

end Read

/-- The number of groups, the whole match among them, and the names of groups; of two groups with one
name the last counts. -/
def groupsOf (inClass : Bool) (count : Nat) : List Nat → Nat × List (String × Nat)
  | 92 :: _ :: rest => groupsOf inClass count rest
  | 91 :: rest => groupsOf true count rest
  | 93 :: rest => groupsOf false count rest
  | 40 :: 63 :: 60 :: n :: rest =>
    if inClass || n = 61 || n = 33 then groupsOf inClass count rest
    else
      let name := String.ofList (((n :: rest).takeWhile (· ≠ 62)).map Char.ofNat)
      let (total, names) := groupsOf inClass (count + 1) rest
      (total, if (names.lookup name).isSome then names else (name, count) :: names)
  | 40 :: 63 :: rest => groupsOf inClass count rest
  | 40 :: rest => groupsOf inClass (if inClass then count else count + 1) rest
  | _ :: rest => groupsOf inClass count rest
  | [] => (count, [])

namespace Program

/-- Reads a regular expression, or says what is wrong with it. -/
def ofUnits? (source flags : Units) : Except String Program :=
  match Flags.none.ofLetters? flags.toList with
  | none => .error "invalid regular expression flags"
  | some flags =>
    let characters := if flags.unicode then source.codePoints else source.toList.map (·.toNat)
    let (total, names) := groupsOf false 1 characters
    let state : ReaderState :=
      ⟨characters, flags.unicode, flags.ignoreCase, 1, total, names, !names.isEmpty⟩
    match (Read.disjunction characters.length (characters.length + 1)).run state with
    | .ok node s =>
      if s.rest.isEmpty then .ok ⟨flags, node, s.count, s.names⟩
      else .error "extraneous characters at the end"
    | .error message _ => .error message

end Program

end PluginRelay.Script.Regexp
