import PluginRelay.Script.Builtin.Symbol

/-!
# String

Texts are sequences of 16-bit units, and places in them count units.
-/
namespace PluginRelay.Script.Builtin.StringFunctions

open Script.Action Script.Access Script.Convert

variable {σ : Type} [Evolving σ]

/-- `this` as a text. -/
def thisUnits (env : Env σ) (c : Call) : Action σ Units := do
  if c.this.isNullish then throwType "null or undefined are forbidden"
  toUnits env c.this

def construct : Native σ := fun env c => do
  let s ← match c.arguments.toList with
    | [] => pure #[]
    | .symbol id :: _ => if c.isNew then toUnits env (.symbol id) else SymbolFunctions.shown id
    | v :: _ => toUnits env v
  if c.isNew then return .object (← create env c .stringPrototype (.primitive (.text s)))
  else units s

/-! ### Making texts -/

def fromCharCode : Native σ := fun env c => do
  let codes ← c.arguments.toList.mapM (toUint32 env)
  units (codes.map fun n => UInt16.ofNat n).toArray

def fromCodePoint : Native σ := fun env c => do
  let parts ← c.arguments.toList.mapM fun v => do
    let x ← toDouble env v
    match x.toInt? with
    | some n => if 0 ≤ n && n ≤ 0x10FFFF then pure (Units.ofCodePoint n.toNat) else throwRange "invalid code point"
    | none => throwRange "invalid code point"
  units parts.flatten.toArray

/-- The strings of a template as they are written, with values between them. -/
def raw : Native σ := fun env c => do
  let cooked ← toObject (c.arg 0)
  let strings ← toObject (← Access.get env cooked (named "raw") (.object cooked))
  let n ← lengthOf env strings
  let mut result : Units := #[]
  for i in List.range n do
    result := result ++ (← toUnits env (← Access.get env strings (.ofNat i) (.object strings)))
    if i + 1 < n && i + 1 < c.arguments.size then
      result := result ++ (← toUnits env (c.arg (i + 1)))
  units result

/-! ### Single units -/

/-- The place that an argument names, if it lies in the text. -/
def placeIn (env : Env σ) (s : Units) (v : Value) : Action σ (Option Nat) := do
  match ← toWhole env v with
  | .finite n => return if 0 ≤ n && n < s.size then some n.toNat else none
  | .infinite _ => return none

def charCodeAt : Native σ := fun env c => do
  let s ← thisUnits env c
  match ← placeIn env s (c.arg 0) with
  | some i => return .ofNat ((s[i]?).getD 0).toNat
  | none => return .nan

def charAt : Native σ := fun env c => do
  let s ← thisUnits env c
  match ← placeIn env s (c.arg 0) with
  | some i => units (s.slice i (i + 1))
  | none => units #[]

def at_ : Native σ := fun env c => do
  let s ← thisUnits env c
  match ← toWhole env (c.arg 0) with
  | .finite n =>
    let i := if n < 0 then n + s.size else n
    if 0 ≤ i && i < s.size then units (s.slice i.toNat (i.toNat + 1)) else nothing
  | .infinite _ => nothing

def codePointAt : Native σ := fun env c => do
  let s ← thisUnits env c
  match ← placeIn env s (c.arg 0) with
  | some i =>
    match (Units.codePointsOf (s.slice i (i + 2)).toList).head? with
    | some n => return .ofNat n
    | none => nothing
  | none => nothing

def concat : Native σ := fun env c => do
  let s ← thisUnits env c
  let parts ← c.arguments.toList.mapM (toUnits env)
  units (parts.foldl (· ++ ·) s)

def isWellFormed : Native σ := fun env c => do bool (← thisUnits env c).isWellFormed

def toWellFormed : Native σ := fun env c => do units (Units.ofChars (← thisUnits env c).toChars)

/-! ### Searching -/

def indexOf : Native σ := fun env c => do
  let s ← thisUnits env c
  let part ← toUnits env (c.arg 0)
  let start ← toClamped env (c.arg 1) 0 s.size
  match s.find? part start.toNat with
  | some i => return .ofNat i
  | none => return .int (-1)

def lastIndexOf : Native σ := fun env c => do
  let s ← thisUnits env c
  let part ← toUnits env (c.arg 0)
  let x ← toDouble env (c.arg 1)
  if s.size < part.size then return .int (-1)
  let last := s.size - part.size
  let start := if x.isNaN then last else (wholeOf x).clamp 0 last |>.toNat
  match s.findBack part start with
  | some i => return .ofNat i
  | none => return .int (-1)

/-- Whether a value counts as a regular expression. -/
def isRegexp (env : Env σ) (v : Value) : Action σ Bool := do
  match v with
  | .object id =>
    let m ← getMember env v WellKnown.match.key
    if !m.isUndefined then return truthy m
    match ← payload id with
    | .regexp _ _ _ => return true
    | _ => return false
  | _ => return false

def searchedPart (env : Env σ) (v : Value) : Action σ Units := do
  if ← isRegexp env v then throwType "regexp not supported"
  toUnits env v

def includes : Native σ := fun env c => do
  let s ← thisUnits env c
  let part ← searchedPart env (c.arg 0)
  let start ← toClamped env (c.arg 1) 0 s.size
  bool (s.find? part start.toNat).isSome

def startsWith : Native σ := fun env c => do
  let s ← thisUnits env c
  let part ← searchedPart env (c.arg 0)
  let start ← toClamped env (c.arg 1) 0 s.size
  bool (s.hasAt part start.toNat)

def endsWith : Native σ := fun env c => do
  let s ← thisUnits env c
  let part ← searchedPart env (c.arg 0)
  let stop ← if (c.arg 1).isUndefined then pure (s.size : Int) else toClamped env (c.arg 1) 0 s.size
  bool (part.size ≤ stop.toNat && s.hasAt part (stop.toNat - part.size))

/-! ### Parts -/

def substring : Native σ := fun env c => do
  let s ← thisUnits env c
  let a ← toClamped env (c.arg 0) 0 s.size
  let b ← if (c.arg 1).isUndefined then pure (s.size : Int) else toClamped env (c.arg 1) 0 s.size
  units (s.slice (min a b).toNat (max a b).toNat)

def substr : Native σ := fun env c => do
  let s ← thisUnits env c
  let start ← toPlace env (c.arg 0) s.size 0
  let rest : Int := s.size - start
  let count ← if (c.arg 1).isUndefined then pure rest else toClamped env (c.arg 1) 0 rest
  units (s.slice start (start + count.toNat))

def slice : Native σ := fun env c => do
  let s ← thisUnits env c
  let start ← toPlace env (c.arg 0) s.size 0
  let stop ← toPlace env (c.arg 1) s.size s.size
  units (s.slice start stop)

/-- No text is longer. -/
def maxLength : Nat := 1073741823

def repeated : Native σ := fun env c => do
  let s ← thisUnits env c
  match ← toWhole env (c.arg 0) with
  | .finite n =>
    if n < 0 || 2147483647 < n then throwRange "invalid repeat count"
    if s.isEmpty then units s
    else
      if maxLength < n.toNat * s.size then throwRange "invalid string length"
      units (n.toNat.fold (fun _ _ r => r ++ s) #[])
  | .infinite _ => throwRange "invalid repeat count"

/-- The first `count` units of endless copies of a text. -/
def filling (filler : Units) (count : Nat) : Units :=
  let whole := (count / filler.size).fold (fun _ _ r => r ++ filler) #[]
  whole ++ filler.slice 0 (count % filler.size)

def pad (atEnd : Bool) : Native σ := fun env c => do
  let s ← thisUnits env c
  let target ← toClamped env (c.arg 0) 0 2147483647
  if target ≤ s.size then units s
  else
    let filler ← if (c.arg 1).isUndefined then pure #[32] else toUnits env (c.arg 1)
    if filler.isEmpty then units s
    else
      if (maxLength : Int) < target then throwRange "invalid string length"
      let fill := filling filler (target.toNat - s.size)
      units (if atEnd then s ++ fill else fill ++ s)

def trimStartUnits (s : Units) : Units :=
  (s.toList.dropWhile fun u => Regexp.isSpace u.toNat).toArray

def trimEndUnits (s : Units) : Units := (trimStartUnits s.reverse).reverse

def trim (start stop : Bool) : Native σ := fun env c => do
  let s ← thisUnits env c
  let s := if start then trimStartUnits s else s
  units (if stop then trimEndUnits s else s)

/-! ### Whole texts -/

def thisString (c : Call) : Action σ Value := do
  match c.this with
  | .string _ => return c.this
  | .object id =>
    match ← payload id with
    | .primitive (.string t) => return .string t
    | _ => throwType "not a string"
  | _ => throwType "not a string"

def localeCompare : Native σ := fun env c => do
  let s ← thisUnits env c
  let t ← toUnits env (c.arg 0)
  return .int (match compare s.codePoints t.codePoints with
    | .lt => -1
    | .eq => 0
    | .gt => 1)

def cased (change : Units → Units) : Native σ := fun env c => do units (change (← thisUnits env c))

def iterator : Native σ := fun env c => do
  let s ← thisUnits env c
  return .object (← newObject .stringIteratorPrototype (.stringIterator s 0))

/-- The text in an element that may have a label. -/
def element (tag label : String) : Native σ := fun env c => do
  let s ← thisUnits env c
  let quoted (v : Units) : Units :=
    (v.toList.flatMap fun u => if u = 34 then (Units.ofString "&quot;").toList else [u]).toArray
  let shown ← if label = "" then pure #[] else do
    let v ← toUnits env (c.arg 0)
    pure (Units.ofString (" " ++ label ++ "=\"") ++ quoted v ++ Units.ofString "\"")
  units (Units.ofString ("<" ++ tag) ++ shown ++ Units.ofString ">" ++ s ++
    Units.ofString ("</" ++ tag ++ ">"))

/-! ### Patterns -/

def mustHaveMembers (c : Call) : Action σ Unit := do
  if c.this.isNullish then throwType "cannot convert to object"

/-- Refuses regular expressions that match only once. -/
def mustBeGlobal (env : Env σ) (v : Value) : Action σ Unit := do
  if ← isRegexp env v then
    let flags ← getMember env v (named "flags")
    if flags.isNullish then throwType "cannot convert to object"
    if !(← toUnits env flags).contains 103 then throwType "regexp must have the 'g' flag"

/-- The method of a pattern for a symbol, if it has one. -/
def patternMethod (env : Env σ) (pattern : Value) (w : WellKnown) : Action σ (Option Value) := do
  if pattern.isNullish then return none
  let f ← getMember env pattern w.key
  return if f.isNullish then none else some f

def byPattern (w : WellKnown) : Native σ := fun env c => do
  mustHaveMembers c
  let method ← patternMethod env (c.arg 0) w
  if w = .matchAll && !(c.arg 0).isNullish then mustBeGlobal env (c.arg 0)
  match method with
  | some f => env.call f (c.arg 0) #[c.this]
  | none =>
    let s ← toText env c.this
    let ctor := Value.object (← intrinsic (.constructor "RegExp"))
    let args := if w = .matchAll then #[c.arg 0, .ofString "g"] else #[c.arg 0]
    let matcher ← env.construct ctor args ctor
    invoke env matcher w.key #[s]

/-- The pieces of a text between copies of a separator, without the last one, and where that starts. -/
def pieces (s separator : Units) : (fuel : Nat) → (start : Nat) → List Units → List Units × Nat
  | 0, start, found => (found.reverse, start)
  | fuel + 1, start, found =>
    let from_ := if separator.isEmpty then start + 1 else start
    let last := if separator.isEmpty then s.size - 1 else s.size - separator.size
    if last < from_ || s.size < separator.size then (found.reverse, start)
    else
      match s.find? separator from_ with
      | some i => pieces s separator fuel (i + separator.size) (s.slice start i :: found)
      | none => (found.reverse, start)

def split : Native σ := fun env c => do
  mustHaveMembers c
  match ← patternMethod env (c.arg 0) .split with
  | some f => env.call f (c.arg 0) #[c.this, c.arg 1]
  | none =>
    let s ← toUnits env c.this
    let limit ← if (c.arg 1).isUndefined then pure 4294967295 else toUint32 env (c.arg 1)
    let separator ← toUnits env (c.arg 0)
    let parts : List Units :=
      if (c.arg 0).isUndefined then [s]
      else if s.isEmpty then (if separator.isEmpty then [] else [s])
      else
        let (found, start) := pieces s separator (s.size + 1) 0 []
        found ++ [s.slice start s.size]
    return .object (← newArray ((parts.take limit).map .text))

/-- What a match offers to the text that replaces it. -/
structure Substitution where
  matched : Units
  text : Units
  position : Nat
  /-- The groups from the first on. -/
  groups : Array Value
  named : Value

def digit? (u : UInt16) : Option Nat := if 48 ≤ u && u ≤ 57 then some (u.toNat - 48) else none

/-- The number of a group that digits name, and what follows them. -/
def groupNumber? (count : Nat) : List UInt16 → Option (Nat × List UInt16)
  | [] => none
  | u :: rest => do
    let k ← digit? u
    let single := if 1 ≤ k && k ≤ count then some (k, rest) else none
    match rest with
    | v :: more =>
      match digit? v with
      | some d => if 1 ≤ k * 10 + d && k * 10 + d ≤ count then some (k * 10 + d, more) else single
      | none => single
    | [] => single

/-- Replaces the marks in the text of a replacement. -/
def substitute (env : Env σ) (m : Substitution) : (fuel : Nat) → List UInt16 → Action σ Units
  | 0, _ => return #[]
  | _, [] => return #[]
  | fuel + 1, u :: rest => do
    let goOn (part : Units) (rest : List UInt16) : Action σ Units := do
      return part ++ (← substitute env m fuel rest)
    if u ≠ 36 then goOn #[u] rest
    else
      match rest with
      | [] => return #[36]
      | v :: more =>
        if v = 36 then goOn #[36] more
        else if v = 38 then goOn m.matched more
        else if v = 96 then goOn (m.text.slice 0 m.position) more
        else if v = 39 then goOn (m.text.slice (m.position + m.matched.size) m.text.size) more
        else if v = 60 && !m.named.isUndefined then
          let name := more.takeWhile (· ≠ 62)
          if name.length = more.length then goOn #[36, 60] more
          else
            let group ← getMember env m.named (.ofUnits name.toArray)
            let part ← if group.isUndefined then pure #[] else toUnits env group
            goOn part (more.drop (name.length + 1))
        else
          match groupNumber? m.groups.size rest with
          | some (k, after) =>
            let group := (m.groups[k - 1]?).getD .undefined
            let part ← if group.isUndefined then pure #[] else toUnits env group
            goOn part after
          | none => goOn #[36, v] more

/-- The text that replaces a match. -/
def replacement (env : Env σ) (replacer : Value) (m : Substitution) : Action σ Units := do
  if ← isCallable replacer then
    let args := #[Value.text m.matched] ++ m.groups ++ #[.ofNat m.position, .text m.text] ++
      (if m.named.isUndefined then #[] else #[m.named])
    toUnits env (← env.call replacer .undefined args)
  else
    let template ← toUnits env replacer
    substitute env m (template.size + 1) template.toList

/-- Replaces what is found from a place on; `last` is where the last match ended. -/
def replaceFrom (env : Env σ) (s part : Units) (replacer : Value) (all : Bool) :
    (fuel : Nat) → (isFirst : Bool) → (last : Nat) → Units → Action σ Units
  | 0, _, last, done => return done ++ s.slice last s.size
  | fuel + 1, isFirst, last, done => do
    let place :=
      if part.isEmpty then
        if isFirst then some 0 else if s.size ≤ last then none else some (last + 1)
      else s.find? part last
    match place with
    | none => return done ++ s.slice last s.size
    | some i =>
      let text ← replacement env replacer ⟨part, s, i, #[], .undefined⟩
      let done := done ++ s.slice last i ++ text
      let last := i + part.size
      if all then replaceFrom env s part replacer all fuel false last done
      else return done ++ s.slice last s.size

def replace (all : Bool) : Native σ := fun env c => do
  mustHaveMembers c
  let pattern := c.arg 0
  if all && !pattern.isNullish then mustBeGlobal env pattern
  match ← patternMethod env pattern .replace with
  | some f => env.call f pattern #[c.this, c.arg 1]
  | none =>
    let s ← toUnits env c.this
    let part ← toUnits env pattern
    let replacer ← if ← isCallable (c.arg 1) then pure (c.arg 1) else toText env (c.arg 1)
    units (← replaceFrom env s part replacer all (s.size + 2) true 0 #[])

def elements : List (String × String × String) :=
  [("anchor", "a", "name"), ("big", "big", ""), ("blink", "blink", ""), ("bold", "b", ""),
    ("fixed", "tt", ""), ("fontcolor", "font", "color"), ("fontsize", "font", "size"),
    ("italics", "i", ""), ("link", "a", "href"), ("small", "small", ""), ("strike", "strike", ""),
    ("sub", "sub", ""), ("sup", "sup", "")]

def table : List (Builtin σ) :=
  let static := Owner.intrinsic (.constructor "String")
  let proto := Owner.intrinsic .stringPrototype
  [constructor "String" 1 .stringPrototype construct,
    method static "fromCharCode" 1 fromCharCode,
    method static "fromCodePoint" 1 fromCodePoint,
    method static "raw" 1 raw,
    method proto "at" 1 at_,
    method proto "charCodeAt" 1 charCodeAt,
    method proto "charAt" 1 charAt,
    method proto "concat" 1 concat,
    method proto "codePointAt" 1 codePointAt,
    method proto "isWellFormed" 0 isWellFormed,
    method proto "toWellFormed" 0 toWellFormed,
    method proto "indexOf" 1 indexOf,
    method proto "lastIndexOf" 1 lastIndexOf,
    method proto "includes" 1 includes,
    method proto "endsWith" 1 endsWith,
    method proto "startsWith" 1 startsWith,
    method proto "match" 1 (byPattern .match),
    method proto "matchAll" 1 (byPattern .matchAll),
    method proto "search" 1 (byPattern .search),
    method proto "split" 2 split,
    method proto "substring" 2 substring,
    method proto "substr" 2 substr,
    method proto "slice" 2 slice,
    method proto "repeat" 1 repeated,
    method proto "replace" 2 (replace false),
    method proto "replaceAll" 2 (replace true),
    method proto "padEnd" 1 (pad true),
    method proto "padStart" 1 (pad false),
    method proto "trim" 0 (trim true true),
    method proto "trimEnd" 0 (trim false true),
    method proto "trimStart" 0 (trim true false),
    method proto "toString" 0 (fun _ c => thisString c),
    method proto "valueOf" 0 (fun _ c => thisString c),
    method proto "localeCompare" 1 localeCompare,
    method proto "toLowerCase" 0 (cased Casing.toLower),
    method proto "toUpperCase" 0 (cased Casing.toUpper),
    method proto "toLocaleLowerCase" 0 (cased Casing.toLower),
    method proto "toLocaleUpperCase" 0 (cased Casing.toUpper),
    symbolMethod proto .iterator 0 iterator] ++
    elements.map fun (name, tag, label) =>
      method proto name (if label = "" then 0 else 1) (element tag label)

end PluginRelay.Script.Builtin.StringFunctions
