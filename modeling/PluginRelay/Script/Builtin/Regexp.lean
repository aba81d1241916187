import PluginRelay.Script.Builtin.String
import PluginRelay.Script.Regexp.Match

/-!
# RegExp

Matching from a script goes through the method `exec` of the expression, which scripts may replace.
-/
namespace PluginRelay.Script.Builtin.RegexpFunctions

open Script.Action Script.Access Script.Convert

variable {σ : Type} [Evolving σ]

def lastIndexKey : PropertyKey := named "lastIndex"

structure Parts where
  source : Units
  flags : Units
  program : Regexp.Program

def parts? (v : Value) : Action σ (Option Parts) := do
  match v with
  | .object id =>
    match ← payload id with
    | .regexp source flags program => return some ⟨source, flags, program⟩
    | _ => return none
  | _ => return none

def parts (v : Value) : Action σ Parts := do
  match ← parts? v with
  | some p => return p
  | none => expected "RegExp"

def parse (source flags : Units) : Action σ Parts := do
  match Regexp.Program.ofUnits? source flags with
  | .ok program => return ⟨source, flags, program⟩
  | .error message => throwKind .syntaxError message

/-- A text, or nothing for `undefined`. -/
def optionalUnits (env : Env σ) (v : Value) : Action σ Units := do
  if v.isUndefined then return #[] else toUnits env v

def construct : Native σ := fun env c => do
  let pattern := c.arg 0
  let isPattern ← StringFunctions.isRegexp env pattern
  if !c.isNew && isPattern && (c.arg 1).isUndefined then
    if (← getMember env pattern constructorKey) = .object c.function then return pattern
  let p ← match ← parts? pattern with
    | some p =>
      if (c.arg 1).isUndefined then pure p else parse p.source (← toUnits env (c.arg 1))
    | none =>
      if isPattern then
        let source ← getMember env pattern (named "source")
        let flags ← if (c.arg 1).isUndefined then getMember env pattern (named "flags") else pure (c.arg 1)
        parse (← optionalUnits env source) (← optionalUnits env flags)
      else
        let source ← optionalUnits env pattern
        parse source (← optionalUnits env (c.arg 1))
  let newTarget := if c.isNew then c.newTarget else .object c.function
  let proto ← Function.prototypeFrom env newTarget .regexpPrototype
  let id ← allocate (.new (some proto) (.regexp p.source p.flags p.program))
  putProperty id lastIndexKey ⟨.data (.int 0), true, false, false⟩
  return .object id

def compile : Native σ := fun env c => do
  let _ ← parts c.this
  let p ← match ← parts? (c.arg 0) with
    | some p =>
      if !(c.arg 1).isUndefined then throwType "flags must be undefined"
      pure p
    | none => do
      let source ← optionalUnits env (c.arg 0)
      parse source (← optionalUnits env (c.arg 1))
  match c.this with
  | .object id =>
    setPayload id (.regexp p.source p.flags p.program)
    setStrict env id lastIndexKey (.int 0)
    return c.this
  | v => return v

/-! ### What an expression is made of -/

/-- The text between slashes that stands for the expression. -/
def escapedFrom (inClass : Bool) : List UInt16 → List UInt16
  | [] => []
  | [92] => [92]
  | 92 :: v :: rest => 92 :: v :: escapedFrom inClass rest
  | 93 :: rest => 93 :: escapedFrom false rest
  | 91 :: 93 :: rest =>
    if inClass then 91 :: 93 :: escapedFrom false rest else 91 :: 93 :: escapedFrom true rest
  | 91 :: rest => 91 :: escapedFrom true rest
  | 10 :: rest => 92 :: 110 :: escapedFrom inClass rest
  | 13 :: rest => 92 :: 114 :: escapedFrom inClass rest
  | 47 :: rest => if inClass then 47 :: escapedFrom true rest else 92 :: 47 :: escapedFrom false rest
  | u :: rest => u :: escapedFrom inClass rest

def emptySource : Units := Units.ofString "(?:)"

def isPrototype (v : Value) : Action σ Bool := return v = .object (← intrinsic .regexpPrototype)

def source : Native σ := fun _ c => do
  let _ ← mustBeObject c.this
  if ← isPrototype c.this then units emptySource
  else
    let p ← parts c.this
    units (if p.source.isEmpty then emptySource else (escapedFrom false p.source.toList).toArray)

def flag (select : Regexp.Flags → Bool) : Native σ := fun _ c => do
  let _ ← mustBeObject c.this
  match ← parts? c.this with
  | some p => return .bool (select p.program.flags)
  | none => if ← isPrototype c.this then nothing else expected "RegExp"

/-- The flags with their letters, in the order in which they are written. -/
def flagNames : List (String × UInt16) :=
  [("hasIndices", 100), ("global", 103), ("ignoreCase", 105), ("multiline", 109), ("dotAll", 115),
    ("unicode", 117), ("sticky", 121)]

def flags : Native σ := fun env c => do
  let id ← mustBeObject c.this
  let letters ← flagNames.filterMapM fun (name, u) => do
    return if truthy (← Access.get env id (named name) c.this) then some u else none
  units letters.toArray

def toStringMethod : Native σ := fun env c => do
  let id ← mustBeObject c.this
  let source ← toUnits env (← Access.get env id (named "source") c.this)
  let flags ← toUnits env (← Access.get env id (named "flags") c.this)
  units (#[47] ++ source ++ #[47] ++ flags)

/-! ### Matching -/

def putAll (id : ObjectId) (members : List (PropertyKey × Value)) : Action σ Unit :=
  members.forM fun (key, v) => putProperty id key (.plain v)

/-- An object for the groups that have names. -/
def namedGroups (program : Regexp.Program) (values : List Value) : Action σ Value := do
  if program.names.isEmpty then return .undefined
  let id ← allocate (.new none .ordinary)
  putAll id (program.names.map fun (name, i) => (PropertyKey.ofString name, (values[i]?).getD .undefined))
  return .object id

/-- What a match gives: its groups as a list, with further members. -/
def found (p : Parts) (text : Text) (groups : List (Option (Nat × Nat))) : Action σ Value := do
  let values := groups.map fun
    | some (start, stop) => Value.text (text.units.slice start stop)
    | none => .undefined
  let id ← newArray values
  let start := match groups with
    | some (start, _) :: _ => start
    | _ => 0
  putAll id [(named "groups", ← namedGroups p.program values), (named "index", .ofNat start),
    (named "input", .string text)]
  if p.program.flags.hasIndices then
    let ranges ← groups.mapM fun
      | some (start, stop) => do return Value.object (← newArray [.ofNat start, .ofNat stop])
      | none => return .undefined
    let indices ← newArray ranges
    putAll indices [(named "groups", ← namedGroups p.program ranges)]
    putAll id [(named "indices", .object indices)]
  return .object id

/-- The next match, by the expression itself. -/
def builtinExec (env : Env σ) (v argument : Value) : Action σ Value := do
  let p ← parts v
  let text ← match ← toText env argument with
    | .string t => pure t
    | _ => pure ⟨#[], 0⟩
  let last ← toLength env (← getMember env v lastIndexKey)
  let remembers := p.program.flags.isGlobal || p.program.flags.sticky
  let start := if remembers then last else 0
  match p.program.exec? text.units start with
  | none =>
    if remembers || text.units.size < start then setMember env v lastIndexKey (.int 0) true
    return .null
  | some progress =>
    if remembers then
      match progress.groups[0]? with
      | some (some (_, stop)) => setMember env v lastIndexKey (.ofNat stop) true
      | _ => pure ()
    found p text progress.groups.toList

/-- The next match, by the method `exec`. -/
def execute (env : Env σ) (v text : Value) : Action σ Value := do
  let f ← getMember env v (named "exec")
  if ← isCallable f then
    let result ← env.call f v #[text]
    match result with
    | .object _ | .null => return result
    | _ => throwType "RegExp exec method must return an object or null"
  else builtinExec env v text

def exec : Native σ := fun env c => builtinExec env c.this (c.arg 0)

def test : Native σ := fun env c => do
  let _ ← mustBeObject c.this
  return .bool ((← execute env c.this (c.arg 0)) ≠ .null)

/-- The place after one character. -/
def advanced (text : Units) (i : Nat) (isUnicode : Bool) : Nat :=
  let pair := isUnicode && (text[i]?).any Units.isLead && (text[i + 1]?).any Units.isTrail
  if pair then i + 2 else i + 1

/-- Goes on behind an empty match. -/
def passEmpty (env : Env σ) (v : Value) (text : Units) (isUnicode : Bool) : Action σ Unit := do
  let i ← toLength env (← getMember env v lastIndexKey)
  setMember env v lastIndexKey (.ofNat (advanced text i isUnicode)) true

/-- `this` as an object, and the text that is given to a method. -/
def subject (env : Env σ) (c : Call) : Action σ (ObjectId × Text) := do
  let id ← mustBeObject c.this
  match ← toText env (c.arg 0) with
  | .string t => return (id, t)
  | _ => return (id, ⟨#[], 0⟩)

/-- All matches, as they are found. Rounds are bounded by the greatest place in a text. -/
def allMatches (env : Env σ) (v : Value) (text : Text) (isUnicode : Bool) :
    (fuel : Nat) → List Value → Action σ (List Value)
  | 0, results => return results.reverse
  | fuel + 1, results => do
    match ← execute env v (.string text) with
    | .null => return results.reverse
    | result =>
      let part ← toUnits env (← getMember env result (.index 0))
      if part.isEmpty then passEmpty env v text.units isUnicode
      allMatches env v text isUnicode fuel (result :: results)

def roundLimit : Nat := 1 <<< 53

def isSet (env : Env σ) (id : ObjectId) (name : String) : Action σ Bool :=
  return truthy (← Access.get env id (named name) (.object id))

/-- The flags as a text. -/
def flagsOf (env : Env σ) (id : ObjectId) : Action σ Units := do
  toUnits env (← Access.get env id (named "flags") (.object id))

def symbolMatch : Native σ := fun env c => do
  let (id, text) ← subject env c
  if !(← flagsOf env id).contains 103 then execute env c.this (.string text)
  else
    let isUnicode ← isSet env id "unicode"
    setStrict env id lastIndexKey (.int 0)
    let results ← allMatches env c.this text isUnicode roundLimit []
    if results.isEmpty then return .null
    let parts ← results.mapM fun r => do toText env (← getMember env r (.index 0))
    return .object (← newArray parts)

def symbolMatchAll : Native σ := fun env c => do
  let (id, text) ← subject env c
  let default ← intrinsic (.constructor "RegExp")
  let constructor ← species env id (.object default)
  let flags ← flagsOf env id
  let matcher ← env.construct constructor #[c.this, .text flags] constructor
  let last ← toLength env (← getMember env c.this lastIndexKey)
  setMember env matcher lastIndexKey (.ofNat last) true
  return .object (← newObject .regexpIteratorPrototype
    (.regexpIterator matcher text (flags.contains 103) (flags.contains 117) false))

def symbolSearch : Native σ := fun env c => do
  let (id, text) ← subject env c
  let before ← Access.get env id lastIndexKey c.this
  if !before.sameValue (.int 0) then setStrict env id lastIndexKey (.int 0)
  let result ← execute env c.this (.string text)
  if !(← Access.get env id lastIndexKey c.this).sameValue before then
    setStrict env id lastIndexKey before
  match result with
  | .null => return .int (-1)
  | r => getMember env r (named "index")

/-- The pieces between matches; `start` is where the last match ended, `i` where the next one may start. -/
def splitFrom (env : Env σ) (splitter : Value) (text : Text) (isUnicode : Bool) (limit : Nat) :
    (fuel : Nat) → (start i : Nat) → List Value → Action σ (List Value)
  | 0, _, _, found => return found.reverse
  | fuel + 1, start, i, found => do
    let size := text.units.size
    if size ≤ i then return (Value.text (text.units.slice start size) :: found).reverse
    setMember env splitter lastIndexKey (.ofNat i) true
    match ← execute env splitter (.string text) with
    | .null => splitFrom env splitter text isUnicode limit fuel start (advanced text.units i isUnicode) found
    | .object r =>
      let stop := min size (← toLength env (← getMember env splitter lastIndexKey))
      if stop = start then
        splitFrom env splitter text isUnicode limit fuel start (advanced text.units i isUnicode) found
      else
        let found := Value.text (text.units.slice start i) :: found
        let n ← lengthOf env r
        let groups ← (List.range (n - 1)).mapM fun k => Access.get env r (.ofNat (k + 1)) (.object r)
        let found := groups.reverse ++ found
        if limit ≤ found.length then return found.reverse.take limit
        splitFrom env splitter text isUnicode limit fuel stop stop found
    | _ => return found.reverse

def symbolSplit : Native σ := fun env c => do
  let (id, text) ← subject env c
  let default ← intrinsic (.constructor "RegExp")
  let constructor ← species env id (.object default)
  let flags ← flagsOf env id
  let isUnicode := flags.contains 117
  let flags := if flags.contains 121 then flags else flags.push 121
  let splitter ← env.construct constructor #[c.this, .text flags] constructor
  let limit ← if (c.arg 1).isUndefined then pure 4294967295 else toUint32 env (c.arg 1)
  if limit = 0 then return .object (← newArray [])
  if text.units.isEmpty then
    match ← execute env splitter (.string text) with
    | .null => return .object (← newArray [.string text])
    | _ => return .object (← newArray [])
  else
    return .object (← newArray (← splitFrom env splitter text isUnicode limit roundLimit 0 0 []))

/-- The place and the text for a match. -/
def replaced (env : Env σ) (replacer : Value) (text : Units) (result : Value) :
    Action σ (Nat × Nat × Units) := do
  let id ← mustBeObject result
  let n ← lengthOf env id
  let matched ← toUnits env (← Access.get env id (.index 0) result)
  let position ← toClamped env (← Access.get env id (named "index") result) 0 text.size
  let groups ← (List.range (n - 1)).mapM fun k => do
    match ← Access.get env id (.ofNat (k + 1)) result with
    | .undefined => return Value.undefined
    | v => toText env v
  let named ← match ← Access.get env id (named "groups") result with
    | .undefined => pure Value.undefined
    | v => if ← isCallable replacer then pure v else pure (.object (← toObject v))
  let new ← StringFunctions.replacement env replacer ⟨matched, text, position.toNat, groups.toArray, named⟩
  return (position.toNat, matched.size, new)

def symbolReplace : Native σ := fun env c => do
  let (id, text) ← subject env c
  let replacer ← if ← isCallable (c.arg 1) then pure (c.arg 1) else toText env (c.arg 1)
  let results ←
    if (← flagsOf env id).contains 103 then do
      let isUnicode ← isSet env id "unicode"
      setStrict env id lastIndexKey (.int 0)
      allMatches env c.this text isUnicode roundLimit []
    else
      match ← execute env c.this (.string text) with
      | .null => pure []
      | r => pure [r]
  let mut done : Units := #[]
  let mut next := 0
  for r in results do
    let (position, size, new) ← replaced env replacer text.units r
    if next ≤ position then
      done := done ++ text.units.slice next position ++ new
      next := position + size
  units (done ++ text.units.slice next text.units.size)

def table : List (Builtin σ) :=
  let static := Owner.intrinsic (.constructor "RegExp")
  let proto := Owner.intrinsic .regexpPrototype
  [constructor "RegExp" 2 .regexpPrototype construct,
    symbolGetter static .species speciesGetter,
    getter proto "flags" flags,
    getter proto "source" source,
    getter proto "global" (flag (·.isGlobal)),
    getter proto "ignoreCase" (flag (·.ignoreCase)),
    getter proto "multiline" (flag (·.multiline)),
    getter proto "dotAll" (flag (·.dotAll)),
    getter proto "unicode" (flag (·.unicode)),
    getter proto "sticky" (flag (·.sticky)),
    getter proto "hasIndices" (flag (·.hasIndices)),
    method proto "exec" 1 exec,
    method proto "compile" 2 compile,
    method proto "test" 1 test,
    method proto "toString" 0 toStringMethod,
    symbolMethod proto .replace 2 symbolReplace,
    symbolMethod proto .match 1 symbolMatch,
    symbolMethod proto .matchAll 1 symbolMatchAll,
    symbolMethod proto .search 1 symbolSearch,
    symbolMethod proto .split 2 symbolSplit]

end PluginRelay.Script.Builtin.RegexpFunctions
