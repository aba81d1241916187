import PluginRelay.Script.Grammar.Basic

/-!
# Functions, classes and objects

Readers for parameter lists and bodies, for the members of object literals and of classes, and for
classes as a whole.
-/
namespace PluginRelay.Script.Grammar

/-! ### Functions -/

/-- What is allowed in the parameters of a function of the given kind. Arrows leave most to the code around
them. -/
def Surroundings.inside (c : Surroundings) (kind : FunctionKind) (isAsync isGenerator : Bool) :
    Surroundings :=
  let isArrow := kind = .arrow
  let isMethod := match kind with
    | .normal | .arrow => false
    | _ => true
  { allowsIn := true
    body := .function
    isAsync := isAsync
    isGenerator := isGenerator
    inBody := false
    reservesAwait := isAsync || (isArrow && (c.isAsync || c.body = .staticBlock))
    reservesYield := isGenerator || (isArrow && c.isGenerator)
    allowsSuperCall := if isArrow then c.allowsSuperCall else kind = .derivedConstructor
    allowsSuperMember := if isArrow then c.allowsSuperMember else isMethod
    allowsNewTarget := if isArrow then c.allowsNewTarget else true
    allowsArguments := if isArrow then c.allowsArguments else true
    labels := []
    inLoop := false
    inSwitch := false
    declarable := .all }

/-- What is allowed in the body, given what is allowed in the parameters. -/
def Surroundings.pastParameters (c : Surroundings) : Surroundings :=
  { c with inBody := true, reservesAwait := c.isAsync, reservesYield := c.isGenerator }

/-- What is allowed in the value of a field. -/
def Surroundings.insideField (c : Surroundings) : Surroundings :=
  { c.inside .fields false false with inBody := true, allowsArguments := false }

/-- What is allowed in a static block of a class. -/
def Surroundings.insideStaticBlock (c : Surroundings) : Surroundings :=
  { c.insideField with body := .staticBlock, reservesAwait := true }

/-- The directives that a body starts with: whether one of them asks for strict code. They are read
ahead; the reader stays where it is. -/
def hasStrictDirective : Read Bool := do
  let found ← peek do
    let step : Read (Option Bool) := do
      let s ← get
      match s.token.kind with
      | .string units hasEscape =>
        advance
        let t := (← get).token
        let ended := match t.kind with
          | .punctuator p => p = ";" || p = "\x7d" || (t.newlineBefore && (p = "++" || p = "--"))
          | .eof => true
          | .word w _ => t.newlineBefore && w ≠ "in" && w ≠ "instanceof"
          | _ => t.newlineBefore
        if !ended then return none
        let _ ← optional ";"
        return some (units == Units.ofString "use strict" && !hasEscape)
      | _ => return none
    return (← many step).any id
  return found.getD false

/-- Reads the current token again, with the given strictness. -/
def readAgain (strict : Bool) : Read Unit := do
  let s ← get
  let t := s.token
  set { s with
    strict := strict
    cursor := ⟨s.source.toList.drop t.start, t.start, t.line, t.column⟩ }
  takeToken (·.next strict)
  modify fun s => { s with token := { s.token with newlineBefore := t.newlineBefore } }

/-- The directives of a body: makes it strict if one asks for that. -/
def directives : Read Bool := do
  let strict ← hasStrictDirective
  if strict && !(← get).strict then readAgain true
  return strict

/-- Statements up to a closing brace. -/
def statements (r : Rules) (c : Surroundings) : Read (List Statement) := do
  many do
    if ← isPunctuator "\x7d" then return none else return some (← r.statement c)

def hasDuplicate : List String → Bool
  | [] => false
  | x :: rest => rest.contains x || hasDuplicate rest

/-- A parameter: a name or pattern, with a value for when it is missing, or the rest of the
arguments. -/
def parameter (r : Rules) (c : Surroundings) (kind : FunctionKind) (hasValues : Bool) :
    Read Expression := do
  let isRest ← isPunctuator "..."
  if isRest then
    if kind = .setter then fail "invalid number of arguments for getter or setter"
    advance
  let restPlace ← place
  let target ← match ← current with
    | .punctuator "[" | .punctuator "\x7b" => r.pattern c (.parameter hasValues)
    | _ =>
      refuseEscapedKeyword c
      match ← nameHere c with
      | some w =>
        if hasValues then refuseDuplicate w
        markColumn
        advance
        let here ← place
        declareParameter w
        noteBound w
        pure (.name w here)
      | none => fail "missing formal parameter"
  if isRest then return .spread target restPlace
  else if ← optional "=" then
    return .initialized target (← r.assignment { c with allowsIn := true }) (← place)
  else return target

def isSimple : Expression → Bool
  | .name _ _ => true
  | _ => false

/-- The parameters up to the closing bracket, which is not taken. -/
def parameters (r : Rules) (c : Surroundings) (kind : FunctionKind) (hasValues : Bool) :
    Read (List Expression) := do
  many do
    if ← isPunctuator ")" then return none
    let p ← parameter r c kind hasValues
    match p with
    | .spread _ _ => if !(← isPunctuator ")") then expect ")"
    | _ => if !(← isPunctuator ")") then expect ","
    return some p

/-- The parameters in their brackets, with the names that they bind. -/
def parameterList (r : Rules) (c : Surroundings) (kind : FunctionKind) :
    Read (List Expression × List String) := do
  let hasValues ← if ← isPunctuator "(" then pure (← ahead).hasAssignment else pure false
  expect "("
  let (params, names) ← binding (parameters r c kind hasValues)
  if (kind = .getter && params.length ≠ 0) || (kind = .setter && params.length ≠ 1) then
    fail "invalid number of arguments for getter or setter"
  expect ")"
  return (params, names)

/-- What is wrong with the names of a function and of its parameters. -/
def checkNames (name : String) (names : List String) (isStrict isSimpleList isUnique : Bool) :
    Read Unit := do
  let isFixed (n : String) : Bool := n = "eval" || n = "arguments"
  if isStrict && isFixed name then fail "invalid function name in strict code"
  if isStrict && names.any isFixed then fail "invalid argument name in strict code"
  if (isStrict || !isSimpleList || isUnique) && hasDuplicate names then
    fail "duplicate argument names not allowed in this context"

/-- The body of a function in braces, with the names it declares for the whole function and its
strictness. -/
def body (r : Rules) (c : Surroundings) (name : String) (params : List Expression) (names : List String)
    (isUnique : Bool) : Read (List Statement × List String × Bool) := do
  expect "\x7b"
  let simple := params.all isSimple
  let asked ← directives
  if asked && !simple then
    fail "\"use strict\" not allowed in function with default or destructuring parameter"
  let strict := (← get).strict
  checkNames name names strict simple isUnique
  let list ← statements r c
  let hoisted := ((← get).scopes.head?.map (·.hoisted)).getD []
  return (list, hoisted.reverse.eraseDups, strict)

/-- Goes back to the function around at the end of a body: to its strictness, and to the column that
traces showed before. -/
def endFunction (outer : State) : Read Unit :=
  modify fun s =>
    { s with
      strict := outer.strict
      lastLine := s.token.line
      lastStop := s.token.stop
      column := outer.column }

/-- A function from its parameter list on. -/
def function (r : Rules) (c : Surroundings) (kind : FunctionKind) (isAsync isGenerator : Bool)
    (start : Nat) (name : String) : Read Expression := do
  let outer ← get
  let place : Position := ⟨outer.token.line, outer.token.column + 1⟩
  let inner := c.inside kind isAsync isGenerator
  enterScope .function
  let (params, names) ← parameterList r inner kind
  let isUnique := kind = .method
  let (list, hoisted, strict) ← body r inner.pastParameters name params names isUnique
  leaveScope
  endFunction outer
  if !(← isPunctuator "\x7d") then expect "\x7d"
  let source ← sourceFrom start
  takeToken (·.next outer.strict)
  return .function ⟨name, kind, isAsync, isGenerator, strict, source, place, names, hoisted⟩ params list

/-- An arrow function from its parameters on. -/
def arrow (r : Rules) (c : Surroundings) (isAsync : Bool) (start : Nat) : Read Expression := do
  let outer ← get
  let place : Position := ⟨outer.token.line, outer.token.column + 1⟩
  let inner := c.inside .arrow isAsync false
  enterScope .function
  let (params, names) ← if ← isPunctuator "(" then parameterList r inner .arrow
    else binding (return [← parameter r inner .arrow false])
  expect "=>"
  let inner := inner.pastParameters
  if ← isPunctuator "\x7b" then
    let (list, hoisted, strict) ← body r inner "" params names true
    leaveScope
    endFunction outer
    if !(← isPunctuator "\x7d") then expect "\x7d"
    let source ← sourceFrom start
    takeToken (·.next outer.strict)
    return .function ⟨"", .arrow, isAsync, false, strict, source, place, names, hoisted⟩ params list
  else
    checkNames "" names outer.strict (params.all isSimple) true
    let value ← r.assignment { inner with allowsIn := c.allowsIn }
    let here ← Grammar.place
    leaveScope
    setColumn outer.column
    let source ← sourceFrom start
    return .function ⟨"", .arrow, isAsync, false, outer.strict, source, place, names, []⟩ params
      [.return value here]

/-- The keyword of a function and its name: whether it is a generator, and the name. -/
def functionHead (c : Surroundings) (isAsync mustBeNamed : Bool) : Read (Bool × String) := do
  advance
  let isGenerator ← optional "*"
  refuseEscapedKeyword c
  let s ← get
  match s.token.kind with
  | .word w _ =>
    let isOwnKeyword := (isGenerator && w = "yield") || (isAsync && w = "await")
    if !isReserved c s.strict w then
      if isOwnKeyword && !mustBeNamed then fail ("'" ++ w ++ "' is a reserved identifier")
      advance
      return (isGenerator, w)
    else if !mustBeNamed && ((w = "yield" && !s.strict) || w = "await") then
      advance
      return (isGenerator, w)
    else if mustBeNamed then fail "function name expected"
    else return (isGenerator, "")
  | _ => if mustBeNamed then fail "function name expected" else return (isGenerator, "")

/-- A function expression from its keyword on. -/
def functionWord (r : Rules) (c : Surroundings) (isAsync : Bool) (start : Nat) : Read Expression := do
  let (isGenerator, name) ← functionHead c isAsync false
  r.function c .normal isAsync isGenerator start name

/-! ### Members -/

/-- A member up to the end of its key. -/
structure MemberHead where
  role : MemberRole
  isAsync : Bool
  isGenerator : Bool
  key : Expression
  /-- The name that the key is, if it can stand for a variable too. -/
  name : Option String
  start : Nat

/-- Whether the current token ends a key, so that the word before it is a name and no modifier. -/
def endsKey (endsAtSemicolon : Bool) : Read Bool := do
  match ← current with
  | .punctuator p =>
    return p = ":" || p = "," || p = "\x7d" || p = "(" || p = "=" || (endsAtSemicolon && p = ";")
  | _ => return false

def memberKey (r : Rules) (c : Surroundings) (inClass : Bool) : Read (Expression × Option String) := do
  let s ← get
  match s.token.kind with
  | .word w _ =>
    advance
    let name := if isReserved c s.strict w then none else some w
    return (.fixedKey (.ofString w), name)
  | .string units _ =>
    advance
    return (.fixedKey (.ofUnits units), none)
  | .number v =>
    advance
    return (.literal v, none)
  | .privateName w =>
    if inClass then
      advance
      return (.hiddenKey w, none)
    else fail "invalid property name"
  | .punctuator "[" =>
    advance
    let key ← r.expression { c with allowsIn := true }
    expect "]"
    return (key, none)
  | _ => fail "invalid property name"

def memberHead (r : Rules) (c : Surroundings) (inClass : Bool) (start : Nat) : Read MemberHead := do
  let plain (w : String) : MemberHead :=
    ⟨.value, false, false, .fixedKey (.ofString w), some w, start⟩
  let callable (role : MemberRole) (isAsync isGenerator : Bool) : Read MemberHead := do
    let (key, _) ← memberKey r c inClass
    if !(← isPunctuator "(") then fail "invalid property name"
    return ⟨role, isAsync, isGenerator, key, none, start⟩
  let plainKey : Read MemberHead := do
    let (key, name) ← memberKey r c inClass
    return ⟨.value, false, false, key, name, start⟩
  if ← optional "*" then callable .method false true
  else
    match ← current with
    | .word "get" false =>
      advance
      if ← endsKey inClass then return plain "get" else callable .getter false false
    | .word "set" false =>
      advance
      if ← endsKey inClass then return plain "set" else callable .setter false false
    | .word "async" false =>
      match ← peek (do advance; return (← get).token.newlineBefore) with
      | some false =>
        advance
        if ← endsKey false then return plain "async"
        let isGenerator ← optional "*"
        callable .method true isGenerator
      | _ => plainKey
    | _ => plainKey

/-- The function of a method, getter or setter. -/
def methodValue (r : Rules) (c : Surroundings) (h : MemberHead) : Read Expression :=
  let kind : FunctionKind := match h.role with
    | .getter => .getter
    | .setter => .setter
    | _ => .method
  r.function c kind h.isAsync h.isGenerator h.start ""

def isPrototypeKey : Expression → Bool
  | .fixedKey (.name units) => units == Units.ofString "__proto__"
  | _ => false

/-- A member of an object literal. -/
def objectMember (r : Rules) (c : Surroundings) : Read Member := do
  let c := { c with allowsIn := true }
  let start := (← get).token.start
  if ← optional "..." then
    let value ← r.assignment c
    return .mk .spread false .absent value (← place)
  let column ← currentColumn
  let h ← memberHead r c false start
  match h.role with
  | .getter | .setter | .method => return .mk h.role false h.key (← methodValue r c h) (← place)
  | _ =>
    if ← isPunctuator "(" then
      return .mk .method false h.key (← methodValue r c h) (← place)
    else if ← isPunctuator ":" then
      advance
      let value ← r.assignment c
      return .mk (if isPrototypeKey h.key then .prototype else .value) false h.key value (← place)
    else
      match h.name with
      | none => fail "expecting ':'"
      | some w =>
        setColumn column
        return .mk .value false h.key (.name w (← place)) (← place)

def isPrototypeMember : Member → Bool
  | .mk role _ _ _ _ => role = .prototype

/-- The members of an object literal up to its closing brace. -/
def objectMembers (r : Rules) (c : Surroundings) : (fuel : Nat) → (hasPrototype : Bool) → Read (List Member)
  | 0, _ => return []
  | fuel + 1, hasPrototype => do
    if ← isPunctuator "\x7d" then return []
    let m ← objectMember r c
    if isPrototypeMember m && hasPrototype then fail "duplicate __proto__ property name"
    if !(← isPunctuator "\x7d") then
      if !(← optional ",") then expect "\x7d"
    return m :: (← objectMembers r c fuel (hasPrototype || isPrototypeMember m))

def objectLiteral (r : Rules) (c : Surroundings) : Read Expression := do
  advance
  let members ← objectMembers r c (← bound) false
  expect "\x7d"
  return .object members (← place)

/-! ### Classes -/

/-- What the members of a class up to now take. -/
structure ClassNames where
  hasConstructor : Bool
  /-- Names of hidden members, what they are and whether they are static. -/
  hidden : List (String × MemberRole × Bool)

/-- What is taken after a hidden member. Only a getter and a setter may share a name. -/
def ClassNames.withHidden (names : ClassNames) (key : Expression) (role : MemberRole)
    (isStatic : Bool) : Read ClassNames := do
  match key with
  | .hiddenKey w =>
    let isPartner : MemberRole × Bool → Bool
      | (.getter, s) => role = .setter && s = isStatic
      | (.setter, s) => role = .getter && s = isStatic
      | _ => false
    let own := names.hidden.filter (·.1 = w)
    if 1 < own.length || !own.all (isPartner ·.2) then fail "private class field is already defined"
    return { names with hidden := (w, role, isStatic) :: names.hidden }
  | _ => return names

def isKey (word : String) : Expression → Bool
  | .fixedKey (.name units) => units == Units.ofString word
  | _ => false

/-- A static block after its keyword. -/
def staticBlock (r : Rules) (c : Surroundings) (start : Nat) : Read Member := do
  let t := (← get).token
  enterScope .function
  advance
  let list ← statements r c.insideStaticBlock
  let hoisted := ((← get).scopes.head?.map (·.hoisted)).getD []
  leaveScope
  expect "\x7d"
  let source ← sourceFrom start
  let info : FunctionInfo :=
    ⟨"", .fields, false, false, true, source, ⟨t.line, t.column + 1⟩, [], hoisted.reverse.eraseDups⟩
  return .mk .staticBlock true .absent (.function info [] list) (← place)

/-- The rest of a member of a class, after its key. -/
def classMemberTail (r : Rules) (c : Surroundings) (isDerived isStatic : Bool) (names : ClassNames)
    (h : MemberHead) : Read (Member × ClassNames) := do
  let isConstructor := !isStatic && isKey "constructor" h.key
  let isMethod ← isPunctuator "("
  if (isConstructor && h.role ≠ .value) || (isStatic && isKey "prototype" h.key) ||
      (match h.key with | .hiddenKey w => w = "constructor" | _ => false) then
    fail "invalid method name"
  match h.role, isMethod with
  | .value, false =>
    if isKey "constructor" h.key || isKey "prototype" h.key then fail "invalid field name"
    let names ← names.withHidden h.key .field isStatic
    let value ← if ← optional "=" then r.assignment c.insideField else pure .absent
    let here ← place
    expectSemicolon
    return (.mk .field isStatic h.key value here, names)
  | .value, true =>
    if isConstructor then
      if names.hasConstructor then fail "property constructor appears more than once"
      let kind := if isDerived then FunctionKind.derivedConstructor else .constructor
      let f ← r.function c kind false false h.start ""
      return (.mk .method false .absent f (← place), { names with hasConstructor := true })
    else
      let names ← names.withHidden h.key .method isStatic
      return (.mk .method isStatic h.key (← methodValue r c h) (← place), names)
  | role, _ =>
    let names ← names.withHidden h.key role isStatic
    return (.mk role isStatic h.key (← methodValue r c h) (← place), names)

/-- Whether `static` at the current token is a modifier. -/
def staticIsModifier : Read Bool := do
  match ← peek (do advance; return (← get).token) with
  | some t =>
    match t.kind with
    | .punctuator p => return t.newlineBefore || !(p = ";" || p = "\x7d" || p = "(" || p = "=")
    | _ => return true
  | none => return true

/-- The members of a class up to its closing brace. -/
def classMembers (r : Rules) (c : Surroundings) (isDerived : Bool) :
    (fuel : Nat) → ClassNames → Read (List Member)
  | 0, _ => return []
  | fuel + 1, names => do
    if ← isPunctuator "\x7d" then return []
    if ← optional ";" then classMembers r c isDerived fuel names
    else
      let start := (← get).token.start
      let isStatic ← if ← isWord "static" then staticIsModifier else pure false
      if isStatic then
        advance
        match (← get).token.kind with
        | .punctuator "\x7b" =>
          let m ← staticBlock r c start
          return m :: (← classMembers r c isDerived fuel names)
        | .punctuator ";" | .punctuator "=" =>
          let h : MemberHead := ⟨.value, false, false, .fixedKey (.ofString "static"), none, start⟩
          let (m, names) ← classMemberTail r c isDerived false names h
          return m :: (← classMembers r c isDerived fuel names)
        | _ => pure ()
      let h ← memberHead r c true (← get).token.start
      let (m, names) ← classMemberTail r c isDerived isStatic names h
      return m :: (← classMembers r c isDerived fuel names)

/-- A class from its keyword on. -/
def classTail (r : Rules) (c : Surroundings) (mustBeNamed : Bool) (start : Nat) : Read Expression := do
  let outerStrict := (← get).strict
  modify fun s => { s with strict := true }
  advance
  let c := { c with allowsIn := true }
  refuseEscapedKeyword c
  let name ← nameHere c
  if name.isSome then advance
  else if mustBeNamed then fail "class statement requires a name"
  let isDerived ← optionalWord "extends"
  let parent ← if isDerived then r.suffixed c false else pure .absent
  expect "\x7b"
  let members ← classMembers r c isDerived (← bound) ⟨false, []⟩
  let isConstructor : Member → Bool
    | .mk .method false .absent _ _ => true
    | _ => false
  let constructor := match members.find? isConstructor with
    | some (.mk _ _ _ f _) => f
    | none => .absent
  let t := (← get).token
  if !(← isPunctuator "\x7d") then expect "\x7d"
  modify fun s => { s with strict := outerStrict, lastLine := t.line, lastStop := t.stop }
  let source ← sourceFrom start
  takeToken (·.next outerStrict)
  return .class (name.getD "") parent constructor (members.filter (!isConstructor ·)) source
    ⟨t.line, t.column + 1⟩

end PluginRelay.Script.Grammar
