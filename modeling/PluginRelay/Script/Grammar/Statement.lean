import PluginRelay.Script.Grammar.Expression

/-!
# Statements

Declarations, blocks and control flow. Names that blocks declare are checked while they are read.
-/
namespace PluginRelay.Script.Grammar

/-! ### Declarations -/

/-- One name or pattern of a declaration, with its value. -/
def declarationPart (r : Rules) (c : Surroundings) (kind : DeclarationKind) : Read Expression := do
  refuseEscapedKeyword c
  match ← nameHere c with
  | some w =>
    if w = "let" && kind ≠ .var then fail "'let' is not a valid lexical identifier"
    markColumn
    advance
    let target := Expression.name w (← place)
    declare kind w
    if ← optional "=" then
      let value ← r.assignment c
      return .initialized target value (← place)
    else if kind = .const then fail "missing initializer for const variable"
    else return target
  | none =>
    let isPattern ← match ← current with
      | .punctuator "[" | .punctuator "\x7b" =>
        pure ((← afterGroup).any fun t => t.kind == .punctuator "=")
      | _ => pure false
    if !isPattern then fail "variable name expected"
    let target ← r.pattern c (.declared kind)
    expect "="
    let value ← r.assignment { c with allowsIn := true }
    return .initialized target value (← place)

/-- A declaration after its keyword. -/
def declaration (r : Rules) (c : Surroundings) (kind : DeclarationKind) : Read Statement := do
  let (parts, names) ← binding do
    let first ← declarationPart r c kind
    let rest ← many do
      if ← optional "," then return some (← declarationPart r c kind) else return none
    return first :: rest
  return .declare kind names parts

/-- Whether `let` at the current token starts a declaration, where it is no keyword. -/
def letStartsDeclaration (c : Surroundings) (declarable : Declarable) : Read Bool := do
  match ← peek (do advance; return ((← get).token, ← nameHere c, ← keywordHere c)) with
  | some (t, name, keyword) =>
    let mayFollow := name.isSome || keyword = some "yield" || keyword = some "await"
    match t.kind with
    | .punctuator "[" => return true
    | .punctuator "\x7b" => return !t.newlineBefore || declarable = .all
    | _ => return mayFollow && (!t.newlineBefore || declarable = .all)
  | none => return false

/-- The kind of declaration that starts at the current token. -/
def declarationKind? (c : Surroundings) (declarable : Declarable) : Read (Option DeclarationKind) := do
  match ← current with
  | .word "var" false => return some .var
  | .word "const" false => return some .const
  | .word "let" false =>
    if (← get).strict then return some .letting
    else return if ← letStartsDeclaration c declarable then some .letting else none
  | _ => return none

/-! ### Loops -/

def testInBrackets (r : Rules) (c : Surroundings) : Read Expression := do
  expect "("
  let e ← r.expression { c with allowsIn := true }
  expect ")"
  return e

/-- A statement by itself, where no declaration may stand. -/
def single (r : Rules) (c : Surroundings) : Read Statement :=
  r.statement { c with declarable := .nothing }

def loopBody (r : Rules) (c : Surroundings) : Read Statement :=
  single r { c with inLoop := true }

/-- The head of a loop over keys or elements up to its word: a declaration or a target, the keyword of the
declaration, and whether it is a pattern. -/
def iterationHead (r : Rules) (c : Surroundings) (isAwait : Bool) :
    Read (Statement × Option DeclarationKind × Bool) := do
  let isBracket := match ← current with
    | .punctuator p => p = "[" || p = "\x7b"
    | _ => false
  match ← declarationKind? c .all with
  | some kind =>
    advance
    match ← current with
    | .punctuator "[" | .punctuator "\x7b" =>
      let (target, names) ← binding (r.pattern c (.declared kind))
      return (.declare kind names [target], some kind, true)
    | _ =>
      match ← nameHere c with
      | some w =>
        markColumn
        advance
        let target := Expression.name w (← place)
        let (_, names) ← binding (declare kind w)
        return (.declare kind names [target], some kind, false)
      | none => fail "variable name expected"
  | none =>
    if !isAwait && (← isWord "async") then
      if (← peek (do advance; isWord "of")) = some true then
        fail "'for of' expression cannot start with 'async'"
    let next ← if isBracket then pure ((← afterGroup).map Token.kind) else pure none
    match next with
    | some (.word "of" false) | some (.word "in" false) =>
      return (.expression (← r.pattern c .assigned), none, true)
    | _ =>
      let e ← r.suffixed c false
      checkTarget e "invalid for in/of left hand-side"
      return (.expression (ungrouped e), none, false)

/-- A name that is declared in front of a loop gets the value first. -/
def withInitial (head : Statement) (initial : Option Expression) (source : Expression) (here : Position) :
    Expression :=
  match head, initial with
  | .declare _ _ [target], some value => .sequence (.assign target value here) source
  | _, _ => source

/-- A loop over keys or elements after its opening bracket. Old code may give the name in front of `in` a
value. -/
def iteration (r : Rules) (c : Surroundings) (isAwait : Bool) : Read Statement := do
  let c := { c with allowsIn := true }
  let (head, kind, isPattern) ← iterationHead r { c with allowsIn := false } isAwait
  let initial ← if ← optional "=" then pure (some (← r.assignment { c with allowsIn := false }))
    else pure none
  let here ← place
  let isOf ← match ← current with
    | .word "of" false => pure true
    | .word "in" false => pure false
    | _ => fail "expected 'of' or 'in' in for control expression"
  if isAwait && !isOf then fail "'for await' loop should be used with 'of'"
  if initial.isSome && (isOf || kind ≠ some .var || (← get).strict || isPattern) then
    fail ("a declaration in the head of a for-" ++ (if isOf then "of" else "in") ++
      " loop can't have an initializer")
  advance
  let source ← if isOf then r.assignment c else r.expression c
  let source := withInitial head initial source here
  let here ← place
  expect ")"
  let body ← loopBody r c
  return if isOf then .forOf head source body isAwait here else .forIn head source body here

/-- A counting loop after its opening bracket. -/
def counting (r : Rules) (c : Surroundings) : Read Statement := do
  let c := { c with allowsIn := true }
  let inner := { c with allowsIn := false }
  let initial ← if ← isPunctuator ";" then pure .empty
    else match ← declarationKind? c .all with
      | some kind => do
        advance
        declaration r inner kind
      | none => pure (.expression (← r.expression inner))
  expect ";"
  let test ← if ← isPunctuator ";" then pure .absent else r.expression c
  expect ";"
  let step ← if ← isPunctuator ")" then pure .absent else r.expression c
  expect ")"
  return .for initial test step (← loopBody r c)

/-- A loop with a head. It counts if there is a semicolon in its brackets. -/
def forLoop (r : Rules) (c : Surroundings) : Read Statement := do
  advance
  let counts ← if ← isPunctuator "(" then pure (← ahead).hasSemicolon else pure false
  let isAwait := (← keywordHere c) = some "await"
  if isAwait then
    if !c.isAsync then fail "for await is only valid in asynchronous functions"
    advance
  expect "("
  inScope .block (if counts then counting r c else iteration r c isAwait)

/-! ### Blocks and choices -/

def block (r : Rules) (c : Surroundings) : Read (List Statement) := do
  expect "\x7b"
  let list ← statements r { c with declarable := .all }
  expect "\x7d"
  return list

/-- The cases of a switch up to the closing brace. -/
def cases (r : Rules) (c : Surroundings) : (fuel : Nat) → (hasDefault : Bool) → Read (List Statement)
  | 0, _ => return []
  | fuel + 1, hasDefault => do
    if ← isPunctuator "\x7d" then return []
    let test ← if ← optionalWord "case" then r.expression { c with allowsIn := true }
      else if ← optionalWord "default" then pure .absent
      else fail "invalid switch statement"
    expect ":"
    if test.isAbsent && hasDefault then fail "duplicate default"
    let body ← many do
      match ← current with
      | .punctuator "\x7d" => return none
      | .word "case" false => return none
      | .word "default" false => return none
      | _ => return some (← r.statement { c with inSwitch := true, declarable := .all })
    return .case test body :: (← cases r c fuel (hasDefault || test.isAbsent))

def switchStatement (r : Rules) (c : Surroundings) : Read Statement := do
  advance
  let subject ← testInBrackets r c
  inScope .block do
    expect "\x7b"
    let list ← cases r c (← bound) false
    expect "\x7d"
    return .switch subject list

/-- The name or pattern for an exception in its brackets, with the names that it binds. -/
def exceptionPattern (r : Rules) (c : Surroundings) : Read (Expression × List String) := do
  expect "("
  let result ← match ← current with
    | .punctuator "[" | .punctuator "\x7b" => binding (r.pattern c (.declared .letting))
    | _ =>
      match ← nameHere c with
      | some w =>
        markColumn
        advance
        if (← get).strict && (w = "eval" || w = "arguments") then
          fail "invalid variable name in strict mode"
        declareParameter w
        pure (.name w (← place), [w])
      | none => fail "identifier expected"
  expect ")"
  return result

def guarded (r : Rules) (c : Surroundings) : Read Statement := do
  advance
  let body ← inScope .block (block r c)
  let handler ← if ← optionalWord "catch" then
      inScope .handler do
        let (parameter, names) ← if ← isPunctuator "\x7b" then pure (.absent, [])
          else exceptionPattern r c
        let list ← inScope .block (block r c)
        pure (Statement.handler parameter names list)
    else pure .empty
  let finalizer ← if ← optionalWord "finally" then
      pure (Statement.block (← inScope .block (block r c)))
    else pure .empty
  if handler.isEmpty && finalizer.isEmpty then fail "expecting catch or finally"
  return .guarded (.block body) handler finalizer

/-! ### Jumps -/

/-- The label of a jump, if it stands on the same line. -/
def jumpLabel (c : Surroundings) : Read (Option String) := do
  if (← get).token.newlineBefore then return none else nameHere c

def breakStatement (c : Surroundings) : Read Statement := do
  advance
  match ← jumpLabel c with
  | some label =>
    if (c.labels.lookup label).isNone then fail "break/continue label not found"
    advance
    expectSemicolon
    return .break label
  | none =>
    if !(c.inLoop || c.inSwitch) then fail "break must be inside loop or switch"
    expectSemicolon
    return .break ""

def continueStatement (c : Surroundings) : Read Statement := do
  advance
  match ← jumpLabel c with
  | some label =>
    if c.labels.lookup label ≠ some true then fail "break/continue label not found"
    advance
    expectSemicolon
    return .continue label
  | none =>
    if !c.inLoop then fail "continue must be inside loop"
    expectSemicolon
    return .continue ""

def returnStatement (r : Rules) (c : Surroundings) : Read Statement := do
  match c.body with
  | .script => fail "return not in a function"
  | .staticBlock => fail "return in a static initializer block"
  | .function => advance
  let t := (← get).token
  let ended := t.newlineBefore || (match t.kind with
    | .eof => true
    | .punctuator p => p = ";" || p = "\x7d"
    | _ => false)
  let value ← if ended then pure .absent else r.expression { c with allowsIn := true }
  let here ← place
  expectSemicolon
  return .return value here

def throwStatement (r : Rules) (c : Surroundings) : Read Statement := do
  advance
  if (← get).token.newlineBefore then fail "line terminator not allowed after throw"
  let value ← r.expression { c with allowsIn := true }
  let here ← place
  expectSemicolon
  return .throw value here

/-- The label that stands here, if a colon follows it. -/
def labelHere (c : Surroundings) : Read (Option String) := do
  match ← nameHere c with
  | none => return none
  | some w =>
    match ← peek (do advance; isPunctuator ":") with
    | some true => return some w
    | _ => return none

/-- What may be declared behind a label. -/
def Declarable.behindLabel (strict : Bool) : Declarable → Declarable
  | .all | .labeledFunctions => if strict then .nothing else .labeledFunctions
  | .functions | .nothing => .nothing

def labeled (r : Rules) (c : Surroundings) (label : String) : Read Statement := do
  if (c.labels.lookup label).isSome then fail "duplicate label name"
  advance
  expect ":"
  let isLoop := match ← current with
    | .word w false => w = "for" || w = "do" || w = "while"
    | _ => false
  let strict := (← get).strict
  let declarable := if isLoop then c.declarable else c.declarable.behindLabel strict
  let body ← r.statement { c with labels := (label, isLoop) :: c.labels, declarable := declarable }
  return .labeled label body

/-! ### Functions in statements -/

/-- A function among the statements of a function or script: its name stands for it everywhere in there.
In blocks of code that is not strict the name of a plain function does so too, unless it is taken. -/
def functionStatement (r : Rules) (c : Surroundings) (isAsync : Bool) (start : Nat) :
    Read Statement := do
  let (isGenerator, name) ← functionHead c isAsync true
  let isPlain := !isAsync && !isGenerator
  let read : Read Expression := r.function c .normal isAsync isGenerator start name
  match (← get).scopes with
  | scope :: _ =>
    if scope.takesVars then
      let f ← read
      declareFunction name
      return .function f name false
    else
      declareLexical name true isPlain
      let f ← read
      let whole ← wholeScope
      let s ← get
      match s.scopes with
      | own :: around =>
        let mayShare := isPlain && !s.strict && !whole.parameters.contains name
        match if mayShare then hoist name false around else none with
        | some around =>
          set { s with scopes := own :: around }
          return .function f name true
        | none => return .function f name false
      | [] => return .function f name false
  | [] => return .function (← read) name false

/-- The check that a function may stand here, at its keyword. -/
def checkFunctionPlace (c : Surroundings) (isAsync : Bool) : Read Unit := do
  let isGenerator := (← peek (do advance; isPunctuator "*")).getD false
  let mayStand := match c.declarable with
    | .all => true
    | .labeledFunctions | .functions => !isAsync && !isGenerator
    | .nothing => false
  if !mayStand then fail "function declarations can't appear in single-statement context"

/-! ### Statements -/

/-- The statement that a keyword starts; `none` if the word starts an expression. -/
def keyworded (r : Rules) (c : Surroundings) (w : String) : Read (Option Statement) := do
  let start := (← get).token.start
  match w with
  | "if" =>
    advance
    inScope .block do
      let test ← testInBrackets r c
      let declarable := if (← get).strict then Declarable.nothing else .functions
      let branch : Read Statement := r.statement { c with declarable := declarable }
      let yes ← branch
      let no ← if ← optionalWord "else" then branch else pure .empty
      return some (.choose test yes no)
  | "while" =>
    advance
    let test ← testInBrackets r c
    return some (.while test (← loopBody r c))
  | "do" =>
    advance
    let body ← loopBody r c
    if !(← optionalWord "while") then fail "expecting '\uFFFD"
    let test ← testInBrackets r c
    let _ ← optional ";"
    return some (.doWhile body test)
  | "for" => return some (← forLoop r c)
  | "switch" => return some (← switchStatement r c)
  | "try" => return some (← guarded r c)
  | "break" => return some (← breakStatement c)
  | "continue" => return some (← continueStatement c)
  | "return" => return some (← returnStatement r c)
  | "throw" => return some (← throwStatement r c)
  | "function" =>
    checkFunctionPlace c false
    return some (← functionStatement r c false start)
  | "async" =>
    match ← asyncFollower with
    | .word "function" false =>
      checkFunctionPlace c true
      advance
      return some (← functionStatement r c true start)
    | _ => return none
  | "class" =>
    if c.declarable ≠ .all then
      fail "class declarations can't appear in single-statement context"
    let e ← r.classTail c true start
    match e with
    | .class name _ _ _ _ _ =>
      declareLexical name false false
      return some (.class e name)
    | _ => return none
  | "debugger" =>
    advance
    expectSemicolon
    return some .empty
  | "enum" | "export" | "extends" => fail ("unsupported keyword: " ++ w)
  | "with" =>
    if (← get).strict then fail "invalid keyword: with" else fail "unsupported keyword: with"
  | _ => return none

def statement (r : Rules) (c : Surroundings) : Read Statement := do
  let c := { c with allowsIn := true }
  match ← labelHere c with
  | some label => labeled r c label
  | none =>
    match ← declarationKind? c c.declarable with
    | some kind =>
      if kind ≠ .var && c.declarable ≠ .all then
        fail "lexical declarations can't appear in single-statement context"
      advance
      let d ← declaration r c kind
      expectSemicolon
      return d
    | none =>
      match ← current with
      | .punctuator "\x7b" => return .block (← inScope .block (block r c))
      | .punctuator ";" =>
        advance
        return .empty
      | .word w false =>
        match ← keyworded r c w with
        | some s => return s
        | none => expressionStatement
      | _ => expressionStatement
where
  expressionStatement : Read Statement := do
    let e ← r.expression { c with allowsIn := true }
    expectSemicolon
    return .expression e

end PluginRelay.Script.Grammar
