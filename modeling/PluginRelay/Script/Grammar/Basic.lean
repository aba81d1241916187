import PluginRelay.Script.Syntax
import PluginRelay.Script.Token

/-!
# Reading by the grammar

Readers work on the current token. Beside it they keep the line of the token before and the column of
the last token that traces show; both go into the places of nodes. Readers for nested constructs come
as a record, so that each rule can be stated by itself and the nesting is bounded in one place.
-/
namespace PluginRelay.Script.Grammar

/-- What statements are part of. -/
inductive BodyKind where
  | script
  | function
  | staticBlock
  deriving DecidableEq, Repr, Inhabited

/-- The declarations that may stand where a statement is read. -/
inductive Declarable where
  | all
  /-- Functions, with labels or without. -/
  | labeledFunctions
  | functions
  | nothing
  deriving DecidableEq, Repr, Inhabited

/-- What is known of the constructs around the place that is read. -/
structure Surroundings where
  /-- Whether `in` is an operator here. -/
  allowsIn : Bool
  body : BodyKind
  isAsync : Bool
  isGenerator : Bool
  /-- Whether the parameters of the function have been read. -/
  inBody : Bool
  /-- Whether `await` and `yield` are keywords here. -/
  reservesAwait : Bool
  reservesYield : Bool
  allowsSuperCall : Bool
  allowsSuperMember : Bool
  allowsNewTarget : Bool
  allowsArguments : Bool
  /-- Labels of enclosing statements, and whether each is on a loop. -/
  labels : List (String × Bool)
  inLoop : Bool
  inSwitch : Bool
  declarable : Declarable
  deriving Inhabited

/-- A script by itself. -/
def Surroundings.outermost : Surroundings :=
  ⟨true, .script, false, false, true, false, false, false, false, false, true, [], false, false, .all⟩

inductive ScopeKind where
  | script
  | function
  | block
  /-- The part around the block of a handler, which holds the name of the exception. -/
  | handler
  deriving DecidableEq, Repr, Inhabited

/-- The names declared in a script, a function or a block so far. -/
structure Scope where
  kind : ScopeKind
  /-- Names that end with the block, and whether each is a plain function. -/
  lexical : List (String × Bool)
  /-- Names declared by `var` here or in blocks inside. -/
  hoisted : List String
  /-- Names of parameters that are no patterns, or that of an exception. -/
  parameters : List String
  deriving Inhabited

/-- Whether a `var` inside is declared here. -/
def Scope.takesVars (scope : Scope) : Bool :=
  match scope.kind with
  | .script | .function => true
  | .block | .handler => false

structure State where
  source : Array Char
  token : Token
  cursor : Cursor
  lastLine : Nat
  lastStop : Nat
  /-- The column that places show. -/
  column : Nat
  strict : Bool
  /-- The scopes around the current token, the innermost first. -/
  scopes : List Scope
  /-- The names bound since the last pattern began, in reverse. -/
  bound : List String

abbrev Read := EStateM SyntaxFault State

/-- What the names in a pattern are for. -/
inductive Binding where
  | assigned
  /-- Parameters; they are variables of their own if any of them has a value for when it is missing. -/
  | parameter (hasValues : Bool)
  | declared (kind : DeclarationKind)
  deriving DecidableEq, Repr, Inhabited

/-- Whether a power may follow an operand: not behind an operator without brackets. The operand of a step
leaves it to the rule around. -/
inductive PowerRule where
  | allowed
  | forbidden
  | leftAround
  deriving DecidableEq, Repr, Inhabited

/-- The rules that refer to each other. -/
structure Rules where
  assignment : Surroundings → Read Expression
  expression : Surroundings → Read Expression
  unary : Surroundings → PowerRule → Read Expression
  suffixed : Surroundings → (forNew : Bool) → Read Expression
  pattern : Surroundings → Binding → Read Expression
  statement : Surroundings → Read Statement
  function : Surroundings → FunctionKind → (isAsync isGenerator : Bool) → (start : Nat) → String →
    Read Expression
  classTail : Surroundings → (mustBeNamed : Bool) → (start : Nat) → Read Expression

/-- A fault at the current token. -/
def fail {α : Type} (message : String) : Read α := do
  let t := (← get).token
  throw ⟨message, some ⟨t.line, t.column⟩⟩

/-- Runs a lexical rule from the cursor and makes its token the current one. -/
def takeToken (rule : Cursor → Except SyntaxFault (Token × Cursor)) : Read Unit := do
  match rule (← get).cursor with
  | .ok (token, cursor) => modify fun s => { s with token := token, cursor := cursor }
  | .error fault => throw fault

/-- Goes on to the next token. -/
def advance : Read Unit := do
  let s ← get
  set { s with lastLine := s.token.line, lastStop := s.token.stop }
  takeToken (·.next s.strict)

def current : Read TokenKind := return (← get).token.kind

def currentText : Read String := do
  let s ← get
  return String.ofList (s.source.extract s.token.start s.token.stop).toList

def isPunctuator (p : String) : Read Bool := do
  match ← current with
  | .punctuator q => return p = q
  | _ => return false

/-- Whether the current token is the word, written without escapes. -/
def isWord (w : String) : Read Bool := do
  match ← current with
  | .word v false => return w = v
  | _ => return false

def optional (p : String) : Read Bool := do
  if ← isPunctuator p then
    advance
    return true
  else return false

def optionalWord (w : String) : Read Bool := do
  if ← isWord w then
    advance
    return true
  else return false

def expect (p : String) : Read Unit := do
  if ← isPunctuator p then advance
  else fail ("expecting '" ++ String.ofList (p.toList.take 1) ++ "'")

def unexpected {α : Type} : Read α := do
  fail ("unexpected token in expression: '" ++ (← currentText) ++ "'")

/-- A semicolon, or a place where one may be left out. -/
def expectSemicolon : Read Unit := do
  let t := (← get).token
  match t.kind with
  | .punctuator ";" => advance
  | .punctuator "\x7d" => return
  | .eof => return
  | _ => if t.newlineBefore then return else fail "expecting ';'"

/-- Lets traces show the current token from now on. -/
def markColumn : Read Unit :=
  modify fun s => { s with column := s.token.column + 1 }

def setColumn (column : Nat) : Read Unit :=
  modify fun s => { s with column := column }

/-- What traces show here. -/
def place : Read Position := do
  let s ← get
  return ⟨s.lastLine, s.column⟩

def placeAt (column : Nat) : Read Position := do
  return ⟨(← get).lastLine, column⟩

def currentColumn : Read Nat := return (← get).token.column + 1

/-- The text of the script from an offset up to the end of the last token. -/
def sourceFrom (start : Nat) : Read Units := do
  let s ← get
  return Units.ofChars (s.source.extract start s.lastStop).toList

/-! ### Reserved words -/

/-- Words that are never names. -/
def reserved : List String :=
  ["null", "false", "true", "if", "else", "return", "var", "this", "delete", "void", "typeof", "new", "in",
    "instanceof", "do", "while", "for", "break", "continue", "switch", "case", "default", "throw", "try",
    "catch", "finally", "function", "debugger", "with", "class", "const", "enum", "export", "extends",
    "import", "super"]

/-- Words that are no names in strict code. -/
def strictReserved : List String :=
  ["implements", "interface", "let", "package", "private", "protected", "public", "static", "yield"]

def isReserved (c : Surroundings) (strict : Bool) (w : String) : Bool :=
  reserved.contains w || (strict && strictReserved.contains w) || (c.reservesYield && w = "yield") ||
    (c.reservesAwait && w = "await")

/-- The name that the current token is, if it is one. -/
def nameHere (c : Surroundings) : Read (Option String) := do
  let s ← get
  match s.token.kind with
  | .word w _ => return if isReserved c s.strict w then none else some w
  | _ => return none

/-- The keyword that the current token is, if it is one. -/
def keywordHere (c : Surroundings) : Read (Option String) := do
  let s ← get
  match s.token.kind with
  | .word w false => return if isReserved c s.strict w then some w else none
  | _ => return none

/-- A reserved word with escapes in it is neither name nor keyword. -/
def refuseEscapedKeyword (c : Surroundings) : Read Unit := do
  let s ← get
  match s.token.kind with
  | .word w true => if isReserved c s.strict w then fail ("'" ++ w ++ "' is a reserved identifier")
  | _ => return

/-! ### Declared names -/

def enterScope (kind : ScopeKind) : Read Unit :=
  modify fun s => { s with scopes := ⟨kind, [], [], []⟩ :: s.scopes }

def leaveScope : Read Unit := modify fun s => { s with scopes := s.scopes.tail }

/-- Reads in a scope of its own. -/
def inScope {α : Type} (kind : ScopeKind) (r : Read α) : Read α := do
  enterScope kind
  let x ← r
  leaveScope
  return x

/-- The scope that takes what `var` declares. -/
def wholeScope : Read Scope := return ((← get).scopes.find? (·.takesVars)).getD default

/-- Declares a name for the innermost block. Plain functions may share a name in code that is not
strict. -/
def declareLexical (name : String) (isFunction isPlain : Bool) : Read Unit := do
  let s ← get
  match s.scopes with
  | [] => return
  | scope :: rest =>
    match scope.lexical.lookup name with
    | some wasPlain =>
      if !(isPlain && wasPlain && !s.strict) then fail "invalid redefinition of lexical identifier"
    | none =>
      let isException : Bool := match rest with
        | around :: _ => around.kind = .handler && around.parameters.contains name
        | [] => false
      if isException then fail "invalid redefinition of lexical identifier"
      if !isFunction && scope.kind = .function && scope.parameters.contains name then
        fail "invalid redefinition of parameter name"
      if scope.hoisted.contains name then
        fail (if (← wholeScope).kind = .script then "invalid redefinition of global identifier"
          else "invalid redefinition of a variable")
    set { s with scopes := { scope with lexical := (name, isPlain) :: scope.lexical } :: rest }

/-- The scopes after a `var`, up to the one that takes it; `none` if a block on the way has the name. Only
the first `var` of a name counts for blocks. -/
def hoist (name : String) (isFirst : Bool) : List Scope → Option (List Scope)
  | [] => some []
  | scope :: rest =>
    if (scope.lexical.lookup name).isSome then none
    else if scope.takesVars then some ({ scope with hoisted := name :: scope.hoisted } :: rest)
    else
      let own := if isFirst then { scope with hoisted := name :: scope.hoisted } else scope
      (hoist name isFirst rest).map (own :: ·)

/-- Declares a name for the whole function. -/
def declareVar (name : String) : Read Unit := do
  let whole ← wholeScope
  let isFirst := !(whole.hoisted.contains name || whole.parameters.contains name)
  let s ← get
  match hoist name isFirst s.scopes with
  | some scopes => set { s with scopes := scopes }
  | none => fail "invalid redefinition of lexical identifier"

/-- Declares a function among the statements of a script or function. Scripts do not look for another
declaration of its name before it. -/
def declareFunction (name : String) : Read Unit := do
  let s ← get
  match s.scopes with
  | ⟨.script, lexical, hoisted, parameters⟩ :: rest =>
    set { s with scopes := ⟨.script, lexical, name :: hoisted, parameters⟩ :: rest }
  | _ => declareVar name

/-- Adds a parameter that is no pattern, or the exception of a handler, to the innermost scope. -/
def declareParameter (name : String) : Read Unit :=
  modify fun s =>
    match s.scopes with
    | [] => s
    | scope :: rest => { s with scopes := { scope with parameters := name :: scope.parameters } :: rest }

/-- Notes a name among those that patterns bind. -/
def noteBound (name : String) : Read Unit :=
  modify fun s => { s with bound := name :: s.bound }

/-- Declares a variable by its keyword. -/
def declare (kind : DeclarationKind) (name : String) : Read Unit := do
  if (← get).strict && (name = "eval" || name = "arguments") then
    fail "invalid variable name in strict mode"
  match kind with
  | .var => declareVar name
  | .letting | .const =>
    if name = "let" then fail "invalid lexical variable name"
    declareLexical name false false
  noteBound name

/-- Binds a name that a pattern holds. -/
def bind (binding : Binding) (name : String) : Read Unit := do
  match binding with
  | .assigned => return
  | .parameter hasValues =>
    if hasValues && name = "let" then fail "invalid lexical variable name"
    noteBound name
  | .declared kind => declare kind name

/-- Parameters in patterns have names of their own. -/
def refuseDuplicate (name : String) : Read Unit := do
  if (← get).bound.contains name then fail "duplicate parameter names not allowed in this context"

/-- Reads patterns; also gives the names that they bind. -/
def binding {α : Type} (r : Read α) : Read (α × List String) := do
  let before := (← get).bound
  modify fun s => { s with bound := [] }
  let x ← r
  let names := (← get).bound.reverse
  modify fun s => { s with bound := before }
  return (x, names)

/-- Looks ahead: the reader's result, without its effect. -/
def peek {α : Type} (r : Read α) : Read (Option α) := do
  let s ← get
  match r.run s with
  | .ok x _ => return some x
  | .error _ _ => return none

/-- Whether a reader finds no fault. -/
def succeeds (r : Read Unit) : Read Bool := fun s =>
  match r s with
  | .ok _ s => .ok true s
  | .error _ s => .ok false s

/-- How many steps a list at this place can have at most. -/
def bound : Read Nat := return (← get).cursor.rest.length + 2

/-- Collects what a step gives until it gives nothing. -/
def collected {α : Type} (step : Read (Option α)) : Nat → Read (List α)
  | 0 => return []
  | fuel + 1 => do
    match ← step with
    | some x => return x :: (← collected step fuel)
    | none => return []

def many {α : Type} (step : Read (Option α)) : Read (List α) := do collected step (← bound)

/-! ### Looking ahead -/

/-- What stands in a group in brackets, and what follows it. -/
structure Ahead where
  /-- The token behind the group, if the group ends. -/
  next : Option Token
  /-- Whether a semicolon stands in it, outside of inner groups. -/
  hasSemicolon : Bool
  /-- Whether an assignment stands anywhere in it. -/
  hasAssignment : Bool

/-- Whether a token is an operand or ends one: a slash behind it is a division. -/
def endsOperand : TokenKind → Bool
  | .number _ | .string _ _ | .regexp _ _ => true
  | .word w _ =>
    !(reserved.contains w || w = "of" || w = "yield") || w = "this" || w = "null" || w = "true" || w = "false"
  | .punctuator p => p = ")" || p = "]" || p = "\x7d" || p = "++" || p = "--"
  | _ => false

/-- Goes past the group that starts at the current token. `closers` are the brackets that are to come, the
innermost first; a back quote stands for a template. What is seen goes into `seen`. -/
def skipGroup (fuel : Nat) (closers : List String) (afterOperand : Bool) (seen : Ahead) : Read Ahead := do
  match fuel with
  | 0 => return seen
  | fuel + 1 =>
    let t := (← get).token
    let goOn (closers : List String) (seen : Ahead) : Read Ahead := do
      let t := (← get).token
      if !(← succeeds advance) then return seen
      match closers with
      | [] => return { seen with next := some (← get).token }
      | _ => skipGroup fuel closers (endsOperand t.kind) seen
    let close (p : String) : Read Ahead := do
      match closers with
      | q :: rest => if p = q then goOn rest seen else return seen
      | [] => return seen
    match t.kind with
    | .eof => return seen
    | .punctuator "(" => goOn (")" :: closers) seen
    | .punctuator "[" => goOn ("]" :: closers) seen
    | .punctuator "\x7b" => goOn ("\x7d" :: closers) seen
    | .punctuator ")" => close ")"
    | .punctuator "]" => close "]"
    | .punctuator "\x7d" =>
      match closers with
      | "`" :: rest =>
        let s ← get
        set { s with cursor := ⟨s.source.toList.drop t.start, t.start, t.line, t.column⟩ }
        if !(← succeeds (takeToken (·.templatePiece false 1))) then return seen
        match ← current with
        | .template _ _ true => goOn rest seen
        | _ => goOn closers seen
      | _ => close "\x7d"
    | .template _ _ isLast => goOn (if isLast then closers else "`" :: closers) seen
    | .punctuator ";" => goOn closers { seen with hasSemicolon := seen.hasSemicolon || closers.length = 1 }
    | .punctuator "=" => goOn closers { seen with hasAssignment := true }
    | .punctuator p =>
      if (p = "/" || p = "/=") && !afterOperand then
        let s ← get
        set { s with cursor := ⟨s.source.toList.drop t.start, t.start, t.line, t.column⟩ }
        if !(← succeeds (takeToken (·.regexp false))) then return seen
        goOn closers seen
      else goOn closers seen
    | _ => goOn closers seen

/-- Looks at the group that starts here. -/
def ahead : Read Ahead := do
  let fuel ← bound
  let nothing : Ahead := ⟨none, false, false⟩
  return (← peek (skipGroup fuel [] false nothing)).getD nothing

/-- The token behind the group that starts here, if it ends. -/
def afterGroup : Read (Option Token) := return (← ahead).next

end PluginRelay.Script.Grammar
