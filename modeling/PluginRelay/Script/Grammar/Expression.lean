import PluginRelay.Script.Grammar.Function
import PluginRelay.Script.Regexp.Reader

/-!
# Expressions

One reader for each level of precedence. Parameter lists of arrows and patterns that are assigned to
are told from groups, lists and objects by what follows their closing bracket.
-/
namespace PluginRelay.Script.Grammar

/-! ### Primary expressions -/

/-- The words after `new` that are no operand. -/
def newTarget (c : Surroundings) : Read Expression := do
  advance
  if !(← optionalWord "target") then fail "expecting target"
  if !c.allowsNewTarget then fail "new.target only allowed within functions"
  return .newTarget

/-- Arguments after their opening bracket. -/
def arguments (r : Rules) (c : Surroundings) : Read (List Expression) := do
  let c := { c with allowsIn := true }
  let list ← many do
    if ← isPunctuator ")" then return none
    let item ← if ← optional "..." then do
        let value ← r.assignment c
        pure (Expression.spread value (← place))
      else r.assignment c
    if !(← isPunctuator ")") then expect ","
    return some item
  expect ")"
  return list

def arrayLiteral (r : Rules) (c : Surroundings) : Read Expression := do
  advance
  let c := { c with allowsIn := true }
  let items ← many do
    if ← isPunctuator "]" then return none
    if ← optional "," then return some .absent
    let item ← if ← optional "..." then do
        let value ← r.assignment c
        pure (Expression.spread value (← place))
      else r.assignment c
    if !(← isPunctuator "]") then
      if !(← optional ",") then expect "]"
    return some item
  expect "]"
  return .array items (← place)

/-- The pieces of a template and the expressions between them; its first piece is the current token.
Malformed escapes stand only in templates with a tag. -/
def templateParts (r : Rules) (c : Surroundings) (hasTag : Bool) :
    Read (List (Option Units × Units) × List Expression) := do
  let rec parts (fuel : Nat) : Read (List (Option Units × Units) × List Expression) := do
    match fuel, (← get).token.kind with
    | fuel + 1, .template cooked raw isLast =>
      if cooked.isNone && !hasTag then fail "malformed escape sequence in string literal"
      if isLast then
        advance
        return ([(cooked, raw)], [])
      else
        advance
        let value ← r.expression { c with allowsIn := true }
        let s ← get
        let t := s.token
        if !(← isPunctuator "\x7d") then fail "expected '\x7d' after template expression"
        set { s with cursor := ⟨s.source.toList.drop t.start, t.start, t.line, t.column⟩ }
        takeToken (·.templatePiece false 1)
        let (pieces, values) ← parts fuel
        return ((cooked, raw) :: pieces, value :: values)
    | _, _ => unexpected
  parts (← bound)

def template (r : Rules) (c : Surroundings) : Read Expression := do
  let (pieces, values) ← templateParts r c false
  return .template (pieces.map fun (cooked, _) => cooked.getD #[]) values (← place)

def regexp : Read Expression := do
  let s ← get
  let t := s.token
  set { s with cursor := ⟨s.source.toList.drop t.start, t.start, t.line, t.column⟩ }
  takeToken (·.regexp t.newlineBefore)
  match ← current with
  | .regexp body flags =>
    match Regexp.Program.ofUnits? body flags with
    | .ok _ =>
      advance
      return .regexp body flags (← place)
    | .error message => fail message
  | _ => unexpected

/-- `super` with what must follow it. -/
def superExpression (r : Rules) (c : Surroundings) (column : Nat) : Read Expression := do
  advance
  if ← isPunctuator "(" then
    if !c.allowsSuperCall then fail "super() is only valid in a derived class constructor"
    advance
    let list ← arguments r c
    return .superCall list (← placeAt column)
  else if (← isPunctuator ".") || (← isPunctuator "[") then
    if !c.allowsSuperMember then fail "'super' is only valid in a method"
    if ← optional "." then
      match ← current with
      | .word w _ =>
        markColumn
        advance
        return .superMember (.literal (.ofString w)) (← place)
      | .privateName _ => fail "private class field forbidden after super"
      | _ => fail "expecting field name"
    else
      advance
      let key ← r.expression { c with allowsIn := true }
      expect "]"
      return .superMember key (← place)
  else fail "invalid use of 'super'"

/-- Whether the words at the current token start an asynchronous function: `async` and what follows
it on the same line. -/
def asyncFollower : Read TokenKind := do
  let next ← peek do
    advance
    return (← get).token
  match next with
  | some t => return if t.newlineBefore then .eof else t.kind
  | none => return .eof

/-- A name as an operand. -/
def nameExpression (c : Surroundings) : Read Expression := do
  refuseEscapedKeyword c
  match ← nameHere c with
  | some w =>
    if w = "arguments" && !c.allowsArguments then
      fail "'arguments' identifier is not allowed in class field initializer"
    advance
    return .name w (← place)
  | none => unexpected

/-- The operand that a keyword starts. -/
def wordExpression (r : Rules) (c : Surroundings) (w : String) (column : Nat) (forNew : Bool) :
    Read Expression := do
  let start := (← get).token.start
  let constant (v : Value) : Read Expression := do
    advance
    return .literal v
  match w with
  | "null" => constant .null
  | "true" => constant (.bool true)
  | "false" => constant (.bool false)
  | "this" =>
    advance
    return .this (← place)
  | "function" => functionWord r c false start
  | "class" => r.classTail c false start
  | "super" => superExpression r c column
  | "new" =>
    advance
    if ← isPunctuator "." then newTarget c
    else
      let callee ← r.suffixed c true
      if ← optional "(" then
        let list ← arguments r c
        return .new callee list (← placeAt column)
      else return .new callee [] (← place)
  | "import" =>
    advance
    if ← optional "." then
      fail (if ← isWord "meta" then "import.meta only valid in module code" else "meta expected")
    expect "("
    if forNew then fail "invalid use of 'import()'"
    let name ← r.assignment { c with allowsIn := true }
    expect ")"
    return .importCall name (← place)
  | "async" =>
    match ← asyncFollower with
    | .word "function" false =>
      advance
      functionWord r c true start
    | _ => nameExpression c
  | _ => nameExpression c

/-- A list or an object, or a pattern if an assignment follows it. -/
def bracketed (r : Rules) (c : Surroundings) (isList : Bool) : Read Expression := do
  let next ← afterGroup
  if next.any fun t => t.kind == .punctuator "=" then r.pattern c .assigned
  else if isList then arrayLiteral r c else objectLiteral r c

def primary (r : Rules) (c : Surroundings) (column : Nat) (forNew : Bool) : Read Expression := do
  markColumn
  match ← current with
  | .number v =>
    advance
    return .literal v
  | .string units _ =>
    advance
    return .literal (.text units)
  | .template _ _ _ => template r c
  | .word w false => wordExpression r c w column forNew
  | .word _ true => nameExpression c
  | .punctuator "(" =>
    advance
    let inside ← r.expression { c with allowsIn := true }
    expect ")"
    return .group inside
  | .punctuator "[" => bracketed r c true
  | .punctuator "\x7b" => bracketed r c false
  | .punctuator "/" | .punctuator "/=" => regexp
  | _ => unexpected

/-! ### Suffixes -/

/-- What follows a dot: a member of the target. -/
def dotted (target : Expression) (optional : Bool) : Read Expression := do
  match ← current with
  | .word w _ =>
    markColumn
    advance
    return .member target w optional (← place)
  | .privateName w =>
    markColumn
    advance
    return .hidden target w optional (← place)
  | _ => fail "expecting field name"

/-- The suffixes of an operand: members, calls and templates. `column` is what calls show. -/
def suffixes (r : Rules) (c : Surroundings) (forNew : Bool) :
    Nat → Expression → (column : Nat) → (inChain : Bool) → Read Expression
  | 0, _, _, _ => fail "stack overflow"
  | fuel + 1, target, column, inChain => do
    match ← current with
    | .punctuator "." =>
      advance
      let own ← currentColumn
      let e ← dotted target false
      suffixes r c forNew fuel e own inChain
    | .punctuator "?." =>
      if forNew then fail "new keyword cannot be used with an optional chain"
      advance
      if ← optional "(" then
        let list ← arguments r c
        let e := .call target list true (← placeAt column)
        suffixes r c forNew fuel e column true
      else if ← optional "[" then
        let key ← r.expression { c with allowsIn := true }
        expect "]"
        let e := .index target key true (← place)
        suffixes r c forNew fuel e column true
      else
        let own ← currentColumn
        let e ← dotted target true
        suffixes r c forNew fuel e own true
    | .punctuator "[" =>
      advance
      let key ← r.expression { c with allowsIn := true }
      expect "]"
      let e := .index target key false (← place)
      suffixes r c forNew fuel e column inChain
    | .punctuator "(" =>
      if forNew then return target
      advance
      let list ← arguments r c
      let e := .call target list false (← placeAt column)
      suffixes r c forNew fuel e column inChain
    | .template _ _ _ =>
      if inChain then fail "template literal cannot appear in an optional chain"
      let (pieces, values) ← templateParts r c true
      let e := .tagged target pieces values (← placeAt column)
      suffixes r c forNew fuel e column inChain
    | _ => return if inChain then .chain target else target

/-- An operand with its suffixes; calls are not among them behind `new`. -/
def suffixed (r : Rules) (c : Surroundings) (forNew : Bool) : Read Expression := do
  let column ← currentColumn
  let first ← primary r c column forNew
  suffixes r c forNew (← bound) first column false

/-! ### Operators -/

def ungrouped : Expression → Expression
  | .group e => ungrouped e
  | e => e

/-- Whether an expression can be assigned to. -/
def isTarget (strict : Bool) (e : Expression) : Bool :=
  match ungrouped e with
  | .name w _ => !(strict && (w = "eval" || w = "arguments"))
  | .member _ _ _ _ | .index _ _ _ _ | .hidden _ _ _ _ | .superMember _ _ => true
  | _ => false

def checkTarget (e : Expression) (message : String) : Read Unit := do
  if isTarget false e then
    if !isTarget (← get).strict e then fail "invalid lvalue in strict mode"
  else fail message

def unaryOperator? : TokenKind → Option UnaryOperator
  | .punctuator "+" => some .plus
  | .punctuator "-" => some .negate
  | .punctuator "!" => some .not
  | .punctuator "~" => some .complement
  | .word "void" false => some .void
  | .word "typeof" false => some .typeof
  | _ => none

/-- The power that may follow an operand. -/
def powered (r : Rules) (c : Surroundings) (rule : PowerRule) (e : Expression) : Read Expression := do
  if !(← isPunctuator "**") then return e
  match rule with
  | .allowed =>
    advance
    let right ← r.unary c .allowed
    return .binary .pow e right (← place)
  | .forbidden =>
    throw ⟨"unparenthesized unary expression can't appear on the left-hand side of '**'", none⟩
  | .leftAround => return e

/-- An operand with a step before or after it. -/
def updated (r : Rules) (c : Surroundings) : Read Expression := do
  match ← current with
  | .punctuator p =>
    if p = "++" || p = "--" then
      advance
      let e ← r.unary c .leftAround
      checkTarget e "invalid increment/decrement operand"
      return .update (p = "++") true (ungrouped e) (← place)
    else after
  | _ => after
where
  after : Read Expression := do
    let e ← suffixed r c false
    let t := (← get).token
    match t.kind with
    | .punctuator p =>
      if (p = "++" || p = "--") && !t.newlineBefore then
        checkTarget e "invalid increment/decrement operand"
        let here ← place
        advance
        return .update (p = "++") false (ungrouped e) here
      else return e
    | _ => return e

/-- The removal of what an operand refers to. -/
def removal (r : Rules) (c : Surroundings) : Read Expression := do
  advance
  let e ← r.unary c .forbidden
  match ungrouped e with
  | .name _ _ => if (← get).strict then fail "cannot delete a direct reference in strict mode"
  | .hidden _ _ _ _ => fail "cannot delete a private class field"
  | _ => pure ()
  return .remove (ungrouped e) (← place)

def awaiting (r : Rules) (c : Surroundings) : Read Expression := do
  if !c.isAsync then fail "unexpected 'await' keyword"
  if !c.inBody then fail "await in default expression"
  advance
  let e ← r.unary c .forbidden
  return .await e (← place)

/-- An operand with the operators in front of it, and the power that may follow. -/
def unary (r : Rules) (c : Surroundings) (rule : PowerRule) : Read Expression := do
  let kind ← current
  match unaryOperator? kind with
  | some op =>
    advance
    let e ← r.unary c .forbidden
    return .unary op e (← place)
  | none =>
    if ← isWord "delete" then removal r c
    else if (← keywordHere c) = some "await" then awaiting r c
    else powered r c rule (← updated r c)

/-- The binary operators of each level, the tightest first. -/
def binaryOperator? (c : Surroundings) (level : Nat) (kind : TokenKind) : Option BinaryOperator :=
  match level, kind with
  | 1, .punctuator "*" => some .mul
  | 1, .punctuator "/" => some .div
  | 1, .punctuator "%" => some .mod
  | 2, .punctuator "+" => some .add
  | 2, .punctuator "-" => some .sub
  | 3, .punctuator "<<" => some .shl
  | 3, .punctuator ">>" => some .shr
  | 3, .punctuator ">>>" => some .ushr
  | 4, .punctuator "<" => some .lt
  | 4, .punctuator ">" => some .gt
  | 4, .punctuator "<=" => some .le
  | 4, .punctuator ">=" => some .ge
  | 4, .word "instanceof" false => some .instanceOf
  | 4, .word "in" false => if c.allowsIn then some .isIn else none
  | 5, .punctuator "==" => some .equal
  | 5, .punctuator "!=" => some .notEqual
  | 5, .punctuator "===" => some .same
  | 5, .punctuator "!==" => some .notSame
  | 6, .punctuator "&" => some .bitAnd
  | 7, .punctuator "^" => some .bitXor
  | 8, .punctuator "|" => some .bitOr
  | _, _ => none

/-- Operands of one level with its operators between them. -/
def binaryTail (c : Surroundings) (level : Nat) (operand : Read Expression) :
    Nat → Expression → Read Expression
  | 0, _ => fail "stack overflow"
  | fuel + 1, left => do
    match binaryOperator? c level (← current) with
    | some op =>
      advance
      let right ← operand
      binaryTail c level operand fuel (.binary op left right (← place))
    | none => return left

def binary (r : Rules) (c : Surroundings) : Nat → Read Expression
  | 0 => unary r c .allowed
  | level + 1 => do
    let s ← get
    match level + 1, s.token.kind with
    | 4, .privateName w =>
      match ← peek (do advance; isWord "in") with
      | some true => advance
      | _ => unexpected
      advance
      let right ← binary r c level
      binaryTail c 4 (binary r c level) (← bound) (.hiddenIn w right (← place))
    | _, _ =>
      let left ← binary r c level
      binaryTail c (level + 1) (binary r c level) (← bound) left

def logicalTail (p : String) (op : LogicalOperator) (operand : Read Expression) :
    Nat → Expression → Read Expression
  | 0, _ => fail "stack overflow"
  | fuel + 1, left => do
    if ← optional p then
      let right ← operand
      logicalTail p op operand fuel (.logical op left right)
    else return left

def conjunction (r : Rules) (c : Surroundings) : Read Expression := do
  let left ← binary r c 8
  logicalTail "&&" .and (binary r c 8) (← bound) left

def isLogical : Expression → Bool
  | .logical _ _ _ => true
  | _ => false

def disjunction (r : Rules) (c : Surroundings) : Read Expression := do
  let first ← conjunction r c
  let e ← logicalTail "||" .or (conjunction r c) (← bound) first
  if ← isPunctuator "??" then
    if isLogical e then fail "cannot mix ?? with && or ||"
    logicalTail "??" .nullish (binary r c 8) (← bound) e
  else return e

def conditional (r : Rules) (c : Surroundings) : Read Expression := do
  let test ← disjunction r c
  if ← optional "?" then
    let yes ← r.assignment { c with allowsIn := true }
    expect ":"
    let no ← r.assignment c
    return .conditional test yes no
  else return test

/-! ### Assignments -/

inductive AssignmentOperator where
  | plain
  | arithmetic (op : BinaryOperator)
  | logical (op : LogicalOperator)

def assignmentOperator? : TokenKind → Option AssignmentOperator
  | .punctuator "=" => some .plain
  | .punctuator "+=" => some (.arithmetic .add)
  | .punctuator "-=" => some (.arithmetic .sub)
  | .punctuator "*=" => some (.arithmetic .mul)
  | .punctuator "/=" => some (.arithmetic .div)
  | .punctuator "%=" => some (.arithmetic .mod)
  | .punctuator "**=" => some (.arithmetic .pow)
  | .punctuator "<<=" => some (.arithmetic .shl)
  | .punctuator ">>=" => some (.arithmetic .shr)
  | .punctuator ">>>=" => some (.arithmetic .ushr)
  | .punctuator "&=" => some (.arithmetic .bitAnd)
  | .punctuator "|=" => some (.arithmetic .bitOr)
  | .punctuator "^=" => some (.arithmetic .bitXor)
  | .punctuator "&&=" => some (.logical .and)
  | .punctuator "||=" => some (.logical .or)
  | .punctuator "??=" => some (.logical .nullish)
  | _ => none

def yieldExpression (r : Rules) (c : Surroundings) : Read Expression := do
  if !c.isGenerator then fail "unexpected 'yield' keyword"
  if !c.inBody then fail "yield in default expression"
  advance
  let t := (← get).token
  let delegate ← if t.newlineBefore then pure false else optional "*"
  let t := (← get).token
  let ended := match t.kind with
    | .eof => true
    | .punctuator p => [")", "]", "\x7d", ",", ";", ":"].contains p
    | .word "in" false => true
    | _ => false
  let value ← if !delegate && (ended || t.newlineBefore) then pure .absent else r.assignment c
  return .yield value delegate (← place)

/-- Whether an arrow function starts at the current token, and whether it is asynchronous. -/
def arrowHere (c : Surroundings) : Read (Option Bool) := do
  let isArrow : TokenKind → Bool
    | .punctuator "=>" => true
    | _ => false
  match ← current with
  | .punctuator "(" =>
    match ← afterGroup with
    | some t => return if isArrow t.kind && !t.newlineBefore then some false else none
    | none => return none
  | .word w _ =>
    if w = "async" then
      match ← asyncFollower with
      | .punctuator "(" =>
        let after ← peek do
          advance
          afterGroup
        match after.join with
        | some t => return if isArrow t.kind && !t.newlineBefore then some true else none
        | none => return none
      | .punctuator "=>" => return some false
      | .word _ _ =>
        let after ← peek do
          advance
          asyncFollower
        match after with
        | some kind => return if isArrow kind then some true else none
        | none => return none
      | _ => return none
    else if (← nameHere c).isSome then
      return if isArrow (← asyncFollower) then some false else none
    else return none
  | _ => return none

def isPattern : Expression → Bool
  | .arrayPattern _ _ | .objectPattern _ _ => true
  | _ => false

def assignment (r : Rules) (c : Surroundings) : Read Expression := do
  let start := (← get).token.start
  if (← keywordHere c) = some "yield" then yieldExpression r c
  else
    match ← arrowHere c with
    | some isAsync =>
      markColumn
      if isAsync then advance
      arrow r c isAsync start
    | none =>
      let left ← conditional r c
      match assignmentOperator? (← current) with
      | none => return left
      | some op =>
        advance
        if !isPattern left then checkTarget left "invalid assignment left-hand side"
        let target := ungrouped left
        let value ← r.assignment c
        let here ← place
        match op with
        | .plain => return .assign target value here
        | .arithmetic op => return .assignOperator op target value here
        | .logical op => return .assignLogical op target value here

def expression (r : Rules) (c : Surroundings) : Read Expression := do
  let first ← r.assignment c
  let rec more (fuel : Nat) (left : Expression) : Read Expression := do
    match fuel with
    | 0 => fail "stack overflow"
    | fuel + 1 =>
      if ← optional "," then more fuel (.sequence left (← r.assignment c)) else return left
  more (← bound) first

/-! ### Patterns -/

/-- Whether the bracket at the current token starts a pattern inside one that `closer` ends. -/
def nestsPattern (closer : String) : Read (Option String) := do
  match ← current with
  | .punctuator "[" | .punctuator "\x7b" =>
    match (← afterGroup).map Token.kind with
    | some (.punctuator p) => return if p = "," || p = "=" || p = closer then some p else none
    | _ => return none
  | _ => return none

/-- A name or another target of an assignment inside a pattern. -/
def patternTarget (r : Rules) (c : Surroundings) (binding : Binding) : Read (Expression × Option String) := do
  if binding = .assigned then
    let e ← r.suffixed c false
    checkTarget e "invalid destructuring target"
    return (ungrouped e, none)
  else
    match ← nameHere c with
    | some w =>
      if (← get).strict && (w = "eval" || w = "arguments") then fail "invalid destructuring target"
      if let .parameter _ := binding then refuseDuplicate w
      markColumn
      advance
      return (.name w (← place), some w)
    | none => fail "invalid destructuring target"

/-- A target with the value for when there is none. -/
def withDefault (r : Rules) (c : Surroundings) (target : Expression) : Read Expression := do
  if ← optional "=" then
    return .initialized target (← r.assignment { c with allowsIn := true }) (← place)
  else return target

/-- One element of a pattern: a nested pattern or a target. -/
def patternElement (r : Rules) (c : Surroundings) (binding : Binding) (closer : String) :
    Read Expression := do
  if (← nestsPattern closer).isSome then withDefault r c (← r.pattern c binding)
  else
    let (target, name) ← patternTarget r c binding
    if let some w := name then bind binding w
    withDefault r c target

/-- The elements that are left for the last target of a list. -/
def arrayRest (r : Rules) (c : Surroundings) (binding : Binding) : Read Expression := do
  if (← isPunctuator ",") || (← isPunctuator "]") then fail "missing binding pattern..."
  let target ← match ← nestsPattern "]" with
    | some "=" => fail "rest element cannot have a default value"
    | some _ => r.pattern c binding
    | none => do
      let (target, name) ← patternTarget r c binding
      if let some w := name then bind binding w
      pure target
  if !(← isPunctuator "]") then fail "rest element must be the last one"
  return .spread target (← place)

def arrayPattern (r : Rules) (c : Surroundings) (binding : Binding) : Read Expression := do
  markColumn
  advance
  let here ← place
  let items ← many do
    if ← isPunctuator "]" then return none
    if ← optional "," then return some .absent
    let item ← if ← optional "..." then arrayRest r c binding else patternElement r c binding "]"
    if !(← isPunctuator "]") then expect ","
    return some item
  expect "]"
  return .arrayPattern items here

/-- A property of a pattern whose key is a name that is bound too. -/
def shorthand (r : Rules) (c : Surroundings) (binding : Binding) (w : String) (key : Expression)
    (column : Nat) : Read Member := do
  setColumn column
  let here ← place
  if let .parameter _ := binding then refuseDuplicate w
  if (← get).strict && (w = "eval" || w = "arguments") then fail "invalid destructuring target"
  bind binding w
  let value ← withDefault r c (.name w here)
  return .mk .value false key value here

/-- The properties that are left for the last target of an object. -/
def objectRest (r : Rules) (c : Surroundings) (binding : Binding) : Read Member := do
  let (target, name) ← patternTarget r c binding
  if !(← isPunctuator "\x7d") then fail "assignment rest property must be last"
  if let some w := name then bind binding w
  return .mk .spread false .absent target (← place)

/-- A property of a pattern. Whatever stands behind a key that is no name is taken for a colon. -/
def patternMember (r : Rules) (c : Surroundings) (binding : Binding) : Read Member := do
  let column ← currentColumn
  let (key, name) ← memberKey r c false
  match name with
  | some w =>
    if ← optional ":" then
      let value ← patternElement r c binding "\x7d"
      return .mk .value false key value (← place)
    else shorthand r c binding w key column
  | none =>
    advance
    let value ← patternElement r c binding "\x7d"
    return .mk .value false key value (← place)

def objectPattern (r : Rules) (c : Surroundings) (binding : Binding) : Read Expression := do
  markColumn
  advance
  let here ← place
  let members ← many do
    if ← isPunctuator "\x7d" then return none
    let m ← if ← optional "..." then objectRest r c binding else patternMember r c binding
    if !(← isPunctuator "\x7d") then expect ","
    return some m
  expect "\x7d"
  return .objectPattern members here

/-- A pattern from its bracket on. -/
def pattern (r : Rules) (c : Surroundings) (binding : Binding) : Read Expression := do
  if ← isPunctuator "[" then arrayPattern r c binding else objectPattern r c binding

end PluginRelay.Script.Grammar
