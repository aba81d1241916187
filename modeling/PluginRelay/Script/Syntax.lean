import PluginRelay.Script.Value

/-!
# Syntax trees

Expressions, statements and members of objects and classes. Patterns are expressions too: names and
properties that are assigned to, and lists and objects of patterns. Nodes that can fail when they run
say where: `place` is what a trace shows for them.
-/
namespace PluginRelay.Script

inductive UnaryOperator where
  | negate | plus | not | complement | typeof | void
  deriving DecidableEq, Repr, Inhabited

inductive BinaryOperator where
  | add | sub | mul | div | mod | pow | shl | shr | ushr | bitAnd | bitOr | bitXor
  | lt | le | gt | ge | equal | notEqual | same | notSame | isIn | instanceOf
  deriving DecidableEq, Repr, Inhabited

inductive LogicalOperator where
  | and | or | nullish
  deriving DecidableEq, Repr, Inhabited

inductive DeclarationKind where
  | var | letting | const
  deriving DecidableEq, Repr, Inhabited

inductive FunctionKind where
  | normal
  | arrow
  | method
  | getter
  | setter
  | constructor
  | derivedConstructor
  /-- The initializers of the fields of a class, and its static blocks. -/
  | fields
  deriving DecidableEq, Repr, Inhabited

/-- What a member of an object, a class or a pattern is. -/
inductive MemberRole where
  | value
  /-- The member `__proto__: value` of an object. -/
  | prototype
  | spread
  | method
  | getter
  | setter
  | field
  | staticBlock
  deriving DecidableEq, Repr, Inhabited

/-- All of a function but its parameters and its body. -/
structure FunctionInfo where
  name : String
  kind : FunctionKind
  isAsync : Bool
  isGenerator : Bool
  strict : Bool
  source : Units
  place : Position
  /-- The names that the parameters bind. -/
  parameters : List String
  /-- The names that the body declares for the whole function. -/
  hoisted : List String
  deriving Inhabited

mutual

inductive Expression where
  /-- A hole in a list, or an optional part that is missing. -/
  | absent
  | literal (value : Value)
  | template (strings : List Units) (values : List Expression) (place : Position)
  | tagged (tag : Expression) (strings : List (Option Units × Units)) (values : List Expression)
      (place : Position)
  | regexp (body flags : Units) (place : Position)
  | name (name : String) (place : Position)
  | this (place : Position)
  | superMember (key : Expression) (place : Position)
  | superCall (arguments : List Expression) (place : Position)
  | newTarget
  | array (items : List Expression) (place : Position)
  | object (members : List Member) (place : Position)
  | function (info : FunctionInfo) (parameters : List Expression) (body : List Statement)
  | class (name : String) (parent constructor : Expression) (members : List Member) (source : Units)
      (place : Position)
  | unary (op : UnaryOperator) (operand : Expression) (place : Position)
  | remove (target : Expression) (place : Position)
  | update (increment isPrefixed : Bool) (target : Expression) (place : Position)
  | binary (op : BinaryOperator) (left right : Expression) (place : Position)
  | logical (op : LogicalOperator) (left right : Expression)
  | assign (target value : Expression) (place : Position)
  | assignOperator (op : BinaryOperator) (target value : Expression) (place : Position)
  | assignLogical (op : LogicalOperator) (target value : Expression) (place : Position)
  | conditional (test yes no : Expression)
  | call (callee : Expression) (arguments : List Expression) (optional : Bool) (place : Position)
  | new (callee : Expression) (arguments : List Expression) (place : Position)
  | member (target : Expression) (key : String) (optional : Bool) (place : Position)
  | index (target key : Expression) (optional : Bool) (place : Position)
  | hidden (target : Expression) (key : String) (optional : Bool) (place : Position)
  | hiddenIn (key : String) (target : Expression) (place : Position)
  /-- The extent of an optional chain, all of which is skipped at once. -/
  | chain (inside : Expression)
  /-- An expression in brackets. -/
  | group (inside : Expression)
  | sequence (first second : Expression)
  /-- A request for a module by its name. -/
  | importCall (name : Expression) (place : Position)
  | yield (value : Expression) (delegate : Bool) (place : Position)
  | await (value : Expression) (place : Position)
  /-- All elements of a sequence, in a list or among arguments; or the rest, in a pattern. -/
  | spread (e : Expression) (place : Position)
  /-- A pattern with a value for when there is none. -/
  | initialized (target value : Expression) (place : Position)
  | arrayPattern (items : List Expression) (place : Position)
  | objectPattern (members : List Member) (place : Position)
  /-- The key of a member that is written as it is. -/
  | fixedKey (key : PropertyKey)
  | hiddenKey (name : String)

inductive Member where
  | mk (role : MemberRole) (isStatic : Bool) (key value : Expression) (place : Position)

inductive Statement where
  | empty
  | expression (e : Expression)
  /-- Names and patterns, each as it is or `initialized`, and all names that they bind. -/
  | declare (kind : DeclarationKind) (names : List String) (parts : List Expression)
  /-- A function in a block; `isShared` if the name stands for it in the whole function too. -/
  | function (f : Expression) (name : String) (isShared : Bool)
  | class (c : Expression) (name : String)
  | block (body : List Statement)
  | choose (test : Expression) (yes no : Statement)
  | while (test : Expression) (body : Statement)
  | doWhile (body : Statement) (test : Expression)
  | for (initial : Statement) (test step : Expression) (body : Statement)
  /-- A loop over keys; its head is a declaration or a pattern. -/
  | forIn (head : Statement) (source : Expression) (body : Statement) (place : Position)
  | forOf (head : Statement) (source : Expression) (body : Statement) (isAwait : Bool) (place : Position)
  | switch (subject : Expression) (cases : List Statement)
  /-- One case of a switch; the test is absent for the default. -/
  | case (test : Expression) (body : List Statement)
  | guarded (body : Statement) (handler finalizer : Statement)
  /-- A handler for exceptions, with a pattern for the exception and the names that it binds. -/
  | handler (parameter : Expression) (names : List String) (body : List Statement)
  | throw (e : Expression) (place : Position)
  | return (e : Expression) (place : Position)
  | break (label : String)
  | continue (label : String)
  | labeled (label : String) (body : Statement)

end

instance : Inhabited Expression := ⟨.absent⟩
instance : Inhabited Statement := ⟨.empty⟩
instance : Inhabited Member := ⟨.mk default default default default default⟩

namespace Expression

def isAbsent : Expression → Bool
  | absent => true
  | _ => false

/-- Functions and classes without a name of their own take one from where they stand. -/
def isAnonymousFunction : Expression → Bool
  | function info _ _ => info.name.isEmpty
  | .class own _ _ _ _ _ => own.isEmpty
  | _ => false

end Expression

namespace Statement

def isEmpty : Statement → Bool
  | empty => true
  | _ => false

end Statement

/-- A whole script. -/
structure Program where
  strict : Bool
  hoisted : List String
  body : List Statement
  deriving Inhabited

end PluginRelay.Script
