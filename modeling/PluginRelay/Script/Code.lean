import PluginRelay.Script.Syntax

/-!
# Code

Functions are run as lists of instructions for a machine with a stack. Variables live in cells: a
function has cells of its own and cells that it shares with functions around it. Jumps go to labels,
which a table beside the instructions resolves.
-/
namespace PluginRelay.Script

abbrev Label := Nat

/-- Where a function finds the cell of a variable. -/
inductive Slot where
  | own (index : Nat)
  | captured (index : Nat)
  deriving DecidableEq, Repr, Inhabited

inductive VariableKind where
  | var
  | letting
  | const
  /-- The name of a function expression inside the function: assignments to it are ignored, unless the
  code is strict. -/
  | functionName
  deriving DecidableEq, Repr, Inhabited

/-- What a function holds beside its variables. -/
inductive Pseudo where
  | this
  | newTarget
  /-- The object that holds the method, whose prototype `super` refers to. -/
  | home
  | function
  | arguments
  deriving DecidableEq, Repr, Inhabited

namespace Pseudo

/-- The name under which functions inside find it; no variable has such a name but `arguments`. -/
def name : Pseudo → String
  | this => "this"
  | newTarget => "new.target"
  | home => "super"
  | function => "function"
  | arguments => "arguments"

def ofName? (s : String) : Option Pseudo :=
  [this, newTarget, home, function, arguments].find? (·.name = s)

end Pseudo

/-- A variable that code which is read later can see. -/
structure Visible where
  name : String
  slot : Slot
  kind : VariableKind
  deriving Repr, Inhabited

inductive ErrorKind where
  | error | evalError | rangeError | referenceError | syntaxError | typeError | uriError
  | internalError | aggregateError
  deriving DecidableEq, Repr, Inhabited, Hashable

namespace ErrorKind

def all : List ErrorKind :=
  [error, evalError, rangeError, referenceError, syntaxError, typeError, uriError, internalError,
    aggregateError]

def name : ErrorKind → String
  | error => "Error"
  | evalError => "EvalError"
  | rangeError => "RangeError"
  | referenceError => "ReferenceError"
  | syntaxError => "SyntaxError"
  | typeError => "TypeError"
  | uriError => "URIError"
  | internalError => "InternalError"
  | aggregateError => "AggregateError"

end ErrorKind

/-- Instructions. The comments show the stack before and after, its top at the right. -/
inductive Instruction where
  | push (v : Value)
  | pop
  | dup
  | swap
  /-- Copies the value that lies below `depth` others. -/
  | pick (depth : Nat)
  /-- Moves the value that lies below `depth` others to the top. -/
  | pull (depth : Nat)
  /-- Moves the top below `depth` others. -/
  | bury (depth : Nat)
  /-- `→ v` -/
  | get (slot : Slot) (name : String)
  /-- `v →` -/
  | set (slot : Slot) (name : String)
  | bindSlot (slot : Slot)
  /-- Gives the variable a new cell without a value. -/
  | fresh (index : Nat)
  /-- Gives the variable a new cell with the same value. -/
  | renew (index : Nat)
  /-- `→ v`; where the name is unknown, `undefined` if it is only asked for its type. -/
  | getGlobal (name : String) (isQuiet : Bool)
  /-- `v →` -/
  | setGlobal (name : String) (strict : Bool)
  | initializeGlobal (name : String)
  | deleteGlobal (name : String)
  /-- Checks and makes the names that a script declares; `isErasable` says that they can be deleted. -/
  | declareGlobals (vars functions : List String) (lexical : List (String × Bool)) (isErasable : Bool)
  /-- `f →` -/
  | defineGlobalFunction (name : String) (isErasable : Bool)
  /-- `o → v` -/
  | getMember (key : PropertyKey)
  /-- `o v →` -/
  | setMember (key : PropertyKey) (strict : Bool)
  /-- `o k → v` -/
  | getIndex
  /-- `o k v →` -/
  | setIndex (strict : Bool)
  /-- `o k → b` -/
  | deleteIndex (strict : Bool)
  /-- `o k → o k'` with the key as a text or symbol -/
  | toKey
  /-- `this home k → v` -/
  | getSuper
  /-- `this home k v →` -/
  | setSuper (strict : Bool)
  /-- `o s → v` -/
  | getHidden (name : String)
  /-- `o s v →` -/
  | setHidden (name : String)
  /-- `o s v → o` -/
  | addHidden
  /-- `o s → b` -/
  | hasHidden
  /-- `→ s` -/
  | newHidden (name : String)
  /-- `→ o` -/
  | newObject
  | newArray
  /-- `o v → o` -/
  | define (key : PropertyKey)
  /-- `o k v → o` -/
  | defineIndex
  /-- `o k f → o` -/
  | defineMethod (role : MemberRole) (enumerable : Bool)
  /-- `k f → k f` with the key as name of the function -/
  | nameFunction
  /-- `o p → o` -/
  | setPrototype
  /-- `o source → o` -/
  | copyMembers
  /-- `source k₁ … kₙ → o` with all members but those -/
  | restMembers (count : Nat)
  /-- `a v → a` -/
  | append
  /-- `a source → a` -/
  | appendAll
  /-- `a → a` one longer -/
  | appendHole
  | regexp (body flags : Units)
  /-- `→ a` with the strings of a tagged template -/
  | templateStrings (strings : List (Option Units × Units))
  | unary (op : UnaryOperator)
  | binary (op : BinaryOperator)
  | typeof
  | toNumeric
  | increment
  | decrement
  /-- `v → s` -/
  | toText
  /-- `v → b` -/
  | isNullish
  | isUndefined
  | jump (target : Label)
  | jumpIf (target : Label)
  | jumpIfNot (target : Label)
  /-- The target of jumps. -/
  | here (label : Label)
  | return
  /-- `v → v'`: what the constructor of a derived class may return; `this` if it is nothing. -/
  | checkReturn (this : Slot)
  | throw
  | fail (kind : ErrorKind) (message : String)
  /-- Lets exceptions go to the label, with the stack as it is now. -/
  | handle (target : Label)
  | unhandle
  /-- `→ place`, and goes on at the label. -/
  | enter (target : Label)
  /-- `place →`, and goes back there. -/
  | leave
  /-- `f this a₁ … aₙ → v` -/
  | call (count : Nat)
  /-- `f this list → v` -/
  | callWith
  /-- `f a₁ … aₙ → o` -/
  | construct (count : Nat)
  /-- `f list → o` -/
  | constructWith
  /-- `f a₁ … aₙ → v`, which may read code that sees the variables; `isGlobal` says that it may declare
  names of the global object -/
  | evaluate (count : Nat) (isGlobal : Bool) (scope : List Visible)
  /-- `f newTarget list → this` -/
  | callSuper
  /-- `this →`; fails if it is bound already. -/
  | bindThis (slot : Slot)
  /-- `this f → this` with the fields of the class -/
  | addFields
  /-- `→ f` -/
  | closure (index : Nat)
  /-- `parent → f proto`, or `→ f proto` -/
  | newClass (index : Nat) (hasParent : Bool)
  /-- `f proto g → f proto`: `g` adds the fields. -/
  | setFields
  /-- `f proto g → f proto`: runs `g` on the class. -/
  | runStatic
  /-- `→ v` -/
  | argument (index : Nat)
  | restArguments (index : Nat)
  /-- `v →`; fails if nothing can be read from it. -/
  | requireObject
  /-- `source → iterator next` -/
  | iterate (isAsync : Bool)
  /-- `iterator next → v done` -/
  | advance
  /-- `iterator next → result` -/
  | callNext
  /-- `result → v done` -/
  | unpack
  /-- `iterator →` -/
  | close
  | closeQuietly
  /-- `iterator → result b`: whether there was anything to call. -/
  | callReturn
  | checkObject
  /-- `o → keys` -/
  | enumerate
  /-- `keys → k done` -/
  | nextKey
  | start
  /-- `v → v' mode` -/
  | yield
  /-- `v mode → v b`: throws, or says whether to return. -/
  | resumed
  /-- `v → v'` -/
  | await
  /-- `name → promise` -/
  | importModule
  /-- `received mode iterator next → result state`; the state says whether to return. -/
  | delegate (isAsync : Bool)
  deriving Inhabited

/-- A function, or a script as a whole. -/
structure Code where
  name : String
  kind : FunctionKind
  isAsync : Bool
  isGenerator : Bool
  strict : Bool
  file : String
  source : Units
  /-- Where the function starts, for traces. -/
  start : Position
  instructions : Array Instruction
  /-- What traces show for each instruction. -/
  places : Array Position
  /-- Where each label stands. -/
  labels : Array Nat
  /-- How many variables of its own the function has. -/
  slotCount : Nat
  /-- Where the function around it finds the shared cells. -/
  captured : Array Slot
  pseudos : List (Pseudo × Nat)
  /-- The number of parameters before the first that may be missing. -/
  length : Nat
  deriving Inhabited

namespace Code

/-- What traces show for the last instruction. -/
def lastPlace (c : Code) : Position := c.places.back?.getD ⟨1, 1⟩

end Code

/-- Functions by number; the last is the script. -/
abbrev CodeTable := Array Code

end PluginRelay.Script
