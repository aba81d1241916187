import PluginRelay.Number.Binary64

/-!
# WebAssembly types and values

Integers are words without a sign; each operator says how it reads them. Singles are kept as their
bits, references as the index of what they refer to.
-/
namespace PluginRelay.Wasm

inductive ValueType where
  | i32
  | i64
  | f32
  | f64
  | function
  | external
  deriving DecidableEq, Repr, Inhabited

namespace ValueType

def isReference : ValueType → Bool
  | function | external => true
  | _ => false

def named? : String → Option ValueType
  | "i32" => some i32
  | "i64" => some i64
  | "f32" => some f32
  | "f64" => some f64
  | "funcref" => some function
  | "externref" => some external
  | _ => none

end ValueType

structure FunctionType where
  params : List ValueType
  results : List ValueType
  deriving DecidableEq, Repr, Inhabited

inductive Value where
  | i32 (word : BitVec 32)
  | i64 (word : BitVec 64)
  | f32 (bits : BitVec 32)
  | f64 (number : Binary64)
  | reference (type : ValueType) (target : Option Nat)
  deriving DecidableEq, Repr, Inhabited

namespace Value

def type : Value → ValueType
  | i32 _ => .i32
  | i64 _ => .i64
  | f32 _ => .f32
  | f64 _ => .f64
  | reference t _ => t

/-- What a local of the type holds at first. -/
def default : ValueType → Value
  | .i32 => i32 0
  | .i64 => i64 0
  | .f32 => f32 0
  | .f64 => f64 .zero
  | .function => reference .function none
  | .external => reference .external none

def ofBool (b : Bool) : Value := i32 (if b then 1 else 0)

end Value

/-- A size in pages or entries, and how far it may grow. -/
structure Limits where
  least : Nat
  most : Option Nat
  deriving DecidableEq, Repr, Inhabited

structure GlobalType where
  type : ValueType
  writable : Bool
  deriving DecidableEq, Repr, Inhabited

structure TableType where
  type : ValueType
  limits : Limits
  deriving DecidableEq, Repr, Inhabited

/-- What an import asks for or an export offers. -/
inductive ExternType where
  | function (type : FunctionType)
  | table (type : TableType)
  | memory (limits : Limits)
  | global (type : GlobalType)
  deriving DecidableEq, Repr, Inhabited

def ExternType.function? : ExternType → Option FunctionType
  | .function type => some type
  | _ => none

/-- Why a computation of a module is abandoned. -/
inductive Trap where
  | unreachable
  | outOfFuel
  | stackOverflow
  | divisionByZero
  | integerOverflow
  | badConversion
  | memoryOutOfBounds
  | tableOutOfBounds
  | undefinedElement
  | signatureMismatch
  deriving DecidableEq, Repr

end PluginRelay.Wasm
