import PluginRelay.Bytes
import PluginRelay.Wasm.Operator

/-!
# Modules

Instructions are nested: a block holds its body. Blocks and indirect calls hold the types that they
name, so that a module has no type section.
-/
namespace PluginRelay.Wasm

/-- Where an access to memory goes: its address is an operand plus `offset`. -/
structure Access where
  offset : Nat
  /-- The promised alignment is `2 ^ alignment`. -/
  alignment : Nat
  deriving DecidableEq, Repr, Inhabited

/-- A load of `bytes` bytes as a value of the type, of which `signed` says how it is widened. -/
structure Load where
  type : ValueType
  bytes : Nat
  signed : Bool
  deriving DecidableEq, Repr, Inhabited

structure Store where
  type : ValueType
  bytes : Nat
  deriving DecidableEq, Repr, Inhabited

inductive Instruction where
  | unreachable
  | nop
  | block (type : FunctionType) (body : List Instruction)
  | loop (type : FunctionType) (body : List Instruction)
  | choose (type : FunctionType) (yes no : List Instruction)
  | branch (depth : Nat)
  | branchIf (depth : Nat)
  | branchTable (depths : List Nat) (default : Nat)
  | leave
  | call (function : Nat)
  | callIndirect (table : Nat) (type : FunctionType)
  /-- The function called takes the place of the one that calls. -/
  | returnCall (function : Nat)
  | returnCallIndirect (table : Nat) (type : FunctionType)
  | drop
  | select (type : Option ValueType)
  | localGet (index : Nat)
  | localSet (index : Nat)
  | localTee (index : Nat)
  | globalGet (index : Nat)
  | globalSet (index : Nat)
  | load (kind : Load) (access : Access)
  | store (kind : Store) (access : Access)
  | memorySize
  | memoryGrow
  | memoryFill
  | memoryCopy
  | memoryInit (segment : Nat)
  | dataDrop (segment : Nat)
  | tableGet (table : Nat)
  | tableSet (table : Nat)
  | tableSize (table : Nat)
  | tableGrow (table : Nat)
  | tableFill (table : Nat)
  | tableCopy (target source : Nat)
  | tableInit (table segment : Nat)
  | elementDrop (segment : Nat)
  | const (value : Value)
  | referenceFunction (function : Nat)
  | referenceIsNull
  | numeric (op : Operator)
  deriving Inhabited

structure Import where
  source : String
  name : String
  type : ExternType
  deriving DecidableEq, Repr, Inhabited

structure Function where
  type : FunctionType
  locals : List ValueType
  body : List Instruction
  deriving Inhabited

structure Global where
  type : GlobalType
  initial : List Instruction
  deriving Inhabited

inductive ExportKind where
  | function
  | table
  | memory
  | global
  deriving DecidableEq, Repr, Inhabited

structure Export where
  name : String
  kind : ExportKind
  index : Nat
  deriving DecidableEq, Repr, Inhabited

/-- Where a segment goes: at once into the table or memory with that index, only on demand, or
nowhere. -/
inductive Placement where
  | active (target : Nat) (offset : List Instruction)
  | passive
  | declarative
  deriving Inhabited

structure ElementSegment where
  type : ValueType
  placement : Placement
  entries : List (List Instruction)
  deriving Inhabited

structure DataSegment where
  placement : Placement
  bytes : Bytes
  deriving Inhabited

/-- The indices of functions, tables, memories and globals count the imports first. -/
structure Module where
  imports : List Import
  functions : List Function
  tables : List TableType
  memories : List Limits
  globals : List Global
  exports : List Export
  start : Option Nat
  elements : List ElementSegment
  datas : List DataSegment
  deriving Inhabited

namespace Module

def empty : Module := ⟨[], [], [], [], [], [], none, [], []⟩

def importedFunctions (m : Module) : List (Import × FunctionType) :=
  m.imports.filterMap fun i => match i.type with | .function t => some (i, t) | _ => none

def functionTypes (m : Module) : List FunctionType :=
  m.importedFunctions.map (·.2) ++ m.functions.map (·.type)

def tableTypes (m : Module) : List TableType :=
  (m.imports.filterMap fun i => match i.type with | .table t => some t | _ => none) ++ m.tables

def memoryTypes (m : Module) : List Limits :=
  (m.imports.filterMap fun i => match i.type with | .memory t => some t | _ => none) ++ m.memories

def importedGlobals (m : Module) : List GlobalType :=
  m.imports.filterMap fun i => match i.type with | .global t => some t | _ => none

def globalTypes (m : Module) : List GlobalType :=
  m.importedGlobals ++ m.globals.map (·.type)

def export? (m : Module) (name : String) : Option Export :=
  m.exports.find? (·.name = name)

/-- The index of the function exported under the name, if a function is. -/
def exportedFunction? (m : Module) (name : String) : Option Nat :=
  match m.export? name with
  | some ⟨_, .function, index⟩ => some index
  | _ => none

end Module

end PluginRelay.Wasm
