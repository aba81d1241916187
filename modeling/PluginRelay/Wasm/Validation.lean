import PluginRelay.Wasm.Module
import PluginRelay.Wasm.Table

/-!
# Validation

Every instruction takes operands of known types from the stack and leaves others. After an
instruction that never continues the stack is bottomless: it gives operands of any type.
-/
namespace PluginRelay.Wasm

/-- Operand types, the topmost first; `none` stands for an operand of any type. -/
structure OperandTypes where
  known : List (Option ValueType)
  bottomless : Bool

namespace OperandTypes

def empty : OperandTypes := ⟨[], false⟩

/-- The stack where control never comes. -/
def unreached : OperandTypes := ⟨[], true⟩

def push (s : OperandTypes) (types : List ValueType) : OperandTypes :=
  { s with known := (types.map some).reverse ++ s.known }

def pushAny (s : OperandTypes) (type : Option ValueType) : OperandTypes :=
  { s with known := type :: s.known }

def popAny? (s : OperandTypes) : Option (Option ValueType × OperandTypes) :=
  match s.known with
  | t :: rest => some (t, { s with known := rest })
  | [] => if s.bottomless then some (none, s) else none

def pop? (s : OperandTypes) (expected : ValueType) : Option OperandTypes := do
  let (found, rest) ← s.popAny?
  if found = none ∨ found = some expected then some rest else none

/-- Takes operands of the types from the stack, the last one first. -/
def popAll? (s : OperandTypes) (types : List ValueType) : Option OperandTypes :=
  types.reverse.foldlM pop? s

/-- Whether the stack holds operands of the types and nothing else. -/
def isExactly (s : OperandTypes) (types : List ValueType) : Bool :=
  match s.popAll? types with
  | some rest => rest.known.isEmpty
  | none => false

def replace? (s : OperandTypes) (type : FunctionType) : Option OperandTypes :=
  (s.popAll? type.params).map (·.push type.results)

end OperandTypes

/-- What the instructions of a function may refer to. -/
structure Scope where
  functions : Array FunctionType
  tables : Array TableType
  memories : Nat
  globals : Array GlobalType
  elements : Array ValueType
  datas : Nat
  locals : Array ValueType
  results : List ValueType
  /-- The types that a branch to each enclosing label carries, the innermost first. -/
  labels : List (List ValueType)

namespace Scope

def enter (c : Scope) (label : List ValueType) : Scope :=
  { c with labels := label :: c.labels }

def addresses (c : Scope) (access : Access) (bytes : Nat) : Bool :=
  0 < c.memories && 1 <<< access.alignment ≤ bytes && access.offset < UInt32.size

end Scope

/-- A call in place of the function's own end: its results are those of the function. -/
def OperandTypes.leaveBy? (s : OperandTypes) (c : Scope) (type : FunctionType) : Option OperandTypes := do
  guard (type.results = c.results)
  let _ ← s.popAll? type.params
  return .unreached

def selected (x y : Option ValueType) : Option (Option ValueType) :=
  let numeric (t : Option ValueType) : Bool := !(t.any (·.isReference))
  if numeric x && numeric y then
    match x, y with
    | none, t => some t
    | t, none => some t
    | some s, some t => if s = t then some (some s) else none
  else none

mutual

/-- The operand types after an instruction; `none` if it is not valid here. -/
def Instruction.check (c : Scope) (s : OperandTypes) : Instruction → Option OperandTypes
  | .unreachable => some .unreached
  | .nop => some s
  | .block type body => do
    let rest ← s.popAll? type.params
    guard (checkAll (c.enter type.results) (OperandTypes.empty.push type.params) type.results body)
    return rest.push type.results
  | .loop type body => do
    let rest ← s.popAll? type.params
    guard (checkAll (c.enter type.params) (OperandTypes.empty.push type.params) type.results body)
    return rest.push type.results
  | .choose type yes no => do
    let rest ← (← s.pop? .i32).popAll? type.params
    let inner := OperandTypes.empty.push type.params
    guard (checkAll (c.enter type.results) inner type.results yes)
    guard (checkAll (c.enter type.results) inner type.results no)
    return rest.push type.results
  | .branch depth => do
    let _ ← s.popAll? (← c.labels[depth]?)
    return .unreached
  | .branchIf depth => do
    let label ← c.labels[depth]?
    (← s.pop? .i32).replace? ⟨label, label⟩
  | .branchTable depths default => do
    let rest ← s.pop? .i32
    let label ← c.labels[default]?
    let _ ← rest.popAll? label
    for depth in depths do
      let other ← c.labels[depth]?
      guard (other.length = label.length)
      let _ ← rest.popAll? other
    return .unreached
  | .leave => do
    let _ ← s.popAll? c.results
    return .unreached
  | .call index => do s.replace? (← c.functions[index]?)
  | .callIndirect table type => do
    guard ((← c.tables[table]?).type = .function)
    (← s.pop? .i32).replace? type
  | .returnCall index => do s.leaveBy? c (← c.functions[index]?)
  | .returnCallIndirect table type => do
    guard ((← c.tables[table]?).type = .function)
    (← s.pop? .i32).leaveBy? c type
  | .drop => s.popAny?.map (·.2)
  | .select none => do
    let (x, s) ← (← s.pop? .i32).popAny?
    let (y, s) ← s.popAny?
    return s.pushAny (← selected x y)
  | .select (some type) => s.replace? ⟨[type, type, .i32], [type]⟩
  | .localGet index => do return s.push [← c.locals[index]?]
  | .localSet index => do s.pop? (← c.locals[index]?)
  | .localTee index => do
    let type ← c.locals[index]?
    s.replace? ⟨[type], [type]⟩
  | .globalGet index => do return s.push [(← c.globals[index]?).type]
  | .globalSet index => do
    let g ← c.globals[index]?
    guard g.writable
    s.pop? g.type
  | .load kind access => do
    guard (c.addresses access kind.bytes)
    s.replace? ⟨[.i32], [kind.type]⟩
  | .store kind access => do
    guard (c.addresses access kind.bytes)
    s.replace? ⟨[.i32, kind.type], []⟩
  | .memorySize => do
    guard (0 < c.memories)
    return s.push [.i32]
  | .memoryGrow => do
    guard (0 < c.memories)
    s.replace? ⟨[.i32], [.i32]⟩
  | .memoryFill => do
    guard (0 < c.memories)
    s.replace? ⟨[.i32, .i32, .i32], []⟩
  | .memoryCopy => do
    guard (0 < c.memories)
    s.replace? ⟨[.i32, .i32, .i32], []⟩
  | .memoryInit segment => do
    guard (0 < c.memories && segment < c.datas)
    s.replace? ⟨[.i32, .i32, .i32], []⟩
  | .dataDrop segment => do
    guard (segment < c.datas)
    return s
  | .tableGet table => do s.replace? ⟨[.i32], [(← c.tables[table]?).type]⟩
  | .tableSet table => do s.replace? ⟨[.i32, (← c.tables[table]?).type], []⟩
  | .tableSize table => do
    let _ ← c.tables[table]?
    return s.push [.i32]
  | .tableGrow table => do s.replace? ⟨[(← c.tables[table]?).type, .i32], [.i32]⟩
  | .tableFill table => do s.replace? ⟨[.i32, (← c.tables[table]?).type, .i32], []⟩
  | .tableCopy target source => do
    guard ((← c.tables[target]?).type = (← c.tables[source]?).type)
    s.replace? ⟨[.i32, .i32, .i32], []⟩
  | .tableInit table segment => do
    guard ((← c.tables[table]?).type = (← c.elements[segment]?))
    s.replace? ⟨[.i32, .i32, .i32], []⟩
  | .elementDrop segment => do
    guard (segment < c.elements.size)
    return s
  | .const value => some (s.push [value.type])
  | .referenceFunction index => do
    guard (index < c.functions.size)
    return s.push [.function]
  | .referenceIsNull => do
    let (t, s) ← s.popAny?
    guard (t.all (·.isReference))
    return s.push [.i32]
  | .numeric op => s.replace? op.signature

/-- Whether a body leaves exactly the results. -/
def checkAll (c : Scope) (s : OperandTypes) (results : List ValueType) : List Instruction → Bool
  | [] => s.isExactly results
  | i :: rest =>
    match i.check c s with
    | some s => checkAll c s results rest
    | none => false

end

/-- Constant expressions read only immutable imports and compute only with integers. -/
def Instruction.isConstant (imports : List GlobalType) : Instruction → Bool
  | .const _ => true
  | .referenceFunction _ => true
  | .globalGet index => (imports[index]?).any (!·.writable)
  | .numeric (.binary _ op) => op = .add || op = .sub || op = .mul
  | _ => false

namespace Limits

def valid (l : Limits) (bound : Nat) : Bool :=
  l.least ≤ bound && l.most.all fun m => l.least ≤ m && m ≤ bound

end Limits

namespace Module

def scope (m : Module) : Scope where
  functions := m.functionTypes.toArray
  tables := m.tableTypes.toArray
  memories := m.memoryTypes.length
  globals := m.globalTypes.toArray
  elements := (m.elements.map (·.type)).toArray
  datas := m.datas.length
  locals := #[]
  results := []
  labels := []

def validFunction (m : Module) (f : Function) : Bool :=
  let scope := { m.scope with
    locals := (f.type.params ++ f.locals).toArray
    results := f.type.results
    labels := [f.type.results] }
  checkAll scope .empty f.type.results f.body

def validConstant (m : Module) (type : ValueType) (body : List Instruction) : Bool :=
  body.all (·.isConstant m.importedGlobals) && checkAll m.scope .empty [type] body

def validExport (m : Module) (e : Export) : Bool :=
  match e.kind with
  | .function => e.index < m.functionTypes.length
  | .table => e.index < m.tableTypes.length
  | .memory => e.index < m.memoryTypes.length
  | .global => e.index < m.globalTypes.length

def validElements (m : Module) (s : ElementSegment) : Bool :=
  s.entries.all (m.validConstant s.type) &&
  match s.placement with
  | .active table offset =>
    (m.tableTypes[table]?).any (·.type = s.type) && m.validConstant .i32 offset
  | _ => true

def validData (m : Module) (s : DataSegment) : Bool :=
  match s.placement with
  | .active memory offset => memory < m.memoryTypes.length && m.validConstant .i32 offset
  | _ => true

def pageLimit : Nat := 65536

def valid (m : Module) : Bool :=
  m.memoryTypes.all (·.valid pageLimit) &&
  m.tableTypes.all (fun t => t.limits.valid (UInt32.size - 1) && t.limits.least ≤ Table.startLimit) &&
  m.globals.all (fun g => m.validConstant g.type.type g.initial) &&
  m.functions.all m.validFunction &&
  (m.exports.map (·.name)).Nodup &&
  m.exports.all m.validExport &&
  m.start.all (fun f => m.functionTypes[f]? = some ⟨[], []⟩) &&
  m.elements.all m.validElements &&
  m.datas.all m.validData

end Module

end PluginRelay.Wasm
