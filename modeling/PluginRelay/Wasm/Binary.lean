import PluginRelay.Wasm.Module
import PluginRelay.Text.Utf8

/-!
# Modules of the binary format

A reader takes what it needs from the front of the bytes. Sections come in a fixed order, each at
most once, with custom sections anywhere between them.
-/
namespace PluginRelay.Wasm.Binary

abbrev Reader := StateT Bytes Option

namespace Reader

def byte : Reader Nat := fun bytes =>
  match bytes with
  | b :: rest => some (b.toNat, rest)
  | [] => none

def take (n : Nat) : Reader Bytes := fun bytes => Bytes.take? n bytes

/-- Reads only from the next `n` bytes, all of which must be used. -/
def within {α : Type} (n : Nat) (r : Reader α) : Reader α := fun bytes => do
  let (front, rest) ← Bytes.take? n bytes
  let (x, left) ← r front
  if left.isEmpty then some (x, rest) else none

def replicate {α : Type} (r : Reader α) : Nat → Reader (List α)
  | 0 => pure []
  | n + 1 => do
    let x ← r
    return x :: (← replicate r n)

/-- Base-128 digits, the lowest first, for a number of at most `bits` bits. -/
def unsignedFrom (bits : Nat) : Nat → Nat → Reader Nat
  | 0, _ => failure
  | groups + 1, shift => do
    let b ← byte
    if b < 128 then
      guard (b < 1 <<< (bits - shift))
      return b <<< shift
    else
      return (b - 128) <<< shift + (← unsignedFrom bits groups (shift + 7))

def unsigned (bits : Nat) : Reader Nat := unsignedFrom bits ((bits + 6) / 7) 0

/-- Base-128 digits of a number in two's complement with at most `bits` bits. -/
def signedFrom (bits : Nat) : Nat → Nat → Reader Int
  | 0, _ => failure
  | groups + 1, shift => do
    let b ← byte
    if b < 128 then
      let n : Int := if b < 64 then b else (b : Int) - 128
      let bound : Int := (1 <<< min 6 (bits - shift - 1) : Nat)
      guard (-bound ≤ n && n < bound)
      return n * (1 <<< shift : Nat)
    else
      return (b - 128 : Int) * (1 <<< shift : Nat) + (← signedFrom bits groups (shift + 7))

def signed (bits : Nat) : Reader Int := signedFrom bits ((bits + 6) / 7) 0

def index : Reader Nat := unsigned 32

def vector {α : Type} (r : Reader α) : Reader (List α) := do replicate r (← index)

def name : Reader String := do
  let bytes ← take (← index)
  StateT.lift (Utf8.decode? bytes)

end Reader

open Reader

def valueTypeOf? : Nat → Option ValueType
  | 0x7F => some .i32
  | 0x7E => some .i64
  | 0x7D => some .f32
  | 0x7C => some .f64
  | 0x70 => some .function
  | 0x6F => some .external
  | _ => none

def valueType : Reader ValueType := do StateT.lift (valueTypeOf? (← byte))

def functionType : Reader FunctionType := do
  guard ((← byte) = 0x60)
  let params ← vector valueType
  return ⟨params, ← vector valueType⟩

def limits : Reader Limits := do
  match ← byte with
  | 0 => return ⟨← index, none⟩
  | 1 =>
    let least ← index
    return ⟨least, some (← index)⟩
  | _ => failure

def tableType : Reader TableType := do
  let type ← valueType
  guard type.isReference
  return ⟨type, ← limits⟩

def flag : Reader Bool := do
  match ← byte with
  | 0 => return false
  | 1 => return true
  | _ => failure

def globalType : Reader GlobalType := do
  let type ← valueType
  return ⟨type, ← flag⟩

def typeAt (types : List FunctionType) : Reader FunctionType := do
  StateT.lift types[← index]?

/-- The type of a block: none, a single result, or an index. -/
def blockType (types : List FunctionType) : Reader FunctionType := fun bytes => do
  let b ← bytes.head?
  if b = 0x40 then return (⟨[], []⟩, bytes.tail)
  else
    match valueTypeOf? b.toNat with
    | some t => return (⟨[], [t]⟩, bytes.tail)
    | none =>
      let (n, rest) ← signed 33 bytes
      guard (0 ≤ n)
      return (← types[n.toNat]?, rest)

def access : Reader Access := do
  let alignment ← index
  guard (alignment < 32)
  return ⟨← index, alignment⟩

/-- The loads, in the order of their codes. -/
def loads : List Load :=
  [⟨.i32, 4, false⟩, ⟨.i64, 8, false⟩, ⟨.f32, 4, false⟩, ⟨.f64, 8, false⟩, ⟨.i32, 1, true⟩,
    ⟨.i32, 1, false⟩, ⟨.i32, 2, true⟩, ⟨.i32, 2, false⟩, ⟨.i64, 1, true⟩, ⟨.i64, 1, false⟩,
    ⟨.i64, 2, true⟩, ⟨.i64, 2, false⟩, ⟨.i64, 4, true⟩, ⟨.i64, 4, false⟩]

/-- The stores, in the order of their codes. -/
def stores : List Store :=
  [⟨.i32, 4⟩, ⟨.i64, 8⟩, ⟨.f32, 4⟩, ⟨.f64, 8⟩, ⟨.i32, 1⟩, ⟨.i32, 2⟩, ⟨.i64, 1⟩, ⟨.i64, 2⟩, ⟨.i64, 4⟩]

def zeroByte : Reader Unit := do guard ((← byte) = 0)

/-- An instruction whose code starts with the escape byte. -/
def escaped : Reader Instruction := do
  match ← index with
  | 8 => do
    let segment ← index
    zeroByte
    return .memoryInit segment
  | 9 => return .dataDrop (← index)
  | 10 => do
    zeroByte
    zeroByte
    return .memoryCopy
  | 11 => do
    zeroByte
    return .memoryFill
  | 12 => do
    let segment ← index
    return .tableInit (← index) segment
  | 13 => return .elementDrop (← index)
  | 14 => do
    let target ← index
    return .tableCopy target (← index)
  | 15 => return .tableGrow (← index)
  | 16 => return .tableSize (← index)
  | 17 => return .tableFill (← index)
  | n => return .numeric (← StateT.lift (Operator.saturatingCoded? n))

/-- An instruction without a body, by its code. -/
def plain (types : List FunctionType) (code : Nat) : Reader Instruction := do
  match code with
  | 0x00 => return .unreachable
  | 0x01 => return .nop
  | 0x0C => return .branch (← index)
  | 0x0D => return .branchIf (← index)
  | 0x0E => do
    let depths ← vector index
    return .branchTable depths (← index)
  | 0x0F => return .leave
  | 0x10 => return .call (← index)
  | 0x11 => do
    let type ← typeAt types
    return .callIndirect (← index) type
  | 0x12 => return .returnCall (← index)
  | 0x13 => do
    let type ← typeAt types
    return .returnCallIndirect (← index) type
  | 0x1A => return .drop
  | 0x1B => return .select none
  | 0x1C => do
    match ← vector valueType with
    | [t] => return .select (some t)
    | _ => failure
  | 0x20 => return .localGet (← index)
  | 0x21 => return .localSet (← index)
  | 0x22 => return .localTee (← index)
  | 0x23 => return .globalGet (← index)
  | 0x24 => return .globalSet (← index)
  | 0x25 => return .tableGet (← index)
  | 0x26 => return .tableSet (← index)
  | 0x3F => do
    zeroByte
    return .memorySize
  | 0x40 => do
    zeroByte
    return .memoryGrow
  | 0x41 => return .const (.i32 (BitVec.ofInt 32 (← signed 32)))
  | 0x42 => return .const (.i64 (BitVec.ofInt 64 (← signed 64)))
  | 0x43 => return .const (.f32 (BitVec.ofNat 32 (Bytes.toNat (← take 4).reverse)))
  | 0x44 => return .const (.f64 (.ofNatBits (Bytes.toNat (← take 8).reverse)))
  | 0xD0 => do
    let type ← valueType
    guard type.isReference
    return .const (.reference type none)
  | 0xD1 => return .referenceIsNull
  | 0xD2 => return .referenceFunction (← index)
  | 0xFC => escaped
  | code =>
    if 0x28 ≤ code && code < 0x36 then
      return .load (← StateT.lift loads[code - 0x28]?) (← access)
    else if 0x36 ≤ code && code < 0x3F then
      return .store (← StateT.lift stores[code - 0x36]?) (← access)
    else return .numeric (← StateT.lift (Operator.coded? code))

/-- Instructions up to a closing byte, which is given too: the end of a block or of its first half.
No more than `depth` instructions and blocks are read in a row. -/
def instructions (types : List FunctionType) : Nat → Reader (List Instruction × Nat)
  | 0 => failure
  | depth + 1 => do
    let code ← byte
    if code = 0x0B || code = 0x05 then return ([], code)
    else
      let i ←
        if code = 0x02 || code = 0x03 then do
          let type ← blockType types
          let (body, closing) ← instructions types depth
          guard (closing = 0x0B)
          pure (if code = 0x02 then Instruction.block type body else .loop type body)
        else if code = 0x04 then do
          let type ← blockType types
          let (yes, closing) ← instructions types depth
          let no ←
            if closing = 0x05 then do
              let (no, closing) ← instructions types depth
              guard (closing = 0x0B)
              pure no
            else pure []
          pure (Instruction.choose type yes no)
        else plain types code
      let (more, closing) ← instructions types depth
      return (i :: more, closing)

/-- Instructions up to the end of the expression. -/
def expression (types : List FunctionType) : Reader (List Instruction) := fun bytes => do
  let ((body, closing), rest) ← instructions types (bytes.length + 1) bytes
  guard (closing = 0x0B)
  return (body, rest)

def importType (types : List FunctionType) : Reader ExternType := do
  match ← byte with
  | 0 => return .function (← typeAt types)
  | 1 => return .table (← tableType)
  | 2 => return .memory (← limits)
  | 3 => return .global (← globalType)
  | _ => failure

def importEntry (types : List FunctionType) : Reader Import := do
  let source ← name
  let field ← name
  return ⟨source, field, ← importType types⟩

def exportEntry : Reader Export := do
  let field ← name
  let kind ← match ← byte with
    | 0 => pure ExportKind.function
    | 1 => pure .table
    | 2 => pure .memory
    | 3 => pure .global
    | _ => failure
  return ⟨field, kind, ← index⟩

def globalEntry (types : List FunctionType) : Reader Global := do
  let type ← globalType
  return ⟨type, ← expression types⟩

def elementKind : Reader ValueType := do
  zeroByte
  return .function

def functionReferences : Reader (List (List Instruction)) := do
  return (← vector index).map fun f => [.referenceFunction f]

/-- The form of a segment is a number of three bits: placement, index of the table, and whether its
entries are expressions. -/
def elementEntry (types : List FunctionType) : Reader ElementSegment := do
  let form ← index
  guard (form < 8)
  let entries := vector (expression types)
  let table ← if form = 2 || form = 6 then index else pure 0
  let placement ←
    if form % 2 = 0 then pure (Placement.active table (← expression types))
    else pure (if form / 2 % 2 = 0 then .passive else .declarative)
  let type ←
    if form = 0 || form = 4 then pure ValueType.function
    else if form < 4 then elementKind else valueType
  return ⟨type, placement, ← if form < 4 then functionReferences else entries⟩

def dataEntry (types : List FunctionType) : Reader DataSegment := do
  let form ← index
  let memory ← if form = 2 then index else pure 0
  let placement ←
    if form = 0 || form = 2 then pure (Placement.active memory (← expression types))
    else if form = 1 then pure .passive else failure
  return ⟨placement, ← take (← index)⟩

def localLimit : Nat := 50000

def localsEntry : Reader (List ValueType) := do
  let count ← index
  guard (count ≤ localLimit)
  return List.replicate count (← valueType)

def codeEntry (types : List FunctionType) : Reader (List ValueType × List Instruction) := do
  within (← index) do
    let locals ← vector localsEntry
    return (locals.flatten, ← expression types)

/-- What the sections so far have said. -/
structure Draft where
  types : List FunctionType
  declared : List FunctionType
  dataCount : Option Nat
  result : Module

/-- The place of a section in the order of sections. -/
def rank? (id : Nat) : Option Nat :=
  [1, 2, 3, 4, 5, 6, 7, 8, 9, 12, 10, 11].findIdx? (· = id)

def sectionBody (d : Draft) (id : Nat) : Reader Draft := do
  let m := d.result
  match id with
  | 1 => return { d with types := ← vector functionType }
  | 2 => return { d with result := { m with imports := ← vector (importEntry d.types) } }
  | 3 => return { d with declared := ← vector (typeAt d.types) }
  | 4 => return { d with result := { m with tables := ← vector tableType } }
  | 5 => return { d with result := { m with memories := ← vector limits } }
  | 6 => return { d with result := { m with globals := ← vector (globalEntry d.types) } }
  | 7 => return { d with result := { m with exports := ← vector exportEntry } }
  | 8 => return { d with result := { m with start := some (← index) } }
  | 9 => return { d with result := { m with elements := ← vector (elementEntry d.types) } }
  | 12 => return { d with dataCount := some (← index) }
  | 10 => do
    let bodies ← vector (codeEntry d.types)
    guard (bodies.length = d.declared.length)
    let functions := List.zipWith (fun type (locals, body) => ⟨type, locals, body⟩) d.declared bodies
    return { d with result := { m with functions := functions } }
  | 11 => return { d with result := { m with datas := ← vector (dataEntry d.types) } }
  | _ => failure

def customBody : Reader Unit := fun bytes => do
  let _ ← name bytes
  return ((), [])

/-- The sections that are left, of which at most `count` are read; those up to `last` have passed. -/
def sections : (count : Nat) → (last : Nat) → Draft → Reader Draft
  | 0, _, d => fun bytes => if bytes.isEmpty then some (d, []) else none
  | count + 1, last, d => fun bytes =>
    if bytes.isEmpty then some (d, [])
    else (do
      let id ← byte
      let size ← index
      if id = 0 then
        within size customBody
        sections count last d
      else
        let place ← StateT.lift (rank? id)
        guard (last ≤ place)
        let d ← within size (sectionBody d id)
        sections count (place + 1) d : Reader Draft) bytes

def magic : Bytes := [0x00, 0x61, 0x73, 0x6D]

def version : Bytes := [0x01, 0x00, 0x00, 0x00]

/-- The module that bytes write down, if they do so by the rules of the format. -/
def module? (bytes : Bytes) : Option Module := do
  let (front, rest) ← Bytes.take? 8 bytes
  guard (front = magic ++ version)
  let (d, _) ← sections rest.length 0 ⟨[], [], none, .empty⟩ rest
  guard (d.declared.length = d.result.functions.length)
  guard (d.dataCount.all (· = d.result.datas.length))
  return d.result

end PluginRelay.Wasm.Binary
