import PluginRelay.Wasm.Arithmetic
import PluginRelay.Wasm.Memory
import PluginRelay.Wasm.Module
import PluginRelay.Wasm.Table

/-!
# Running functions of a module

The machine works on one function at a time: the code that is left, the operands, the labels around
it and the functions that wait for its results. `step` performs one instruction; `run` repeats it.

With a fuel limit every instruction that does work costs one unit and every call one more. The limit
is looked at when a function is entered and when a loop starts a round, so straight code may
overdraw it.
-/
namespace PluginRelay.Wasm

/-- Why a run ends without results. -/
inductive Stop where
  | trap (reason : Trap)
  | exited (code : Nat)
  /-- A function from outside failed, or nobody provides it. -/
  | refused
  /-- The module is not valid. -/
  | stuck
  /-- The steps that a run may take are used up. -/
  | unfinished
  deriving DecidableEq, Repr

/-- All that functions of an instance share. -/
structure World (σ : Type) where
  memories : Array Memory
  tables : Array Table
  globals : Array Value
  elements : Array (List (Option Nat))
  datas : Array Bytes
  host : σ
  consumed : Nat

/-- What a function from outside makes of its arguments, a memory and its own state. -/
structure Answer (σ : Type) where
  results : Except Stop (List Value)
  memory : Memory
  state : σ

abbrev HostFunction (σ : Type) := List Value → Memory → σ → Answer σ

/-- What stays the same during a run: the functions, those from outside first. -/
structure Environment (σ : Type) where
  hosts : Array (Option (HostFunction σ))
  types : Array FunctionType
  functions : Array Function
  /-- The memory that functions from outside work on. -/
  sharedMemory : Option Nat
  fuel : Option Nat

/-- A place to branch to. -/
structure Label where
  arity : Nat
  target : List Instruction
  /-- The code after the block, for when its body ends. -/
  after : List Instruction
  /-- The operands below those of the block. -/
  below : List Value

structure Frame where
  code : List Instruction
  stack : List Value
  labels : List Label
  locals : Array Value
  arity : Nat

structure Machine (σ : Type) where
  world : World σ
  frame : Frame
  callers : List Frame
  depth : Nat

inductive Progress (σ : Type) where
  | running (machine : Machine σ)
  | ended (world : World σ) (results : Except Stop (List Value))

/-- How many calls may wait for each other. -/
def depthLimit : Nat := 16384

namespace Instruction

def cost : Instruction → Nat
  | nop | drop | block _ _ | loop _ _ | unreachable | leave => 0
  | _ => 1

end Instruction

section

variable {σ : Type}

namespace Memory

def load? (m : Memory) (kind : Load) (address : Nat) : Option Value := do
  let n ← m.readNat? address kind.bytes
  let widened (w : Nat) : BitVec w :=
    if kind.signed then (BitVec.ofNat (8 * kind.bytes) n).signExtend w else BitVec.ofNat w n
  match kind.type with
  | .i32 => some (.i32 (widened 32))
  | .i64 => some (.i64 (widened 64))
  | .f32 => some (.f32 (BitVec.ofNat 32 n))
  | .f64 => some (.f64 (.ofNatBits n))
  | _ => none

def store? (m : Memory) (kind : Store) (address : Nat) (value : Value) : Option Memory :=
  match value with
  | .i32 x => m.writeNat? address kind.bytes x.toNat
  | .i64 x => m.writeNat? address kind.bytes x.toNat
  | .f32 x => m.writeNat? address kind.bytes x.toNat
  | .f64 x => m.writeNat? address kind.bytes x.toNat
  | .reference _ _ => none

end Memory

namespace World

def memory? (w : World σ) : Option Memory := w.memories[0]?

def setMemory (w : World σ) (m : Memory) : World σ :=
  { w with memories := w.memories.setIfInBounds 0 m }

def setTable (w : World σ) (index : Nat) (t : Table) : World σ :=
  { w with tables := w.tables.setIfInBounds index t }

def charge (w : World σ) (units : Nat) : World σ :=
  { w with consumed := w.consumed + units }

end World

def orStop {α : Type} (reason : Stop) (result : Option α) : Except Stop α :=
  match result with
  | some x => .ok x
  | none => .error reason

/-- Reading or writing outside the memory is a trap. -/
def inMemory {α : Type} (result : Option α) : Except Stop α := orStop (.trap .memoryOutOfBounds) result

def inTable {α : Type} (result : Option α) : Except Stop α := orStop (.trap .tableOutOfBounds) result

def found {α : Type} (result : Option α) : Except Stop α := orStop .stuck result

/-- An instruction that only reads and writes operands, locals and the world. -/
def Instruction.perform (i : Instruction) (stack : List Value) (locals : Array Value)
    (w : World σ) : Except Stop (List Value × Array Value × World σ) :=
  match i, stack with
  | .nop, _ => .ok (stack, locals, w)
  | .drop, _ :: rest => .ok (rest, locals, w)
  | .select _, .i32 c :: y :: x :: rest => .ok ((if c ≠ 0 then x else y) :: rest, locals, w)
  | .localGet n, _ => do return ((← found locals[n]?) :: stack, locals, w)
  | .localSet n, x :: rest => .ok (rest, locals.setIfInBounds n x, w)
  | .localTee n, x :: _ => .ok (stack, locals.setIfInBounds n x, w)
  | .globalGet n, _ => do return ((← found w.globals[n]?) :: stack, locals, w)
  | .globalSet n, x :: rest => .ok (rest, locals, { w with globals := w.globals.setIfInBounds n x })
  | .load kind access, .i32 a :: rest => do
    let m ← found w.memory?
    let x ← inMemory (m.load? kind (a.toNat + access.offset))
    return (x :: rest, locals, w)
  | .store kind access, x :: .i32 a :: rest => do
    let m ← found w.memory?
    let m ← inMemory (m.store? kind (a.toNat + access.offset) x)
    return (rest, locals, w.setMemory m)
  | .memorySize, _ => do
    return (.i32 (BitVec.ofNat 32 (← found w.memory?).pages) :: stack, locals, w)
  | .memoryGrow, .i32 pages :: rest => do
    let m ← found w.memory?
    match m.grow? pages.toNat with
    | some grown => return (.i32 (BitVec.ofNat 32 m.pages) :: rest, locals, w.setMemory grown)
    | none => return (.i32 (BitVec.allOnes 32) :: rest, locals, w)
  | .memoryFill, .i32 count :: .i32 x :: .i32 a :: rest => do
    let m ← found w.memory?
    if m.fits a.toNat count.toNat then
      let filled ← inMemory (m.write? a.toNat (List.replicate count.toNat (UInt8.ofNat x.toNat)))
      return (rest, locals, w.setMemory filled)
    else .error (.trap .memoryOutOfBounds)
  | .memoryCopy, .i32 count :: .i32 source :: .i32 target :: rest => do
    let m ← found w.memory?
    let bytes ← inMemory (m.read? source.toNat count.toNat)
    let m ← inMemory (m.write? target.toNat bytes)
    return (rest, locals, w.setMemory m)
  | .memoryInit segment, .i32 count :: .i32 source :: .i32 target :: rest => do
    let m ← found w.memory?
    let data ← found w.datas[segment]?
    let (bytes, _) ← inMemory (Bytes.take? count.toNat (data.drop source.toNat))
    if data.length < source.toNat then .error (.trap .memoryOutOfBounds)
    else
      let m ← inMemory (m.write? target.toNat bytes)
      return (rest, locals, w.setMemory m)
  | .dataDrop segment, _ => .ok (stack, locals, { w with datas := w.datas.setIfInBounds segment [] })
  | .tableGet table, .i32 i :: rest => do
    let x ← inTable ((← found w.tables[table]?).get? i.toNat)
    return (x :: rest, locals, w)
  | .tableSet table, .reference _ target :: .i32 i :: rest => do
    let t ← inTable ((← found w.tables[table]?).write? i.toNat [target])
    return (rest, locals, w.setTable table t)
  | .tableSize table, _ => do
    return (.i32 (BitVec.ofNat 32 (← found w.tables[table]?).size) :: stack, locals, w)
  | .tableGrow table, .i32 count :: .reference _ target :: rest => do
    let t ← found w.tables[table]?
    match t.grow? count.toNat target with
    | some grown => return (.i32 (BitVec.ofNat 32 t.size) :: rest, locals, w.setTable table grown)
    | none => return (.i32 (BitVec.allOnes 32) :: rest, locals, w)
  | .tableFill table, .i32 count :: .reference _ target :: .i32 i :: rest => do
    let t ← found w.tables[table]?
    if i.toNat + count.toNat ≤ t.size then
      let filled ← inTable (t.write? i.toNat (List.replicate count.toNat target))
      return (rest, locals, w.setTable table filled)
    else .error (.trap .tableOutOfBounds)
  | .tableCopy target source, .i32 count :: .i32 i :: .i32 j :: rest => do
    let entries := (← found w.tables[source]?).entries.toList
    let copied ← inTable (Table.slice? entries i.toNat count.toNat)
    let t ← inTable ((← found w.tables[target]?).write? j.toNat copied)
    return (rest, locals, w.setTable target t)
  | .tableInit table segment, .i32 count :: .i32 i :: .i32 j :: rest => do
    let copied ← inTable (Table.slice? (← found w.elements[segment]?) i.toNat count.toNat)
    let t ← inTable ((← found w.tables[table]?).write? j.toNat copied)
    return (rest, locals, w.setTable table t)
  | .elementDrop segment, _ =>
    .ok (stack, locals, { w with elements := w.elements.setIfInBounds segment [] })
  | .const x, _ => .ok (x :: stack, locals, w)
  | .referenceFunction f, _ => .ok (.reference .function (some f) :: stack, locals, w)
  | .referenceIsNull, .reference _ target :: rest => .ok (.ofBool target.isNone :: rest, locals, w)
  | .numeric op, _ =>
    let count := op.signature.params.length
    match op.evaluate? (stack.take count) with
    | some (.ok x) => .ok (x :: stack.drop count, locals, w)
    | some (.error t) => .error (.trap t)
    | none => .error .stuck
  | _, _ => .error .stuck

namespace Environment

/-- Whether the limit is reached when it is looked at. -/
def exhausted (e : Environment σ) (w : World σ) : Bool :=
  e.fuel.any (· ≤ w.consumed)

end Environment

namespace Machine

variable (e : Environment σ)

def stop (m : Machine σ) (reason : Stop) : Progress σ := .ended m.world (.error reason)

def inFrame (m : Machine σ) (frame : Frame) : Progress σ := .running { m with frame := frame }

/-- Results go to the function that waits for them. -/
def deliver (m : Machine σ) (results : List Value) : Progress σ :=
  match m.callers with
  | [] => .ended m.world (.ok results)
  | caller :: rest =>
    .running ⟨m.world, { caller with stack := results ++ caller.stack }, rest, m.depth - 1⟩

/-- Continues at the label that many levels out; beyond the outermost is the end of the function. -/
def branch (m : Machine σ) (depth : Nat) : Progress σ :=
  let f := m.frame
  match f.labels.drop depth with
  | l :: outer =>
    m.inFrame { f with code := l.target, stack := f.stack.take l.arity ++ l.below, labels := outer }
  | [] => m.deliver (f.stack.take f.arity)

/-- Starts a block whose body is `body`; a branch to it continues with `target`. -/
def enterBlock (m : Machine σ) (params arity : Nat) (body target after : List Instruction) :
    Progress σ :=
  let f := m.frame
  m.inFrame { f with
    code := body
    stack := f.stack.take params
    labels := ⟨arity, target, after, f.stack.drop params⟩ :: f.labels }

/-- Starts a function of the module; its arguments are given in order. -/
def enterFunction (world : World σ) (callers : List Frame) (depth : Nat) (index : Nat)
    (arguments : List Value) : Progress σ :=
  match e.functions[index - e.hosts.size]? with
  | none => .ended world (.error .stuck)
  | some f =>
    if depthLimit ≤ depth then .ended world (.error (.trap .stackOverflow))
    else if e.exhausted world then .ended world (.error (.trap .outOfFuel))
    else
      .running ⟨world.charge 1,
        { code := f.body
          stack := []
          labels := []
          locals := (arguments ++ f.locals.map Value.default).toArray
          arity := f.type.results.length },
        callers, depth⟩

/-- Hands the arguments and the shared memory to a function from outside. -/
def callHost (world : World σ) (function : Option (HostFunction σ)) (arguments : List Value) :
    Except Stop (List Value) × World σ :=
  match function, e.sharedMemory with
  | some function, some index =>
    match world.memories[index]? with
    | some memory =>
      let answer := function arguments memory world.host
      (answer.results, { world with
        memories := world.memories.setIfInBounds index answer.memory
        host := answer.state })
    | none => (.error .stuck, world)
  | _, _ => (.error .refused, world)

/-- Calls a function with arguments in order; `callers` wait for its results. -/
def callFunction (world : World σ) (callers : List Frame) (depth : Nat) (index : Nat)
    (arguments : List Value) : Progress σ :=
  match e.hosts[index]? with
  | none => enterFunction e world callers depth index arguments
  | some function =>
    match callHost e world function arguments with
    | (.error reason, world) => .ended world (.error reason)
    | (.ok results, world) =>
      match callers with
      | [] => .ended world (.ok results.reverse)
      | caller :: rest =>
        .running ⟨world, { caller with stack := results.reverse ++ caller.stack }, rest, depth - 1⟩

/-- Calls a function with operands from the stack; those below them say who waits for its results. -/
def callOn (m : Machine σ) (waiting : List Value → List Frame) (depth index : Nat) (stack : List Value) :
    Progress σ :=
  match e.types[index]? with
  | none => m.stop .stuck
  | some type =>
    let count := type.params.length
    callFunction e m.world (waiting (stack.drop count)) depth index (stack.take count).reverse

/-- Calls from within the current function, whose code goes on with `after`. -/
def call (m : Machine σ) (index : Nat) (stack : List Value) (after : List Instruction) : Progress σ :=
  m.callOn e (fun below => { m.frame with code := after, stack := below } :: m.callers) (m.depth + 1) index stack

/-- Calls in place of the current function, so that the results go to those who wait for it. -/
def returnCall (m : Machine σ) (index : Nat) (stack : List Value) : Progress σ :=
  m.callOn e (fun _ => m.callers) m.depth index stack

/-- The function at a place of a table, if it has the type. -/
def indirect (world : World σ) (table place : Nat) (type : FunctionType) : Except Stop Nat := do
  let t ← found world.tables[table]?
  match t.entries[place]? with
  | none => .error (.trap .tableOutOfBounds)
  | some none => .error (.trap .undefinedElement)
  | some (some index) =>
    if (← found e.types[index]?) = type then .ok index else .error (.trap .signatureMismatch)

/-- One instruction, or the end of a body. -/
def step (m : Machine σ) : Progress σ :=
  let f := m.frame
  match f.code with
  | [] =>
    match f.labels with
    | l :: outer => m.inFrame { f with code := l.after, stack := f.stack ++ l.below, labels := outer }
    | [] => m.deliver f.stack
  | i :: rest =>
    let m := { m with world := m.world.charge i.cost }
    match i, f.stack with
    | .unreachable, _ => m.stop (.trap .unreachable)
    | .block type body, _ =>
      m.enterBlock type.params.length type.results.length body rest rest
    | .loop type body, _ =>
      if e.exhausted m.world then m.stop (.trap .outOfFuel)
      else m.enterBlock type.params.length type.params.length body (i :: rest) rest
    | .choose type yes no, .i32 c :: stack =>
      let m := { m with frame := { f with stack := stack } }
      m.enterBlock type.params.length type.results.length (if c ≠ 0 then yes else no) rest rest
    | .branch depth, _ => m.branch depth
    | .branchIf depth, .i32 c :: stack =>
      let m := { m with frame := { f with code := rest, stack := stack } }
      if c ≠ 0 then m.branch depth else .running m
    | .branchTable depths default, .i32 n :: stack =>
      let m := { m with frame := { f with stack := stack } }
      m.branch (depths.getD n.toNat default)
    | .leave, _ => m.deliver (f.stack.take f.arity)
    | .call index, _ => m.call e index f.stack rest
    | .callIndirect table type, .i32 place :: stack =>
      match indirect e m.world table place.toNat type with
      | .ok index => m.call e index stack rest
      | .error reason => m.stop reason
    | .returnCall index, _ => m.returnCall e index f.stack
    | .returnCallIndirect table type, .i32 place :: stack =>
      match indirect e m.world table place.toNat type with
      | .ok index => m.returnCall e index stack
      | .error reason => m.stop reason
    | _, _ =>
      match i.perform f.stack f.locals m.world with
      | .ok (stack, locals, world) =>
        .running { m with
          world := world
          frame := { f with code := rest, stack := stack, locals := locals } }
      | .error reason => m.stop reason

/-- Repeats `step` until the run ends, at most `limit` times. -/
def run (limit : Nat) (p : Progress σ) : World σ × Except Stop (List Value) :=
  match p with
  | .ended world results => (world, results)
  | .running m =>
    match limit with
    | 0 => (m.world, .error .unfinished)
    | limit + 1 => run limit (m.step e)

end Machine

/-- More steps than any run takes that somebody waits for. -/
def stepLimit : Nat := 1 <<< 60

/-- Calls a function of the instance. -/
def Environment.invoke (e : Environment σ) (world : World σ) (index : Nat) (arguments : List Value) :
    World σ × Except Stop (List Value) :=
  Machine.run e stepLimit (Machine.callFunction e world [] 0 index arguments)

end

end PluginRelay.Wasm
