import PluginRelay.Wasm.Binary
import PluginRelay.Wasm.Machine
import PluginRelay.Wasm.Text.Module
import PluginRelay.Wasm.Validation

/-!
# Loading and instantiating modules

Bytes that do not start like the binary format are read as text. An instance has its own memories,
tables and globals; before it can be used its segments are put in place and its start function runs.
-/
namespace PluginRelay.Wasm

namespace Module

/-- Reads either format. -/
def ofBytes? (bytes : Bytes) : Option Module :=
  if Binary.magic.isPrefixOf bytes then Binary.module? bytes
  else (Utf8.decode? bytes).bind Text.module?

/-- A valid module, in either format. -/
def load? (bytes : Bytes) : Option Module :=
  (ofBytes? bytes).filter valid

end Module

/-- What a host offers under a name. -/
structure Offer (σ : Type) where
  type : FunctionType
  function : HostFunction σ

/-- The functions that a host offers, by the name of a module and of a function. -/
abbrev Linker (σ : Type) := String → String → Option (Offer σ)

namespace Linker

variable {σ : Type}

/-- The type of a function that nobody offers: the one that the first import of its name asks for. -/
def stubType? (imports : List Import) (i : Import) : Option FunctionType :=
  imports.findSome? fun other =>
    if other.source = i.source && other.name = i.name then other.type.function? else none

/-- What one of several imports gets: an offer of its type, or for functions that nobody offers nothing, which
fails when it is called. Imports of other kinds cannot be resolved. -/
def resolve? (linker : Linker σ) (imports : List Import) (i : Import) : Option (Option (HostFunction σ)) :=
  match i.type with
  | .function type =>
    match linker i.source i.name with
    | some offer => if offer.type = type then some (some offer.function) else none
    | none => if stubType? imports i = some type then some none else none
  | _ => none

end Linker

/-- The value of a constant expression, given the globals before it. -/
def constantValue (globals : Array Value) (body : List Instruction) : Except Stop Value := do
  let empty : World Unit := ⟨#[], #[], globals, #[], #[], (), 0⟩
  let stack ← body.foldlM (fun stack i => do
    let (stack, _, _) ← i.perform stack #[] empty
    return stack) []
  found stack.head?

structure Instance (σ : Type) where
  source : Module
  environment : Environment σ
  world : World σ

namespace Instance

variable {σ : Type}

def initialGlobals (m : Module) : Except Stop (Array Value) :=
  m.globals.foldlM (fun globals g => do
    return globals.push (← constantValue globals g.initial)) #[]

def referenceTarget : Value → Option Nat
  | .reference _ target => target
  | _ => none

def address : Value → Nat
  | .i32 x => x.toNat
  | _ => 0

def targets (globals : Array Value) (s : ElementSegment) : Except Stop (List (Option Nat)) :=
  s.entries.mapM fun e => return referenceTarget (← constantValue globals e)

/-- Puts the entries into a table, which must have room for all of them. -/
def placeElements (w : World σ) (s : ElementSegment) : Except Stop (World σ) := do
  match s.placement with
  | .active table offset =>
    let start := address (← constantValue w.globals offset)
    let t ← found w.tables[table]?
    let filled ← inTable (t.write? start (← targets w.globals s))
    return w.setTable table filled
  | _ => return w

def placeData (w : World σ) (s : DataSegment) : Except Stop (World σ) := do
  match s.placement with
  | .active index offset =>
    let start := address (← constantValue w.globals offset)
    let memory ← found w.memories[index]?
    let filled ← inMemory (memory.write? start s.bytes)
    return { w with memories := w.memories.setIfInBounds index filled }
  | _ => return w

/-- What is left for code to use: only passive segments are. -/
def passiveTargets (globals : Array Value) (s : ElementSegment) : Except Stop (List (Option Nat)) :=
  match s.placement with
  | .passive => targets globals s
  | _ => return []

def passiveBytes (s : DataSegment) : Bytes :=
  match s.placement with
  | .passive => s.bytes
  | _ => []

def environmentOf (m : Module) (hosts : List (Option (HostFunction σ))) (fuel : Option Nat) :
    Environment σ where
  hosts := hosts.toArray
  types := m.functionTypes.toArray
  functions := m.functions.toArray
  sharedMemory :=
    match m.export? "memory" with
    | some ⟨_, .memory, index⟩ => some index
    | _ => none
  fuel := fuel

/-- A new instance before its segments are in place; `none` if an import cannot be resolved. -/
def new? (m : Module) (linker : Linker σ) (fuel : Option Nat) (host : σ) : Option (Instance σ) := do
  let hosts ← m.imports.mapM (linker.resolve? m.imports)
  let globals ← (initialGlobals m).toOption
  let elements ← (m.elements.mapM (passiveTargets globals)).toOption
  let world : World σ :=
    ⟨(m.memories.map Memory.ofLimits).toArray,
      (m.tables.map Table.ofType).toArray,
      globals, elements.toArray, (m.datas.map passiveBytes).toArray, host, 0⟩
  return ⟨m, environmentOf m hosts fuel, world⟩

/-- Puts the segments in place, then runs the start function. -/
def start (i : Instance σ) : World σ × Except Stop Unit :=
  let placed := do
    let w ← i.source.elements.foldlM placeElements i.world
    i.source.datas.foldlM placeData w
  match placed with
  | .error reason => (i.world, .error reason)
  | .ok world =>
    match i.source.start with
    | none => (world, .ok ())
    | some f =>
      let (world, result) := i.environment.invoke world f []
      (world, result.map fun _ => ())

end Instance

end PluginRelay.Wasm
