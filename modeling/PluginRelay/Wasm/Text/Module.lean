import PluginRelay.Wasm.Text.Instruction

/-!
# Modules of the text format

The fields of a module are read twice: first for the names that they give, then for what they say, so
that a field may refer to a later one. Exports, imports and segments may be written inside the field
that they concern.
-/
namespace PluginRelay.Wasm.Text

open Reader

/-- A field: its head and what follows. -/
abbrev Field := String × List Form

def field? : Form → Option Field
  | .group (.word head :: rest) => some (head, rest)
  | _ => none

/-- The fields of a text, which may stand in a group `module` or by themselves. -/
def fields? (forms : List Form) : Option (List Field) :=
  match forms with
  | [] => none
  | [.group (.word "module" :: .word w :: inside)] =>
    if isName w then inside.mapM field? else none
  | [.group (.word "module" :: inside)] => inside.mapM field?
  | forms => forms.mapM field?

namespace Names

def none : Names := ⟨[], [], [], [], [], [], [], [], []⟩

/-- Adds a name to the index space of an import or of a field. -/
def add (names : Names) (head : String) (name : Option String) : Names :=
  match head with
  | "func" => { names with functions := names.functions ++ [name] }
  | "table" => { names with tables := names.tables ++ [name] }
  | "memory" => { names with memories := names.memories ++ [name] }
  | "global" => { names with globals := names.globals ++ [name] }
  | "elem" => { names with elements := names.elements ++ [name] }
  | "data" => { names with datas := names.datas ++ [name] }
  | _ => names

def hasInlineSegment (forms : List Form) (head : String) : Bool :=
  forms.any fun
    | .group (.word w :: _) => w = head
    | _ => false

def addField (names : Names) (field : Field) : Option Names :=
  let (head, forms) := field
  match head with
  | "type" => do
    let (name, forms) ← name? forms
    let [.group (.word "func" :: inside)] := forms | failure
    let (type, _) ← signature.whole inside
    return { names with types := names.types ++ [(name, type)] }
  | "import" => do
    let (_, forms) ← text forms
    let (_, forms) ← text forms
    let [.group (.word kind :: inside)] := forms | failure
    let (name, _) ← name? inside
    return names.add kind name
  | head => do
    let (name, forms) ← name? forms
    let names := names.add head name
    if head = "memory" && hasInlineSegment forms "data" then return names.add "data" Option.none
    else if head = "table" && hasInlineSegment forms "elem" then return names.add "elem" Option.none
    else return names

def distinct (names : List (Option String)) : Bool := (names.filterMap id).Nodup

def wellFormed (names : Names) : Bool :=
  distinct (names.types.map (·.1)) && distinct names.functions && distinct names.tables &&
  distinct names.memories && distinct names.globals && distinct names.elements && distinct names.datas

end Names

def limits : Reader Limits := do
  let least ← StateT.lift (natural? (← word).toList)
  if ← atIndex then
    let most ← StateT.lift (natural? (← word).toList)
    return ⟨least, some most⟩
  else return ⟨least, none⟩

def tableType : Reader TableType := do
  let limits ← limits
  return ⟨← valueType, limits⟩

def globalType : Reader GlobalType := do
  match ← group? "mut" with
  | some inside => return ⟨← StateT.lift (valueType.whole inside), true⟩
  | none => return ⟨← valueType, false⟩

/-- The kind that a word names, with the index space it counts in. -/
def exportKind? (names : Names) : String → Option (ExportKind × List (Option String))
  | "func" => some (.function, names.functions)
  | "table" => some (.table, names.tables)
  | "memory" => some (.memory, names.memories)
  | "global" => some (.global, names.globals)
  | _ => none

def externType (names : Names) (kind : String) : Reader ExternType := do
  match kind with
  | "func" => return .function (← typeUse names).1
  | "table" => return .table (← tableType)
  | "memory" => return .memory (← limits)
  | "global" => return .global (← globalType)
  | _ => failure

/-- What fields begin with after their name: exports, and perhaps an import. -/
structure Heading where
  exports : List String
  source : Option (String × String)

def heading : Reader Heading := do
  let exports ← (← groups "export").mapM fun inside => StateT.lift (text.whole inside)
  match ← group? "import" with
  | none => return ⟨exports, none⟩
  | some inside =>
    let pair ← StateT.lift <| Reader.whole (do return (← text, ← text)) inside
    return ⟨exports, some pair⟩

/-- An offset: a group `offset`, or a single folded instruction. -/
def offset? (names : Names) : Reader (Option (List Instruction)) := fun forms =>
  match forms with
  | .group (.word "offset" :: inside) :: rest => do return (some (← body? names inside), rest)
  | .group (.word "item" :: _) :: _ => some (none, forms)
  | .group inside :: rest => do return (some (← body? names [.group inside]), rest)
  | _ => some (none, forms)

/-- The byte strings that are left, joined. -/
def allBytes : Reader Bytes := fun forms => do
  let parts ← forms.mapM fun
    | .string s => some s
    | _ => none
  return (parts.flatten, [])

/-- An entry of a segment: a group `item`, or a single folded instruction. -/
def segmentItem? (names : Names) : Form → Option (List Instruction)
  | .group (.word "item" :: inside) => body? names inside
  | .group inside => body? names [.group inside]
  | _ => none

/-- The entries of a segment with their type. They are indices of functions unless a type comes
first. -/
def entries (names : Names) : Reader (ValueType × List (List Instruction)) := fun forms =>
  let byIndex (forms : List Form) : Option ((ValueType × List (List Instruction)) × List Form) := do
    let (all, rest) ← indices names.functions forms
    return ((.function, all.map fun f => [.referenceFunction f]), rest)
  match forms with
  | .word "func" :: rest => byIndex rest
  | .word "funcref" :: rest => do return ((.function, ← rest.mapM (segmentItem? names)), [])
  | .word "externref" :: rest => do return ((.external, ← rest.mapM (segmentItem? names)), [])
  | forms => byIndex forms

def dataSegment (names : Names) : Reader DataSegment := do
  let memory ← group? "memory"
  match ← offset? names with
  | some offset =>
    let target ← match memory with
      | some inside => StateT.lift ((index names.memories).whole inside)
      | none => pure 0
    return ⟨.active target offset, ← allBytes⟩
  | none =>
    guard memory.isNone
    return ⟨.passive, ← allBytes⟩

def elementSegment (names : Names) : Reader ElementSegment := do
  if ← optionalWord "declare" then
    let (type, all) ← entries names
    return ⟨type, .declarative, all⟩
  else
    let table ← group? "table"
    match ← offset? names with
    | some offset =>
      let target ← match table with
        | some inside => StateT.lift ((index names.tables).whole inside)
        | none => pure 0
      let (type, all) ← entries names
      return ⟨type, .active target offset, all⟩
    | none =>
      guard table.isNone
      let (type, all) ← entries names
      return ⟨type, .passive, all⟩

def zeroOffset : List Instruction := [.const (.i32 0)]

namespace Build

def exportAll (m : Module) (names : List String) (kind : ExportKind) (index : Nat) : Module :=
  { m with exports := m.exports ++ names.map fun n => ⟨n, kind, index⟩ }

/-- Imports come before all definitions. -/
def addImport (m : Module) (i : Import) : Option Module :=
  if m.functions.isEmpty && m.tables.isEmpty && m.memories.isEmpty && m.globals.isEmpty then
    some { m with imports := m.imports ++ [i] }
  else none

def addFunction (names : Names) (m : Module) (forms : List Form) : Option Module := do
  let (h, forms) ← heading forms
  let index := m.functionTypes.length
  match h.source with
  | some (source, name) =>
    let (type, _) ← (typeUse names).whole forms
    return exportAll (← addImport m ⟨source, name, .function type⟩) h.exports .function index
  | none =>
    let ((type, params), forms) ← typeUse names forms
    let (groups, forms) ← groups "local" forms
    let locals := (← groups.mapM parameters?).flatten
    let all := params ++ locals.map (·.1)
    guard (Names.distinct all)
    let body ← body? { names with locals := all, labels := [none] } forms
    let m := { m with functions := m.functions ++ [⟨type, locals.map (·.2), body⟩] }
    return exportAll m h.exports .function index

def addTable (names : Names) (m : Module) (forms : List Form) : Option Module := do
  let (h, forms) ← heading forms
  let index := m.tableTypes.length
  match h.source with
  | some (source, name) =>
    let type ← tableType.whole forms
    return exportAll (← addImport m ⟨source, name, .table type⟩) h.exports .table index
  | none =>
    match forms with
    | [.word w, .group (.word "elem" :: inside)] =>
      let type ← ValueType.named? w
      let (_, all) ← Reader.whole (entries names) (match inside with
        | .group g :: rest => .word w :: .group g :: rest
        | inside => inside)
      let m := { m with
        tables := m.tables ++ [⟨type, ⟨all.length, some all.length⟩⟩]
        elements := m.elements ++ [⟨type, .active index zeroOffset, all⟩] }
      return exportAll m h.exports .table index
    | forms =>
      let type ← tableType.whole forms
      return exportAll { m with tables := m.tables ++ [type] } h.exports .table index

def addMemory (m : Module) (forms : List Form) : Option Module := do
  let (h, forms) ← heading forms
  let index := m.memoryTypes.length
  match h.source with
  | some (source, name) =>
    let type ← limits.whole forms
    return exportAll (← addImport m ⟨source, name, .memory type⟩) h.exports .memory index
  | none =>
    match forms with
    | [.group (.word "data" :: inside)] =>
      let bytes ← allBytes.whole inside
      let pages := (bytes.length + 65535) / 65536
      let m := { m with
        memories := m.memories ++ [⟨pages, some pages⟩]
        datas := m.datas ++ [⟨.active index zeroOffset, bytes⟩] }
      return exportAll m h.exports .memory index
    | forms =>
      let type ← limits.whole forms
      return exportAll { m with memories := m.memories ++ [type] } h.exports .memory index

def addGlobal (names : Names) (m : Module) (forms : List Form) : Option Module := do
  let (h, forms) ← heading forms
  let index := m.globalTypes.length
  match h.source with
  | some (source, name) =>
    let type ← globalType.whole forms
    return exportAll (← addImport m ⟨source, name, .global type⟩) h.exports .global index
  | none =>
    let (type, forms) ← globalType forms
    let initial ← body? names forms
    return exportAll { m with globals := m.globals ++ [⟨type, initial⟩] } h.exports .global index

def addField (names : Names) (m : Module) (field : Field) : Option Module :=
  let (head, forms) := field
  match head with
  | "type" => some m
  | "import" => do
    let (source, forms) ← text forms
    let (name, forms) ← text forms
    let [.group (.word kind :: inside)] := forms | failure
    let (_, inside) ← name? inside
    addImport m ⟨source, name, ← (externType names kind).whole inside⟩
  | "export" => do
    let (name, forms) ← text forms
    let [.group (.word kind :: inside)] := forms | failure
    let (kind, space) ← exportKind? names kind
    return exportAll m [name] kind (← (index space).whole inside)
  | "start" => do
    guard m.start.isNone
    return { m with start := some (← (index names.functions).whole forms) }
  | head => do
    let (_, forms) ← name? forms
    match head with
    | "func" => addFunction names m forms
    | "table" => addTable names m forms
    | "memory" => addMemory m forms
    | "global" => addGlobal names m forms
    | "elem" => return { m with elements := m.elements ++ [← (elementSegment names).whole forms] }
    | "data" => return { m with datas := m.datas ++ [← (dataSegment names).whole forms] }
    | _ => failure

end Build

/-- The module that a text writes down, if it does so by the rules of the format. -/
def module? (text : String) : Option Module := do
  let fields ← fields? (← forms? text.toList)
  let names ← fields.foldlM Names.addField Names.none
  guard names.wellFormed
  fields.foldlM (Build.addField names) .empty

end PluginRelay.Wasm.Text
