import PluginRelay.Wasm.Arithmetic
import PluginRelay.Wasm.Module
import PluginRelay.Wasm.Text.Form
import PluginRelay.Wasm.Text.Numeral

/-!
# Instructions of the text format

Instructions are written flat, with `end` after each block, or folded, with the operands of an
instruction as groups inside its group. Both may be mixed.
-/
namespace PluginRelay.Wasm.Text

/-- What indices may be called, in each index space in order. -/
structure Names where
  types : List (Option String × FunctionType)
  functions : List (Option String)
  tables : List (Option String)
  memories : List (Option String)
  globals : List (Option String)
  elements : List (Option String)
  datas : List (Option String)
  locals : List (Option String)
  labels : List (Option String)

/-- A reader takes what it needs from the front of the forms of a group. -/
abbrev Reader := StateT (List Form) Option

namespace Reader

def isName (word : String) : Bool := word.startsWith "$"

/-- The name of what follows, if it is given one. -/
def name? : Reader (Option String) := fun forms =>
  match forms with
  | .word w :: rest => if isName w then some (some w, rest) else some (none, forms)
  | _ => some (none, forms)

def word : Reader String := fun forms =>
  match forms with
  | .word w :: rest => some (w, rest)
  | _ => none

def bytes : Reader Bytes := fun forms =>
  match forms with
  | .string s :: rest => some (s, rest)
  | _ => none

def text : Reader String := do StateT.lift (Utf8.decode? (← bytes))

/-- Takes the word if it comes next. -/
def optionalWord (expected : String) : Reader Bool := fun forms =>
  match forms with
  | .word w :: rest => some (if w = expected then (true, rest) else (false, forms))
  | _ => some (false, forms)

/-- The inside of a group with that head, if one comes next. -/
def group? (head : String) : Reader (Option (List Form)) := fun forms =>
  match forms with
  | .group (.word w :: inside) :: rest =>
    some (if w = head then (some inside, rest) else (none, forms))
  | _ => some (none, forms)

/-- The insides of all groups with that head that come next. -/
def groupsFrom (head : String) : List Form → List (List Form) × List Form
  | .group (.word w :: inside) :: rest =>
    if w = head then
      let (more, rest) := groupsFrom head rest
      (inside :: more, rest)
    else ([], .group (.word w :: inside) :: rest)
  | forms => ([], forms)

def groups (head : String) : Reader (List (List Form)) := fun forms => some (groupsFrom head forms)

/-- Whether a word that stands for an index comes next. -/
def atIndex : Reader Bool := fun forms =>
  match forms with
  | .word w :: _ => some (isName w || (natural? w.toList).isSome, forms)
  | _ => some (false, forms)

/-- Runs a reader on all of the forms. -/
def whole {α : Type} (r : Reader α) (forms : List Form) : Option α :=
  match r forms with
  | some (x, []) => some x
  | _ => none

end Reader

open Reader

/-- The index that a word stands for: a number, or the place of a name. -/
def indexOf? (names : List (Option String)) (word : String) : Option Nat :=
  if isName word then names.findIdx? (· = some word) else natural? word.toList

def index (names : List (Option String)) : Reader Nat := do
  StateT.lift (indexOf? names (← word))

def valueType : Reader ValueType := do StateT.lift (ValueType.named? (← word))

def valueTypes (forms : List Form) : Option (List ValueType) :=
  forms.mapM fun
    | .word w => ValueType.named? w
    | _ => none

/-- One group of parameters: a name with its type, or types without names. -/
def parameters? (forms : List Form) : Option (List (Option String × ValueType)) :=
  match forms with
  | .word w :: rest =>
    if isName w then do
      let type ← valueType.whole rest
      return [(some w, type)]
    else (valueTypes forms).map (·.map fun t => (none, t))
  | _ => (valueTypes forms).map (·.map fun t => (none, t))

/-- Parameters and results in place; also the names of the parameters. -/
def signature : Reader (FunctionType × List (Option String)) := do
  let params ← (← groups "param").mapM fun g => StateT.lift (parameters? g)
  let results ← (← groups "result").mapM fun g => StateT.lift (valueTypes g)
  return (⟨params.flatten.map (·.2), results.flatten⟩, params.flatten.map (·.1))

/-- A function type given by its index, in place, or both if they agree. -/
def typeUse (names : Names) : Reader (FunctionType × List (Option String)) := do
  let given ← group? "type"
  let (inPlace, params) ← signature
  match given with
  | none => return (inPlace, params)
  | some forms =>
    let i ← StateT.lift ((index (names.types.map (·.1))).whole forms)
    let (_, type) ← StateT.lift names.types[i]?
    if inPlace = ⟨[], []⟩ then return (type, type.params.map fun _ => none)
    else
      guard (inPlace = type)
      return (type, params)

def loads : List (String × Load) :=
  [("i32.load", ⟨.i32, 4, false⟩), ("i64.load", ⟨.i64, 8, false⟩), ("f32.load", ⟨.f32, 4, false⟩),
    ("f64.load", ⟨.f64, 8, false⟩), ("i32.load8_s", ⟨.i32, 1, true⟩), ("i32.load8_u", ⟨.i32, 1, false⟩),
    ("i32.load16_s", ⟨.i32, 2, true⟩), ("i32.load16_u", ⟨.i32, 2, false⟩),
    ("i64.load8_s", ⟨.i64, 1, true⟩), ("i64.load8_u", ⟨.i64, 1, false⟩),
    ("i64.load16_s", ⟨.i64, 2, true⟩), ("i64.load16_u", ⟨.i64, 2, false⟩),
    ("i64.load32_s", ⟨.i64, 4, true⟩), ("i64.load32_u", ⟨.i64, 4, false⟩)]

def stores : List (String × Store) :=
  [("i32.store", ⟨.i32, 4⟩), ("i64.store", ⟨.i64, 8⟩), ("f32.store", ⟨.f32, 4⟩), ("f64.store", ⟨.f64, 8⟩),
    ("i32.store8", ⟨.i32, 1⟩), ("i32.store16", ⟨.i32, 2⟩), ("i64.store8", ⟨.i64, 1⟩),
    ("i64.store16", ⟨.i64, 2⟩), ("i64.store32", ⟨.i64, 4⟩)]

/-- Takes a word `key=value` and gives the value. -/
def setting (key : String) : Reader (Option Nat) := fun forms =>
  match forms with
  | .word w :: rest =>
    let chars := w.toList
    let mark := (key ++ "=").toList
    if mark.isPrefixOf chars then
      (natural? (chars.drop mark.length)).map fun n => (some n, rest)
    else some (none, forms)
  | _ => some (none, forms)

def access (bytes : Nat) : Reader Access := do
  let offset ← setting "offset"
  match ← setting "align" with
  | none => return ⟨offset.getD 0, bytes.log2⟩
  | some n =>
    guard (n = 1 <<< n.log2)
    return ⟨offset.getD 0, n.log2⟩

def indicesFrom (names : List (Option String)) : List Form → List Nat × List Form
  | .word w :: rest =>
    match indexOf? names w with
    | some n =>
      let (more, rest) := indicesFrom names rest
      (n :: more, rest)
    | none => ([], .word w :: rest)
  | forms => ([], forms)

/-- Indices as long as they come. -/
def indices (names : List (Option String)) : Reader (List Nat) := fun forms =>
  some (indicesFrom names forms)

def constant (type : ValueType) (word : String) : Option Value :=
  match type with
  | .i32 => (integer? 32 word.toList).map .i32
  | .i64 => (integer? 64 word.toList).map .i64
  | .f32 => (float? word.toList).map (.ofFloating .word)
  | .f64 => (float? word.toList).map .f64
  | _ => none

def nullOf (word : String) : Option Value :=
  match word with
  | "func" => some (.reference .function none)
  | "extern" => some (.reference .external none)
  | _ => none

/-- The table that comes next, or the first one if none does. -/
def table (names : Names) : Reader Nat := do
  if ← atIndex then index names.tables else return 0

/-- An instruction without a body: its name has been read, what it names comes next. -/
def plain (names : Names) (name : String) : Reader Instruction :=
  match name with
  | "unreachable" => return .unreachable
  | "nop" => return .nop
  | "br" => return .branch (← index names.labels)
  | "br_if" => return .branchIf (← index names.labels)
  | "br_table" => do
    let all ← indices names.labels
    match all.reverse with
    | default :: before => return .branchTable before.reverse default
    | [] => failure
  | "return" => return .leave
  | "call" => return .call (← index names.functions)
  | "call_indirect" => do
    let table ← table names
    return .callIndirect table (← typeUse names).1
  | "return_call" => return .returnCall (← index names.functions)
  | "return_call_indirect" => do
    let table ← table names
    return .returnCallIndirect table (← typeUse names).1
  | "drop" => return .drop
  | "select" => do
    match ← groups "result" with
    | [] => return .select none
    | gs =>
      match ← gs.mapM fun g => StateT.lift (valueTypes g) with
      | [[type]] => return .select (some type)
      | _ => failure
  | "local.get" => return .localGet (← index names.locals)
  | "local.set" => return .localSet (← index names.locals)
  | "local.tee" => return .localTee (← index names.locals)
  | "global.get" => return .globalGet (← index names.globals)
  | "global.set" => return .globalSet (← index names.globals)
  | "memory.size" => return .memorySize
  | "memory.grow" => return .memoryGrow
  | "memory.fill" => return .memoryFill
  | "memory.copy" => return .memoryCopy
  | "memory.init" => return .memoryInit (← index names.datas)
  | "data.drop" => return .dataDrop (← index names.datas)
  | "table.get" => return .tableGet (← table names)
  | "table.set" => return .tableSet (← table names)
  | "table.size" => return .tableSize (← table names)
  | "table.grow" => return .tableGrow (← table names)
  | "table.fill" => return .tableFill (← table names)
  | "table.copy" => do
    if ← atIndex then
      let target ← index names.tables
      return .tableCopy target (← index names.tables)
    else return .tableCopy 0 0
  | "table.init" => do
    let first ← word
    if ← atIndex then
      return .tableInit (← StateT.lift (indexOf? names.tables first)) (← index names.elements)
    else return .tableInit 0 (← StateT.lift (indexOf? names.elements first))
  | "elem.drop" => return .elementDrop (← index names.elements)
  | "ref.null" => return .const (← StateT.lift (nullOf (← word)))
  | "ref.func" => return .referenceFunction (← index names.functions)
  | "ref.is_null" => return .referenceIsNull
  | "i32.const" => return .const (← StateT.lift (constant .i32 (← word)))
  | "i64.const" => return .const (← StateT.lift (constant .i64 (← word)))
  | "f32.const" => return .const (← StateT.lift (constant .f32 (← word)))
  | "f64.const" => return .const (← StateT.lift (constant .f64 (← word)))
  | name =>
    match loads.lookup name, stores.lookup name, Operator.named? name with
    | some kind, _, _ => return .load kind (← access kind.bytes)
    | _, some kind, _ => return .store kind (← access kind.bytes)
    | _, _, some op => return .numeric op
    | none, none, none => failure

/-- The label and the type of a block, whose body comes next. -/
def blockHead (names : Names) : Reader (Names × FunctionType) := do
  let label ← name?
  let (type, _) ← typeUse names
  return ({ names with labels := label :: names.labels }, type)

/-- After `end` and `else` the label may be repeated. -/
def repeatedLabel (inner : Names) : Reader Unit := do
  match ← name? with
  | none => return
  | some label => guard (inner.labels.head? = some (some label))

def isGroup : Form → Bool
  | .group _ => true
  | _ => false

/-- Splits the forms before the group with that head from the rest. -/
def beforeGroup (head : String) : List Form → List Form × List Form
  | [] => ([], [])
  | f :: rest =>
    match f with
    | .group (.word w :: _) =>
      if w = head then ([], f :: rest)
      else
        let (before, after) := beforeGroup head rest
        (f :: before, after)
    | f =>
      let (before, after) := beforeGroup head rest
      (f :: before, after)

/-- Instructions up to the end of the forms or to the word that ends the block; that word is left.
No more than `depth` instructions and blocks are read in a row. -/
def instructions (depth : Nat) (names : Names) : Reader (List Instruction) := fun forms =>
  match depth, forms with
  | _, [] => some ([], [])
  | 0, _ => none
  | depth + 1, .word w :: rest =>
    if w = "end" || w = "else" then some ([], forms)
    else if w = "block" || w = "loop" then do
      let ((inner, type), rest) ← blockHead names rest
      let (body, rest) ← instructions depth inner rest
      let (closing, rest) ← word rest
      guard (closing = "end")
      let (_, rest) ← repeatedLabel inner rest
      let (more, rest) ← instructions depth names rest
      return ((if w = "block" then .block type body else .loop type body) :: more, rest)
    else if w = "if" then do
      let ((inner, type), rest) ← blockHead names rest
      let (yes, rest) ← instructions depth inner rest
      let (closing, rest) ← word rest
      let (_, rest) ← repeatedLabel inner rest
      let (no, rest) ←
        if closing = "else" then do
          let (no, rest) ← instructions depth inner rest
          let (closing, rest) ← word rest
          guard (closing = "end")
          let (_, rest) ← repeatedLabel inner rest
          pure (no, rest)
        else pure ([], rest)
      let (more, rest) ← instructions depth names rest
      return (.choose type yes no :: more, rest)
    else do
      let (i, rest) ← plain names w rest
      let (more, rest) ← instructions depth names rest
      return (i :: more, rest)
  | depth + 1, .group (.word w :: inside) :: rest => do
    let folded ←
      if w = "block" || w = "loop" then do
        let ((inner, type), inside) ← blockHead names inside
        let (body, left) ← instructions depth inner inside
        guard left.isEmpty
        pure [if w = "block" then Instruction.block type body else .loop type body]
      else if w = "if" then do
        let ((inner, type), inside) ← blockHead names inside
        let (condition, branches) := beforeGroup "then" inside
        guard (condition.all isGroup)
        let (condition, left) ← instructions depth names condition
        guard left.isEmpty
        let (yes, branches) ← group? "then" branches
        let (no, branches) ← group? "else" branches
        guard branches.isEmpty
        let (yes, left) ← instructions depth inner (← yes)
        guard left.isEmpty
        let (no, left) ← instructions depth inner (no.getD [])
        guard left.isEmpty
        pure (condition ++ [.choose type yes no])
      else do
        let (i, operands) ← plain names w inside
        guard (operands.all isGroup)
        let (before, left) ← instructions depth names operands
        guard left.isEmpty
        pure (before ++ [i])
    let (more, rest) ← instructions depth names rest
    return (folded ++ more, rest)
  | _, _ => none

/-- All forms as instructions. -/
def body? (names : Names) (forms : List Form) : Option (List Instruction) :=
  (instructions (sizeOfAll forms + 1) names).whole forms

end PluginRelay.Wasm.Text
