import PluginRelay.Script.Code

/-!
# Emission of code

The function whose code is emitted is kept apart from the functions around it, the nearest first. A
name is looked up in the scopes of the function and then further out; every function on the way to its
declaration gets a shared cell for it.
-/
namespace PluginRelay.Script.Emission

structure Variable where
  name : String
  kind : VariableKind
  slot : Nat
  deriving Inhabited

/-- What a jump out of a construct has to undo. -/
inductive Construct where
  /-- A loop, a switch or a labelled statement, with its labels; loops have a place to go on. -/
  | target (names : List String) (isPlain : Bool) (exit : Label) (again : Option Label)
  /-- A guarded part: an exception handler is to be removed. -/
  | handler
  /-- A part with a last part, which is to be run. -/
  | finalizer (label : Label)
  /-- A last part that is being run: its return place lies on the stack. -/
  | finalizing
  /-- A loop over a sequence whose iterator is to be closed. -/
  | iterator (slot : Slot) (isAsync : Bool)

/-- A function of which a part has been emitted. -/
structure Draft where
  kind : FunctionKind
  isAsync : Bool
  isGenerator : Bool
  strict : Bool
  instructions : Array Instruction
  places : Array (Option Position)
  labels : Array Nat
  slotCount : Nat
  captured : Array Slot
  /-- Names of shared cells that are there from the start, with their kinds. -/
  visible : List Visible
  pseudos : List (Pseudo × Nat)
  /-- Blocks, the innermost first; the last holds the variables of the whole function. -/
  scopes : List (List Variable)
  constructs : List Construct
  /-- The label that ends the optional chain around the place. -/
  chains : List Label
  /-- Where a script keeps the value of its last statement. -/
  completion : Option Slot
  /-- Whether names that it declares by `var` belong to the global object. -/
  isGlobal : Bool
  /-- The labels directly in front of the statement. -/
  pending : List String
  deriving Inhabited

structure State where
  current : Draft
  outer : List Draft
  codes : CodeTable
  file : String

abbrev Emit := EStateM String State

def modifyCurrent (f : Draft → Draft) : Emit Unit :=
  modify fun s => { s with current := f s.current }

/-! ### Instructions -/

def emit (i : Instruction) : Emit Unit :=
  modifyCurrent fun p => { p with
    instructions := p.instructions.push i
    places := p.places.push none }

/-- Emits an instruction that traces show at a place. -/
def emitAt (place : Position) (i : Instruction) : Emit Unit :=
  modifyCurrent fun p => { p with
    instructions := p.instructions.push i
    places := p.places.push (some place) }

def push (v : Value) : Emit Unit := emit (.push v)

def newLabel : Emit Label := do
  let n := (← get).current.labels.size
  modifyCurrent fun p => { p with labels := p.labels.push 0 }
  return n

/-- Puts a label here. -/
def put (label : Label) : Emit Unit := do
  modifyCurrent fun p => { p with labels := p.labels.set! label p.instructions.size }
  emit (.here label)

/-! ### Variables -/

def newSlot : Emit Nat := do
  let n := (← get).current.slotCount
  modifyCurrent fun p => { p with slotCount := p.slotCount + 1 }
  return n

/-- A variable without a name. -/
def hiddenSlot : Emit Slot := return .own (← newSlot)

def findVariable (name : String) : List (List Variable) → Option Variable
  | [] => none
  | scope :: rest =>
    match scope.find? (·.name = name) with
    | some v => some v
    | none => findVariable name rest

/-- The slot of a shared cell, which is added if there is none yet. -/
def Draft.share (p : Draft) (source : Slot) : Slot × Draft :=
  match p.captured.findIdx? (· = source) with
  | some i => (.captured i, p)
  | none => (.captured p.captured.size, { p with captured := p.captured.push source })

/-- A pseudo-variable of a function that has its own. -/
def Draft.pseudo (p : Draft) (which : Pseudo) : Slot × Draft :=
  match p.pseudos.lookup which with
  | some n => (.own n, p)
  | none => (.own p.slotCount,
      { p with slotCount := p.slotCount + 1, pseudos := (which, p.slotCount) :: p.pseudos })

/-- Arrows take `this` and its like from the code around them. -/
def Draft.ownPseudo? (p : Draft) (name : String) : Option Pseudo :=
  match Pseudo.ofName? name with
  | some .arguments =>
    if p.kind = .arrow || p.kind = .fields || p.completion.isSome then none else some .arguments
  | some which => if p.kind = .arrow then none else some which
  | none => none

/-- Where a function finds a name, given the functions around it. -/
def lookIn (name : String) (p : Draft) (outer : List Draft) :
    Option (Slot × VariableKind) × Draft × List Draft :=
  match findVariable name p.scopes with
  | some v => (some (.own v.slot, v.kind), p, outer)
  | none =>
    match p.visible.find? (·.name = name) with
    | some v => (some (v.slot, v.kind), p, outer)
    | none =>
      match p.ownPseudo? name with
      | some which =>
        let (slot, p) := p.pseudo which
        (some (slot, .var), p, outer)
      | none =>
        match outer with
        | [] => (none, p, [])
        | q :: rest =>
          match lookIn name q rest with
          | (some (source, kind), q, rest) =>
            let (slot, p) := p.share source
            (some (slot, kind), p, q :: rest)
          | (none, q, rest) => (none, p, q :: rest)
  termination_by outer.length

def look (name : String) : Emit (Option (Slot × VariableKind)) := do
  let s ← get
  let (found, p, outer) := lookIn name s.current s.outer
  set { s with current := p, outer := outer }
  return found

/-- Every name that can be seen here. -/
def visibleNames : Emit (List String) := do
  let s ← get
  let pseudoNames := ["this", "new.target", "super", "function", "arguments"]
  let names := (s.current :: s.outer).flatMap fun p =>
    p.scopes.flatten.map (·.name) ++ p.visible.map (·.name)
  return (names ++ pseudoNames).eraseDups

/-- What code that is read here later can see. -/
def visible : Emit (List Visible) := do
  let names ← visibleNames
  let found ← names.mapM fun name => return (← look name).map fun (slot, kind) => ⟨name, slot, kind⟩
  return found.filterMap id

/-- Declares a name in the innermost block. -/
def declare (name : String) (kind : VariableKind) : Emit Nat := do
  let n ← newSlot
  modifyCurrent fun p =>
    match p.scopes with
    | scope :: rest => { p with scopes := (⟨name, kind, n⟩ :: scope) :: rest }
    | [] => { p with scopes := [[⟨name, kind, n⟩]] }
  return n

/-- Declares a name of a block, which has no value until its declaration is run. -/
def declareFresh (name : String) (kind : VariableKind) : Emit Unit := do
  let n ← declare name kind
  emit (.fresh n)

def inBlock {α : Type} (e : Emit α) : Emit α := do
  modifyCurrent fun p => { p with scopes := [] :: p.scopes }
  let x ← e
  modifyCurrent fun p => { p with scopes := p.scopes.tail }
  return x

def within {α : Type} (c : Construct) (e : Emit α) : Emit α := do
  modifyCurrent fun p => { p with constructs := c :: p.constructs }
  let x ← e
  modifyCurrent fun p => { p with constructs := p.constructs.tail }
  return x

def getName (name : String) (place : Position) (isQuiet : Bool) : Emit Unit := do
  match ← look name with
  | some (slot, _) => emitAt place (.get slot name)
  | none => emitAt place (.getGlobal name isQuiet)

/-- Assigns the top of the stack to a name. -/
def setName (name : String) (place : Position) : Emit Unit := do
  let strict := (← get).current.strict
  match ← look name with
  | some (_, .const) => emitAt place (.fail .typeError ("'" ++ name ++ "' is read-only"))
  | some (_, .functionName) =>
    if strict then emitAt place (.fail .typeError ("'" ++ name ++ "' is read-only")) else emit .pop
  | some (slot, _) => emitAt place (.set slot name)
  | none => emitAt place (.setGlobal name strict)

/-- Gives a declared name its first value, from the top of the stack. -/
def initializeName (name : String) (place : Position) : Emit Unit := do
  match ← look name with
  | some (slot, _) => emitAt place (.bindSlot slot)
  | none => emitAt place (.initializeGlobal name)

/-- The slot of a pseudo-variable; outside of functions that have it there is none. -/
def pseudoSlot (which : Pseudo) : Emit (Option Slot) := return (← look which.name).map (·.1)

def getPseudo (which : Pseudo) : Emit Unit := do
  match ← pseudoSlot which with
  | some slot => emit (.get slot which.name)
  | none => push .undefined

/-! ### Functions -/

def Draft.new (kind : FunctionKind) (isAsync isGenerator strict : Bool) : Draft :=
  ⟨kind, isAsync, isGenerator, strict, #[], #[], #[], 0, #[], [], [], [[]], [], [], none, false, []⟩

/-- The places of all instructions: one without a place of its own has that of the one before. -/
def fillPlaces (first : Position) (places : Array (Option Position)) : Array Position :=
  (places.foldl (fun (filled, last) place =>
    let here := place.getD last
    (filled.push here, here)) ((#[] : Array Position), first)).1

def Draft.finish (p : Draft) (name file : String) (source : Units) (place : Position)
    (length : Nat) : Code :=
  ⟨name, p.kind, p.isAsync, p.isGenerator, p.strict, file, source, place,
    p.instructions, fillPlaces place p.places, p.labels, p.slotCount, p.captured, p.pseudos, length⟩

/-- Emits a function inside the current one; gives its number. -/
def nested (p : Draft) (info : FunctionInfo) (name : String) (length : Nat) (body : Emit Unit) :
    Emit Nat := do
  modify fun s => { s with current := p, outer := s.current :: s.outer }
  body
  let s ← get
  let code := s.current.finish name s.file info.source info.place length
  match s.outer with
  | q :: rest =>
    set { s with current := q, outer := rest, codes := s.codes.push code }
    return s.codes.size
  | [] => throw "no function to return to"

/-- The parts of the compiler that refer to each other. -/
structure Emitter where
  expression : Expression → Emit Unit
  statement : Statement → Emit Unit
  /-- Takes the value on the top apart; `declares` says that names get their first value. -/
  pattern : (declares : Bool) → Expression → Emit Unit
  /-- A function or class that gets a name from where it stands. -/
  named : String → Expression → Emit Unit

end PluginRelay.Script.Emission
