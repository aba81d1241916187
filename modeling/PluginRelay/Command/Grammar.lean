/-!
# Reading command line words

A level of the command line has options and positional arguments. Words are read from left to right
in a state; an option that takes a value waits for the next word that does not look like an option. A
value is checked when the next argument begins, so that a bad value may be reported after a bad
option behind it.
-/
namespace PluginRelay.Command

/-- Why a command line is turned down. -/
inductive Refusal where
  | argumentConflict
  | unknownArgument
  | invalidValue
  | valueValidation
  | tooManyValues
  | invalidSubcommand
  | missingSubcommand
  | missingRequiredArgument
  /-- Help instead of a complaint about an empty command line. -/
  | helpOnMissing
  | displayHelp
  | displayVersion
  deriving DecidableEq, Repr

/-- Help and version that were asked for are no failures. -/
def Refusal.exitCode : Refusal → Nat
  | .displayHelp => 0
  | .displayVersion => 0
  | _ => 2

/-- A refusal, with the word that has no meaning if that is the reason. -/
structure Complaint where
  refusal : Refusal
  word : Option String
  deriving DecidableEq, Repr

def Refusal.plain (r : Refusal) : Complaint := ⟨r, none⟩

inductive ValueKind where
  | text
  /-- A text that must not be empty. -/
  | path
  /-- A natural number below `2 ^ 64`. -/
  | number
  deriving DecidableEq, Repr

inductive OptionKind where
  | flag
  | counter
  | value (kind : ValueKind)
  | help
  | version
  deriving DecidableEq, Repr

structure Opt where
  name : String
  letter : Option Char
  kind : OptionKind
  deriving DecidableEq, Repr

structure Positional where
  name : String
  kind : ValueKind
  deriving DecidableEq, Repr

structure Level where
  options : List Opt
  positionals : List Positional
  subcommands : List String
  deriving DecidableEq, Repr

/-- An argument whose value is not checked yet. -/
structure Pending where
  name : String
  kind : ValueKind
  value : Option String
  deriving DecidableEq, Repr

structure State where
  values : List (String × String)
  flags : List String
  count : Nat
  pending : Option Pending
  position : Nat
  /-- Whether a separator has been read, behind which every word is positional. -/
  trailing : Bool
  deriving DecidableEq, Repr

namespace State

def start : State := ⟨[], [], 0, none, 0, false⟩

def value? (s : State) (name : String) : Option String := s.values.lookup name

/-- Whether an option still waits for its value. -/
def awaiting (s : State) : Bool :=
  match s.pending with
  | some ⟨_, _, none⟩ => true
  | _ => false

end State

/-- The number that digits write, perhaps behind a plus sign. -/
def number? (text : String) : Option Nat :=
  let digits := match text.toList with
    | '+' :: rest => rest
    | chars => chars
  if digits.isEmpty ∨ digits.any fun c => c < '0' ∨ '9' < c then none
  else
    let n := digits.foldl (fun n c => n * 10 + (c.toNat - 48)) 0
    if n < UInt64.size then some n else none

def ValueKind.check (kind : ValueKind) (text : String) : Except Complaint Unit :=
  match kind with
  | .text => .ok ()
  | .path => if text.isEmpty then .error Refusal.invalidValue.plain else .ok ()
  | .number =>
    match number? text with
    | some _ => .ok ()
    | none => .error Refusal.valueValidation.plain

/-- Takes a value for good: an argument has one value at most. -/
def State.commit (s : State) (name : String) (kind : ValueKind) (text : String) : Except Complaint State :=
  if (s.value? name).isSome then .error Refusal.argumentConflict.plain
  else (kind.check text).map fun () => { s with values := s.values ++ [(name, text)] }

/-- Checks the value that is pending, if any. -/
def State.settle (s : State) : Except Complaint State :=
  match s.pending with
  | none => .ok s
  | some ⟨_, _, none⟩ => .error Refusal.invalidValue.plain
  | some ⟨name, kind, some text⟩ => { s with pending := none }.commit name kind text

/-- An option without a value. -/
def State.act (s : State) (o : Opt) : Except Complaint State := do
  let s ← s.settle
  match o.kind with
  | .help => .error Refusal.displayHelp.plain
  | .version => .error Refusal.displayVersion.plain
  | .counter => return { s with count := min 255 (s.count + 1) }
  | .flag =>
    if s.flags.contains o.name then .error Refusal.argumentConflict.plain
    else return { s with flags := s.flags ++ [o.name] }
  | .value _ => return s

/-- A value option, with the value if it is attached. -/
def State.open (s : State) (o : Opt) (kind : ValueKind) (attached : Option String) : Except Complaint State := do
  let s ← s.settle
  match attached with
  | some text => s.commit o.name kind text
  | none => return { s with pending := some ⟨o.name, kind, none⟩ }

/-- A word by its look. -/
inductive Word where
  | separator
  | long (name : String) (value : Option String)
  | cluster (letters : List Char)
  | plain
  deriving DecidableEq, Repr

/-- Splits at the first equals sign. -/
def splitEquals : List Char → List Char × Option (List Char)
  | [] => ([], none)
  | '=' :: rest => ([], some rest)
  | c :: rest =>
    let (front, value) := splitEquals rest
    (c :: front, value)

def Word.ofText (text : String) : Word :=
  match text.toList with
  | ['-', '-'] => .separator
  | '-' :: '-' :: rest =>
    let (name, value) := splitEquals rest
    .long (String.ofList name) (value.map String.ofList)
  | '-' :: rest => .cluster rest
  | _ => .plain

def unknown (word : String) : Complaint := ⟨.unknownArgument, some word⟩

/-- The letters behind a hyphen; a value may be attached to the last one. -/
def Level.cluster (level : Level) (s : State) : List Char → Except Complaint State
  | [] => .ok s
  | c :: rest =>
    match level.options.find? (·.letter = some c) with
    | none => .error (unknown (String.ofList ['-', c]))
    | some o =>
      match o.kind with
      | .value kind =>
        let attached := match rest with
          | [] => none
          | '=' :: text => some (String.ofList text)
          | text => some (String.ofList text)
        s.open o kind attached
      | _ => do
        let s ← s.act o
        level.cluster s rest

def Level.long (level : Level) (s : State) (name : String) (value : Option String) : Except Complaint State :=
  match level.options.find? (·.name = name) with
  | none => .error (unknown ("--" ++ name))
  | some o =>
    match o.kind, value with
    | .value kind, value => s.open o kind value
    | _, some _ => .error Refusal.tooManyValues.plain
    | _, none => s.act o

/-- A word in the next positional place. -/
def Level.positional (level : Level) (s : State) (text : String) : Except Complaint State :=
  match level.positionals[s.position]? with
  | some p => do
    let s ← s.settle
    return { s with pending := some ⟨p.name, p.kind, some text⟩, position := s.position + 1 }
  | none =>
    if s.trailing ∧ level.subcommands.contains text then .error (unknown text)
    else if level.subcommands.isEmpty then .error (unknown text)
    else .error Refusal.invalidSubcommand.plain

/-- A word that is no option: the value of the option before it, or a positional argument. -/
def Level.bare (level : Level) (s : State) (text : String) : Except Complaint State :=
  match s.pending with
  | some ⟨name, kind, none⟩ =>
    if s.trailing then level.positional s text
    else .ok { s with pending := some ⟨name, kind, some text⟩ }
  | _ => level.positional s text

def Level.step (level : Level) (s : State) (text : String) : Except Complaint State :=
  if s.trailing then level.positional s text
  else match Word.ofText text with
    | .separator => .ok { s with trailing := true }
    | .long name value => level.long s name value
    | .cluster [] => level.bare s text
    | .cluster letters => level.cluster s letters
    | .plain => level.bare s text

/-- Reads the words of a level up to a subcommand, which is returned with the words behind it. -/
def Level.read (level : Level) (s : State) : List String →
    Except Complaint (State × Option (String × List String))
  | [] => s.settle.map fun s => (s, none)
  | text :: rest =>
    if !s.trailing && !s.awaiting && level.subcommands.contains text then
      .ok (s, some (text, rest))
    else do
      let s ← level.step s text
      level.read s rest

end PluginRelay.Command
