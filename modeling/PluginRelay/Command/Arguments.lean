import PluginRelay.Command.Grammar

/-!
# The command line

Two commands: `eval` runs a script, `invoke` sends a request to a plugin. Each may be preceded and
followed by verbosity flags; of the two levels the inner one counts if it has any.
-/
namespace PluginRelay.Command

structure EvalOptions where
  input : Option String
  code : Option String
  deriving DecidableEq, Repr

structure InvokeOptions where
  plugin : String
  endpoint : String
  payload : Option String
  fireAndForget : Bool
  export_ : Option String
  fuel : Option Nat
  deriving DecidableEq, Repr

inductive Task where
  | eval (options : EvalOptions)
  | invoke (options : InvokeOptions)
  deriving DecidableEq, Repr

structure Arguments where
  verbosity : Nat
  task : Task
  deriving DecidableEq, Repr

/-- A refused command line, with the level at which it was refused. -/
structure Refused where
  complaint : Complaint
  level : Option String
  deriving DecidableEq, Repr

namespace Arguments

def verboseOption : Opt := ⟨"verbose", some 'v', .counter⟩
def helpOption : Opt := ⟨"help", some 'h', .help⟩
def versionOption : Opt := ⟨"version", some 'V', .version⟩

def helpWord : String := "help"
def evalWord : String := "eval"
def invokeWord : String := "invoke"

def subcommands : List String := [evalWord, invokeWord, helpWord]

def outer : Level := ⟨[verboseOption, helpOption, versionOption], [], subcommands⟩

def evalLevel : Level where
  options := [⟨"eval", some 'e', .value .text⟩, verboseOption, helpOption]
  positionals := [⟨"input", .path⟩]
  subcommands := []

def invokeLevel : Level where
  options := [⟨"payload", none, .value .text⟩, ⟨"fire-and-forget", none, .flag⟩,
    ⟨"export", none, .value .text⟩, ⟨"fuel", none, .value .number⟩, verboseOption, helpOption]
  positionals := [⟨"plugin", .path⟩, ⟨"endpoint", .text⟩]
  subcommands := []

/-- Whether nothing at all was given at a level. -/
def nothingGiven (s : State) : Bool := s.values.isEmpty && s.flags.isEmpty && s.count = 0

def evalOptions (s : State) : Except Complaint EvalOptions :=
  match s.value? "input", s.value? "eval" with
  | some _, some _ => .error Refusal.argumentConflict.plain
  | input, code => .ok ⟨input, code⟩

def invokeOptions (s : State) : Except Complaint InvokeOptions :=
  if nothingGiven s then .error Refusal.helpOnMissing.plain
  else match s.value? "plugin", s.value? "endpoint" with
    | some plugin, some endpoint =>
      .ok ⟨plugin, endpoint, s.value? "payload", s.flags.contains "fire-and-forget",
        s.value? "export", (s.value? "fuel").bind number?⟩
    | _, _ => .error Refusal.missingRequiredArgument.plain

/-- The words behind `help` name a command, and commands have no commands of their own. -/
def helpAnswer (words : List String) : Refusal :=
  match words with
  | [] => .displayHelp
  | [word] => if subcommands.contains word then .displayHelp else .invalidSubcommand
  | _ => .invalidSubcommand

/-- The inner count if it is given, else the outer one. -/
def effectiveVerbosity (outer inner : State) : Nat := if inner.count = 0 then outer.count else inner.count

def refuseAt {α : Type} (level : Option String) : Except Complaint α → Except Refused α
  | .ok x => .ok x
  | .error c => .error ⟨c, level⟩

def parse (words : List String) : Except Refused Arguments := do
  let (s, rest) ← refuseAt none (outer.read .start words)
  match rest with
  | none =>
    refuseAt none (.error (if nothingGiven s then Refusal.helpOnMissing else .missingSubcommand).plain)
  | some (command, words) =>
    if command = helpWord then refuseAt none (.error (helpAnswer words).plain)
    else if command = evalWord then
      let (inner, _) ← refuseAt (some command) (evalLevel.read .start words)
      let options ← refuseAt (some command) (evalOptions inner)
      return ⟨effectiveVerbosity s inner, .eval options⟩
    else
      let (inner, _) ← refuseAt (some command) (invokeLevel.read .start words)
      let options ← refuseAt (some command) (invokeOptions inner)
      return ⟨effectiveVerbosity s inner, .invoke options⟩

end Arguments

end PluginRelay.Command
