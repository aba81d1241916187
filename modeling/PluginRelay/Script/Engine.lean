import PluginRelay.Script.Level
import PluginRelay.Script.Realm

/-!
# The engine

Scripts are read and run in a context. What they put off becomes jobs, which run afterwards in the order
in which they were added.
-/
namespace PluginRelay.Script

open Script.Action
open Evolution (updateGet)

variable {σ : Type} [Evolving σ]

namespace Machine

def wellKnownSymbols : Array SymbolInfo :=
  (WellKnown.all.map fun w => ⟨some (Units.ofString ("Symbol." ++ w.name)), false, false⟩).toArray

/-- A machine that has run nothing and holds no context. -/
def start (host : σ) : Machine σ := ⟨host, #[], #[], wellKnownSymbols, [], #[], 0, [], [], 1⟩

end Machine

namespace Engine

/-- How much of the native stack one call takes, in bytes. -/
def bytesPerLevel : Nat := 640

def defaultStackSize : Nat := 262144

/-- More levels than these are never used. -/
def levelLimit : Nat := 1000

/-- How deep calls may nest with a stack of some size; a size of zero sets no limit of its own. -/
def levelsFor (stackSize : Nat) : Nat :=
  if stackSize = 0 then levelLimit else min levelLimit (stackSize / bytesPerLevel)

/-- Reads a script and runs it in the current context; its value is that of its last statement. -/
def evaluate (env : Env σ) (file text : String) : Action σ Value := do
  let codes ← Source.read text.toList file .script .outermost false
  let id ← Function.newClosure codes ((codes.back?).getD default) #[]
  env.call (.object id) (.object (← globalObject)) #[]

def runJob (env : Env σ) : Job → Action σ Value
  | .react reaction rejected v realm => inRealm realm (Promise.react env reaction rejected v)
  | .follow promise thenable method realm =>
    inRealm realm (Promise.follow env promise thenable method)
  | .load promise name realm => inRealm realm (Promise.load env promise name)

/-- Takes the first job from the queue. -/
def nextJob? : Action σ (Option Job) :=
  updateGet fun m => (m.jobs.head?, { m with jobs := m.jobs.tail })

/-- No run takes more jobs than this. -/
def jobLimit : Nat := 1 <<< 60

/-- Runs jobs until none is left or one fails. -/
def runJobs (env : Env σ) : (fuel : Nat) → Action σ Unit
  | 0 => return
  | fuel + 1 => do
    match ← nextJob? with
    | none => return
    | some job =>
      let _ ← runJob env job
      runJobs env fuel

end Engine

end PluginRelay.Script
