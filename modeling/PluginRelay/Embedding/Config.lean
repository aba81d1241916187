import PluginRelay.Text.Quoted

/-!
# Configuration of an engine

Limits of the engine, and the globals that its contexts get.
-/
namespace PluginRelay.Embedding

/-- The globals of a primed context. -/
structure Globals where
  console : Bool
  version : Bool
  deriving DecidableEq, Repr, Inhabited

namespace Globals

def all : Globals := ⟨true, true⟩

def none : Globals := ⟨false, false⟩

def debug (g : Globals) : String :=
  let names := (if g.console then ["CONSOLE"] else []) ++ (if g.version then ["VERSION"] else [])
  if names.isEmpty then "Builtins(0x0)" else "Builtins(" ++ String.intercalate " | " names ++ ")"

end Globals

/-- Sizes in bytes; what is absent is not limited. -/
structure Config where
  memoryLimit : Option Nat
  stackSize : Option Nat
  collectionThreshold : Option Nat
  globals : Globals
  deriving DecidableEq, Repr, Inhabited

namespace Config

def default : Config := ⟨none, none, none, .all⟩

def optionText : Option Nat → String
  | some n => "Some(" ++ toString n ++ ")"
  | none => "None"

/-- The configuration in developer output, as part of the engine. -/
def debug (c : Config) : String :=
  "Runtime \x7b config: Config \x7b memory_limit: " ++ optionText c.memoryLimit ++
    ", max_stack_size: " ++ optionText c.stackSize ++ ", gc_threshold: " ++
    optionText c.collectionThreshold ++ ", builtins: " ++ c.globals.debug ++ " \x7d \x7d"

/-- An engine takes this many bytes before any context is made. -/
def baseMemory : Nat := 20000

/-- Whether the memory suffices for contexts. -/
def allowsContexts (c : Config) : Bool :=
  match c.memoryLimit with
  | some n => baseMemory ≤ n
  | none => true

end Config

end PluginRelay.Embedding
