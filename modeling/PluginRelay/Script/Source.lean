import PluginRelay.Script.Convert
import PluginRelay.Script.Emission

/-!
# Reading scripts

A text that is no script is a `SyntaxError` whose trace starts with the place of the fault.
-/
namespace PluginRelay.Script.Source

open Script.Action

variable {σ : Type} [Evolving σ]

/-- The file that code evaluated by scripts seems to come from. -/
def inputFile : String := "<input>"

/-- The code of a text, or an exception. -/
def read (text : List Char) (file : String) (role : ProgramRole) (c : Grammar.Surroundings)
    (strict : Bool) : Action σ CodeTable := do
  match Program.ofChars? c strict text with
  | .error fault =>
    let e ← newError .syntaxError (Units.ofString fault.message)
    addTrace e (fault.traceLine file) 0
    throw (.object e)
  | .ok program =>
    match CodeTable.ofProgram role file (2 * text.length + 32) program with
    | .ok codes => return codes
    | .error message =>
      let e ← newError .syntaxError (Units.ofString message)
      addTrace e "" 0
      throw (.object e)

/-- The surroundings of code that is evaluated inside a function. -/
def surroundingsOf (scope : List Visible) : Grammar.Surroundings :=
  let sees (p : Pseudo) : Bool := scope.any (·.name = p.name)
  { Grammar.Surroundings.outermost with
    allowsSuperMember := sees .home
    allowsNewTarget := sees .newTarget }

end PluginRelay.Script.Source
