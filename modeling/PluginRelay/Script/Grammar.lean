import PluginRelay.Script.Grammar.Statement

/-!
# The grammar

The rules refer to each other through levels: those of a level read nested constructs by the level
below. A construct inside another starts at a later token, so a level for each character is enough.
-/
namespace PluginRelay.Script

open Grammar

/-- The rules for text that is nested no deeper than the number says. -/
def grammar : Nat → Rules
  | 0 =>
    { assignment := fun _ => fail "stack overflow"
      expression := fun _ => fail "stack overflow"
      unary := fun _ _ => fail "stack overflow"
      suffixed := fun _ _ => fail "stack overflow"
      pattern := fun _ _ => fail "stack overflow"
      statement := fun _ => fail "stack overflow"
      function := fun _ _ _ _ _ _ => fail "stack overflow"
      classTail := fun _ _ _ => fail "stack overflow" }
  | depth + 1 =>
    { assignment := fun c => assignment (grammar depth) c
      expression := fun c => expression (grammar depth) c
      unary := fun c rule => unary (grammar depth) c rule
      suffixed := fun c forNew => suffixed (grammar depth) c forNew
      pattern := fun c binding => pattern (grammar depth) c binding
      statement := fun c => statement (grammar depth) c
      function := fun c kind isAsync isGenerator start name =>
        function (grammar depth) c kind isAsync isGenerator start name
      classTail := fun c mustBeNamed start => classTail (grammar depth) c mustBeNamed start }

namespace Program

/-- Whether the first line is a comment for the shell. -/
def skipFirstLine (cs : List Char) : Cursor :=
  match cs with
  | '#' :: '!' :: _ =>
    let line := cs.takeWhile (!Lexical.isLineEnd ·)
    ⟨cs.drop line.length, line.length, 1, line.length⟩
  | _ => ⟨cs, 0, 1, 0⟩

/-- The statements of a text up to its end. -/
def reader (c : Surroundings) (depth : Nat) : Read Program := do
  let _ ← directives
  let list ← many do
    match ← current with
    | .eof => return none
    | _ => return some (← (grammar depth).statement c)
  let s ← get
  return ⟨s.strict, ((s.scopes.head?.map (·.hoisted)).getD []).reverse.eraseDups, list⟩

/-- Reads a script, with what is allowed in it. -/
def ofChars? (c : Surroundings) (strict : Bool) (cs : List Char) : Except SyntaxFault Program := do
  let source := cs.toArray
  let (token, cursor) ← (skipFirstLine cs).next strict
  let state : State := ⟨source, token, cursor, 1, 0, 1, strict, [⟨.script, [], [], []⟩], []⟩
  match (reader c (source.size + 8)).run state with
  | .ok p _ => .ok p
  | .error fault _ => .error fault

end Program

end PluginRelay.Script
