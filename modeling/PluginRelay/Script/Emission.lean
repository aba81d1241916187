import PluginRelay.Script.Emission.Statement
import PluginRelay.Script.Grammar

/-!
# From programs to code

The emitters for nested parts come in levels, as the rules of the grammar do: a part of a tree is
emitted by the level below that of the whole.
-/
namespace PluginRelay.Script

open Emission

/-- Emission for trees no deeper than the number says. -/
def emitter : Nat → Emitter
  | 0 =>
    { expression := fun _ => throw "stack overflow"
      statement := fun _ => throw "stack overflow"
      pattern := fun _ _ => throw "stack overflow"
      named := fun _ _ => throw "stack overflow" }
  | depth + 1 =>
    { expression := fun e => expression (emitter depth) e
      statement := fun s => statement (emitter depth) s
      pattern := fun declares target => pattern (emitter depth) declares target
      named := fun hint e => named (emitter depth) hint e }

/-- What a program is read for. -/
inductive ProgramRole where
  /-- A script: it may declare names for all scripts of its context. -/
  | script
  /-- Code that is evaluated by other code, and sees some of its variables. -/
  | evaluated (isGlobal : Bool) (visible : List Visible)

namespace CodeTable

/-- Declares the names of a script. -/
def declareScript (em : Emitter) (p : Program) : Emit Unit := do
  let functions := p.body.filterMap declaredFunction?
  let functionNames := (functions.map (·.2)).eraseDups
  let lexical := p.body.flatMap lexicalNames
  emit (.declareGlobals (p.hoisted.filter (!functionNames.contains ·)) functionNames
    (lexical.map fun (name, kind) => (name, kind = .const)) false)
  for (f, name) in functions do
    em.named name f
    emit (.defineGlobalFunction name false)

/-- Declares the names of evaluated code. Only code that is not strict leaves names behind. -/
def declareEvaluated (em : Emitter) (p : Program) (isGlobal : Bool) : Emit Unit := do
  let functions := p.body.filterMap declaredFunction?
  if isGlobal && !p.strict then
    let functionNames := (functions.map (·.2)).eraseDups
    emit (.declareGlobals (p.hoisted.filter (!functionNames.contains ·)) functionNames [] true)
    declareLexical p.body
    for (f, name) in functions do
      em.named name f
      emit (.defineGlobalFunction name true)
  else
    for name in p.hoisted do
      let _ ← declare name .var
    declareLexical p.body
    for (f, name) in functions do
      em.named name f
      setName name default

def programBody (em : Emitter) (role : ProgramRole) (p : Program) : Emit Unit := do
  let n ← newSlot
  modifyCurrent fun d => { d with completion := some (.own n) }
  match role with
  | .script => declareScript em p
  | .evaluated isGlobal _ => declareEvaluated em p isGlobal
  for s in p.body do em.statement s
  emit (.get (.own n) "completion")
  emit .return

/-- The draft in which a program is emitted. Evaluated code finds the variables it can see in its shared
cells. -/
def programDraft (role : ProgramRole) (p : Program) : Draft :=
  match role with
  | .script => { Draft.new .normal false false p.strict with isGlobal := true }
  | .evaluated isGlobal visible =>
    let kind := if visible.isEmpty then FunctionKind.normal else .arrow
    let renumbered := visible.zipIdx.map fun (v, i) => { v with slot := Slot.captured i }
    { Draft.new kind false false p.strict with
      visible := renumbered
      captured := (visible.map (·.slot)).toArray
      isGlobal := isGlobal && !p.strict }

/-- The code of a program; the script itself is its last function. -/
def ofProgram (role : ProgramRole) (file : String) (depth : Nat) (p : Program) :
    Except String CodeTable :=
  let state : State := ⟨programDraft role p, [], #[], file⟩
  match (programBody (emitter depth) role p).run state with
  | .ok _ s =>
    .ok (s.codes.push (s.current.finish "<eval>" file #[] ⟨1, 1⟩ 0))
  | .error message _ => .error message

end CodeTable

end PluginRelay.Script
