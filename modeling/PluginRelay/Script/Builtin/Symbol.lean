import PluginRelay.Script.Builtin.Basic

/-!
# Symbol
-/
namespace PluginRelay.Script.Builtin.SymbolFunctions

open Script.Action Script.Access Script.Convert
open Evolution (update)

variable {σ : Type} [Evolving σ]

def construct : Native σ := fun env c => do
  if c.isNew then throwType "not a constructor"
  let description ← if (c.arg 0).isUndefined then pure none else pure (some (← toUnits env (c.arg 0)))
  return .symbol (← newSymbol ⟨description, false, false⟩)

def thisSymbol (c : Call) : Action σ SymbolId := do
  match c.this with
  | .symbol id => return id
  | .object o =>
    match ← payload o with
    | .primitive (.symbol id) => return id
    | _ => throwType "not a symbol"
  | _ => throwType "not a symbol"

def shown (id : SymbolId) : Action σ Units := do
  let d := ((← symbol id).description).getD #[]
  return Units.ofString "Symbol(" ++ d ++ Units.ofString ")"

def toStringMethod : Native σ := fun _ c => do units (← shown (← thisSymbol c))

def description : Native σ := fun _ c => do
  match (← symbol (← thisSymbol c)).description with
  | some d => units d
  | none => nothing

def registered : Native σ := fun env c => do
  let name ← toUnits env (c.arg 0)
  match (← read).registry.find? fun (n, _) => n == name with
  | some (_, id) => return .symbol id
  | none =>
    let id ← newSymbol ⟨some name, false, true⟩
    update fun m => { m with registry := (name, id) :: m.registry }
    return .symbol id

def keyFor : Native σ := fun _ c => do
  match c.arg 0 with
  | .symbol id =>
    let info ← symbol id
    if info.isRegistered then units (info.description.getD #[]) else nothing
  | _ => throwType "not a symbol"

def table : List (Builtin σ) :=
  let static := Owner.intrinsic (.constructor "Symbol")
  let proto := Owner.intrinsic .symbolPrototype
  [constructor "Symbol" 0 .symbolPrototype construct,
    method static "for" 1 registered,
    method static "keyFor" 1 keyFor,
    method proto "toString" 0 toStringMethod,
    method proto "valueOf" 0 (fun _ c => do ok (.symbol (← thisSymbol c))),
    symbolMethod proto .toPrimitive 1 (fun _ c => do ok (.symbol (← thisSymbol c))),
    getter proto "description" description]

end PluginRelay.Script.Builtin.SymbolFunctions
