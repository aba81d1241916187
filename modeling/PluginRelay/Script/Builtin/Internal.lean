import PluginRelay.Script.Builtin.Promise
import PluginRelay.Script.Builtin.Proxy

/-!
# The engine's own functions

What the functions do that the engine makes for its own use.
-/
namespace PluginRelay.Script.Builtin.InternalFunctions

open Script.Action Script.Access Script.Convert

variable {σ : Type} [Evolving σ]

/-- Keeps the two functions that a constructor hands over for a promise. -/
def takeResolvers (holder : Value) (c : Call) : Action σ Unit := do
  match holder with
  | .object id =>
    let old := (← object id).properties.toList.map fun (_, _, p) => p.value
    if old.any (!·.isUndefined) then throwType "resolving function already set"
    putProperty id (.index 0) (.plain (c.arg 0))
    putProperty id (.index 1) (.plain (c.arg 1))
  | _ => return

def run (which : Internal) : Native σ := fun env c => do
  let first := (c.data[0]?).getD .undefined
  let second := (c.data[1]?).getD .undefined
  match which with
  | .settle rejects =>
    Promise.settleOnce env rejects c.data (c.arg 0)
    nothing
  | .executor =>
    takeResolvers first c
    nothing
  | .resume rejects =>
    match first with
    | .object id =>
      resumeRoutine env id rejects (c.arg 0)
      nothing
    | _ => nothing
  | .resumeGenerator rejects =>
    match first with
    | .object id =>
      resumeAsync env id rejects (c.arg 0)
      nothing
    | _ => nothing
  | .element which => PromiseFunctions.takeElement env which c.function c.data (c.arg 0)
  | .revoke =>
    ProxyFunctions.revoke first
    nothing
  | .finallyThen rejects => PromiseFunctions.afterFinally env rejects first second (c.arg 0)
  | .constant => return first
  | .thrower => throw first
  | .unwrapped => Iterate.newResult (c.arg 0) (truthy first)

end PluginRelay.Script.Builtin.InternalFunctions
