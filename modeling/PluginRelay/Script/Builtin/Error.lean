import PluginRelay.Script.Builtin.Basic

/-!
# Errors

An error gets the trace of the functions that are running when it is made, without its constructor.
-/
namespace PluginRelay.Script.Builtin.ErrorFunctions

open Script.Action Script.Access Script.Convert

variable {σ : Type} [Evolving σ]

def construct (kind : ErrorKind) : Native σ := fun env c => do
  let newTarget := if c.isNew then c.newTarget else .object c.function
  let proto ← Function.prototypeFrom env newTarget (.errorPrototype kind)
  let id ← allocate (.new (some proto) .error)
  let isAggregate := kind = .aggregateError
  let message := if isAggregate then c.arg 1 else c.arg 0
  let options := if isAggregate then c.arg 2 else c.arg 1
  if !message.isUndefined then
    putProperty id messageKey (.hidden (.text (← toUnits env message)))
  if let .object o := options then
    if ← Access.has env o (named "cause") then
      putProperty id (named "cause") (.hidden (← Access.get env o (named "cause") options))
  if isAggregate then
    let list ← newArray (← Iterate.toList env (c.arg 0))
    putProperty id (named "errors") (.hidden (.object list))
  addTrace id "" 1
  return .object id

/-- Name and message of an error. -/
def toStringMethod : Native σ := fun env c => do
  let id ← mustBeObject c.this
  let name ← match ← Access.get env id nameKey c.this with
    | .undefined => pure (Units.ofString "Error")
    | v => toUnits env v
  let message ← match ← Access.get env id messageKey c.this with
    | .undefined => pure #[]
    | v => toUnits env v
  if name.isEmpty then units message
  else if message.isEmpty then units name
  else units (name ++ Units.ofString ": " ++ message)

def table : List (Builtin σ) :=
  constructor "Error" 1 (.errorPrototype .error) (construct .error) ::
    (ErrorKind.all.filter (· ≠ .error)).map (fun kind =>
      childConstructor kind.name (if kind = .aggregateError then 2 else 1) (.errorPrototype kind)
        "Error" (construct kind)) ++
    [method (.intrinsic (.errorPrototype .error)) "toString" 0 toStringMethod]

end PluginRelay.Script.Builtin.ErrorFunctions
