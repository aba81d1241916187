import PluginRelay.Script.Builtin.Object

/-!
# Function
-/
namespace PluginRelay.Script.Builtin.FunctionFunctions

open Script.Action Script.Access Script.Convert

variable {σ : Type} [Evolving σ]

/-- The text of a function that is put together from parameters and a body. -/
def sourceText (start : String) (params : List Units) (body : Units) : Units :=
  Units.ofString start ++ Units.ofString " anonymous(" ++ Units.joined (Units.ofString ",") params ++
    Units.ofString "\n) \x7b\n" ++ body ++ Units.ofString "\n\x7d"

/-- A function made from texts; `start` says of which kind. -/
def fromTexts (start : String) (default : Intrinsic) : Native σ := fun env c => do
  let texts ← c.arguments.toList.mapM (toUnits env)
  let params := texts.dropLast
  let body := texts.getLastD #[]
  let source := Units.ofString "(" ++ sourceText start params body ++ Units.ofString ")"
  let f ← env.evaluate source
  match c.newTarget, f with
  | .object target, .object id =>
    if target ≠ c.function then
      let proto ← Function.prototypeFrom env c.newTarget default
      modifyObject id fun o => { o with prototype := some proto }
    return f
  | _, _ => return f

/-- The list of arguments that a value holds. -/
def argumentList (env : Env σ) (v : Value) : Action σ (Array Value) := do
  match v with
  | .object id =>
    let n ← lengthOf env id
    if 65534 < n then throwRange "too many arguments in function call (only 65534 allowed)"
    return (← elements env id n 0).toArray
  | _ => throwType "not a object"

def apply : Native σ := fun env c => do
  let f ← callback c.this
  if (c.arg 1).isNullish then env.call f (c.arg 0) #[]
  else env.call f (c.arg 0) (← argumentList env (c.arg 1))

def call : Native σ := fun env c => env.call c.this (c.arg 0) (c.arguments.extract 1 c.arguments.size)

/-- How many arguments a bound function still waits for. -/
def boundLength (env : Env σ) (id : ObjectId) (given : Nat) : Action σ Value := do
  match ← Access.getOwn env id lengthKey with
  | some _ =>
    match ← Access.get env id lengthKey (.object id) with
    | .int n => return .ofInt (max 0 (n - given))
    | .double x =>
      if x.isNaN then return .int 0
      else if x.isInfinite then return if x.isNegative then .int 0 else .double x
      else return .ofInt (max 0 (((x.truncate?).getD 0) - given))
    | _ => return .int 0
  | none => return .int 0

def bind : Native σ := fun env c => do
  match ← callback c.this with
  | .object target =>
    let args := c.arguments.extract 1 c.arguments.size
    let proto ← Access.getPrototype env target
    let id ← allocate (.new proto (.bound target (c.arg 0) args))
    let length ← boundLength env target args.size
    let name ← Access.get env target nameKey c.this
    let name := match name with
      | .string t => t.units
      | _ => #[]
    putProperty id lengthKey ⟨.data length, false, false, true⟩
    putProperty id nameKey ⟨.data (.text (Units.ofString "bound " ++ name)), false, false, true⟩
    return .object id
  | v => return v

/-- The text of a function whose code cannot be shown. -/
def nativeText (name : Units) : Units :=
  Units.ofString "function " ++ name ++ Units.ofString "() \x7b\n    [native code]\n\x7d"

def toStringMethod : Native σ := fun env c => do
  match ← callback c.this with
  | .object id =>
    match ← payload id with
    | .function f => units f.code.source
    | _ =>
      match ← Access.get env id nameKey c.this with
      | .undefined => units (nativeText #[])
      | v => units (nativeText (← toUnits env v))
  | _ => nothing

def hasInstance : Native σ := fun env c => do
  return .bool (← Arithmetic.isInstance env 64 c.this (c.arg 0))

/-- A constructor for functions of another kind, which no name leads to. -/
def hiddenConstructor (name start : String) (proto : Intrinsic) : Builtin σ :=
  ⟨.nowhere, .ofString name, name, 1, .constructor (some proto) (some "Function"), fromTexts start proto⟩

def table : List (Builtin σ) :=
  let proto := Owner.intrinsic .functionPrototype
  [constructor "Function" 1 .functionPrototype (fromTexts "function" .functionPrototype),
    method proto "call" 1 call,
    method proto "apply" 2 apply,
    method proto "bind" 1 bind,
    method proto "toString" 0 toStringMethod,
    symbolMethod proto .hasInstance 1 hasInstance,
    hiddenConstructor "GeneratorFunction" "function *" .generatorFunctionPrototype,
    hiddenConstructor "AsyncFunction" "async function" .asyncFunctionPrototype,
    hiddenConstructor "AsyncGeneratorFunction" "async function *" .asyncGeneratorFunctionPrototype,
    ⟨.nowhere, "", "", 0, .known .throwTypeError, fun _ _ => throwType "invalid property access"⟩]

end PluginRelay.Script.Builtin.FunctionFunctions
