import PluginRelay.Script.Builtin.Function

/-!
# Proxy and Reflect

A proxy hands operations on an object to another object. `Reflect` has the operations themselves.
-/
namespace PluginRelay.Script.Builtin.ProxyFunctions

open Script.Action Script.Access Script.Convert

variable {σ : Type} [Evolving σ]

/-! ### Proxies -/

def newProxy (target handler : Value) : Action σ ObjectId := do
  match target, handler with
  | .object t, .object h =>
    let callable := (← object t).isCallable
    let constructible ← isConstructor target
    allocate (.new none (.proxy (some (t, h)) callable constructible))
  | _, _ => throwType "not an object"

def construct : Native σ := fun _ c => do
  mustBeNew c
  return .object (← newProxy (c.arg 0) (c.arg 1))

def revocable : Native σ := fun _ c => do
  let proxy ← newProxy (c.arg 0) (c.arg 1)
  let id ← newPlain
  putProperty id (named "proxy") (.plain (.object proxy))
  let revoke ← Function.newInternal .revoke #[.object proxy] 0
  putProperty id (named "revoke") (.plain revoke)
  return .object id

/-- Takes target and handler away from a proxy. -/
def revoke (v : Value) : Action σ Unit := do
  match v with
  | .object id =>
    match ← payload id with
    | .proxy _ callable constructible => setPayload id (.proxy none callable constructible)
    | _ => return
  | _ => return

/-! ### Reflect -/

def apply : Native σ := fun env c => do
  let f ← callback (c.arg 0)
  env.call f (c.arg 1) (← FunctionFunctions.argumentList env (c.arg 2))

def reflectConstruct : Native σ := fun env c => do
  let newTarget := (c.arguments[2]?).getD (c.arg 0)
  if !(← isConstructor (c.arg 0)) || !(← isConstructor newTarget) then throwType "not a constructor"
  env.construct (c.arg 0) (← FunctionFunctions.argumentList env (c.arg 1)) newTarget

def succeeds (outcome : Action σ (Option String)) : Action σ Value := return .bool (← outcome).isNone

def defineProperty : Native σ := fun env c => do
  let id ← mustBeObject (c.arg 0)
  let key ← toKey env (c.arg 1)
  let change ← changeOf env (c.arg 2)
  succeeds (Convert.define env id key change)

def deleteProperty : Native σ := fun env c => do
  let id ← mustBeObject (c.arg 0)
  succeeds (Access.delete env id (← toKey env (c.arg 1)))

def get : Native σ := fun env c => do
  let id ← mustBeObject (c.arg 0)
  Access.get env id (← toKey env (c.arg 1)) ((c.arguments[2]?).getD (c.arg 0))

def set : Native σ := fun env c => do
  let id ← mustBeObject (c.arg 0)
  let key ← toKey env (c.arg 1)
  succeeds (Access.set env id key (c.arg 2) ((c.arguments[3]?).getD (c.arg 0)))

def getOwnPropertyDescriptor : Native σ := fun env c => do
  let id ← mustBeObject (c.arg 0)
  match ← Access.getOwn env id (← toKey env (c.arg 1)) with
  | some p => return .object (← describe p)
  | none => nothing

def getPrototypeOf : Native σ := fun env c => do
  return ObjectFunctions.asValue (← Access.getPrototype env (← mustBeObject (c.arg 0)))

def setPrototypeOf : Native σ := fun env c => do
  let id ← mustBeObject (c.arg 0)
  let proto ← ObjectFunctions.prototypeArgument (c.arg 1)
  succeeds (Access.setPrototype env id proto)

def has : Native σ := fun env c => do
  let id ← mustBeObject (c.arg 0)
  return .bool (← Access.has env id (← toKey env (c.arg 1)))

def isExtensible : Native σ := fun env c => do
  return .bool (← Access.isExtensible env (← mustBeObject (c.arg 0)))

def preventExtensions : Native σ := fun env c => do
  return .bool (← Access.preventExtensions env (← mustBeObject (c.arg 0)))

def ownKeys : Native σ := fun env c => do
  let keys ← Access.ownKeys env (← mustBeObject (c.arg 0))
  return .object (← newArray (keys.map (·.toValue)))

def table : List (Builtin σ) :=
  let static := Owner.intrinsic (.constructor "Proxy")
  let reflect := Owner.module "Reflect"
  [⟨.global, "Proxy", "Proxy", 2, .constructor none none, construct⟩,
    method static "revocable" 2 revocable,
    method reflect "apply" 3 apply,
    method reflect "construct" 2 reflectConstruct,
    method reflect "defineProperty" 3 defineProperty,
    method reflect "deleteProperty" 2 deleteProperty,
    method reflect "get" 2 get,
    method reflect "getOwnPropertyDescriptor" 2 getOwnPropertyDescriptor,
    method reflect "getPrototypeOf" 1 getPrototypeOf,
    method reflect "has" 2 has,
    method reflect "isExtensible" 1 isExtensible,
    method reflect "ownKeys" 1 ownKeys,
    method reflect "preventExtensions" 1 preventExtensions,
    method reflect "set" 3 set,
    method reflect "setPrototypeOf" 2 setPrototypeOf]

end PluginRelay.Script.Builtin.ProxyFunctions
