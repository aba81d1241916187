import PluginRelay.Script.Builtin
import PluginRelay.Script.Builtin.Internal

/-!
# Levels

Functions call each other through the operations of an `Env`. Each level of them hands its callees the
level below, and at the lowest level every operation fails. So calls nest no deeper than there are levels,
which is what bounds the stack of a script.
-/
namespace PluginRelay.Script

open Script.Action Script.Access Script.Convert

variable {σ : Type} [Evolving σ]

/-- What all calls need to know. -/
structure Natives (σ : Type) [Evolving σ] where
  builtins : Array (Builtin σ)
  host : HostFunction σ

namespace Level

def overflow {α : Type} : Action σ α := throwKind .internalError "stack overflow"

def runBuiltin (env : Env σ) (b : Builtin σ) (call : Call) (realm : RealmId) : Action σ Value :=
  framed ⟨.object call.function, none, none, default⟩ realm (b.run env call)

/-- A plain call of a function. -/
def call (natives : Natives σ) (env : Env σ) (f this : Value) (args : Array Value) : Action σ Value := do
  match f with
  | .object id =>
    match ← payload id with
    | .function c => callClosure env id c this args
    | .builtin index _ realm =>
      match natives.builtins[index]? with
      | some b => runBuiltin env b ⟨id, this, args, .undefined, #[]⟩ realm
      | none => throwType "not a function"
    | .internal which data realm =>
      inRealm realm (Builtin.InternalFunctions.run which env ⟨id, this, args, .undefined, data⟩)
    | .host hostId => do
      let this ← Evolution.numbered env.place this
      let args ← args.toList.mapM (Evolution.numbered env.place)
      natives.host env hostId ⟨id, this, args.toArray, .undefined, #[]⟩
    | .bound target boundThis boundArgs => env.call (.object target) boundThis (boundArgs ++ args)
    | .proxy parts callable _ =>
      if callable then callProxy env parts this args else throwType "not a function"
    | _ => throwType "not a function"
  | _ => throwType "not a function"

/-- A call by `new`. -/
def construct (natives : Natives σ) (env : Env σ) (f : Value) (args : Array Value) (newTarget : Value) :
    Action σ Value := do
  if !(← isConstructor f) then throwType "not a constructor"
  match f with
  | .object id =>
    match ← payload id with
    | .function c => constructClosure env id c args newTarget
    | .builtin index _ realm =>
      match natives.builtins[index]? with
      | some b => runBuiltin env b ⟨id, .undefined, args, newTarget, #[]⟩ realm
      | none => throwType "not a constructor"
    | .bound target _ boundArgs =>
      env.construct (.object target) (boundArgs ++ args)
        (if newTarget = f then .object target else newTarget)
    | .proxy parts _ _ => constructProxy env parts args newTarget
    | _ => throwType "not a constructor"
  | _ => throwType "not a constructor"

/-- Asks an iterator for a result. -/
def advance (natives : Natives σ) (env : Env σ) (iterator next : Value) : Action σ Value := do
  match next with
  | .object id =>
    match ← payload id with
    | .builtin index _ realm =>
      match natives.builtins[index]? with
      | some b =>
        match b.role with
        | .step => inRealm realm (b.run env ⟨id, iterator, #[], .undefined, #[]⟩)
        | _ => call natives env next iterator #[]
      | none => call natives env next iterator #[]
    | _ => call natives env next iterator #[]
  | _ => call natives env next iterator #[]

/-- Reads code and runs it for all scripts of the context to see. -/
def evaluate (env : Env σ) (text : Units) : Action σ Value := do
  let codes ← Source.read text.toChars Source.inputFile (.evaluated true []) .outermost false
  let id ← Function.newClosure codes ((codes.back?).getD default) #[]
  env.call (.object id) .undefined #[]

/-- The operations with a number of levels below them. -/
def operations (natives : Natives σ) : Nat → Env σ
  | 0 =>
    { call := fun _ _ _ => overflow
      advance := fun _ _ => overflow
      construct := fun _ _ _ => overflow
      getPrototype := fun _ => overflow
      setPrototype := fun _ _ => overflow
      isExtensible := fun _ => overflow
      preventExtensions := fun _ => overflow
      getOwn := fun _ _ => overflow
      define := fun _ _ _ => overflow
      has := fun _ _ => overflow
      get := fun _ _ _ => overflow
      set := fun _ _ _ _ => overflow
      delete := fun _ _ => overflow
      ownKeys := fun _ => overflow
      evaluate := fun _ => overflow
      place := id }
  | depth + 1 =>
    let env := operations natives depth
    { call := call natives env
      advance := advance natives env
      construct := construct natives env
      getPrototype := Access.getPrototype env
      setPrototype := Access.setPrototype env
      isExtensible := Access.isExtensible env
      preventExtensions := Access.preventExtensions env
      getOwn := Access.getOwn env
      define := Convert.define env
      has := Access.has env
      get := Access.get env
      set := Access.set env
      delete := Access.delete env
      ownKeys := Access.ownKeys env
      evaluate := evaluate env
      place := id }

end Level

end PluginRelay.Script
