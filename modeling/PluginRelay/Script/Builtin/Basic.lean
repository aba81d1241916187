import PluginRelay.Script.Run

/-!
# Built-in functions

A table says of each function where it stands, how it is called, and what it does. A function object
refers to its place in the table.
-/
namespace PluginRelay.Script

/-- The object that has a built-in function as a member. -/
inductive Owner where
  | global
  | intrinsic (i : Intrinsic)
  /-- No object: only other functions lead to it. -/
  | nowhere
  deriving DecidableEq, Repr, Inhabited

inductive BuiltinRole where
  | method
  /-- A method by which an iterator goes on. -/
  | step
  | getter
  | setter
  /-- A constructor: where its instances inherit from, and the constructor that it inherits from. -/
  | constructor (proto : Option Intrinsic) (parent : Option String)
  /-- A function that the engine itself needs. -/
  | known (i : Intrinsic)
  deriving Inhabited

namespace Owner

/-- An object like `Math`, by its name. -/
def module (name : String) : Owner := .intrinsic (.module name)

end Owner

structure Builtin (σ : Type) [Evolving σ] where
  owner : Owner
  key : PropertyKey
  name : String
  length : Nat
  role : BuiltinRole
  run : Native σ

namespace Builtin

open Script.Action Script.Access Script.Convert

variable {σ : Type} [Evolving σ]

def method (owner : Owner) (name : String) (length : Nat) (run : Native σ) : Builtin σ :=
  ⟨owner, .ofString name, name, length, .method, run⟩

def step (owner : Owner) (name : String) (length : Nat) (run : Native σ) : Builtin σ :=
  ⟨owner, .ofString name, name, length, .step, run⟩

def symbolMethod (owner : Owner) (symbol : WellKnown) (length : Nat) (run : Native σ) : Builtin σ :=
  ⟨owner, symbol.key, "[Symbol." ++ symbol.name ++ "]", length, .method, run⟩

def getter (owner : Owner) (name : String) (run : Native σ) : Builtin σ :=
  ⟨owner, .ofString name, "get " ++ name, 0, .getter, run⟩

def symbolGetter (owner : Owner) (symbol : WellKnown) (run : Native σ) : Builtin σ :=
  ⟨owner, symbol.key, "get [Symbol." ++ symbol.name ++ "]", 0, .getter, run⟩

def setter (owner : Owner) (name : String) (run : Native σ) : Builtin σ :=
  ⟨owner, .ofString name, "set " ++ name, 1, .setter, run⟩

def constructor (name : String) (length : Nat) (proto : Intrinsic) (run : Native σ) : Builtin σ :=
  ⟨.global, .ofString name, name, length, .constructor (some proto) none, run⟩

def childConstructor (name : String) (length : Nat) (proto : Intrinsic) (parent : String)
    (run : Native σ) : Builtin σ :=
  ⟨.global, .ofString name, name, length, .constructor (some proto) (some parent), run⟩

/-! ### What many functions need -/

def ok (v : Value) : Action σ Value := return v

def nothing : Action σ Value := return .undefined

def units (s : Units) : Action σ Value := return .text s

def bool (b : Bool) : Action σ Value := return .bool b

/-- A function that is to be called back. -/
def callback (v : Value) : Action σ Value := do
  if ← isCallable v then return v else throwType "not a function"

/-- `this` as an object. -/
def thisObject (c : Call) : Action σ ObjectId := toObject c.this

def mustBeObject (v : Value) : Action σ ObjectId := do
  match v with
  | .object id => return id
  | _ => throwType "not an object"

def mustBeNew (c : Call) : Action σ Unit := do
  if !c.isNew then throwType "must be called with new"

/-- A new object of the class whose constructor is called. -/
def create (env : Env σ) (c : Call) (default : Intrinsic) (payload : Payload) : Action σ ObjectId := do
  let proto ← Function.prototypeFrom env c.newTarget default
  allocate (.new (some proto) payload)

def expected {α : Type} (className : String) : Action σ α := throwType (className ++ " object expected")

/-- The constructor by which an object's own class makes new objects. -/
def species (env : Env σ) (id : ObjectId) (default : Value) : Action σ Value := do
  let c ← Access.get env id constructorKey (.object id)
  match c with
  | .undefined => return default
  | .object _ =>
    let s ← getMember env c WellKnown.species.key
    if s.isNullish then return default
    if !(← isConstructor s) then throwType "not a constructor"
    return s
  | _ => throwType "not an object"

/-- Sets a property, whatever it takes. -/
def setStrict (env : Env σ) (id : ObjectId) (key : PropertyKey) (v : Value) : Action σ Unit :=
  setMember env (.object id) key v true

def defineStrict (env : Env σ) (id : ObjectId) (key : PropertyKey) (v : Value) : Action σ Unit :=
  must (Convert.define env id key (.ofProperty (.plain v)))

/-- `this` of a method that answers with the constructor itself. -/
def speciesGetter : Native σ := fun _ c => return c.this

end Builtin

end PluginRelay.Script
