import PluginRelay.Script.Builtin.Iterator

/-!
# Maps and sets

Entries are visited in the order in which they were made, also by loops that add and remove some.
-/
namespace PluginRelay.Script.Builtin.CollectionFunctions

open Script.Action Script.Access Script.Convert

variable {σ : Type} [Evolving σ]

/-- The four kinds of collections. -/
structure Kind where
  isMap : Bool
  isWeak : Bool
  deriving DecidableEq, Inhabited

namespace Kind

def all : List Kind := [⟨true, false⟩, ⟨false, false⟩, ⟨true, true⟩, ⟨false, true⟩]

def name (k : Kind) : String := (if k.isWeak then "Weak" else "") ++ if k.isMap then "Map" else "Set"

def prototype (k : Kind) : Intrinsic :=
  match k.isMap, k.isWeak with
  | true, false => .mapPrototype
  | false, false => .setPrototype
  | true, true => .weakMapPrototype
  | false, true => .weakSetPrototype

def payload (k : Kind) (t : Table) : Payload := if k.isMap then .map t k.isWeak else .set t k.isWeak

/-- The method that adds what is in a source. -/
def adder (k : Kind) : String := if k.isMap then "set" else "add"

end Kind

/-- The object of a collection of the given kind. -/
def thisTable (k : Kind) (c : Call) : Action σ (ObjectId × Table) := do
  match c.this with
  | .object id =>
    match ← payload id with
    | .map t isWeak => if k = ⟨true, isWeak⟩ then return (id, t) else expected k.name
    | .set t isWeak => if k = ⟨false, isWeak⟩ then return (id, t) else expected k.name
    | _ => expected k.name
  | _ => expected k.name

/-- Changes the table of an object in its place. -/
def modifyTable (id : ObjectId) (change : Table → Table) : Action σ Unit :=
  modifyObject id fun o =>
    match o with
    | ⟨proto, isExtensible, .map t isWeak, properties, stamp⟩ =>
      ⟨proto, isExtensible, .map (change t) isWeak, properties, stamp⟩
    | ⟨proto, isExtensible, .set t isWeak, properties, stamp⟩ =>
      ⟨proto, isExtensible, .set (change t) isWeak, properties, stamp⟩
    | o => o

def construct (k : Kind) : Native σ := fun env c => do
  mustBeNew c
  let id ← create env c k.prototype (k.payload .empty)
  let source := c.arg 0
  if !source.isNullish then
    let add ← Access.get env id (named k.adder) (.object id)
    if !(← isCallable add) then throwType "set/add is not a function"
    Iterate.forEach env source fun v => do
      if k.isMap then
        if !v.isObject then throwType "not an object"
        let key ← getMember env v (.index 0)
        let value ← getMember env v (.index 1)
        let _ ← env.call add (.object id) #[key, value]
      else
        let _ ← env.call add (.object id) #[v]
  return .object id

def checkKey (k : Kind) (v : Value) : Action σ Unit := do
  if k.isWeak && !v.isObject then throwType "not an object"

def set (k : Kind) : Native σ := fun _ c => do
  let (id, _) ← thisTable k c
  checkKey k (c.arg 0)
  modifyTable id (·.insert (c.arg 0) (if k.isMap then c.arg 1 else .undefined))
  return c.this

def get (k : Kind) : Native σ := fun _ c => do
  let (_, t) ← thisTable k c
  return (t.find? (c.arg 0)).getD .undefined

def has (k : Kind) : Native σ := fun _ c => do
  let (_, t) ← thisTable k c
  return .bool (t.contains (c.arg 0))

def delete (k : Kind) : Native σ := fun _ c => do
  let (id, t) ← thisTable k c
  let found := t.contains (c.arg 0)
  modifyTable id (·.erase (c.arg 0))
  return .bool found

def clear (k : Kind) : Native σ := fun _ c => do
  let (id, _) ← thisTable k c
  modifyTable id (·.clear)
  nothing

def size (k : Kind) : Native σ := fun _ c => do
  let (_, t) ← thisTable k c
  return .ofNat t.size

/-- Visits the entries from a place on; new ones are visited too. -/
def visit (env : Env σ) (k : Kind) (id : ObjectId) (f this : Value) : (fuel : Nat) → (i : Nat) → Action σ Unit
  | 0, _ => return
  | fuel + 1, i => do
    match ← IteratorFunctions.tableOf (.object id) with
    | none => return
    | some t =>
      match IteratorFunctions.nextEntry t (t.entries.size - i) i with
      | some (j, key, v) =>
        let _ ← env.call f this #[if k.isMap then v else key, key, .object id]
        visit env k id f this fuel j
      | none => return

def forEach (k : Kind) : Native σ := fun env c => do
  let (id, _) ← thisTable k c
  let f ← callback (c.arg 0)
  visit env k id f (c.arg 1) (1 <<< 53) 0
  nothing

def iterator (k : Kind) (kind : Iteration) : Native σ := fun _ c => do
  let _ ← thisTable k c
  let proto := if k.isMap then Intrinsic.mapIteratorPrototype else .setIteratorPrototype
  return .object (← newObject proto (.tableIterator c.this 0 kind k.isMap))

/-- A map from the answers of a function to lists of the values that it was given. -/
def groupBy : Native σ := fun env c => do
  let f ← callback (c.arg 1)
  let items ← Iterate.toList env (c.arg 0)
  let id ← newObject .mapPrototype (.map .empty false)
  for (v, i) in items.zipIdx do
    let key ← env.call f .undefined #[v, .ofNat i]
    match ← IteratorFunctions.tableOf (.object id) with
    | none => continue
    | some t =>
      match t.find? key with
      | some list => Step.append list v
      | none =>
        let list ← newArray [v]
        modifyTable id (·.insert key (.object list))
  return .object id

def tableFor (k : Kind) : List (Builtin σ) :=
  let static := Owner.intrinsic (.constructor k.name)
  let proto := Owner.intrinsic k.prototype
  let adding := if k.isMap then [method proto "set" 2 (set k), method proto "get" 1 (get k)]
    else [method proto "add" 1 (set k)]
  let entries := if k.isMap then
      [method proto "values" 0 (iterator k .values), method proto "keys" 0 (iterator k .keys),
        method proto "entries" 0 (iterator k .entries)]
    else [method proto "values" 0 (iterator k .values), method proto "entries" 0 (iterator k .entries)]
  let plain := if k.isWeak then []
    else [method proto "clear" 0 (clear k), getter proto "size" (size k),
      method proto "forEach" 1 (forEach k)] ++ entries
  let statics := if k.isWeak then [] else [symbolGetter static .species speciesGetter]
  [constructor k.name 0 k.prototype (construct k)] ++ statics ++ adding ++
    [method proto "has" 1 (has k), method proto "delete" 1 (delete k)] ++ plain

def table : List (Builtin σ) :=
  Kind.all.flatMap tableFor ++
    [method (.intrinsic (.constructor "Map")) "groupBy" 2 groupBy]

end PluginRelay.Script.Builtin.CollectionFunctions
