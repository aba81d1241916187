import PluginRelay.Script.Builtin.Object
import PluginRelay.Script.JsonText

/-!
# JSON
-/
namespace PluginRelay.Script.Builtin.JsonFunctions

open Script.Action Script.Access Script.Convert

variable {σ : Type} [Evolving σ]

/-! ### Reading -/

mutual

/-- A tree as a value. -/
def build : JsonText.Tree → Action σ Value
  | .null => return .null
  | .bool b => return .bool b
  | .number v => return v
  | .text s => return .text s
  | .list items => do
    let id ← newArray (← buildAll items)
    return .object id
  | .members entries => do
    let id ← newPlain
    buildMembers id entries
    return .object id

def buildAll : List JsonText.Tree → Action σ (List Value)
  | [] => return []
  | t :: rest => do
    let v ← build t
    return v :: (← buildAll rest)

def buildMembers (id : ObjectId) : List (Units × JsonText.Tree) → Action σ Unit
  | [] => return
  | (key, t) :: rest => do
    let v ← build t
    putProperty id (.ofUnits key) (.plain v)
    buildMembers id rest

end

/-- The keys of an object that a loop over them visits, without those of its prototypes. -/
def enumerableKeys (env : Env σ) (id : ObjectId) : Action σ (List PropertyKey) := do
  (← Access.ownKeys env id).filterM fun key => do
    if key.isSymbol then return false
    return ((← Access.getOwn env id key).any (·.enumerable))

/-- Lets a function revise a value and all in it, from the inside out. -/
def revise (env : Env σ) (f : Value) : (fuel : Nat) → ObjectId → PropertyKey → Action σ Value
  | 0, _, _ => throwKind .internalError "stack overflow"
  | fuel + 1, holder, key => do
    let v ← Access.get env holder key (.object holder)
    if let .object id := v then
      let keys ← if ← ObjectFunctions.isArray 64 v then do
          let n ← lengthOf env id
          pure ((List.range n).map PropertyKey.ofNat)
        else enumerableKeys env id
      for k in keys do
        match ← revise env f fuel id k with
        | .undefined =>
          let _ ← Access.delete env id k
        | new =>
          let _ ← Convert.define env id k (.ofProperty (.plain new))
    env.call f (.object holder) #[key.toValue, v]

def parse : Native σ := fun env c => do
  let text ← toUnits env (c.arg 0)
  match JsonText.read text with
  | .error fault =>
    let e ← newError .syntaxError (Units.ofString fault.message)
    addTrace e (fault.traceLine "<input>") 0
    throw (.object e)
  | .ok tree =>
    let v ← build tree
    if ← isCallable (c.arg 1) then
      let holder ← newPlain
      putProperty holder (.name #[]) (.plain v)
      revise env (c.arg 1) 1000 holder (.name #[])
    else return v

/-! ### Writing -/

structure Style where
  replacer : Value
  /-- The keys to write, if a list of them is given. -/
  keys : Option (List PropertyKey)
  gap : Units

/-- The value that is written for a value, `undefined` if nothing is. -/
def prepared (env : Env σ) (style : Style) (holder v : Value) (key : PropertyKey) : Action σ Value := do
  let v ← match v with
    | .object _ | .bigint _ => do
      let f ← getMember env v (named "toJSON")
      if ← isCallable f then env.call f v #[key.toValue] else pure v
    | _ => pure v
  let v ← if style.replacer.isUndefined then pure v
    else env.call style.replacer holder #[key.toValue, v]
  match v with
  | .undefined | .symbol _ => return .undefined
  | .object _ => if ← isCallable v then return .undefined else return v
  | _ => return v

/-- The text of a simple value. -/
def simple (v : Value) : Action σ Units := do
  match v with
  | .string t => return JsonText.quoted t.units
  | .double x => if x.isFinite then simpleToUnits v else return Units.ofString "null"
  | .bigint _ => throwType "bigint are forbidden in JSON.stringify"
  | v => simpleToUnits v

/-- A simple value for an object that stands for one. -/
def unwrapped (env : Env σ) (v : Value) : Action σ Value := do
  match v with
  | .object id =>
    match ← payload id with
    | .primitive (.string _) => toText env v
    | .primitive (.int _) | .primitive (.double _) => toNumber env v
    | .primitive (.bool b) => return .bool b
    | .primitive (.bigint n) => return .bigint n
    | _ => return v
  | _ => return v

def write (env : Env σ) (style : Style) :
    (fuel : Nat) → (around : List ObjectId) → (indent : Units) → Value → Action σ Units
  | 0, _, _, _ => throwKind .internalError "stack overflow"
  | fuel + 1, around, indent, v => do
    match ← unwrapped env v with
    | .object id =>
      if around.contains id then throwType "circular reference"
      let inner := indent ++ style.gap
      let isLoose := !style.gap.isEmpty
      let separator := if isLoose then #[10] ++ inner else #[]
      let closing := if isLoose then #[10] ++ indent else #[]
      if ← ObjectFunctions.isArray 64 v then
        let n ← lengthOf env id
        let mut result : Units := #[91]
        for i in [0:n] do
          if 0 < i then result := result.push 44
          let item ← Access.get env id (.ofNat i) v
          let item ← prepared env style v item (.ofNat i)
          let item := if item.isUndefined then .null else item
          result := result ++ separator ++ (← write env style fuel (id :: around) inner item)
        return result ++ (if 0 < n then closing else #[]) ++ #[93]
      else
        let keys ← match style.keys with
          | some keys => pure keys
          | none => enumerableKeys env id
        let mut result : Units := #[123]
        let mut hasContent := false
        for key in keys do
          let item ← Access.get env id key v
          let item ← prepared env style v item key
          if !item.isUndefined then
            if hasContent then result := result.push 44
            hasContent := true
            let name := JsonText.quoted ((key.units?).getD #[])
            let colon := if isLoose then #[58, 32] else #[58]
            result := result ++ separator ++ name ++ colon ++
              (← write env style fuel (id :: around) inner item)
        return result ++ (if hasContent then closing else #[]) ++ #[125]
    | p => simple p

/-- The keys that a list names. -/
def keyList (env : Env σ) (id : ObjectId) : Action σ (List PropertyKey) := do
  let n ← lengthOf env id
  let mut keys : List PropertyKey := []
  for i in [0:n] do
    let v ← Access.get env id (.ofNat i) (.object id)
    let key ← match v with
      | .string t => pure (some (PropertyKey.ofUnits t.units))
      | .int _ | .double _ => do pure (some (PropertyKey.ofUnits (← toUnits env v)))
      | .object o =>
        match ← payload o with
        | .primitive (.string _) | .primitive (.int _) | .primitive (.double _) =>
          pure (some (PropertyKey.ofUnits (← toUnits env v)))
        | _ => pure none
      | _ => pure none
    match key with
    | some k => if !keys.contains k then keys := keys ++ [k]
    | none => continue
  return keys

/-- What each level is indented by. -/
def gapOf (env : Env σ) (v : Value) : Action σ Units := do
  match ← unwrapped env v with
  | .string t => return t.units.slice 0 10
  | .int n => return Array.replicate (max 0 (min 10 n)).toNat 32
  | .double x => return Array.replicate ((wholeOf x).clamp 0 10).toNat 32
  | _ => return #[]

def stringify : Native σ := fun env c => do
  let replacer := c.arg 1
  let (function, keys) ← if ← isCallable replacer then pure (replacer, none)
    else if ← ObjectFunctions.isArray 64 replacer then
      match replacer with
      | .object id => do pure (Value.undefined, some (← keyList env id))
      | _ => pure (.undefined, none)
    else pure (.undefined, none)
  let style : Style := ⟨function, keys, ← gapOf env (c.arg 2)⟩
  let holder ← newPlain
  putProperty holder (.name #[]) (.plain (c.arg 0))
  match ← prepared env style (.object holder) (c.arg 0) (.name #[]) with
  | .undefined => nothing
  | v => units (← write env style 1000 [] #[] v)

def table : List (Builtin σ) :=
  let json := Owner.module "JSON"
  [method json "parse" 2 parse, method json "stringify" 3 stringify]

end PluginRelay.Script.Builtin.JsonFunctions
