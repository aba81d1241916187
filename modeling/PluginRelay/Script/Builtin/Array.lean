import PluginRelay.Script.Builtin.Object

/-!
# Array

Most methods work on any object with a length. Where elements are missing, some methods skip them.
-/
namespace PluginRelay.Script.Builtin.ArrayFunctions

open Script.Action Script.Access Script.Convert

variable {σ : Type} [Evolving σ]

/-! ### Elements -/

def element (env : Env σ) (id : ObjectId) (i : Nat) : Action σ Value :=
  Access.get env id (.ofNat i) (.object id)

/-- An element, if it is there. -/
def present? (env : Env σ) (id : ObjectId) (i : Nat) : Action σ (Option Value) := do
  if ← Access.has env id (.ofNat i) then return some (← element env id i) else return none

def setElement (env : Env σ) (id : ObjectId) (i : Nat) (v : Value) : Action σ Unit :=
  setStrict env id (.ofNat i) v

def setLength (env : Env σ) (id : ObjectId) (n : Nat) : Action σ Unit :=
  setStrict env id lengthKey (.ofNat n)

def deleteElement (env : Env σ) (id : ObjectId) (i : Nat) : Action σ Unit :=
  must (Access.delete env id (.ofNat i))

def checkLength (n : Nat) : Action σ Unit := do
  if lengthLimit < n then throwType "Array loo long"

/-! ### Making lists -/

/-- A list of missing elements. -/
def ofLength (n : Nat) : Action σ ObjectId := do
  if 4294967295 < n then throwRange "invalid array length"
  newObject .arrayPrototype (.array n false)

def construct : Native σ := fun env c => do
  let newTarget := if c.isNew then c.newTarget else .object c.function
  let proto ← Function.prototypeFrom env newTarget .arrayPrototype
  let items ← match c.arguments.toList with
    | [v] =>
      if v.number?.isSome then
        match lengthOf? v with
        | some n => return .object (← allocate (.new (some proto) (.array n false)))
        | none => throwRange "invalid array length"
      else pure [v]
    | items => pure items
  let id ← newArray items
  modifyObject id fun o => { o with prototype := some proto }
  return .object id

/-- A list by the constructor that a list's own class names for its results. -/
def speciesList (env : Env σ) (id : ObjectId) (n : Nat) : Action σ ObjectId := do
  if !(← ObjectFunctions.isArray 64 (.object id)) then ofLength n
  else
    let constructor ← Access.get env id constructorKey (.object id)
    let constructor ← match constructor with
      | .object c => do
        let foreign ← (← read).realms.toList.zipIdx.anyM fun (_, i) => do
          return i ≠ (← read).realm && (← intrinsicOf i (.constructor "Array")) = c
        if foreign then pure Value.undefined
        else
          match ← getMember env constructor WellKnown.species.key with
          | .null => pure .undefined
          | v => pure v
      | v => pure v
    if constructor.isUndefined then ofLength n
    else
      match ← env.construct constructor #[.ofNat n] constructor with
      | .object made => return made
      | _ => throwType "not an object"

/-- A list made by `this`, if that is a constructor. -/
def listBy (env : Env σ) (c : Call) (arguments : Array Value) : Action σ ObjectId := do
  if ← isConstructor c.this then
    match ← env.construct c.this arguments c.this with
    | .object id => return id
    | _ => throwType "not an object"
  else
    match arguments[0]? with
    | some v => ofLength ((lengthOf? v).getD 4294967296)
    | none => newArray []

def fromValues : Native σ := fun env c => do
  let mapper ← if (c.arg 1).isUndefined then pure none else pure (some (← callback (c.arg 1)))
  let mapped (v : Value) (i : Nat) : Action σ Value :=
    match mapper with
    | some f => env.call f (c.arg 2) #[v, .ofNat i]
    | none => return v
  let method ← getMember env (c.arg 0) WellKnown.iterator.key
  if !method.isNullish then
    let id ← listBy env c #[]
    let counter ← newCell (some (.int 0))
    let count : Action σ Nat := do
      match ← cell counter with
      | some (.int n) => return n.toNat
      | _ => return 0
    Iterate.forEach env (c.arg 0) fun v => do
      let i ← count
      defineStrict env id (.ofNat i) (← mapped v i)
      setCell counter (some (.int (i + 1)))
    setLength env id (← count)
    return .object id
  else
    let source ← toObject (c.arg 0)
    let n ← lengthOf env source
    let id ← listBy env c #[.ofNat n]
    for i in [0:n] do
      defineStrict env id (.ofNat i) (← mapped (← element env source i) i)
    setLength env id n
    return .object id

def ofValues : Native σ := fun env c => do
  let id ← listBy env c #[.ofNat c.arguments.size]
  for (v, i) in c.arguments.toList.zipIdx do defineStrict env id (.ofNat i) v
  setLength env id c.arguments.size
  return .object id

def isArray : Native σ := fun _ c => do bool (← ObjectFunctions.isArray 64 (c.arg 0))

/-! ### Going through lists -/

/-- `this` as an object, and its length. -/
def thisList (env : Env σ) (c : Call) : Action σ (ObjectId × Nat) := do
  let id ← thisObject c
  return (id, ← lengthOf env id)

/-- A test of an element by a function that is given element, place and list. -/
def ask (env : Env σ) (f this : Value) (id : ObjectId) (v : Value) (i : Nat) : Action σ Value :=
  env.call f this #[v, .ofNat i, .object id]

def every : Native σ := fun env c => do
  let (id, n) ← thisList env c
  let f ← callback (c.arg 0)
  for i in [0:n] do
    match ← present? env id i with
    | some v => if !truthy (← ask env f (c.arg 1) id v i) then return .bool false
    | none => continue
  return .bool true

def some_ : Native σ := fun env c => do
  let (id, n) ← thisList env c
  let f ← callback (c.arg 0)
  for i in [0:n] do
    match ← present? env id i with
    | some v => if truthy (← ask env f (c.arg 1) id v i) then return .bool true
    | none => continue
  return .bool false

def forEach : Native σ := fun env c => do
  let (id, n) ← thisList env c
  let f ← callback (c.arg 0)
  for i in [0:n] do
    match ← present? env id i with
    | some v =>
      let _ ← ask env f (c.arg 1) id v i
    | none => continue
  nothing

def map : Native σ := fun env c => do
  let (id, n) ← thisList env c
  let f ← callback (c.arg 0)
  let result ← speciesList env id n
  for i in [0:n] do
    match ← present? env id i with
    | some v => defineStrict env result (.ofNat i) (← ask env f (c.arg 1) id v i)
    | none => continue
  return .object result

def filter : Native σ := fun env c => do
  let (id, n) ← thisList env c
  let f ← callback (c.arg 0)
  let result ← speciesList env id 0
  let mut count := 0
  for i in [0:n] do
    match ← present? env id i with
    | some v =>
      if truthy (← ask env f (c.arg 1) id v i) then
        defineStrict env result (.ofNat count) v
        count := count + 1
    | none => continue
  return .object result

/-- Combines the elements, from the start or from the end. -/
def reduce (fromEnd : Bool) : Native σ := fun env c => do
  let (id, n) ← thisList env c
  let f ← callback (c.arg 0)
  let mut total : Option Value := c.arguments[1]?
  for k in [0:n] do
    let i := if fromEnd then n - 1 - k else k
    match ← present? env id i with
    | some v =>
      match total with
      | none => total := some v
      | some t => total := some (← env.call f .undefined #[t, v, .ofNat i, .object id])
    | none => continue
  match total with
  | some v => return v
  | none => throwType "empty array"

/-- Finds an element, or its place, from the start or from the end. -/
def find (fromEnd givesPlace : Bool) : Native σ := fun env c => do
  let (id, n) ← thisList env c
  let f ← callback (c.arg 0)
  for k in [0:n] do
    let i := if fromEnd then n - 1 - k else k
    let v ← element env id i
    if truthy (← ask env f (c.arg 1) id v i) then
      return if givesPlace then .ofNat i else v
  return if givesPlace then .int (-1) else .undefined

/-! ### Searching -/

def at_ : Native σ := fun env c => do
  let (id, n) ← thisList env c
  match ← toWhole env (c.arg 0) with
  | .finite i =>
    let i := if i < 0 then i + n else i
    if 0 ≤ i && i < n then element env id i.toNat else nothing
  | .infinite _ => nothing

def indexOf : Native σ := fun env c => do
  let (id, n) ← thisList env c
  if n = 0 then return .int (-1)
  let start ← toPlace env (c.arg 1) n 0
  for i in [start:n] do
    match ← present? env id i with
    | some v => if v.strictlyEquals (c.arg 0) then return .ofNat i
    | none => continue
  return .int (-1)

def lastIndexOf : Native σ := fun env c => do
  let (id, n) ← thisList env c
  if n = 0 then return .int (-1)
  let last ← match c.arguments[1]? with
    | none => pure ((n : Int) - 1)
    | some v =>
      match ← toWhole env v with
      | .finite i => pure (if i < 0 then i + n else min i ((n : Int) - 1))
      | .infinite negative => pure (if negative then -1 else (n : Int) - 1)
  for k in [0:(last + 1).toNat] do
    let i := last.toNat - k
    match ← present? env id i with
    | some v => if v.strictlyEquals (c.arg 0) then return .ofNat i
    | none => continue
  return .int (-1)

def includes : Native σ := fun env c => do
  let (id, n) ← thisList env c
  if n = 0 then return .bool false
  let start ← toPlace env (c.arg 1) n 0
  for i in [start:n] do
    if (← element env id i).sameValueZero (c.arg 0) then return .bool true
  return .bool false

/-! ### Texts -/

def joinWith (env : Env σ) (id : ObjectId) (n : Nat) (separator : Units)
    (shown : Value → Action σ Units) : Action σ Units := do
  let mut result : Units := #[]
  for i in [0:n] do
    if 0 < i then result := result ++ separator
    let v ← element env id i
    if !v.isNullish then result := result ++ (← shown v)
  return result

def join : Native σ := fun env c => do
  let (id, n) ← thisList env c
  let separator ← if (c.arg 0).isUndefined then pure (Units.ofString ",") else toUnits env (c.arg 0)
  units (← joinWith env id n separator (toUnits env))

def toLocaleString : Native σ := fun env c => do
  let (id, n) ← thisList env c
  units (← joinWith env id n (Units.ofString ",") fun v => do
    toUnits env (← invokeNamed env v "toLocaleString" #[]))

def toStringMethod : Native σ := fun env c => do
  let id ← thisObject c
  let f ← Access.get env id (named "join") (.object id)
  if ← isCallable f then env.call f (.object id) #[]
  else units (← ObjectFunctions.tagText env (.object id))

/-! ### Changing lists -/

def pop : Native σ := fun env c => do
  let (id, n) ← thisList env c
  if n = 0 then
    setLength env id 0
    nothing
  else
    let v ← element env id (n - 1)
    deleteElement env id (n - 1)
    setLength env id (n - 1)
    return v

def push : Native σ := fun env c => do
  let (id, n) ← thisList env c
  checkLength (n + c.arguments.size)
  for (v, i) in c.arguments.toList.zipIdx do setElement env id (n + i) v
  setLength env id (n + c.arguments.size)
  return .ofNat (n + c.arguments.size)

/-- Moves an element, or its absence. -/
def move (env : Env σ) (id : ObjectId) (source target : Nat) : Action σ Unit := do
  match ← present? env id source with
  | some v => setElement env id target v
  | none => deleteElement env id target

/-- Moves `count` elements, the first of them first or last. -/
def moveAll (env : Env σ) (id : ObjectId) (source target count : Nat) (upwards : Bool) :
    Action σ Unit := do
  for k in [0:count] do
    let i := if upwards then k else count - 1 - k
    move env id (source + i) (target + i)

def shift : Native σ := fun env c => do
  let (id, n) ← thisList env c
  if n = 0 then
    setLength env id 0
    nothing
  else
    let v ← element env id 0
    moveAll env id 1 0 (n - 1) true
    deleteElement env id (n - 1)
    setLength env id (n - 1)
    return v

def unshift : Native σ := fun env c => do
  let (id, n) ← thisList env c
  let count := c.arguments.size
  checkLength (n + count)
  if 0 < count then
    moveAll env id 0 count n false
    for (v, i) in c.arguments.toList.zipIdx do setElement env id i v
  setLength env id (n + count)
  return .ofNat (n + count)

def reverse : Native σ := fun env c => do
  let (id, n) ← thisList env c
  for i in [0:n / 2] do
    let j := n - 1 - i
    let a ← present? env id i
    let b ← present? env id j
    match b with
    | some v => setElement env id i v
    | none => if a.isSome then deleteElement env id i
    match a with
    | some v => setElement env id j v
    | none => if b.isSome then deleteElement env id j
  return .object id

def fill : Native σ := fun env c => do
  let (id, n) ← thisList env c
  let start ← toPlace env (c.arg 1) n 0
  let stop ← toPlace env (c.arg 2) n n
  for i in [start:stop] do setElement env id i (c.arg 0)
  return .object id

def copyWithin : Native σ := fun env c => do
  let (id, n) ← thisList env c
  let target ← toPlace env (c.arg 0) n 0
  let source ← toPlace env (c.arg 1) n 0
  let stop ← toPlace env (c.arg 2) n n
  let count := min (stop - source) (n - target)
  moveAll env id source target count !(source < target && target < source + count)
  return .object id

/-! ### Parts -/

def concat : Native σ := fun env c => do
  let id ← thisObject c
  let result ← speciesList env id 0
  let mut count := 0
  for v in Value.object id :: c.arguments.toList do
    let spreads ← match v with
      | .object o =>
        match ← Access.get env o WellKnown.isConcatSpreadable.key v with
        | .undefined => ObjectFunctions.isArray 64 v
        | w => pure (truthy w)
      | _ => pure false
    match v, spreads with
    | .object o, true =>
      let n ← lengthOf env o
      checkLength (count + n)
      for i in [0:n] do
        match ← present? env o i with
        | some w => defineStrict env result (.ofNat (count + i)) w
        | none => continue
      count := count + n
    | _, _ =>
      checkLength (count + 1)
      defineStrict env result (.ofNat count) v
      count := count + 1
  setLength env result count
  return .object result

/-- A list of `count` elements from a place on. -/
def part (env : Env σ) (id : ObjectId) (start count : Nat) : Action σ ObjectId := do
  let result ← speciesList env id count
  for i in [0:count] do
    match ← present? env id (start + i) with
    | some v => defineStrict env result (.ofNat i) v
    | none => continue
  setLength env result count
  return result

def slice : Native σ := fun env c => do
  let (id, n) ← thisList env c
  let start ← toPlace env (c.arg 0) n 0
  let stop ← toPlace env (c.arg 1) n n
  return .object (← part env id start (stop - start))

/-- Where elements are taken out, and how many. -/
def removedRange (env : Env σ) (c : Call) (n : Nat) : Action σ (Nat × Nat) := do
  let start ← toPlace env (c.arg 0) n 0
  match c.arguments.size with
  | 0 => return (start, 0)
  | 1 => return (start, n - start)
  | _ => return (start, (← toClamped env (c.arg 1) 0 (n - start : Nat)).toNat)

def splice : Native σ := fun env c => do
  let (id, n) ← thisList env c
  let (start, count) ← removedRange env c n
  let items := c.arguments.toList.drop 2
  let length := n + items.length - count
  checkLength length
  let removed ← part env id start count
  if items.length ≠ count then
    moveAll env id (start + count) (start + items.length) (n - (start + count)) (items.length ≤ count)
    for k in [0:n - length] do deleteElement env id (n - 1 - k)
  for (v, i) in items.zipIdx do setElement env id (start + i) v
  setLength env id length
  return .object removed

/-- Puts the elements of a list into another one, with those of lists in it, down to a depth. -/
def flatten (env : Env σ) (target : ObjectId) (make : Value → Nat → Action σ Value) :
    (depth : Nat) → (fuel : Nat) → ObjectId → Nat → Action σ Nat
  | _, 0, _, _ => throwKind .internalError "stack overflow"
  | depth, fuel + 1, source, start => do
    let n ← lengthOf env source
    let mut count := start
    for i in [0:n] do
      match ← present? env source i with
      | none => continue
      | some v =>
        let v ← make v i
        let inner ← if 0 < depth then ObjectFunctions.isArray 64 v else pure false
        match v, inner with
        | .object o, true =>
          count ← flatten env target (fun v _ => return v) (depth - 1) fuel o count
        | _, _ =>
          checkLength (count + 1)
          defineStrict env target (.ofNat count) v
          count := count + 1
    return count

def flat : Native σ := fun env c => do
  let id ← thisObject c
  let depth ← if (c.arg 0).isUndefined then pure 1 else toClamped env (c.arg 0) 0 2147483647
  let result ← speciesList env id 0
  let _ ← flatten env result (fun v _ => return v) depth.toNat 1000 id 0
  return .object result

def flatMap : Native σ := fun env c => do
  let id ← thisObject c
  let f ← callback (c.arg 0)
  let result ← speciesList env id 0
  let _ ← flatten env result (fun v i => env.call f (c.arg 1) #[v, .ofNat i, .object id]) 1 1000 id 0
  return .object result

/-! ### Copies -/

/-- All elements; missing ones are `undefined`. -/
def allElements (env : Env σ) (id : ObjectId) (n : Nat) : Action σ (List Value) := do
  if 4294967295 < n then throwRange "invalid array length"
  let mut items : List Value := []
  for i in [0:n] do items := (← element env id i) :: items
  return items.reverse

def with_ : Native σ := fun env c => do
  let (id, n) ← thisList env c
  match ← toWhole env (c.arg 0) with
  | .finite i =>
    let i := if i < 0 then i + n else i
    if i < 0 || (n : Int) ≤ i then throwRange "invalid array index"
    let items ← allElements env id n
    return .object (← newArray (items.set i.toNat (c.arg 1)))
  | .infinite _ => throwRange "invalid array index"

def toReversed : Native σ := fun env c => do
  let (id, n) ← thisList env c
  return .object (← newArray (← allElements env id n).reverse)

def toSpliced : Native σ := fun env c => do
  let (id, n) ← thisList env c
  let (start, count) ← removedRange env c n
  checkLength (n + (c.arguments.size - 2) - count)
  let items ← allElements env id n
  return .object (← newArray (items.take start ++ c.arguments.toList.drop 2 ++ items.drop (start + count)))

/-! ### Iterators -/

def iterator (kind : Iteration) : Native σ := fun _ c => do
  let id ← thisObject c
  return .object (← newObject .arrayIteratorPrototype (.arrayIterator (.object id) 0 kind))

def table : List (Builtin σ) :=
  let static := Owner.intrinsic (.constructor "Array")
  let proto := Owner.intrinsic .arrayPrototype
  [constructor "Array" 1 .arrayPrototype construct,
    method static "isArray" 1 isArray,
    method static "from" 1 fromValues,
    method static "of" 0 ofValues,
    symbolGetter static .species speciesGetter,
    method proto "at" 1 at_,
    method proto "with" 2 with_,
    method proto "concat" 1 concat,
    method proto "every" 1 every,
    method proto "some" 1 some_,
    method proto "forEach" 1 forEach,
    method proto "map" 1 map,
    method proto "filter" 1 filter,
    method proto "reduce" 1 (reduce false),
    method proto "reduceRight" 1 (reduce true),
    method proto "fill" 1 fill,
    method proto "find" 1 (find false false),
    method proto "findIndex" 1 (find false true),
    method proto "findLast" 1 (find true false),
    method proto "findLastIndex" 1 (find true true),
    method proto "indexOf" 1 indexOf,
    method proto "lastIndexOf" 1 lastIndexOf,
    method proto "includes" 1 includes,
    method proto "join" 1 join,
    method proto "toString" 0 toStringMethod,
    method proto "toLocaleString" 0 toLocaleString,
    method proto "pop" 0 pop,
    method proto "push" 1 push,
    method proto "shift" 0 shift,
    method proto "unshift" 1 unshift,
    method proto "reverse" 0 reverse,
    method proto "toReversed" 0 toReversed]

/-- The methods that stand behind those for sorting. -/
def laterTable : List (Builtin σ) :=
  let proto := Owner.intrinsic .arrayPrototype
  [method proto "slice" 2 slice,
    method proto "splice" 2 splice,
    method proto "toSpliced" 2 toSpliced,
    method proto "copyWithin" 2 copyWithin,
    method proto "flatMap" 1 flatMap,
    method proto "flat" 0 flat,
    method proto "values" 0 (iterator .values),
    method proto "keys" 0 (iterator .keys),
    method proto "entries" 0 (iterator .entries)]

end PluginRelay.Script.Builtin.ArrayFunctions
