import PluginRelay.Script.Access

/-!
# Conversions

Values as numbers, texts, keys and objects. Objects are converted by their own methods, so a conversion
may run scripts.
-/
namespace PluginRelay.Script.Convert

open Script.Action Script.Access

variable {σ : Type} [Evolving σ]

/-! ### Members of any value -/

/-- Where the methods of a simple value are. -/
def prototypeOf (v : Value) : Action σ (Option ObjectId) := do
  match v with
  | .undefined | .null => return none
  | .bool _ => return some (← intrinsic .booleanPrototype)
  | .int _ | .double _ => return some (← intrinsic .numberPrototype)
  | .string _ => return some (← intrinsic .stringPrototype)
  | .bigint _ => return some (← intrinsic .bigintPrototype)
  | .symbol _ => return some (← intrinsic .symbolPrototype)
  | .object id => return some id

/-- The property of any value. -/
def getMember (env : Env σ) (v : Value) (key : PropertyKey) : Action σ Value := do
  match v with
  | .object id => Access.get env id key v
  | .undefined | .null =>
    let name ← keyUnits key
    throwUnits .typeError (Units.ofString "cannot read property '" ++ name ++
      Units.ofString (if v.isUndefined then "' of undefined" else "' of null"))
  | .string t =>
    match key with
    | .index i =>
      match t.units[i]? with
      | some u => return .text #[u]
      | none => getFrom env key v (← chainBound) (← prototypeOf v)
    | k =>
      if k = lengthKey then return .ofNat t.units.size
      else getFrom env key v (← chainBound) (← prototypeOf v)
  | _ => getFrom env key v (← chainBound) (← prototypeOf v)

/-- A method; `undefined` if there is none. -/
def getMethod (env : Env σ) (v : Value) (key : PropertyKey) : Action σ (Option Value) := do
  let f ← getMember env v key
  if f.isNullish then return none
  else if ← isCallable f then return some f
  else throwType "not a function"

def invoke (env : Env σ) (v : Value) (key : PropertyKey) (args : Array Value) : Action σ Value := do
  env.call (← getMember env v key) v args

def invokeNamed (env : Env σ) (v : Value) (name : String) (args : Array Value) : Action σ Value :=
  invoke env v (named name) args

/-! ### Simple values -/

inductive Hint where
  | none | string | number
  deriving DecidableEq

def Hint.text : Hint → String
  | none => "default"
  | string => "string"
  | number => "number"

/-- The first of the methods that gives a simple value. -/
def byMethods (env : Env σ) (v : Value) : List String → Action σ Value
  | [] => throwType "toPrimitive"
  | name :: rest => do
    let f ← getMember env v (named name)
    if ← isCallable f then
      let result ← env.call f v #[]
      if result.isObject then byMethods env v rest else return result
    else byMethods env v rest

def toPrimitive (env : Env σ) (v : Value) (hint : Hint) : Action σ Value := do
  match v with
  | .object _ =>
    match ← getMethod env v WellKnown.toPrimitive.key with
    | some f =>
      let result ← env.call f v #[.ofString hint.text]
      if result.isObject then throwType "toPrimitive" else return result
    | none => byMethods env v (if hint = .string then ["toString", "valueOf"] else ["valueOf", "toString"])
  | _ => return v

/-- A simple value as a number. -/
def simpleToNumber (v : Value) : Action σ Value := do
  match v with
  | .undefined => return .nan
  | .null => return .int 0
  | .bool b => return .int (if b then 1 else 0)
  | .int _ | .double _ => return v
  | .string t => return .ofDouble (Numeral.ofChars t.units.toChars)
  | .bigint _ => throwType "cannot convert bigint to number"
  | .symbol _ => throwType "cannot convert symbol to number"
  | .object _ => return .nan

def toNumber (env : Env σ) (v : Value) : Action σ Value := do
  simpleToNumber (← toPrimitive env v .number)

/-- A number or a big integer. -/
def toNumeric (env : Env σ) (v : Value) : Action σ Value := do
  match ← toPrimitive env v .number with
  | .bigint n => return .bigint n
  | p => simpleToNumber p

def toDouble (env : Env σ) (v : Value) : Action σ Binary64 := do
  return ((← toNumber env v).number?).getD .nan

/-- The integer part of a double; `none` is beyond all integers. -/
inductive Whole where
  | finite (n : Int)
  | infinite (negative : Bool)

def wholeOf (x : Binary64) : Whole :=
  if x.isNaN then .finite 0
  else match x.truncate? with
    | some n => .finite n
    | none => .infinite x.isNegative

def toWhole (env : Env σ) (v : Value) : Action σ Whole := return wholeOf (← toDouble env v)

/-- An integer, held within bounds. -/
def Whole.clamp (w : Whole) (low high : Int) : Int :=
  match w with
  | finite n => max low (min high n)
  | infinite negative => if negative then low else high

def toClamped (env : Env σ) (v : Value) (low high : Int) : Action σ Int :=
  return (← toWhole env v).clamp low high

/-- A place in a list: negative numbers count from its end. -/
def toPlace (env : Env σ) (v : Value) (length : Nat) (missing : Nat) : Action σ Nat := do
  if v.isUndefined then return missing
  match ← toWhole env v with
  | .finite n => return if n < 0 then (n + length).toNat else min n.toNat length
  | .infinite negative => return if negative then 0 else length

/-- The last 32 bits of a number, as an integer with a sign. -/
def int32Of (x : Binary64) : Int := Int.bmod ((x.truncate?).getD 0) UInt32.size

def toInt32 (env : Env σ) (v : Value) : Action σ Int := do
  match v with
  | .int n => return n
  | _ => return int32Of (← toDouble env v)

def toUint32 (env : Env σ) (v : Value) : Action σ Nat := return ((← toInt32 env v) % UInt32.size).toNat

/-- The greatest length of a list-like object. -/
def lengthLimit : Int := 9007199254740991

def toLength (env : Env σ) (v : Value) : Action σ Nat :=
  return (← toClamped env v 0 lengthLimit).toNat

def lengthOf (env : Env σ) (id : ObjectId) : Action σ Nat := do
  match ← payload id with
  | .array n _ => return n
  | _ => toLength env (← Access.get env id lengthKey (.object id))

/-! ### Texts and keys -/

/-- A simple value as a text. -/
def simpleToUnits (v : Value) : Action σ Units := do
  match v with
  | .undefined => return Units.ofString "undefined"
  | .null => return Units.ofString "null"
  | .bool b => return Units.ofString (if b then "true" else "false")
  | .int n => return Units.ofString (Numeral.intText n)
  | .double x => return Units.ofString (Numeral.text x)
  | .string t => return t.units
  | .bigint n => return Units.ofString (Numeral.intText n.value)
  | .symbol _ => throwType "cannot convert symbol to string"
  | .object _ => return #[]

def toUnits (env : Env σ) (v : Value) : Action σ Units := do
  match v with
  | .string t => return t.units
  | _ => simpleToUnits (← toPrimitive env v .string)

/-- The value as a text; a text stays the same one. -/
def toText (env : Env σ) (v : Value) : Action σ Value := do
  match v with
  | .string _ => return v
  | _ =>
    match ← toPrimitive env v .string with
    | .string t => return .string t
    | p => return .text (← simpleToUnits p)

def toKey (env : Env σ) (v : Value) : Action σ PropertyKey := do
  match v with
  | .int n => return if 0 ≤ n then .ofNat n.toNat else .name (Units.ofString (Numeral.intText n))
  | .string t => return .ofUnits t.units
  | .symbol id => return .symbol id
  | _ =>
    match ← toPrimitive env v .string with
    | .symbol id => return .symbol id
    | p => return .ofUnits (← simpleToUnits p)

/-! ### Objects -/

def toObject (v : Value) : Action σ ObjectId := do
  match v with
  | .undefined | .null => throwType "cannot convert to object"
  | .object id => return id
  | .bool _ => newObject .booleanPrototype (.primitive v)
  | .int _ | .double _ => newObject .numberPrototype (.primitive v)
  | .string _ => newObject .stringPrototype (.primitive v)
  | .bigint _ => newObject .bigintPrototype (.primitive v)
  | .symbol _ => newObject .symbolPrototype (.primitive v)

def typeText (v : Value) : Action σ String := do
  match v with
  | .undefined => return "undefined"
  | .null => return "object"
  | .bool _ => return "boolean"
  | .int _ | .double _ => return "number"
  | .string _ => return "string"
  | .bigint _ => return "bigint"
  | .symbol _ => return "symbol"
  | .object id => return if (← object id).isCallable then "function" else "object"

/-! ### Big integers -/

def toBigint (env : Env σ) (v : Value) : Action σ Int := do
  match ← toPrimitive env v .number with
  | .bigint n => return n.value
  | .bool b => return if b then 1 else 0
  | .string t =>
    match Numeral.bigint? t.units.toChars with
    | some n => return n
    | none => throwKind .syntaxError "invalid bigint literal"
  | _ => throwType "cannot convert to bigint"

/-! ### Writing members -/

/-- A value as an element of a typed array. -/
def toElement (env : Env σ) (kind : ElementKind) (v : Value) : Action σ Value := do
  if kind.isBig then return .large (← toBigint env v) else toNumber env v

/-- A value as the length of an array. An object is converted twice, and both results must agree. -/
def toArrayLength (env : Env σ) (v : Value) : Action σ Value := do
  match v with
  | .object _ | .symbol _ =>
    let n ← toUint32 env v
    let x ← toNumber env v
    if (simpleNumber x).toInt? = some (n : Int) then return .ofNat n
    else throwRange "invalid array length"
  | .bigint n =>
    if 0 ≤ n.value && n.value < UInt32.size then return .ofInt n.value
    else throwRange "invalid array length"
  | _ => return v

/-- What an object stores for a value: some members hold numbers only. -/
def toStored (env : Env σ) (id : ObjectId) (key : PropertyKey) (v : Value) : Action σ Value := do
  match (← object id).payload, key with
  | .array _ _, k => if k = lengthKey then toArrayLength env v else return v
  | .typedArray kind _ _ _, .index _ => toElement env kind v
  | _, _ => return v

/-- What a definition makes of a value. Behind its last element a typed array looks at no value. -/
def toDefined (env : Env σ) (id : ObjectId) (key : PropertyKey) (v : Value) : Action σ Value := do
  match (← object id).payload, key with
  | .typedArray _ _ _ length, .index i => if i < length then toStored env id key v else return v
  | _, _ => toStored env id key v

/-- Makes or changes an own property. -/
def define (env : Env σ) (id : ObjectId) (key : PropertyKey) (c : Change) : Action σ (Option String) := do
  match c.value with
  | some v => Access.define env id key { c with value := some (← toDefined env id key v) }
  | none => Access.define env id key c

/-- Sets the property of any value. -/
def setMember (env : Env σ) (target : Value) (key : PropertyKey) (v : Value) (strict : Bool) :
    Action σ Unit := do
  let outcome ← match target with
    | .object id => Access.set env id key (← toStored env id key v) target
    | .undefined | .null =>
      let name ← keyUnits key
      throwUnits .typeError (Units.ofString "cannot set property '" ++ name ++
        Units.ofString (if target.isUndefined then "' of undefined" else "' of null"))
    | _ => setFrom env key v target (← chainBound) (← prototypeOf target)
  match outcome with
  | some message => if strict then throwType message
  | none => return

/-! ### Comparison -/

/-- The order of an integer and a double. -/
def compareInt (n : Int) (x : Binary64) : Option Ordering :=
  if x.isNaN then none
  else match x.truncate? with
    | none => some (if x.isNegative then .gt else .lt)
    | some m =>
      if n ≠ m then some (compare n m)
      else if x.toInt?.isSome then some .eq
      else some (if x.isNegative then .gt else .lt)

def compareDoubles (x y : Binary64) : Option Ordering :=
  if x.isNaN || y.isNaN then none
  else if x.equal y then some .eq
  else some (if x.lt y then .lt else .gt)

/-- The order of two simple values. -/
def compareSimple (a b : Value) : Action σ (Option Ordering) := do
  match a, b with
  | .string s, .string t =>
    return some (if s.units == t.units then .eq else if s.units.less t.units then .lt else .gt)
  | .bigint m, .bigint n => return some (compare m.value n.value)
  | .bigint m, .string t =>
    return (Numeral.bigint? t.units.toChars).map fun n => compare m.value n
  | .string s, .bigint n =>
    return (Numeral.bigint? s.units.toChars).map fun m => compare m n.value
  | .bigint m, b =>
    let y ← simpleToNumber b
    return compareInt m.value ((y.number?).getD .nan)
  | a, .bigint n =>
    let x ← simpleToNumber a
    return (compareInt n.value ((x.number?).getD .nan)).map Ordering.swap
  | a, b =>
    let x ← simpleToNumber a
    let y ← simpleToNumber b
    return compareDoubles ((x.number?).getD .nan) ((y.number?).getD .nan)

def compareValues (env : Env σ) (a b : Value) : Action σ (Option Ordering) := do
  match a, b with
  | .int m, .int n => return some (compare m n)
  | _, _ =>
    let p ← toPrimitive env a .number
    let q ← toPrimitive env b .number
    compareSimple p q

/-- Equality of simple values with conversions. -/
def simpleEquals (a b : Value) : Bool :=
  match a, b with
  | .undefined, .null | .null, .undefined => true
  | .bigint m, .string t => Numeral.bigint? t.units.toChars = some m.value
  | .string s, .bigint n => Numeral.bigint? s.units.toChars = some n.value
  | .bigint m, .int n => m.value = n
  | .int m, .bigint n => m = n.value
  | .bigint m, .double x => compareInt m.value x = some .eq
  | .double x, .bigint n => compareInt n.value x = some .eq
  | .int _, .string t | .double _, .string t =>
    ((a.number?).getD .nan).equal (Numeral.ofChars t.units.toChars)
  | .string s, .int _ | .string s, .double _ =>
    (Numeral.ofChars s.units.toChars).equal ((b.number?).getD .nan)
  | _, _ => a.strictlyEquals b

def boolAsNumber : Value → Value
  | .bool b => .int (if b then 1 else 0)
  | v => v

def looselyEquals (env : Env σ) (a b : Value) : Action σ Bool := do
  match a, b with
  | .object _, .object _ => return a == b
  | .bool _, .bool _ => return a == b
  | .object _, b =>
    if b.isNullish then return false
    else
      let p ← toPrimitive env a .none
      return simpleEquals (boolAsNumber p) (boolAsNumber b)
  | a, .object _ =>
    if a.isNullish then return false
    else
      let q ← toPrimitive env b .none
      return simpleEquals (boolAsNumber a) (boolAsNumber q)
  | a, b => return simpleEquals (boolAsNumber a) (boolAsNumber b)

end PluginRelay.Script.Convert
