import PluginRelay.Script.Builtin.Basic

/-!
# Numbers, truth values and mathematics
-/
namespace PluginRelay.Script.Builtin.NumberFunctions

open Script.Action Script.Access Script.Convert

variable {σ : Type} [Evolving σ]

/-! ### Number -/

def construct : Native σ := fun env c => do
  let v ← if c.arguments.isEmpty then pure (.int 0) else
    match ← toNumeric env (c.arg 0) with
    | .bigint n => pure (Value.ofDouble (.ofInt n.value))
    | v => pure v
  if c.isNew then return .object (← create env c .numberPrototype (.primitive v)) else return v

def thisNumber (c : Call) : Action σ Value := do
  match c.this with
  | .int _ | .double _ => return c.this
  | .object id =>
    match ← payload id with
    | .primitive v => if v.number?.isSome then return v else throwType "not a number"
    | _ => throwType "not a number"
  | _ => throwType "not a number"

def thisDouble (c : Call) : Action σ Binary64 := return ((← thisNumber c).number?).getD .nan

def radixArgument (env : Env σ) (v : Value) : Action σ Nat := do
  if v.isUndefined then return 10
  match ← toWhole env v with
  | .finite n => if 2 ≤ n && n ≤ 36 then return n.toNat else throwRange "radix must be between 2 and 36"
  | _ => throwRange "radix must be between 2 and 36"

def toStringMethod : Native σ := fun env c => do
  let v ← thisNumber c
  let radix ← radixArgument env (c.arg 0)
  match v with
  | .int n => ok (.ofString (Numeral.intRadixText radix n))
  | v =>
    let x := (v.number?).getD .nan
    if radix = 10 || !x.isFinite then ok (.ofString (Numeral.text x))
    else ok (.ofString (Numeral.radixText radix x))

def valueOf : Native σ := fun _ c => thisNumber c

def digitsArgument (env : Env σ) (v : Value) (low high : Int) : Action σ Nat := do
  match ← toWhole env v with
  | .finite n => if low ≤ n && n ≤ high then return n.toNat else throwRange "invalid number of digits"
  | _ => throwRange "invalid number of digits"

/-- The double from which on numbers are not written with fixed places. -/
def fixedLimit : Binary64 := .ofNat 1000000000000000000000

def toFixed : Native σ := fun env c => do
  let x ← thisDouble c
  let places ← digitsArgument env (c.arg 0) 0 100
  if !x.isFinite || fixedLimit.le x.abs then ok (.ofString (Numeral.text x))
  else ok (.ofString (Numeral.fixed x places))

def toExponential : Native σ := fun env c => do
  let x ← thisDouble c
  let w ← toWhole env (c.arg 0)
  if !x.isFinite then ok (.ofString (Numeral.text x))
  else if (c.arg 0).isUndefined then ok (.ofString (Numeral.exponential x none))
  else
    match w with
    | .finite n =>
      if 0 ≤ n && n ≤ 100 then ok (.ofString (Numeral.exponential x (some n.toNat)))
      else throwRange "invalid number of digits"
    | _ => throwRange "invalid number of digits"

def toPrecision : Native σ := fun env c => do
  let x ← thisDouble c
  if (c.arg 0).isUndefined then ok (.ofString (Numeral.text x))
  else
    let w ← toWhole env (c.arg 0)
    if !x.isFinite then ok (.ofString (Numeral.text x))
    else
      match w with
      | .finite n =>
        if 1 ≤ n && n ≤ 100 then ok (.ofString (Numeral.precise x n.toNat))
        else throwRange "invalid number of digits"
      | _ => throwRange "invalid number of digits"

def isFiniteNumber (v : Value) : Bool := (v.number?).any (·.isFinite)

def isWhole (v : Value) : Bool := (v.number?).any fun x => (x.toInt?).isSome

def isSafe (v : Value) : Bool :=
  (v.number?).any fun x => (x.toInt?).any fun n => n.natAbs ≤ Numeral.safeLimit

def parseFloat : Native σ := fun env c => do
  let s ← toUnits env (c.arg 0)
  match Numeral.decimalPrefix? (Numeral.trimStart s.toChars) with
  | some (x, _) => ok (.ofDouble x)
  | none => ok .nan

def parseInt : Native σ := fun env c => do
  let s ← toUnits env (c.arg 0)
  let radix ← toInt32 env (c.arg 1)
  if radix < 0 then ok .nan
  else ok (.ofDouble (Numeral.integerPrefix radix.toNat s.toChars))

/-! ### Boolean -/

def constructBoolean : Native σ := fun env c => do
  let v := Value.bool (truthy (c.arg 0))
  if c.isNew then return .object (← create env c .booleanPrototype (.primitive v)) else return v

def thisBool (c : Call) : Action σ Bool := do
  match c.this with
  | .bool b => return b
  | .object id =>
    match ← payload id with
    | .primitive (.bool b) => return b
    | _ => throwType "not a boolean"
  | _ => throwType "not a boolean"

/-! ### BigInt -/

def constructBigint : Native σ := fun env c => do
  if c.isNew then throwType "not a constructor"
  let v ← toPrimitive env (c.arg 0) .number
  match v with
  | .int n => ok (.large n)
  | .double x =>
    match x.toInt? with
    | some n => ok (.large n)
    | none =>
      if x.isFinite then throwRange "cannot convert to BigInt: not an integer"
      else throwRange "cannot convert NaN or Infinity to BigInt"
  | v => ok (.large (← toBigint env v))

def thisBigint (c : Call) : Action σ Int := do
  match c.this with
  | .bigint n => return n.value
  | .object id =>
    match ← payload id with
    | .primitive (.bigint n) => return n.value
    | _ => throwType "not a bigint"
  | _ => throwType "not a bigint"

def bigintToString : Native σ := fun env c => do
  let n ← thisBigint c
  ok (.ofString (Numeral.intRadixText (← radixArgument env (c.arg 0)) n))

def widthArgument (env : Env σ) (v : Value) : Action σ Nat := do
  match ← toWhole env v with
  | .finite n => if 0 ≤ n && n ≤ lengthLimit then return n.toNat else throwRange "invalid array index"
  | _ => throwRange "invalid array index"

def asUintN : Native σ := fun env c => do
  let width ← widthArgument env (c.arg 0)
  let n ← toBigint env (c.arg 1)
  ok (.large (n % (1 <<< width : Nat)))

def asIntN : Native σ := fun env c => do
  let width ← widthArgument env (c.arg 0)
  let n ← toBigint env (c.arg 1)
  ok (.large (if width = 0 then 0 else Int.bmod n (1 <<< width)))

/-! ### Math -/

def elementary (f : Float → Float) : Native σ := fun env c => do
  ok (.ofDouble (.ofFloat (f (← toDouble env (c.arg 0)).toFloat)))

/-- The nearest whole number; halves go up. -/
def roundHalfUp (x : Binary64) : Binary64 :=
  match x.truncate? with
  | none => x
  | some n =>
    if x.toInt?.isSome then x
    else
      let doubled := (x.mul (.ofNat 2))
      let floor : Int := if x.isNegative then n - 1 else n
      let up := Binary64.le (.ofInt (2 * floor + 1)) doubled
      let r := if up then floor + 1 else floor
      if r = 0 && x.isNegative then Binary64.zero.neg else .ofInt r

def logOfSum (x : Float) : Float :=
  let u := 1.0 + x
  if u == 1.0 then x else Float.log u * x / (u - 1.0)

def expLessOne (x : Float) : Float :=
  let u := Float.exp x
  if u == 1.0 then x
  else if u - 1.0 == -1.0 then -1.0
  else if u.isInf then u
  else (u - 1.0) * x / Float.log u

def truncated (x : Float) : Float := if x < 0.0 then Float.ceil x else Float.floor x

def signOf (x : Float) : Float := if x > 0.0 then 1.0 else if x < 0.0 then -1.0 else x

/-- The greatest of numbers, or the smallest; anything that is no number wins. -/
def extreme (isMax : Bool) : Native σ := fun env c => do
  let numbers ← c.arguments.toList.mapM (toDouble env)
  let start := if isMax then Binary64.infinity.neg else Binary64.infinity
  let better (a b : Binary64) : Binary64 :=
    if a.isNaN then a
    else if b.isNaN then b
    else if a.isZero && b.isZero then
      if isMax then (if a.isNegative then b else a) else (if a.isNegative then a else b)
    else if isMax then (if a.lt b then b else a)
    else (if b.lt a then b else a)
  ok (.ofDouble (numbers.foldl better start))

def hypotenuse : Native σ := fun env c => do
  let numbers ← c.arguments.toList.mapM (toDouble env)
  if numbers.any (·.isInfinite) then ok (.double .infinity)
  else
    match numbers with
    | [x] => ok (.ofDouble x.abs)
    | _ =>
      let sum := numbers.foldl (fun s x => s.add (x.mul x)) Binary64.zero
      ok (.ofDouble (.ofFloat (Float.sqrt sum.toFloat)))

def leadingZeros : Native σ := fun env c => do
  let n ← toUint32 env (c.arg 0)
  ok (.ofNat (if n = 0 then 32 else 31 - n.log2))

def imul : Native σ := fun env c => do
  let a ← toInt32 env (c.arg 0)
  let b ← toInt32 env (c.arg 1)
  ok (.int (Int.bmod (a * b) UInt32.size))

def powFunction : Native σ := fun env c => do
  let x ← toDouble env (c.arg 0)
  let y ← toDouble env (c.arg 1)
  ok (.ofDouble (Arithmetic.power x y))

def atan2 : Native σ := fun env c => do
  let y ← toDouble env (c.arg 0)
  let x ← toDouble env (c.arg 1)
  ok (.ofDouble (.ofFloat (Float.atan2 y.toFloat x.toFloat)))

def absolute : Native σ := fun env c => do
  match ← toNumber env (c.arg 0) with
  | .int n => ok (.ofInt n.natAbs)
  | v => ok (.ofDouble ((v.number?).getD .nan).abs)

def round : Native σ := fun env c => do ok (.ofDouble (roundHalfUp (← toDouble env (c.arg 0))))

def fround : Native σ := fun env c => do ok (.ofDouble (← toDouble env (c.arg 0)).toSingle)

def mathTable : List (Builtin σ) :=
  let m := Owner.module "Math"
  let one (name : String) (f : Float → Float) : Builtin σ := method m name 1 (elementary f)
  [method m "min" 2 (extreme false), method m "max" 2 (extreme true), method m "abs" 1 absolute,
    one "floor" Float.floor, one "ceil" Float.ceil, method m "round" 1 round, one "sqrt" Float.sqrt,
    one "acos" Float.acos, one "asin" Float.asin, one "atan" Float.atan, method m "atan2" 2 atan2,
    one "cos" Float.cos, one "exp" Float.exp, one "log" Float.log, method m "pow" 2 powFunction,
    one "sin" Float.sin, one "tan" Float.tan, one "trunc" truncated, one "sign" signOf,
    one "cosh" Float.cosh, one "sinh" Float.sinh, one "tanh" Float.tanh, one "acosh" Float.acosh,
    one "asinh" Float.asinh, one "atanh" Float.atanh, one "expm1" expLessOne, one "log1p" logOfSum,
    one "log2" Float.log2, one "log10" Float.log10, one "cbrt" Float.cbrt,
    method m "hypot" 2 hypotenuse, method m "fround" 1 fround, method m "imul" 2 imul,
    method m "clz32" 1 leadingZeros]

def table : List (Builtin σ) :=
  let static := Owner.intrinsic (.constructor "Number")
  let proto := Owner.intrinsic .numberPrototype
  let big := Owner.intrinsic (.constructor "BigInt")
  [constructor "Number" 1 .numberPrototype construct,
    method .global "parseInt" 2 parseInt,
    method .global "parseFloat" 1 parseFloat,
    method static "isNaN" 1 (fun _ c => bool (((c.arg 0).number?).any (·.isNaN))),
    method static "isFinite" 1 (fun _ c => bool (isFiniteNumber (c.arg 0))),
    method static "isInteger" 1 (fun _ c => bool (isWhole (c.arg 0))),
    method static "isSafeInteger" 1 (fun _ c => bool (isSafe (c.arg 0))),
    method proto "toExponential" 1 toExponential,
    method proto "toFixed" 1 toFixed,
    method proto "toPrecision" 1 toPrecision,
    method proto "toString" 1 toStringMethod,
    method proto "toLocaleString" 0 toStringMethod,
    method proto "valueOf" 0 valueOf,
    method .global "isNaN" 1 (fun env c => do bool (← toDouble env (c.arg 0)).isNaN),
    method .global "isFinite" 1 (fun env c => do bool (← toDouble env (c.arg 0)).isFinite),
    constructor "Boolean" 1 .booleanPrototype constructBoolean,
    method (.intrinsic .booleanPrototype) "toString" 0
      (fun _ c => do ok (.ofString (if ← thisBool c then "true" else "false"))),
    method (.intrinsic .booleanPrototype) "valueOf" 0 (fun _ c => do bool (← thisBool c)),
    constructor "BigInt" 1 .bigintPrototype constructBigint,
    method big "asIntN" 2 asIntN,
    method big "asUintN" 2 asUintN,
    method (.intrinsic .bigintPrototype) "toString" 0 bigintToString,
    method (.intrinsic .bigintPrototype) "toLocaleString" 0 bigintToString,
    method (.intrinsic .bigintPrototype) "valueOf" 0 (fun _ c => do ok (.large (← thisBigint c)))] ++
  mathTable

end PluginRelay.Script.Builtin.NumberFunctions
