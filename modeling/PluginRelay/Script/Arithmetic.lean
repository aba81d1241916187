import PluginRelay.Script.Convert

/-!
# Operators

Integers of 32 bits stay in that form where nothing is lost. Sums, differences and products of doubles
keep the form of a double even if an integer comes out; quotients and powers of integers do not.
-/
namespace PluginRelay.Script.Arithmetic

open Script.Action Script.Access Script.Convert

variable {σ : Type} [Evolving σ]

/-- A power; one to an endless power is no number. -/
def power (x y : Binary64) : Binary64 :=
  if !y.isFinite && x.abs = .one then .nan else .ofFloat (x.toFloat ^ y.toFloat)

def bigPower (m n : Int) : Action σ Int :=
  if n < 0 then throwRange "negative exponent" else return m.pow n.toNat

/-- A shift to the left; to the right if negative. -/
def shiftLeft (m n : Int) : Int := if 0 ≤ n then m * (1 <<< n.toNat : Nat) else m.fdiv (1 <<< (-n).toNat : Nat)

/-- Bits of integers of any size, with the sign going on for ever. -/
def bitwise (op : Nat → Nat → Nat) (m n : Int) : Int :=
  let width := max m.natAbs.log2 n.natAbs.log2 + 2
  let word (k : Int) : Nat := (k % (1 <<< width : Nat)).toNat
  let r := op (word m) (word n)
  if r < 1 <<< (width - 1) then r else (r : Int) - (1 <<< width : Nat)

def bigBinary (op : BinaryOperator) (m n : Int) : Action σ Value := do
  match op with
  | .add => return .large (m + n)
  | .sub => return .large (m - n)
  | .mul => return .large (m * n)
  | .div => if n = 0 then throwRange "division by zero" else return .large (m.tdiv n)
  | .mod => if n = 0 then throwRange "division by zero" else return .large (m.tmod n)
  | .pow => return .large (← bigPower m n)
  | .shl => return .large (shiftLeft m n)
  | .shr => return .large (shiftLeft m (-n))
  | .ushr => throwType "bigint operands are forbidden for >>>"
  | .bitAnd => return .large (bitwise Nat.land m n)
  | .bitOr => return .large (bitwise Nat.lor m n)
  | .bitXor => return .large (bitwise Nat.xor m n)
  | _ => return .undefined

def intBinary (op : BinaryOperator) (m n : Int) : Value :=
  match op with
  | .add => .ofInt (m + n)
  | .sub => .ofInt (m - n)
  | .mul =>
    if m * n = 0 && (m < 0 || n < 0) then .double (Binary64.zero.neg) else .ofInt (m * n)
  | .div => .ofDouble ((Binary64.ofInt m).div (.ofInt n))
  | .mod =>
    if m < 0 || n ≤ 0 then .ofDouble ((Binary64.ofInt m).rem (.ofInt n)) else .ofInt (m % n)
  | .pow => .ofDouble (power (.ofInt m) (.ofInt n))
  | _ => .nan

def doubleBinary (op : BinaryOperator) (x y : Binary64) : Value :=
  match op with
  | .add => .double (x.add y)
  | .sub => .double (x.sub y)
  | .mul => .double (x.mul y)
  | .div => .double (x.div y)
  | .mod => .double (x.rem y)
  | .pow => .double (power x y)
  | _ => .nan

def bitsBinary (op : BinaryOperator) (m n : Int) : Value :=
  let shift := (n % 32).toNat
  let word (k : Int) : Nat := (k % UInt32.size).toNat
  let signed (k : Nat) : Value := .int (Int.bmod k UInt32.size)
  match op with
  | .bitAnd => signed (Nat.land (word m) (word n))
  | .bitOr => signed (Nat.lor (word m) (word n))
  | .bitXor => signed (Nat.xor (word m) (word n))
  | .shl => signed (word m <<< shift % UInt32.size)
  | .shr => .int (m.fdiv (1 <<< shift : Nat))
  | .ushr => .ofNat (word m >>> shift)
  | _ => .nan

def isBitwise : BinaryOperator → Bool
  | .bitAnd | .bitOr | .bitXor | .shl | .shr | .ushr => true
  | _ => false

/-- An operator on two numeric values. -/
def numericBinary (op : BinaryOperator) (a b : Value) : Action σ Value := do
  match a, b with
  | .bigint m, .bigint n => bigBinary op m.value n.value
  | .bigint _, _ | _, .bigint _ => throwType "cannot convert to bigint"
  | _, _ =>
    if isBitwise op then
      return bitsBinary op (int32Of ((a.number?).getD .nan)) (int32Of ((b.number?).getD .nan))
    match a, b with
    | .int m, .int n => return intBinary op m n
    | _, _ => return doubleBinary op ((a.number?).getD .nan) ((b.number?).getD .nan)

/-- Whether an object is an instance of a constructor, by its chain of prototypes. -/
def isInstance (env : Env σ) : (fuel : Nat) → Value → Value → Action σ Bool
  | 0, _, _ => return false
  | fuel + 1, f, v => do
    match f with
    | .object id =>
      if !(← object id).isCallable then return false
      match ← payload id with
      | .bound target _ _ => isInstance env fuel (.object target) v
      | _ =>
        match v with
        | .object o =>
          match ← Access.get env id (named "prototype") f with
          | .object proto =>
            let rec climb (fuel : Nat) (o : ObjectId) : Action σ Bool := do
              match fuel with
              | 0 => return false
              | fuel + 1 =>
                match ← Access.getPrototype env o with
                | none => return false
                | some next => if next = proto then return true else climb fuel next
            climb (← chainBound) o
          | _ => throwType "operand 'prototype' property is not an object"
        | _ => return false
    | _ => return false

def instanceOf (env : Env σ) (v f : Value) : Action σ Bool := do
  if !f.isObject then throwType "invalid 'instanceof' right operand"
  match ← getMethod env f WellKnown.hasInstance.key with
  | some test => return truthy (← env.call test f #[v])
  | none =>
    if !(← isCallable f) then throwType "invalid 'instanceof' right operand"
    isInstance env 64 f v

def add (env : Env σ) (a b : Value) : Action σ Value := do
  match a, b with
  | .int m, .int n => return .ofInt (m + n)
  | .string s, .string t => return .text (s.units ++ t.units)
  | _, _ =>
    let p ← toPrimitive env a .none
    let q ← toPrimitive env b .none
    match p, q with
    | .string s, q => return .text (s.units ++ (← simpleToUnits q))
    | p, .string t => return .text ((← simpleToUnits p) ++ t.units)
    | p, q =>
      let x ← toNumeric env p
      let y ← toNumeric env q
      numericBinary .add x y

/-- A binary operator on any two values. -/
def binary (env : Env σ) (op : BinaryOperator) (a b : Value) : Action σ Value := do
  match op with
  | .add => add env a b
  | .lt => return .bool ((← compareValues env a b) == some .lt)
  | .gt => return .bool ((← compareValues env a b) == some .gt)
  | .le =>
    let r ← compareValues env a b
    return .bool (r == some .lt || r == some .eq)
  | .ge =>
    let r ← compareValues env a b
    return .bool (r == some .gt || r == some .eq)
  | .equal => return .bool (← looselyEquals env a b)
  | .notEqual => return .bool (!(← looselyEquals env a b))
  | .same => return .bool (a.strictlyEquals b)
  | .notSame => return .bool (!a.strictlyEquals b)
  | .isIn =>
    match b with
    | .object id => return .bool (← Access.has env id (← toKey env a))
    | _ => throwType "invalid 'in' operand"
  | .instanceOf => return .bool (← instanceOf env a b)
  | _ =>
    let x ← toNumeric env a
    let y ← toNumeric env b
    numericBinary op x y

/-- The value with its sign turned. -/
def negated : Value → Value
  | .int n => if n = 0 then .double (Binary64.zero.neg) else .ofInt (-n)
  | .double x => .double x.neg
  | .bigint n => .large (-n.value)
  | v => v

def unary (env : Env σ) (op : UnaryOperator) (v : Value) : Action σ Value := do
  match op with
  | .negate => return negated (← toNumeric env v)
  | .plus =>
    match ← toPrimitive env v .number with
    | .bigint _ => throwType "bigint argument with unary +"
    | p => simpleToNumber p
  | .not => return .bool (!truthy v)
  | .complement =>
    match ← toNumeric env v with
    | .bigint n => return .large (-n.value - 1)
    | x => return .int (-(int32Of ((x.number?).getD .nan)) - 1)
  | .typeof => return .ofString (← typeText v)
  | .void => return .undefined

/-- A numeric value one greater, or one smaller. -/
def stepped (up : Bool) (v : Value) : Value :=
  let by_ : Int := if up then 1 else -1
  match v with
  | .int n => .ofInt (n + by_)
  | .bigint n => .large (n.value + by_)
  | .double x => .double (x.add (.ofInt by_))
  | v => v

end PluginRelay.Script.Arithmetic
