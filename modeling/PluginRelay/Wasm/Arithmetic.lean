import PluginRelay.Wasm.Operator

/-!
# Evaluation of numeric operators

Integer operators work on words of either width. Operators on singles compute with doubles and round
the result: that gives the nearest single, since a double has more than twice the digits.
-/
namespace PluginRelay.Wasm

namespace Integer

variable {w : Nat}

def countLeadingZeros (x : BitVec w) : Nat :=
  if x.toNat = 0 then w else w - 1 - x.toNat.log2

def countTrailingZeros (x : BitVec w) : Nat :=
  ((List.range w).find? fun i => x.getLsbD i).getD w

def populationCount (x : BitVec w) : Nat :=
  ((List.range w).filter fun i => x.getLsbD i).length

def compare (c : Comparison) (x y : BitVec w) : Bool :=
  match c with
  | .eq => x == y
  | .ne => x != y
  | .ltS => x.slt y
  | .ltU => x.ult y
  | .gtS => y.slt x
  | .gtU => y.ult x
  | .leS => x.sle y
  | .leU => x.ule y
  | .geS => y.sle x
  | .geU => y.ule x

def unary (op : IntegerUnary) (x : BitVec w) : BitVec w :=
  match op with
  | .clz => BitVec.ofNat w (countLeadingZeros x)
  | .ctz => BitVec.ofNat w (countTrailingZeros x)
  | .popcnt => BitVec.ofNat w (populationCount x)
  | .extend bits => (x.setWidth bits).signExtend w

def binary (op : IntegerBinary) (x y : BitVec w) : Except Trap (BitVec w) :=
  match op with
  | .add => .ok (x + y)
  | .sub => .ok (x - y)
  | .mul => .ok (x * y)
  | .divS =>
    if y = 0 then .error .divisionByZero
    else if x = BitVec.intMin w ∧ y = BitVec.allOnes w then .error .integerOverflow
    else .ok (x.sdiv y)
  | .divU => if y = 0 then .error .divisionByZero else .ok (x.udiv y)
  | .remS => if y = 0 then .error .divisionByZero else .ok (x.srem y)
  | .remU => if y = 0 then .error .divisionByZero else .ok (x.umod y)
  | .and => .ok (x &&& y)
  | .or => .ok (x ||| y)
  | .xor => .ok (x ^^^ y)
  | .shl => .ok (x <<< (y.toNat % w))
  | .shrS => .ok (x.sshiftRight (y.toNat % w))
  | .shrU => .ok (x >>> (y.toNat % w))
  | .rotl => .ok (x.rotateLeft (y.toNat % w))
  | .rotr => .ok (x.rotateRight (y.toNat % w))

end Integer

namespace Floating

def compare (c : FloatComparison) (x y : Binary64) : Bool :=
  match c with
  | .eq => x.equal y
  | .ne => !x.equal y
  | .lt => x.lt y
  | .gt => y.lt x
  | .le => x.le y
  | .ge => y.le x

/-- The integral double nearest to `x`, a half going to the even neighbour. -/
def nearest (x : Binary64) : Binary64 :=
  if !x.isFinite || 0 ≤ x.power then x
  else Binary64.ofQuotient x.isNegative
    (Binary64.roundHalfEven x.significand (1 <<< (-x.power).toNat)) 1

def unary (op : FloatUnary) (x : Binary64) : Binary64 :=
  match op with
  | .abs => x.abs
  | .neg => x.neg
  | .ceil => .ofFloat x.toFloat.ceil
  | .floor => .ofFloat x.toFloat.floor
  | .trunc => if x.isNegative then .ofFloat x.toFloat.ceil else .ofFloat x.toFloat.floor
  | .nearest => nearest x
  | .sqrt => .ofFloat x.toFloat.sqrt

def binary (op : FloatBinary) (x y : Binary64) : Binary64 :=
  match op with
  | .add => x.add y
  | .sub => x.sub y
  | .mul => x.mul y
  | .div => x.div y
  | .min =>
    if x.isNaN || y.isNaN then .nan
    else if x.isZero && y.isZero then (if x.isNegative then x else y)
    else if x.lt y then x else y
  | .max =>
    if x.isNaN || y.isNaN then .nan
    else if x.isZero && y.isZero then (if x.isNegative then y else x)
    else if x.lt y then y else x
  | .copysign => if y.isNegative then x.abs.neg else x.abs

/-- The least and the greatest integer of a width. -/
def range (w : Width) (signed : Bool) : Int × Int :=
  if signed then (-(1 <<< (w.bits - 1) : Nat), (1 <<< (w.bits - 1) : Nat) - 1) else (0, (1 <<< w.bits : Nat) - 1)

/-- The integer part of a double, if it is within the range. -/
def truncate (w : Width) (signed saturating : Bool) (x : Binary64) : Except Trap Int :=
  let (low, high) := range w signed
  match x.truncate? with
  | some n =>
    if low ≤ n ∧ n ≤ high then .ok n
    else if saturating then .ok (max low (min high n)) else .error .integerOverflow
  | none =>
    if saturating then .ok (if x.isNaN then 0 else if x.isNegative then low else high)
    else if x.isNaN then .error .badConversion else .error .integerOverflow

end Floating

namespace Value

def integer? (w : Width) : Value → Option (BitVec w.bits)
  | i32 x => match w with | .word => some x | .long => none
  | i64 x => match w with | .long => some x | .word => none
  | _ => none

def float? (w : Width) : Value → Option Binary64
  | f32 x => match w with | .word => some (.ofSingleBits x.toNat) | .long => none
  | f64 x => match w with | .long => some x | .word => none
  | _ => none

def ofInteger : (w : Width) → BitVec w.bits → Value
  | .word, x => i32 x
  | .long, x => i64 x

def ofFloating : (w : Width) → Binary64 → Value
  | .word, x => f32 (BitVec.ofNat 32 x.toSingleBits)
  | .long, x => f64 x

end Value

namespace Operator

/-- The result for operands, the last one first; `none` if they are of the wrong types. -/
def evaluate? (op : Operator) (operands : List Value) : Option (Except Trap Value) :=
  match op, operands with
  | .eqz w, [x] => do return .ok (.ofBool ((← x.integer? w) == 0))
  | .compare w c, [y, x] => do
    return .ok (.ofBool (Integer.compare c (← x.integer? w) (← y.integer? w)))
  | .compareFloat w c, [y, x] => do
    return .ok (.ofBool (Floating.compare c (← x.float? w) (← y.float? w)))
  | .unary w op, [x] => do return .ok (.ofInteger w (Integer.unary op (← x.integer? w)))
  | .binary w op, [y, x] => do
    return (Integer.binary op (← x.integer? w) (← y.integer? w)).map (.ofInteger w)
  | .unaryFloat w op, [x] => do return .ok (.ofFloating w (Floating.unary op (← x.float? w)))
  | .binaryFloat w op, [y, x] => do
    return .ok (.ofFloating w (Floating.binary op (← x.float? w) (← y.float? w)))
  | .wrap, [.i64 x] => some (.ok (.i32 (x.setWidth 32)))
  | .extend true, [.i32 x] => some (.ok (.i64 (x.signExtend 64)))
  | .extend false, [.i32 x] => some (.ok (.i64 (x.setWidth 64)))
  | .truncate v w signed saturating, [x] => do
    return (Floating.truncate v signed saturating (← x.float? w)).map
      fun n => .ofInteger v (BitVec.ofInt v.bits n)
  | .convert v w signed, [x] => do
    let x ← x.integer? w
    let n : Int := if signed then x.toInt else x.toNat
    return .ok (.ofFloating v (.ofInt n))
  | .demote, [.f64 x] => some (.ok (.ofFloating .word x))
  | .promote, [.f32 x] => some (.ok (.f64 (.ofSingleBits x.toNat)))
  | .floatBits .word, [.f32 x] => some (.ok (.i32 x))
  | .floatBits .long, [.f64 x] => some (.ok (.i64 x.bits.toBitVec))
  | .bitsFloat .word, [.i32 x] => some (.ok (.f32 x))
  | .bitsFloat .long, [.i64 x] => some (.ok (.f64 ⟨⟨x⟩⟩))
  | _, _ => none

end Operator

end PluginRelay.Wasm
