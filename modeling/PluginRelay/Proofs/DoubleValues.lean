import Mathlib.Algebra.Order.Field.Basic
import Mathlib.Data.Rat.Cast.Order
import Mathlib.Tactic.Linarith
import PluginRelay.Proofs.SingleFloat

/-!
# Doubles as exact numbers

A finite double is a whole number of times the least positive one, `2 ^ -1074`. So values, their order and their
integer parts are matters of integers, and the order of the bits is the order of these integers.
-/
namespace PluginRelay.Binary64

open BinaryFormat (double)

/-! ### Values -/

/-- The exact value of a finite double. -/
def value (x : Binary64) : ℚ := (if x.isNegative then -1 else 1) * x.significand * 2 ^ x.power

/-- The double is finite, and its exact value is `q`. -/
structure Represents (x : Binary64) (q : ℚ) : Prop where
  finite : x.isFinite = true
  value_eq : x.value = q

/-- How often the least positive double goes into one. -/
def scale : ℕ := 2 ^ 1074

theorem scale_pos : 0 < scale := by
  unfold scale
  positivity

theorem pow_mul_pow {a b : ℕ} (h : a + b = 1074) : 2 ^ a * 2 ^ b = scale :=
  (pow_add 2 a b).symm.trans (congrArg (2 ^ ·) h)

theorem pow_add_scale (a : ℕ) : 2 ^ (a + 1074) = 2 ^ a * scale := pow_add 2 a 1074

/-- How often the least positive double goes into a finite one, whatever its sign. -/
def multiple (x : Binary64) : ℕ := x.significand * 2 ^ (x.power + 1074).toNat

/-- A natural number with a sign. -/
def signed (negative : Bool) (n : ℕ) : ℤ := if negative then -(n : ℤ) else n

theorem natAbs_signed (negative : Bool) (n : ℕ) : (signed negative n).natAbs = n := by
  unfold signed
  split
  · exact (Int.natAbs_neg _).trans (Int.natAbs_natCast n)
  · exact Int.natAbs_natCast n

theorem signed_mul (negative : Bool) (m n : ℕ) : signed negative (m * n) = signed negative m * n := by
  unfold signed
  split
  · push_cast
    ring
  · push_cast
    rfl

theorem signed_inj {b : Bool} {m n : ℕ} : signed b m = signed b n ↔ m = n := by
  constructor
  · intro h
    rw [← natAbs_signed b m, h, natAbs_signed]
  · exact congrArg _

theorem cast_signed (b : Bool) (n : ℕ) : ((signed b n : ℤ) : ℚ) = (if b then -1 else 1) * n := by
  unfold signed
  split
  · push_cast
    ring
  · push_cast
    ring

/-- How often the least positive double goes into a finite one, with its sign. -/
def scaled (x : Binary64) : ℤ := signed x.isNegative x.multiple

theorem natAbs_scaled (x : Binary64) : x.scaled.natAbs = x.multiple := natAbs_signed _ _

theorem significand_lt (x : Binary64) : x.significand < 2 ^ 53 := by
  have hfraction : double.fraction x.toNat < 2 ^ 52 := double.fraction_lt x.toNat
  rw [significand, BinaryFormat.significand, Nat.one_shiftLeft]
  split
  · omega
  · have hwidth : double.fractionWidth = 52 := rfl
    rw [hwidth]
    omega

theorem power_eq (x : Binary64) :
    x.power = (if double.exponent x.toNat = 0 then (1 : ℤ) else double.exponent x.toNat) - 1075 := by
  have hbias : (double.bias : ℤ) = 1023 := by decide
  have hwidth : (double.fractionWidth : ℤ) = 52 := rfl
  rw [power, BinaryFormat.power, hbias, hwidth]
  omega

theorem power_ge (x : Binary64) : -1074 ≤ x.power := by
  rw [power_eq]
  split
  · omega
  · omega

theorem value_eq_scaled (x : Binary64) : x.value = x.scaled / scale := by
  have hpower : ((2 : ℚ) ^ (x.power + 1074).toNat) = 2 ^ x.power * scale := by
    have hge := x.power_ge
    have hnat : (((x.power + 1074).toNat : ℕ) : ℤ) = x.power + (1074 : ℕ) := Int.toNat_of_nonneg (by omega)
    rw [← zpow_natCast, hnat, zpow_add₀ (by norm_num), zpow_natCast, scale, Nat.cast_pow, Nat.cast_ofNat]
  have hmultiple : (x.multiple : ℚ) = x.significand * 2 ^ x.power * scale := by
    rw [multiple, Nat.cast_mul, Nat.cast_pow, Nat.cast_ofNat, hpower, mul_assoc]
  have hscale : (scale : ℚ) ≠ 0 := Nat.cast_ne_zero.mpr scale_pos.ne'
  rw [value, scaled, eq_div_iff hscale, cast_signed, hmultiple]
  ring

theorem represents_int_iff (x : Binary64) (n : ℤ) :
    x.Represents n ↔ x.isFinite = true ∧ x.scaled = n * scale := by
  have hvalue : x.value = n ↔ x.scaled = n * scale := by
    rw [value_eq_scaled, div_eq_iff (Nat.cast_ne_zero.mpr scale_pos.ne')]
    norm_cast
  constructor
  · rintro ⟨hfinite, h⟩
    exact ⟨hfinite, hvalue.mp h⟩
  · rintro ⟨hfinite, h⟩
    exact ⟨hfinite, hvalue.mpr h⟩

/-! ### Order -/

/-- The bits without the sign. -/
def place (x : Binary64) : ℕ := x.toNat % 2 ^ 63

theorem toNat_lt (x : Binary64) : x.toNat < 2 ^ 64 := x.bits.toNat_lt

theorem place_eq (x : Binary64) : x.place = double.exponent x.toNat * 2 ^ 52 + double.fraction x.toNat := by
  have hwidth : double.fractionWidth = 52 := rfl
  have hexponent : double.exponentWidth = 11 := rfl
  rw [place, BinaryFormat.exponent, BinaryFormat.fraction, hwidth, hexponent, Nat.one_shiftLeft, Nat.one_shiftLeft,
    Nat.shiftRight_eq_div_pow]
  omega

theorem toNat_eq (x : Binary64) : x.toNat = (if x.isNegative then 2 ^ 63 else 0) + x.place := by
  have hlt := x.toNat_lt
  rw [isNegative, place]
  split
  · next h =>
    rw [decide_eq_true_iff] at h
    omega
  · next h =>
    rw [decide_eq_true_iff] at h
    omega

theorem rank_eq (x : Binary64) : x.rank = signed x.isNegative x.place := rfl

theorem multiple_eq (x : Binary64) :
    x.multiple = if double.exponent x.toNat = 0 then double.fraction x.toNat
      else (2 ^ 52 + double.fraction x.toNat) * 2 ^ (double.exponent x.toNat - 1) := by
  have hwidth : double.fractionWidth = 52 := rfl
  rw [multiple, power_eq, significand, BinaryFormat.significand, hwidth, Nat.one_shiftLeft]
  split
  · norm_num
  · next hpos =>
    congr 2
    omega

/-- Larger bits stand for more: the exponent comes first, and a larger one outweighs every fraction. -/
theorem multiple_lt {x y : Binary64} (h : x.place < y.place) : x.multiple < y.multiple := by
  have hx : double.fraction x.toNat < 2 ^ 52 := double.fraction_lt x.toNat
  have hy : double.fraction y.toNat < 2 ^ 52 := double.fraction_lt y.toNat
  rw [place_eq, place_eq] at h
  rw [multiple_eq, multiple_eq]
  generalize double.exponent x.toNat = e, double.fraction x.toNat = f, double.exponent y.toNat = e',
    double.fraction y.toNat = f' at *
  rcases Nat.lt_trichotomy e e' with hless | rfl | hmore
  · have hpos : e' ≠ 0 := by omega
    have hhigh : 2 ^ 52 * 2 ^ e ≤ (2 ^ 52 + f') * 2 ^ (e' - 1) :=
      Nat.mul_le_mul (by omega) (Nat.pow_le_pow_right (by omega) (by omega))
    have hlow : (if e = 0 then f else (2 ^ 52 + f) * 2 ^ (e - 1)) < 2 ^ 52 * 2 ^ e := by
      split
      · next hzero =>
        subst hzero
        omega
      · next hnormal =>
        have htwice : 2 ^ 52 * 2 ^ e = 2 ^ 53 * 2 ^ (e - 1) := by
          rw [← Nat.pow_add, ← Nat.pow_add]
          congr 1
          omega
        rw [htwice]
        exact Nat.mul_lt_mul_of_pos_right (by omega) (by positivity)
    rw [if_neg hpos]
    exact lt_of_lt_of_le hlow hhigh
  · have hfraction : f < f' := by omega
    split
    · exact hfraction
    · exact Nat.mul_lt_mul_of_pos_right (by omega) (by positivity)
  · omega

theorem multiple_lt_iff {x y : Binary64} : x.multiple < y.multiple ↔ x.place < y.place := by
  refine ⟨fun h => ?_, multiple_lt⟩
  rcases Nat.lt_trichotomy x.place y.place with hless | hsame | hmore
  · exact hless
  · have hmultiple : x.multiple = y.multiple := by
      have hx : double.fraction x.toNat < 2 ^ 52 := double.fraction_lt x.toNat
      have hy : double.fraction y.toNat < 2 ^ 52 := double.fraction_lt y.toNat
      rw [place_eq, place_eq] at hsame
      have hexponent : double.exponent x.toNat = double.exponent y.toNat := by omega
      have hfraction : double.fraction x.toNat = double.fraction y.toNat := by omega
      rw [multiple_eq, multiple_eq, hexponent, hfraction]
    omega
  · have := multiple_lt hmore
    omega

/-- Only zeros have no place of their own among the doubles of one sign. -/
theorem multiple_eq_zero_iff (x : Binary64) : x.multiple = 0 ↔ x.place = 0 := by
  have hzero : zero.multiple = 0 := by decide
  have hplace : zero.place = 0 := by decide
  have h := multiple_lt_iff (x := zero) (y := x)
  rw [hzero, hplace] at h
  omega

/-- The order of the bits is the order of the values. -/
theorem rank_lt_iff {x y : Binary64} : x.rank < y.rank ↔ x.scaled < y.scaled := by
  have hlt := multiple_lt_iff (x := x) (y := y)
  have hgt := multiple_lt_iff (x := y) (y := x)
  have hx := x.multiple_eq_zero_iff
  have hy := y.multiple_eq_zero_iff
  rw [rank_eq, rank_eq, scaled, scaled]
  unfold signed
  split <;> split <;> omega

theorem rank_inj {x y : Binary64} : x.rank = y.rank ↔ x.scaled = y.scaled := by
  have hlt := rank_lt_iff (x := x) (y := y)
  have hgt := rank_lt_iff (x := y) (y := x)
  omega

theorem isFinite_iff (x : Binary64) : x.isFinite = true ↔ x.place < 0x7FF0000000000000 := by
  have hmax : double.maxExponent = 2047 := by decide
  have he : double.exponent x.toNat < 2 ^ 11 := double.exponent_lt x.toNat
  have hf : double.fraction x.toNat < 2 ^ 52 := double.fraction_lt x.toNat
  have hfinite : x.isFinite = true ↔ double.exponent x.toNat ≠ 2047 := by
    rw [isFinite, isNaN, isInfinite, BinaryFormat.isNaN, BinaryFormat.isInfinite, hmax]
    by_cases h : double.exponent x.toNat = 2047
    · by_cases hzero : double.fraction x.toNat = 0 <;> simp [h, hzero]
    · simp [h]
  rw [hfinite, place_eq]
  omega

theorem isNaN_of_isFinite {x : Binary64} (h : x.isFinite = true) : x.isNaN = false := by
  rw [isFinite, Bool.and_eq_true, Bool.not_eq_true'] at h
  exact h.1

theorem lt_iff {x y : Binary64} (hx : x.isNaN = false) (hy : y.isNaN = false) :
    x.lt y = true ↔ x.scaled < y.scaled := by
  rw [lt, hx, hy, ← rank_lt_iff]
  simp

theorem le_iff {x y : Binary64} (hx : x.isNaN = false) (hy : y.isNaN = false) :
    x.le y = true ↔ x.scaled ≤ y.scaled := by
  have h := rank_lt_iff (x := y) (y := x)
  rw [le, hx, hy]
  simp only [Bool.not_false, Bool.true_and, decide_eq_true_eq]
  omega

theorem lt_iff_of_represents {x y : Binary64} {m n : ℤ} (hx : x.Represents m) (hy : y.Represents n) :
    x.lt y = true ↔ m < n := by
  obtain ⟨hxfinite, hxscaled⟩ := (represents_int_iff x m).mp hx
  obtain ⟨hyfinite, hyscaled⟩ := (represents_int_iff y n).mp hy
  rw [lt_iff (isNaN_of_isFinite hxfinite) (isNaN_of_isFinite hyfinite), hxscaled, hyscaled]
  exact Int.mul_lt_mul_right (by exact_mod_cast scale_pos)

theorem le_iff_of_represents {x y : Binary64} {m n : ℤ} (hx : x.Represents m) (hy : y.Represents n) :
    x.le y = true ↔ m ≤ n := by
  obtain ⟨hxfinite, hxscaled⟩ := (represents_int_iff x m).mp hx
  obtain ⟨hyfinite, hyscaled⟩ := (represents_int_iff y n).mp hy
  rw [le_iff (isNaN_of_isFinite hxfinite) (isNaN_of_isFinite hyfinite), hxscaled, hyscaled]
  exact Int.mul_le_mul_right (by exact_mod_cast scale_pos)

theorem isZero_iff (x : Binary64) : x.isZero = true ↔ x.place = 0 := by
  have hsize : 0x8000000000000000 = 2 ^ 63 := by decide
  rw [isZero, place, beq_iff_eq, hsize]

theorem eq_of_place {x y : Binary64} (hsign : x.isNegative = y.isNegative) (hplace : x.place = y.place) : x = y := by
  have hnat : x.toNat = y.toNat := by rw [toNat_eq, toNat_eq y, hsign, hplace]
  cases x
  cases y
  exact congrArg Binary64.mk (UInt64.toNat_inj.mp hnat)

/-- Doubles are equal as numbers if they have the same value. -/
theorem equal_iff {x y : Binary64} (hx : x.isNaN = false) (hy : y.isNaN = false) :
    x.equal y = true ↔ x.scaled = y.scaled := by
  rw [← rank_inj, equal, hx, hy]
  simp only [Bool.not_false, Bool.true_and, Bool.or_eq_true, Bool.and_eq_true, beq_iff_eq, isZero_iff]
  constructor
  · rintro (rfl | ⟨hzero, hzero'⟩)
    · rfl
    · rw [rank_eq, rank_eq, hzero, hzero']
      simp [signed]
  · intro hrank
    by_cases hsign : x.isNegative = y.isNegative
    · left
      refine eq_of_place hsign ?_
      rwa [rank_eq, rank_eq, hsign, signed_inj] at hrank
    · right
      rw [rank_eq, rank_eq] at hrank
      unfold signed at hrank
      split at hrank <;> split at hrank
      · next h h' => exact (hsign (h.trans h'.symm)).elim
      · omega
      · omega
      · next h h' => exact (hsign ((Bool.eq_false_iff.mpr h).trans (Bool.eq_false_iff.mpr h').symm)).elim

/-! ### Integer parts -/

theorem truncate?_of_isFinite {x : Binary64} (h : x.isFinite = true) :
    x.truncate? = some (signed x.isNegative (x.multiple / scale)) := by
  have hge := x.power_ge
  have hpart : (if 0 ≤ x.power then x.significand <<< x.power.toNat else x.significand >>> (-x.power).toNat) =
      x.multiple / scale := by
    rw [multiple]
    split
    · next hpos =>
      have hsplit : (x.power + 1074).toNat = x.power.toNat + 1074 := by omega
      rw [Nat.shiftLeft_eq, hsplit, pow_add_scale, ← Nat.mul_assoc, Nat.mul_div_cancel _ scale_pos]
    · next hneg =>
      have hpow := pow_mul_pow (show (-x.power).toNat + (x.power + 1074).toNat = 1074 by omega)
      rw [Nat.shiftRight_eq_div_pow, ← hpow, Nat.mul_div_mul_right _ _ (Nat.two_pow_pos _)]
  rw [truncate?, h, signed]
  simp only [Bool.not_true, Bool.false_eq_true, if_false, hpart]

end PluginRelay.Binary64
