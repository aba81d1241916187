import Mathlib.Tactic.Ring
import PluginRelay.Proofs.NarrowFloat

/-!
# Singles among doubles

A single that was widened is its own nearest single: the fraction of the double ends in the zeros that rounding
takes away, and the quiet bit of what is no number is set on both sides.
-/
namespace PluginRelay.Binary64

open BinaryFormat (double single)

/-! ## The fields of a double -/

theorem toNat_ofNatBits {bits : Nat} (h : bits < UInt64.size) : (ofNatBits bits).toNat = bits :=
  UInt64.toNat_ofNat_of_lt' h

section

variable {sign : Bool} {e m : Nat} (he : e < 2 ^ 11) (hm : m < 2 ^ 52)
include he hm

theorem toNat_pack : (ofNatBits (double.pack sign e m)).toNat = double.pack sign e m :=
  toNat_ofNatBits (double.pack_lt sign he hm)

theorem isNegative_pack : (ofNatBits (double.pack sign e m)).isNegative = sign := by
  rw [isNegative, toNat_pack he hm, BinaryFormat.pack_eq]
  simp only [double] at he hm ⊢
  cases sign with
  | false => simp; omega
  | true => simp; omega

theorem isNaN_pack : (ofNatBits (double.pack sign e m)).isNaN = (e = double.maxExponent && m != 0) := by
  rw [isNaN, toNat_pack he hm, BinaryFormat.isNaN, double.exponent_pack sign he hm, double.fraction_pack sign e hm]

theorem isInfinite_pack :
    (ofNatBits (double.pack sign e m)).isInfinite = (e = double.maxExponent && m == 0) := by
  rw [isInfinite, toNat_pack he hm, BinaryFormat.isInfinite, double.exponent_pack sign he hm,
    double.fraction_pack sign e hm]

theorem significand_pack :
    (ofNatBits (double.pack sign e m)).significand = if e = 0 then m else 2 ^ 52 + m := by
  rw [significand, toNat_pack he hm, BinaryFormat.significand, double.exponent_pack sign he hm,
    double.fraction_pack sign e hm, Nat.one_shiftLeft]
  rfl

theorem power_pack (hpos : 0 < e) : (ofNatBits (double.pack sign e m)).power = (e : Int) - 1075 := by
  rw [power, toNat_pack he hm, BinaryFormat.power, double.exponent_pack sign he hm, if_neg hpos.ne']
  simp only [double, BinaryFormat.bias, Nat.one_shiftLeft]
  omega

end

/-! ## Rounding what ends in zeros -/

theorem roundHalfEven_mul (n : Nat) {d : Nat} (hd : 0 < d) : roundHalfEven (n * d) d = n := by
  rw [roundHalfEven, Nat.mul_mod_left, Nat.mul_div_cancel n hd]
  exact if_pos hd

theorem log2_add {m : Nat} (hm : m < 2 ^ 52) : (2 ^ 52 + m).log2 = 52 :=
  (Nat.log2_eq_iff (by omega)).mpr (by omega)

theorem signBit_eq (sign : Bool) : (if sign then 1 <<< 31 else 0) = sign.toNat * 2 ^ 31 := by cases sign <;> rfl

/-- A finite double whose significand ends in as many zeros as a single has digits less. -/
theorem toSingleBits_finite {sign : Bool} {e m n : Nat} (hpos : 0 < e) (he : e < 2047) (hm : m < 2 ^ 52)
    (hn : 2 ^ 52 + m = n * 2 ^ max 29 (926 - e)) :
    (ofNatBits (double.pack sign e m)).toSingleBits =
      sign.toNat * 2 ^ 31 + min ((e - 897) * 2 ^ 23 + n) 0x7F800000 := by
  have he' : e < 2 ^ 11 := by omega
  have hmax : ¬e = double.maxExponent := he.ne
  have hsignificand : (ofNatBits (double.pack sign e m)).significand = 2 ^ 52 + m := by
    rw [significand_pack he' hm, if_neg hpos.ne']
  have hscale : max ((e : Int) - 1075 + (52 : Nat) - 23) (-149) - ((e : Int) - 1075) = (max 29 (926 - e) : Nat) := by
    omega
  have hpower : (max ((e : Int) - 1075 + (52 : Nat) - 23) (-149) + 149).toNat = e - 897 := by omega
  have hshift : ¬((max 29 (926 - e) : Nat) : Int) ≤ 0 := by omega
  have hzero : ¬2 ^ 52 + m = 0 := by omega
  rw [toSingleBits, isNegative_pack he' hm, isNaN_pack he' hm, isInfinite_pack he' hm, hsignificand,
    power_pack he' hm hpos, signBit_eq]
  simp only [hmax, decide_false, Bool.false_and, Bool.false_eq_true, if_false, hzero, log2_add hm, hscale, hpower,
    hshift, Int.toNat_natCast, Nat.shiftLeft_eq, Nat.one_mul]
  rw [hn, roundHalfEven_mul n (by positivity)]

theorem toSingleBits_infinite (sign : Bool) :
    (ofNatBits (double.pack sign 2047 0)).toSingleBits = single.pack sign 255 0 := by cases sign <;> decide

theorem toSingleBits_zero (sign : Bool) :
    (ofNatBits (double.pack sign 0 0)).toSingleBits = single.pack sign 0 0 := by cases sign <;> decide

/-- What is no number keeps the end of a single's fraction and is quiet. -/
theorem toSingleBits_nan (sign : Bool) {m : Nat} (hm : m < 2 ^ 22) :
    (ofNatBits (double.pack sign 2047 (m * 2 ^ 29 + 2 ^ 51))).toSingleBits = single.pack sign 255 (2 ^ 22 + m) := by
  have he : 2047 < 2 ^ 11 := by omega
  have hfraction : m * 2 ^ 29 + 2 ^ 51 < 2 ^ 52 := by omega
  have hne : (m * 2 ^ 29 + 2 ^ 51 != 0) = true := by simp
  have hmax : (decide (2047 = double.maxExponent)) = true := by decide
  rw [toSingleBits, isNegative_pack he hfraction, isNaN_pack he hfraction, hne, hmax, Bool.and_true, if_pos rfl,
    toNat_pack he hfraction, signBit_eq, BinaryFormat.pack_eq, BinaryFormat.pack_eq, Nat.shiftRight_eq_div_pow]
  simp only [double, single, Nat.one_shiftLeft]
  omega

/-! ## Singles -/

/-- The double that a single widens to, by the kinds of singles. -/
theorem ofSingleBits_pack (sign : Bool) {e m : Nat} (he : e < 2 ^ 8) (hm : m < 2 ^ 23) :
    ofSingleBits (single.pack sign e m) =
      if e = 255 then
        if m = 0 then ofNatBits (double.pack sign 2047 0)
        else ofNatBits (double.pack sign 2047 (m % 2 ^ 22 * 2 ^ 29 + 2 ^ 51))
      else if e = 0 then
        if m = 0 then ofNatBits (double.pack sign 0 0)
        else ofNatBits (double.pack sign (874 + m.log2) ((m - 2 ^ m.log2) * 2 ^ (52 - m.log2)))
      else ofNatBits (double.pack sign (896 + e) (m * 2 ^ 29)) := by
  have hsingle : single.maxExponent = 255 := by decide
  have hdouble : double.maxExponent = 2047 := by decide
  have hquiet : single.quietBit = 2 ^ 22 := by decide
  have hquiet' : double.quietBit = 2 ^ 51 := by decide
  have hsmall : double.bias + 1 + m.log2 - single.bias - single.fractionWidth = 874 + m.log2 := by
    simp only [double, single, BinaryFormat.bias, Nat.one_shiftLeft]
    omega
  have hbias : double.bias + e - single.bias = 896 + e := by
    simp only [double, single, BinaryFormat.bias, Nat.one_shiftLeft]
    omega
  have hfraction : double.fractionWidth = 52 := rfl
  rw [ofSingleBits, BinaryFormat.widen, single.exponent_pack sign he hm, single.fraction_pack sign e hm,
    single.negative_pack sign he hm]
  simp only [hsingle, hdouble, hquiet, hquiet', hsmall, hbias, hfraction, Nat.shiftLeft_eq, Nat.one_mul]
  split_ifs <;> rfl

theorem toSingleBits_subnormal (sign : Bool) {m : Nat} (hm : m < 2 ^ 23) (hpos : 0 < m) :
    (ofNatBits (double.pack sign (874 + m.log2) ((m - 2 ^ m.log2) * 2 ^ (52 - m.log2)))).toSingleBits =
      single.pack sign 0 m := by
  have htop : m.log2 < 23 := (Nat.log2_lt hpos.ne').mpr hm
  have hlow : 2 ^ m.log2 ≤ m := Nat.log2_self_le hpos.ne'
  have hhigh : m < 2 ^ (m.log2 + 1) := Nat.lt_log2_self
  have hpow : 2 ^ m.log2 * 2 ^ (52 - m.log2) = 2 ^ 52 := by
    rw [← Nat.pow_add]
    congr 1
    omega
  have hscale : max 29 (926 - (874 + m.log2)) = 52 - m.log2 := by omega
  have hn : 2 ^ 52 + (m - 2 ^ m.log2) * 2 ^ (52 - m.log2) = m * 2 ^ max 29 (926 - (874 + m.log2)) := by
    rw [hscale, ← hpow, ← Nat.add_mul, Nat.add_sub_cancel' hlow]
  have hfits : (m - 2 ^ m.log2) * 2 ^ (52 - m.log2) < 2 ^ 52 := by
    rw [← hpow]
    refine Nat.mul_lt_mul_of_pos_right ?_ (by positivity)
    rw [Nat.pow_succ] at hhigh
    omega
  rw [toSingleBits_finite (by omega) (by omega) hfits hn, BinaryFormat.pack_eq]
  simp only [single]
  omega

theorem toSingleBits_normal (sign : Bool) {e m : Nat} (hpos : 0 < e) (he : e < 255) (hm : m < 2 ^ 23) :
    (ofNatBits (double.pack sign (896 + e) (m * 2 ^ 29))).toSingleBits = single.pack sign e m := by
  have hscale : max 29 (926 - (896 + e)) = 29 := by omega
  have hn : 2 ^ 52 + m * 2 ^ 29 = (2 ^ 23 + m) * 2 ^ max 29 (926 - (896 + e)) := by
    rw [hscale]
    omega
  rw [toSingleBits_finite (by omega) (by omega) (by omega) hn, BinaryFormat.pack_eq]
  simp only [single]
  omega

/-- A single is its own nearest single. -/
theorem toSingle_ofSingleBits {bits : Nat} (h : bits < UInt32.size) :
    (ofSingleBits bits).toSingle = ofSingleBits bits := by
  have he := single.exponent_lt bits
  have hm := single.fraction_lt bits
  have hfields : single.pack (single.negative bits) (single.exponent bits) (single.fraction bits) = bits :=
    single.pack_fields h
  rw [← hfields]
  generalize single.negative bits = sign, single.exponent bits = e, single.fraction bits = m at *
  rw [toSingle, ofSingleBits_pack sign he hm]
  split_ifs with htop hzero hlow hzero
  · rw [toSingleBits_infinite, ofSingleBits_pack sign (by omega) (by omega)]
    rfl
  · have hend : m % 2 ^ 22 < 2 ^ 22 := Nat.mod_lt _ (by omega)
    rw [toSingleBits_nan sign hend, ofSingleBits_pack sign (by omega) (by omega), if_pos rfl, if_neg (by omega),
      Nat.add_mod_left, Nat.mod_mod]
  · rw [toSingleBits_zero, ofSingleBits_pack sign (by omega) (by omega)]
    rfl
  · rw [toSingleBits_subnormal sign hm (Nat.pos_of_ne_zero hzero), ofSingleBits_pack sign (by omega) hm,
      if_neg (by omega), if_pos rfl, if_neg hzero]
  · have hbound : e < 255 := by
      simp only [single] at he
      omega
    rw [toSingleBits_normal sign (Nat.pos_of_ne_zero hlow) hbound hm, ofSingleBits_pack sign he hm, if_neg htop,
      if_neg hlow]

end PluginRelay.Binary64
