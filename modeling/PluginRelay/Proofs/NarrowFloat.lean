import Mathlib.Tactic.Ring
import Mathlib.Tactic.Linarith
import PluginRelay.Number.Binary64

/-!
# Narrowing loses nothing

A datum that `narrow?` finds fits the smaller format and widens to the datum that was narrowed. The
fields of a datum give it back, which is what the signed zeros need.
-/
namespace PluginRelay.BinaryFormat

variable (f : BinaryFormat)

/-- The number of data of a format: every sign with every exponent and every fraction. -/
def size : Nat := 2 * 2 ^ f.exponentWidth * 2 ^ f.fractionWidth

theorem fraction_lt (bits : Nat) : f.fraction bits < 2 ^ f.fractionWidth := by
  rw [fraction, Nat.one_shiftLeft]
  exact Nat.mod_lt _ (by positivity)

theorem exponent_lt (bits : Nat) : f.exponent bits < 2 ^ f.exponentWidth := by
  rw [exponent, Nat.one_shiftLeft]
  exact Nat.mod_lt _ (by positivity)

theorem pack_eq (sign : Bool) (e m : Nat) :
    f.pack sign e m = (sign.toNat * 2 ^ f.exponentWidth + e) * 2 ^ f.fractionWidth + m := by
  cases sign with
  | false => simp [pack, Nat.shiftLeft_eq]
  | true =>
    simp only [pack, Nat.shiftLeft_eq, Nat.pow_add, if_true, Bool.toNat_true]
    ring

theorem pack_lt (sign : Bool) {e m : Nat} (he : e < 2 ^ f.exponentWidth)
    (hm : m < 2 ^ f.fractionWidth) : f.pack sign e m < f.size := by
  have hs : sign.toNat * 2 ^ f.exponentWidth ≤ 1 * 2 ^ f.exponentWidth :=
    Nat.mul_le_mul_right _ sign.toNat_le
  have hq : sign.toNat * 2 ^ f.exponentWidth + e + 1 ≤ 2 * 2 ^ f.exponentWidth := by omega
  have hm' := Nat.mul_le_mul_right (2 ^ f.fractionWidth) hq
  rw [pack_eq, size]
  linarith

theorem pack_fields {bits : Nat} (h : bits < f.size) :
    f.pack (f.negative bits) (f.exponent bits) (f.fraction bits) = bits := by
  have hq : bits / 2 ^ f.fractionWidth < 2 * 2 ^ f.exponentWidth :=
    (Nat.div_lt_iff_lt_mul (by positivity)).mpr h
  have hs : bits / 2 ^ f.fractionWidth / 2 ^ f.exponentWidth < 2 :=
    (Nat.div_lt_iff_lt_mul (by positivity)).mpr hq
  have hn : (f.negative bits).toNat = bits / 2 ^ f.fractionWidth / 2 ^ f.exponentWidth := by
    rw [negative, Nat.shiftRight_eq_div_pow, Nat.pow_add, ← Nat.div_div_eq_div_mul]
    generalize bits / 2 ^ f.fractionWidth / 2 ^ f.exponentWidth = q at hs ⊢
    obtain rfl | rfl : q = 0 ∨ q = 1 := by omega
    · rfl
    · rfl
  rw [pack_eq, hn, exponent, fraction, Nat.one_shiftLeft, Nat.one_shiftLeft,
    Nat.shiftRight_eq_div_pow, Nat.div_add_mod', Nat.div_add_mod']

theorem fraction_pack (sign : Bool) (e : Nat) {m : Nat} (hm : m < 2 ^ f.fractionWidth) :
    f.fraction (f.pack sign e m) = m := by
  rw [fraction, pack_eq, Nat.one_shiftLeft, Nat.mul_add_mod_of_lt hm]

theorem pack_shiftRight (sign : Bool) (e : Nat) {m : Nat} (hm : m < 2 ^ f.fractionWidth) :
    f.pack sign e m / 2 ^ f.fractionWidth = sign.toNat * 2 ^ f.exponentWidth + e := by
  rw [pack_eq, Nat.mul_comm _ (2 ^ f.fractionWidth), Nat.mul_add_div (by positivity),
    Nat.div_eq_of_lt hm, Nat.add_zero]

theorem exponent_pack (sign : Bool) {e m : Nat} (he : e < 2 ^ f.exponentWidth)
    (hm : m < 2 ^ f.fractionWidth) : f.exponent (f.pack sign e m) = e := by
  rw [exponent, Nat.shiftRight_eq_div_pow, pack_shiftRight f sign e hm, Nat.one_shiftLeft,
    Nat.mul_add_mod_of_lt he]

theorem negative_pack (sign : Bool) {e m : Nat} (he : e < 2 ^ f.exponentWidth)
    (hm : m < 2 ^ f.fractionWidth) : f.negative (f.pack sign e m) = sign := by
  rw [negative, Nat.shiftRight_eq_div_pow, Nat.pow_add, ← Nat.div_div_eq_div_mul,
    pack_shiftRight f sign e hm, Nat.mul_comm, Nat.mul_add_div (by positivity),
    Nat.div_eq_of_lt he]
  cases sign with
  | false => rfl
  | true => rfl

/-- Zeros keep their sign in every format. -/
theorem widen_zero (g : BinaryFormat) (hf : 0 < f.exponentWidth) (sign : Bool) :
    f.widen g (f.pack sign 0 0) = g.pack sign 0 0 := by
  have hm : 0 ≠ f.maxExponent := by
    have := Nat.one_lt_two_pow_iff.mpr hf.ne'
    rw [maxExponent, Nat.one_shiftLeft]
    omega
  rw [widen, exponent_pack f sign (by positivity) (by positivity),
    fraction_pack f sign 0 (by positivity), negative_pack f sign (by positivity) (by positivity)]
  simp [hm]

theorem widen_of_narrow? {f g : BinaryFormat} {bits c : Nat} (hg : 0 < g.exponentWidth)
    (hb : bits < f.size) (h : f.narrow? g bits = some c) : g.widen f c = bits := by
  simp only [narrow?] at h
  split_ifs at h with hover he hm hw
  · obtain rfl := Option.some.inj h
    have hp := f.pack_fields hb
    rw [he, hm] at hp
    rw [widen_zero g f hg, hp]
  · obtain rfl := Option.some.inj h
    exact hw

/-- A finite exponent that is not out of the smaller format's range keeps within it. -/
theorem cut_lt {f g : BinaryFormat} {bits : Nat} (hw : g.fractionWidth ≤ f.fractionWidth)
    (hover : ¬(f.exponent bits < f.maxExponent ∧ g.maxExponent + f.bias ≤ f.exponent bits + g.bias)) :
    f.cut g bits < g.size := by
  have hpos : 0 < 2 ^ g.exponentWidth := by positivity
  have hmax : g.maxExponent < 2 ^ g.exponentWidth := by
    rw [maxExponent, Nat.one_shiftLeft]
    omega
  have he := f.exponent_lt bits
  have hm := f.fraction_lt bits
  have hcut : f.fraction bits >>> (f.fractionWidth - g.fractionWidth) < 2 ^ g.fractionWidth := by
    rw [Nat.shiftRight_eq_div_pow, Nat.div_lt_iff_lt_mul (by positivity), ← Nat.pow_add,
      Nat.add_sub_cancel' hw]
    exact hm
  simp only [cut]
  split_ifs with htop hsmall
  · exact g.pack_lt _ hmax hcut
  · refine g.pack_lt _ hpos ?_
    have hle : f.fractionWidth + 1 ≤ g.fractionWidth + (f.fractionWidth - g.fractionWidth +
        (f.bias + 1 - g.bias - f.exponent bits)) := by omega
    have hpow := Nat.pow_le_pow_right (show 0 < 2 by omega) hle
    rw [Nat.shiftRight_eq_div_pow, Nat.div_lt_iff_lt_mul (by positivity), ← Nat.pow_add,
      Nat.one_shiftLeft]
    omega
  · have hfinite : f.exponent bits < f.maxExponent := by
      rw [maxExponent, Nat.one_shiftLeft] at htop ⊢
      omega
    refine g.pack_lt _ ?_ hcut
    omega

theorem narrow?_lt {f g : BinaryFormat} {bits c : Nat} (hw : g.fractionWidth ≤ f.fractionWidth)
    (h : f.narrow? g bits = some c) : c < g.size := by
  simp only [narrow?] at h
  split_ifs at h with hover he hm hc
  · obtain rfl := Option.some.inj h
    exact g.pack_lt _ (by positivity) (by positivity)
  · obtain rfl := Option.some.inj h
    exact cut_lt hw hover

end PluginRelay.BinaryFormat
