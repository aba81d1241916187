import Mathlib.Tactic.Ring
import Mathlib.Tactic.Linarith
import PluginRelay.Cbor.Value

/-!
# Base-256 digits

`toNat` undoes `ofNat` on every number that fits the width, and the digits of a large integer give
the integer back. A byte string is below `256 ^ length`.
-/
namespace PluginRelay.Bytes

theorem foldl_digits (bytes : Bytes) (n : Nat) :
    bytes.foldl (fun n b => n * 256 + b.toNat) n = n * 256 ^ bytes.length + toNat bytes := by
  induction bytes generalizing n with
  | nil => simp [toNat]
  | cons b rest ih =>
    have hn := ih (n * 256 + b.toNat)
    have hz := ih (0 * 256 + b.toNat)
    simp only [toNat, List.foldl_cons, List.length_cons] at hn hz ⊢
    rw [hn, hz]
    ring

theorem toNat_cons (b : UInt8) (rest : Bytes) :
    toNat (b :: rest) = b.toNat * 256 ^ rest.length + toNat rest := by
  simpa [toNat] using foldl_digits rest b.toNat

theorem toNat_lt (bytes : Bytes) : toNat bytes < 256 ^ bytes.length := by
  induction bytes with
  | nil => simp [toNat]
  | cons b rest ih =>
    have hb : b.toNat ≤ 255 := Nat.le_of_lt_succ b.toNat_lt
    have hm := Nat.mul_le_mul_right (256 ^ rest.length) hb
    rw [toNat_cons, List.length_cons, Nat.pow_succ]
    omega

theorem toNat_ofNat_mod (width n : Nat) : toNat (ofNat width n) = n % 256 ^ width := by
  induction width with
  | zero => simp [ofNat, toNat, Nat.mod_one]
  | succ w ih =>
    have hd : (UInt8.ofNat (n >>> (8 * w))).toNat = n / 256 ^ w % 256 := by
      rw [UInt8.toNat_ofNat', Nat.shiftRight_eq_div_pow, Nat.pow_mul]
    rw [ofNat, toNat_cons, hd, ih, length_ofNat, Nat.mod_pow_succ]
    ring

theorem toNat_ofNat {width n : Nat} (h : n < 256 ^ width) : toNat (ofNat width n) = n := by
  rw [toNat_ofNat_mod, Nat.mod_eq_of_lt h]

end PluginRelay.Bytes

namespace PluginRelay.Cbor.Value

theorem toNat_digits256 {fuel n : Nat} (h : n < 256 ^ fuel) (digits : Bytes) :
    Bytes.toNat (digits256 fuel n digits) = n * 256 ^ digits.length + Bytes.toNat digits := by
  induction fuel generalizing n digits with
  | zero => simp [digits256, Nat.lt_one_iff.mp h]
  | succ fuel ih =>
    unfold digits256
    split
    · next hz => simp [hz]
    · have hq : n / 256 < 256 ^ fuel := by
        rw [Nat.pow_succ] at h
        omega
      have hr : (UInt8.ofNat (n % 256)).toNat = n % 256 := by simp
      have hn := Nat.div_add_mod n 256
      rw [ih hq, Bytes.toNat_cons, hr, List.length_cons]
      conv_rhs => rw [← hn]
      ring

theorem length_digits256 (fuel n : Nat) (digits : Bytes) :
    (digits256 fuel n digits).length ≤ fuel + digits.length := by
  induction fuel generalizing n digits with
  | zero => simp [digits256]
  | succ fuel ih =>
    unfold digits256
    split
    · omega
    · have := ih (n / 256) (UInt8.ofNat (n % 256) :: digits)
      simp only [List.length_cons] at this
      omega

theorem toNat_magnitude {n : Nat} (h : n < 256 ^ 16) : Bytes.toNat (magnitude n) = n := by
  rw [magnitude, toNat_digits256 h]
  simp [Bytes.toNat]

theorem length_magnitude_le (n : Nat) : (magnitude n).length ≤ integerWidth := by
  simpa [magnitude, integerWidth] using length_digits256 16 n []

end PluginRelay.Cbor.Value
