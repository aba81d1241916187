import PluginRelay.Proofs.HeldObjects
import PluginRelay.Proofs.NearestDoubles

/-!
# Numbers read from outside

A double is read as an integer if that is its value. An integer becomes a number with the same value or is rounded, and
then it does not come back. Larger integers of scripts are cut to 64 bits; only those that need no more are read as they
are. On the way through a double and back, the greatest integer of 64 bits meets the end of the range on both sides.
-/
namespace PluginRelay.Embedding

open Script

namespace Exact

/-! ### The range of 64 bits -/

theorem nearest_le_of_range {n : ℤ} (hlow : low ≤ n) (hhigh : n ≤ high) : Binary64.nearest n.natAbs ≤ 2 ^ 63 := by
  refine Binary64.nearest_le ?_
  unfold low at hlow
  unfold high at hhigh
  omega

theorem ofInt_represents {n : ℤ} (hlow : low ≤ n) (hhigh : n ≤ high) :
    (Binary64.ofInt n).Represents (Binary64.nearestInt n) := by
  have hnearest := nearest_le_of_range hlow hhigh
  exact Binary64.ofInt_represents (lt_of_le_of_lt hnearest (by omega))

theorem exists_represents_iff {n : ℤ} (hlow : low ≤ n) (hhigh : n ≤ high) :
    (∃ x : Binary64, x.Represents n) ↔ Binary64.nearestInt n = n := by
  have hnearest := nearest_le_of_range hlow hhigh
  exact Binary64.exists_represents_iff (lt_of_le_of_lt hnearest (by omega))

theorem nearestInt_low : Binary64.nearestInt low = low := by decide

theorem nearestInt_high : Binary64.nearestInt high = high + 1 := by decide

theorem lowDouble_represents : lowDouble.Represents low := by
  have h := ofInt_represents (n := low) le_rfl (by decide)
  rwa [nearestInt_low] at h

theorem highDouble_represents : highDouble.Represents (high + 1 : ℤ) := by
  have h := ofInt_represents (n := high) (by decide) le_rfl
  rwa [nearestInt_high] at h

/-! ### From doubles to integers -/

theorem saturated_of_represents {x : Binary64} {n : ℤ} (h : x.Represents n) : saturated x = max low (min high n) := by
  rw [saturated, Binary64.truncate?_of_represents h]

/-- What passes the range test is finite: its ends are, and nothing infinite stands between them. -/
theorem isFinite_of_range {x : Binary64} (hlow : lowDouble.le x = true) (hhigh : x.lt highDouble = true) :
    x.isFinite = true := by
  have hnan : x.isNaN = false := by
    rw [Binary64.lt, Bool.and_eq_true, Bool.and_eq_true, Bool.not_eq_true'] at hhigh
    exact hhigh.1.1
  obtain ⟨hlowFinite, hlowScaled⟩ := (Binary64.represents_int_iff _ _).mp lowDouble_represents
  obtain ⟨hhighFinite, hhighScaled⟩ := (Binary64.represents_int_iff _ _).mp highDouble_represents
  rw [Binary64.le_iff (Binary64.isNaN_of_isFinite hlowFinite) hnan, hlowScaled] at hlow
  rw [Binary64.lt_iff hnan (Binary64.isNaN_of_isFinite hhighFinite), hhighScaled] at hhigh
  have hpos := Binary64.scale_pos
  rw [Binary64.isFinite_iff_multiple_lt, ← Binary64.natAbs_scaled]
  unfold low at hlow
  unfold high at hhigh
  omega

/-- A double is read as the integer that is its value, and not at all if there is none of 64 bits. -/
theorem ofDouble?_eq_some_iff (x : Binary64) (n : ℤ) :
    ofDouble? x = some n ↔ x.Represents n ∧ low ≤ n ∧ n ≤ high := by
  have hlow {k : ℤ} (h : x.Represents k) : lowDouble.le x = true ↔ low ≤ k :=
    Binary64.le_iff_of_represents lowDouble_represents h
  have hhigh {k : ℤ} (h : x.Represents k) : x.lt highDouble = true ↔ k < high + 1 :=
    Binary64.lt_iff_of_represents h highDouble_represents
  rw [ofDouble?]
  constructor
  · intro h
    split at h
    · next hpass =>
      rw [Bool.and_eq_true, Bool.and_eq_true] at hpass
      obtain ⟨⟨htrunc, hge⟩, hlt⟩ := hpass
      obtain ⟨k, hk⟩ := (Binary64.trunc_equal_iff (isFinite_of_range hge hlt)).mp htrunc
      rw [hlow hk] at hge
      rw [hhigh hk] at hlt
      rw [saturated_of_represents hk, Option.some.injEq] at h
      have hn : n = k := by omega
      subst hn
      exact ⟨hk, hge, by omega⟩
    · cases h
  · rintro ⟨hn, hge, hle⟩
    have htrunc := (Binary64.trunc_equal_iff hn.finite).mpr ⟨n, hn⟩
    have hsaturated : max low (min high n) = n := by omega
    rw [htrunc, (hlow hn).mpr hge, (hhigh hn).mpr (by omega), saturated_of_represents hn, hsaturated]
    rfl

/-! ### From integers to doubles and back -/

/-- An integer comes back from the nearest double if that stands for it. The greatest one comes back as well, since
what is above it becomes the greatest one again. -/
theorem saturated_ofInt_eq_iff {n : ℤ} (hlow : low ≤ n) (hhigh : n ≤ high) :
    saturated (.ofInt n) = n ↔ Binary64.nearestInt n = n ∨ n = high := by
  have hnearest := nearest_le_of_range hlow hhigh
  have hbounds := Binary64.natAbs_signed (n < 0) (Binary64.nearest n.natAbs)
  rw [← Binary64.nearestInt] at hbounds
  rw [saturated_of_represents (ofInt_represents hlow hhigh)]
  rcases eq_or_ne n high with rfl | hne
  · rw [nearestInt_high]
    decide
  · unfold low high at *
    omega

end Exact

/-! ### Values -/

theorem isShort_iff (n : ℤ) : Value.isShort n = true ↔ -2 ^ 31 ≤ n ∧ n < 2 ^ 31 := by
  rw [Value.isShort, Bool.and_eq_true, decide_eq_true_eq, decide_eq_true_eq]
  omega

theorem asLong?_double (x : Binary64) (n : ℤ) :
    asLong? (.double x) = some n ↔ x.Represents n ∧ -2 ^ 63 ≤ n ∧ n < 2 ^ 63 := by
  have hrange : Exact.low ≤ n ∧ n ≤ Exact.high ↔ -2 ^ 63 ≤ n ∧ n < 2 ^ 63 := by
    unfold Exact.low Exact.high
    omega
  rw [asLong?, Exact.ofDouble?_eq_some_iff, hrange]

theorem asShort?_double (x : Binary64) (n : ℤ) :
    asShort? (.double x) = some n ↔ x.Represents n ∧ -2 ^ 31 ≤ n ∧ n < 2 ^ 31 := by
  have hshort : asShort? (.double x) = (asLong? (.double x)).filter Value.isShort := rfl
  rw [hshort, Option.filter_eq_some_iff, asLong?_double, isShort_iff]
  constructor
  · rintro ⟨⟨hn, -, -⟩, hrange⟩
    exact ⟨hn, hrange⟩
  · rintro ⟨hn, hlow, hhigh⟩
    exact ⟨⟨hn, by omega, by omega⟩, hlow, hhigh⟩

/-- Integers of 32 bits need no rounding. -/
theorem ofInt_represents_of_short {n : ℤ} (h : Value.isShort n = true) : (Binary64.ofInt n).Represents n := by
  rw [isShort_iff] at h
  have hn : Binary64.nearestInt n = n := by
    rw [Binary64.nearestInt_eq_self_iff]
    exact Binary64.nearest_of_lt (by omega)
  have hrepresents := Exact.ofInt_represents (n := n) (by unfold Exact.low; omega) (by unfold Exact.high; omega)
  rwa [hn] at hrepresents

/-- A number for an integer of 64 bits gives that integer back if and only if there is a double for it. -/
theorem asLong?_ofInt {n : ℤ} (hlow : Exact.low ≤ n) (hhigh : n ≤ Exact.high) :
    asLong? (.ofInt n) = some n ↔ ∃ x : Binary64, x.Represents n := by
  rw [Value.ofInt]
  split
  · next hshort => exact ⟨fun _ => ⟨_, ofInt_represents_of_short hshort⟩, fun _ => rfl⟩
  · rw [asLong?, Exact.ofDouble?_eq_some_iff]
    constructor
    · rintro ⟨hn, -, -⟩
      exact ⟨_, hn⟩
    · intro hn
      have hrepresents := Exact.ofInt_represents hlow hhigh
      rw [(Exact.exists_represents_iff hlow hhigh).mp hn] at hrepresents
      exact ⟨hrepresents, hlow, hhigh⟩

theorem ofInt_eq_int_iff (n : ℤ) : (∃ k, Value.ofInt n = .int k) ↔ Value.isShort n = true := by
  rw [Value.ofInt]
  split
  · next hshort => exact ⟨fun _ => hshort, fun _ => ⟨n, rfl⟩⟩
  · next hlong =>
    constructor
    · rintro ⟨k, hk⟩
      cases hk
    · intro hshort
      exact (hlong hshort).elim

/-- A number is not numbered. -/
theorem eq_ofInt {v : Value} {n : ℤ} (h : v.unnumbered = (Value.ofInt n).unnumbered) : v = .ofInt n := by
  have hsame : (Value.ofInt n).unnumbered = .ofInt n ∧ (∀ t, Value.ofInt n ≠ .string t) ∧
      ∀ b, Value.ofInt n ≠ .bigint b := by
    unfold Value.ofInt
    split
    · exact ⟨rfl, nofun, nofun⟩
    · exact ⟨rfl, nofun, nofun⟩
  obtain ⟨hnumber, htext, hlarge⟩ := hsame
  rw [hnumber] at h
  cases v with
  | string t => exact absurd h.symm (htext _)
  | bigint b => exact absurd h.symm (hlarge _)
  | _ => exact h

namespace Operation

variable {κ τ ε : Type} [Holding τ]

/-- The engine hands numbers over as they are. -/
theorem receive_ofInt (context : ContextId) (n : ℤ) (env : Env (World κ τ)) (m : Engine κ τ) :
    ∃ h m', (receive context (.ofInt n) : Task ε κ τ Handle) env m = .ok h m' ∧ h.value = .ofInt n := by
  obtain ⟨h, m', hrun, hvalue, -, -⟩ := receive_spec (ε := ε) context (.ofInt n) env m
  exact ⟨h, m', hrun, eq_ofInt hvalue⟩

end Operation

variable {κ τ ε : Type} [Holding τ]

/-- Numbers are read as the integers and doubles that are their values, or not at all. An integer that the program
passes on comes back if and only if there is a double for it. -/
theorem numbers_are_exact_or_absent :
    (∀ (x : Binary64) (n : ℤ), asLong? (.double x) = some n ↔ x.Represents n ∧ -2 ^ 63 ≤ n ∧ n < 2 ^ 63) ∧
    (∀ (x : Binary64) (n : ℤ), asShort? (.double x) = some n ↔ x.Represents n ∧ -2 ^ 31 ≤ n ∧ n < 2 ^ 31) ∧
    (∀ k : Int32, asLong? (.int k.toInt) = some k.toInt ∧ asShort? (.int k.toInt) = some k.toInt ∧
      ∃ x, asDouble? (.int k.toInt) = some x ∧ x.Represents k.toInt) ∧
    ∀ (n : Int64) (context : ContextId) (env : Env (World κ τ)) (m : Engine κ τ),
      ∃ h m', (Operation.ofPrimitive context (.i64 n)) env m = .ok h m' ∧
        (asLong? h.value = some n.toInt ↔ ∃ x : Binary64, x.Represents n.toInt) ∧
        ((∃ k, h.value = .int k) ↔ -2 ^ 31 ≤ n.toInt ∧ n.toInt < 2 ^ 31) := by
  refine ⟨asLong?_double, asShort?_double, fun k => ⟨rfl, rfl, _, rfl, ?_⟩, fun n context env m => ?_⟩
  · exact ofInt_represents_of_short ((isShort_iff _).mpr ⟨k.le_toInt, k.toInt_lt⟩)
  · obtain ⟨h, m', hrun, hvalue⟩ := Operation.receive_ofInt (ε := Failure) context n.toInt env m
    have hlow : Exact.low ≤ n.toInt := n.le_toInt
    have hhigh : n.toInt ≤ Exact.high := Int.le_of_lt_add_one n.toInt_lt
    refine ⟨h, m', hrun, ?_, ?_⟩
    · rw [hvalue, asLong?_ofInt hlow hhigh]
    · rw [hvalue, ofInt_eq_int_iff, isShort_iff]

/-- A larger integer of a script is never refused: it is cut to 64 bits, and is read as what is left of it. -/
theorem large_integers_are_cut (b : Large) :
    ∃ n : Int64, (2 ^ 64 : ℤ) ∣ b.value - n.toInt ∧ (n.toInt = b.value ↔ -2 ^ 63 ≤ b.value ∧ b.value < 2 ^ 63) ∧
      asLong? (.bigint b) = some n.toInt ∧
      (∀ k, asShort? (.bigint b) = some k ↔ k = n.toInt ∧ -2 ^ 31 ≤ k ∧ k < 2 ^ 31) ∧
      ∀ (context : ContextId) (env : Env (World κ τ)) (m : Engine κ τ),
        (Operation.asPrimitive? ⟨context, .bigint b⟩ : Task ε κ τ (Option Primitive)) env m =
          .ok (some (.i64 n)) m := by
  have hwrap : (Int64.ofInt b.value).toInt = Exact.wrap b.value := Int64.toInt_ofInt
  have hsize : (UInt64.size : ℤ) = 2 ^ 64 := by decide
  have hdvd : (2 ^ 64 : ℤ) ∣ b.value - Exact.wrap b.value := by
    rw [Exact.wrap, ← hsize]
    exact Int.dvd_self_sub_bmod
  have hlow := (Int64.ofInt b.value).le_toInt
  have hhigh := (Int64.ofInt b.value).toInt_lt
  refine ⟨Int64.ofInt b.value, hwrap ▸ hdvd, ?_, ?_, fun k => ?_, fun context env m => ?_⟩
  · rw [hwrap] at hlow hhigh ⊢
    omega
  · rw [hwrap]
    rfl
  · have hshort : asShort? (.bigint b) = (some (Exact.wrap b.value)).filter Value.isShort := rfl
    rw [hshort, Option.filter_eq_some_iff, Option.some.injEq, isShort_iff, ← hwrap, eq_comm]
  · have hn : Int64.ofInt (Exact.wrap b.value) = Int64.ofInt b.value := by rw [← hwrap, Int64.ofInt_toInt]
    exact congrArg (fun n => EStateM.Result.ok (some (Primitive.i64 n)) m) hn

/-- Just above the range, an integer of a script is read as the least one in it. -/
theorem large_integer_is_read_as_another :
    asLong? (.large 9223372036854775808) = some (-9223372036854775808) ∧
      ¬(9223372036854775808 : ℤ) < 2 ^ 63 := by decide

/-- An integer of a script is read as the double that is its value, or not at all. But the greatest integer of 64 bits
is read as well, and as the double next to it. -/
theorem double_of_large_integer {b : Large} (hlow : -2 ^ 63 ≤ b.value) (hhigh : b.value < 2 ^ 63) :
    (∀ x, asDouble? (.bigint b) = some x →
      x.Represents b.value ∨ b.value = 2 ^ 63 - 1 ∧ x.Represents (2 ^ 63 : ℤ)) ∧
    ((∃ x, asDouble? (.bigint b) = some x) ↔ (∃ x : Binary64, x.Represents b.value) ∨ b.value = 2 ^ 63 - 1) := by
  have hlow' : Exact.low ≤ b.value := hlow
  have hhigh' : b.value ≤ Exact.high := Int.le_of_lt_add_one hhigh
  have hwrap : Exact.wrap b.value = b.value := by
    have hsize : (UInt64.size : ℤ) = 2 ^ 64 := by decide
    rw [Exact.wrap]
    exact Int.bmod_eq_of_le_mul_two (by omega) (by omega)
  have hread (x : Binary64) : asDouble? (.bigint b) = some x ↔
      (Binary64.nearestInt b.value = b.value ∨ b.value = Exact.high) ∧ x = .ofInt b.value := by
    have hdouble : asDouble? (.bigint b) = Exact.asDouble? (Exact.wrap b.value) := rfl
    rw [hdouble, hwrap, Exact.asDouble?, ← Exact.saturated_ofInt_eq_iff hlow' hhigh', Option.ite_none_right_eq_some,
      Option.some.injEq, eq_comm (a := x)]
  have hrepresents := Exact.ofInt_represents hlow' hhigh'
  constructor
  · intro x hx
    obtain ⟨hsame | hgreatest, rfl⟩ := (hread x).mp hx
    · rw [hsame] at hrepresents
      exact .inl hrepresents
    · rw [hgreatest, Exact.nearestInt_high] at hrepresents
      exact .inr ⟨hgreatest, hgreatest.symm ▸ hrepresents⟩
  · rw [Exact.exists_represents_iff hlow' hhigh']
    constructor
    · rintro ⟨x, hx⟩
      exact ((hread x).mp hx).1
    · intro h
      exact ⟨.ofInt b.value, (hread _).mpr ⟨h, rfl⟩⟩

theorem double_of_least_integer :
    (-2 ^ 63 : ℤ) ≤ -2 ^ 63 ∧ (-2 ^ 63 : ℤ) < 2 ^ 63 ∧
      asDouble? (.large (-2 ^ 63)) = some ⟨0xC3E0000000000000⟩ ∧
      Binary64.Represents ⟨0xC3E0000000000000⟩ (-2 ^ 63 : ℤ) := by
  have hread : asDouble? (.large (-2 ^ 63)) = some ⟨0xC3E0000000000000⟩ := by decide
  have hlow : (-2 ^ 63 : ℤ) ≤ -2 ^ 63 := le_rfl
  have hhigh : (-2 ^ 63 : ℤ) < 2 ^ 63 := by decide
  refine ⟨hlow, hhigh, hread, ?_⟩
  rcases (double_of_large_integer (b := ⟨-2 ^ 63, 0⟩) hlow hhigh).1 _ hread with hsame | ⟨hgreatest, -⟩
  · exact hsame
  · exact absurd hgreatest (by decide)

/-- No double is the greatest integer of 64 bits, and yet it is read as one. -/
theorem greatest_integer_is_read_as_another :
    asDouble? (.large 9223372036854775807) = some ⟨0x43E0000000000000⟩ ∧
      ¬∃ x : Binary64, x.Represents (9223372036854775807 : ℤ) := by
  refine ⟨by decide, fun h => ?_⟩
  have hnearest := (Exact.exists_represents_iff (n := Exact.high) (by decide) le_rfl).mp h
  exact absurd hnearest (by decide)

end PluginRelay.Embedding
