import PluginRelay.Proofs.DoubleValues

/-!
# Integers as doubles

The double nearest to an integer keeps its leading 53 digits, rounded. So an integer is exact as a double if and only if
the digits behind these are zeros, and rounding never passes the next power of two.
-/
namespace PluginRelay.Binary64

open BinaryFormat (double)

/-! ### Rounding natural numbers -/

/-- A natural number rounded to 53 digits, ties to even. -/
def nearest (n : ℕ) : ℕ := roundHalfEven n (2 ^ (n.log2 - 52)) * 2 ^ (n.log2 - 52)

theorem roundHalfEven_cases (n d : ℕ) : roundHalfEven n d = n / d ∨ roundHalfEven n d = n / d + 1 := by
  unfold roundHalfEven
  dsimp only
  split
  · exact .inl rfl
  · split
    · exact .inr rfl
    · split
      · exact .inl rfl
      · exact .inr rfl

theorem nearest_eq_self_iff (n : ℕ) : nearest n = n ↔ 2 ^ (n.log2 - 52) ∣ n := by
  constructor
  · intro h
    have hdvd : 2 ^ (n.log2 - 52) ∣ nearest n := Dvd.intro_left _ rfl
    rwa [h] at hdvd
  · rintro ⟨k, hk⟩
    rw [nearest]
    generalize n.log2 - 52 = s at *
    rw [hk, Nat.mul_comm (2 ^ s) k, roundHalfEven_mul k (Nat.two_pow_pos s)]

theorem nearest_of_lt {n : ℕ} (h : n < 2 ^ 53) : nearest n = n := by
  have hlog : n.log2 - 52 = 0 := by
    rcases Nat.eq_zero_or_pos n with rfl | hpos
    · rfl
    · have := (Nat.log2_lt hpos.ne').mpr h
      omega
  rw [nearest_eq_self_iff, hlog]
  exact Nat.one_dvd n

example : nearest 9007199254740993 = 9007199254740992 := by decide

/-- Rounding does not pass the next power of two. -/
theorem nearest_le_pow (n : ℕ) : nearest n ≤ 2 ^ (n.log2 + 1) := by
  have hlt : n < 2 ^ (n.log2 + 1) := Nat.lt_log2_self
  have hsplit : 2 ^ (n.log2 + 1) = 2 ^ (n.log2 + 1 - (n.log2 - 52)) * 2 ^ (n.log2 - 52) := by
    rw [← Nat.pow_add]
    congr 1
    omega
  rw [nearest, hsplit]
  rw [hsplit] at hlt
  refine Nat.mul_le_mul_right _ ?_
  have hquotient := Nat.div_lt_of_lt_mul ((Nat.mul_comm _ _) ▸ hlt)
  rcases roundHalfEven_cases n (2 ^ (n.log2 - 52)) with hround | hround
  · omega
  · omega

theorem nearest_le {n k : ℕ} (h : n ≤ 2 ^ k) : nearest n ≤ 2 ^ k := by
  rcases Nat.eq_zero_or_pos n with rfl | hpos
  · exact Nat.zero_le _
  rcases Nat.lt_or_eq_of_le h with hlt | rfl
  · have hlog := (Nat.log2_lt hpos.ne').mpr hlt
    exact (nearest_le_pow n).trans (Nat.pow_le_pow_right (by omega) hlog)
  · refine le_of_eq ((nearest_eq_self_iff _).mpr ?_)
    rw [Nat.log2_two_pow]
    exact Nat.pow_dvd_pow 2 (by omega)

/-! ### The double nearest to an integer -/

/-- A natural number over `2 ^ power`, as a quotient. -/
def onGrid (n : ℕ) (power : ℤ) : ℕ × ℕ :=
  if 0 ≤ power then (n, 1 <<< power.toNat) else (n <<< (-power).toNat, 1)

theorem onGrid_eq (n : ℕ) (power : ℤ) : onGrid n power = (n * 2 ^ (-power).toNat, 2 ^ power.toNat) := by
  rw [onGrid, Nat.one_shiftLeft, Nat.shiftLeft_eq]
  split
  · have hpower : (-power).toNat = 0 := by omega
    rw [hpower, Nat.pow_zero, Nat.mul_one]
  · have hpower : power.toNat = 0 := by omega
    rw [hpower, Nat.pow_zero]

/-- The grid on which `n` has 54 digits is too fine by one. -/
theorem le_quotient_onGrid {n : ℕ} (hn : n ≠ 0) :
    2 ^ 53 ≤ (onGrid n (n.log2 - 53)).1 / (onGrid n (n.log2 - 53)).2 := by
  have hle : 2 ^ n.log2 ≤ n := Nat.log2_self_le hn
  rw [onGrid_eq, Nat.le_div_iff_mul_le (Nat.two_pow_pos _), ← Nat.pow_add]
  have hsum : 53 + ((n.log2 : ℤ) - 53).toNat = n.log2 + (-((n.log2 : ℤ) - 53)).toNat := by omega
  rw [hsum, Nat.pow_add]
  exact Nat.mul_le_mul_right _ hle

/-- The leading 53 digits of a number, rounded; zeros fill them up where there are fewer. -/
def leading (n : ℕ) : ℕ := roundHalfEven (onGrid n (n.log2 - 52)).1 (onGrid n (n.log2 - 52)).2

theorem roundHalfEven_one (n : ℕ) : roundHalfEven n 1 = n := by
  have h := roundHalfEven_mul n Nat.one_pos
  rwa [Nat.mul_one] at h

theorem leading_of_lt {n k : ℕ} (hk : n.log2 + k = 52) : leading n = n * 2 ^ k := by
  have hpower : (-((n.log2 : ℤ) - 52)).toNat = k := by omega
  have hzero : ((n.log2 : ℤ) - 52).toNat = 0 := by omega
  rw [leading, onGrid_eq, hpower, hzero, Nat.pow_zero, roundHalfEven_one]

theorem leading_of_ge {n k : ℕ} (hk : n.log2 = 52 + k) : leading n = roundHalfEven n (2 ^ k) := by
  have hzero : (-((n.log2 : ℤ) - 52)).toNat = 0 := by omega
  have hpower : ((n.log2 : ℤ) - 52).toNat = k := by omega
  rw [leading, onGrid_eq, hzero, hpower, Nat.pow_zero, Nat.mul_one]

theorem leading_bounds {n : ℕ} (hn : n ≠ 0) : 2 ^ 52 ≤ leading n ∧ leading n ≤ 2 ^ 53 := by
  have hle : 2 ^ n.log2 ≤ n := Nat.log2_self_le hn
  have hlt : n < 2 ^ (n.log2 + 1) := Nat.lt_log2_self
  rcases Nat.le_total n.log2 52 with hsmall | hlarge
  · obtain ⟨k, hk⟩ := Nat.exists_eq_add_of_le hsmall
    have hlow := Nat.mul_le_mul_right (2 ^ k) hle
    have hhigh := Nat.mul_le_mul_right (2 ^ k) hlt.le
    rw [← Nat.pow_add, ← hk] at hlow
    rw [← Nat.pow_add, Nat.add_right_comm, ← hk] at hhigh
    rw [leading_of_lt hk.symm]
    exact ⟨hlow, hhigh⟩
  · obtain ⟨k, hk⟩ := Nat.exists_eq_add_of_le hlarge
    have hlow : 2 ^ 52 ≤ n / 2 ^ k := by
      rw [Nat.le_div_iff_mul_le (Nat.two_pow_pos k), ← Nat.pow_add, ← hk]
      exact hle
    have hhigh : n / 2 ^ k < 2 ^ 53 := by
      rw [Nat.div_lt_iff_lt_mul (Nat.two_pow_pos k), ← Nat.pow_add, Nat.add_right_comm 52 1 k, ← hk]
      exact hlt
    have hround := roundHalfEven_cases n (2 ^ k)
    rw [leading_of_ge hk]
    omega

/-- With its exponent, the significand is the rounded number. -/
theorem leading_mul (n : ℕ) : leading n * 2 ^ (n.log2 + 1022) = nearest n * scale := by
  rcases Nat.le_total n.log2 52 with hsmall | hlarge
  · obtain ⟨k, hk⟩ := Nat.exists_eq_add_of_le hsmall
    have hnone : n.log2 - 52 = 0 := by omega
    have hall := pow_mul_pow (show k + (n.log2 + 1022) = 1074 by omega)
    rw [leading_of_lt hk.symm, nearest, hnone, Nat.pow_zero, roundHalfEven_one, Nat.mul_one, Nat.mul_assoc, hall]
  · obtain ⟨k, hk⟩ := Nat.exists_eq_add_of_le hlarge
    have hpower : n.log2 - 52 = k := by omega
    have hall : n.log2 + 1022 = k + 1074 := by omega
    rw [leading_of_ge hk, nearest, hpower, hall, pow_add_scale, Nat.mul_assoc]

/-- The significand comes from the leading digits, and the exponent from their number. -/
theorem ofQuotient_one (negative : Bool) {n : ℕ} (hn : n ≠ 0) :
    ofQuotient negative n 1 = ofNatBits ((if negative then 0x8000000000000000 else 0) +
      min ((n.log2 + 1022) * 2 ^ 52 + leading n) infinity.toNat) := by
  have hone : Nat.log2 1 = 0 := by decide
  have hquotient : ¬(onGrid n (n.log2 - 53)).1 / (onGrid n (n.log2 - 53)).2 < 1 <<< 53 := by
    have := le_quotient_onGrid hn
    rw [Nat.one_shiftLeft]
    omega
  have hpower : max (if (onGrid n (n.log2 - 53)).1 / (onGrid n (n.log2 - 53)).2 < 1 <<< 53 then (n.log2 : ℤ) - 53
      else (n.log2 : ℤ) - 53 + 1) (-1074) = (n.log2 : ℤ) - 52 := by
    rw [if_neg hquotient]
    omega
  have hexponent : ((n.log2 : ℤ) - 52 + 1074).toNat = n.log2 + 1022 := by omega
  have hgrid (p : ℤ) : (if 0 ≤ p then (n, 1 <<< p.toNat) else (n <<< (-p).toNat, 1)) = onGrid n p := rfl
  rw [ofQuotient, if_neg hn]
  simp only [hone, Nat.cast_zero, sub_zero, hgrid]
  rw [hpower, hexponent, Nat.shiftLeft_eq, leading]

section

variable (negative : Bool) {p : ℕ} (hp : p < 2 ^ 63)
include hp

theorem toNat_signed :
    (ofNatBits ((if negative then 0x8000000000000000 else 0) + p)).toNat = (if negative then 2 ^ 63 else 0) + p := by
  refine toNat_ofNatBits ?_
  rw [UInt64.size]
  split
  · omega
  · omega

theorem place_signed : (ofNatBits ((if negative then 0x8000000000000000 else 0) + p)).place = p := by
  rw [place, toNat_signed negative hp]
  split
  · omega
  · omega

theorem isNegative_signed : (ofNatBits ((if negative then 0x8000000000000000 else 0) + p)).isNegative = negative := by
  rw [isNegative, toNat_signed negative hp]
  cases negative with
  | false => simpa using hp
  | true => simp

end

/-- A significand that is rounded up to the next power of two moves on to the next exponent. -/
theorem multiple_of_place {x : Binary64} {e m : ℕ} (hlow : 2 ^ 52 ≤ m) (hhigh : m ≤ 2 ^ 53)
    (hplace : x.place = e * 2 ^ 52 + m) : x.multiple = m * 2 ^ e := by
  have hfraction : double.fraction x.toNat < 2 ^ 52 := double.fraction_lt x.toNat
  rw [place_eq] at hplace
  rw [multiple_eq]
  rcases Nat.lt_or_eq_of_le hhigh with hlt | rfl
  · have he : double.exponent x.toNat = e + 1 := by omega
    have hm : 2 ^ 52 + double.fraction x.toNat = m := by omega
    rw [he, hm, if_neg (Nat.succ_ne_zero e), Nat.add_sub_cancel]
  · have he : double.exponent x.toNat = e + 2 := by omega
    have hm : double.fraction x.toNat = 0 := by omega
    have htwice : 2 ^ 53 * 2 ^ e = 2 ^ 52 * 2 ^ (e + 1) := by
      rw [← Nat.pow_add, ← Nat.pow_add]
      congr 1
      omega
    rw [he, hm, if_neg (by omega), Nat.add_zero, htwice]
    rfl

/-- A place whose multiple is short of `2 ^ 1024` is one of a finite double. -/
theorem place_lt_infinity {e m : ℕ} (hlow : 2 ^ 52 ≤ m) (hhigh : m ≤ 2 ^ 53) (h : m * 2 ^ e < 2 ^ 1024 * scale) :
    e * 2 ^ 52 + m < 0x7FF0000000000000 := by
  have hbound {k : ℕ} (hk : 2 ^ k ≤ m) : k + e < 1024 + 1074 := by
    rw [← pow_add_scale] at h
    refine (pow_lt_pow_iff_right₀ (a := 2) (by omega)).mp (lt_of_le_of_lt ?_ h)
    rw [pow_add]
    exact Nat.mul_le_mul_right _ hk
  have he := hbound hlow
  rcases Nat.lt_or_eq_of_le hhigh with hlt | rfl
  · omega
  · have he' := hbound le_rfl
    omega

/-- Short of the range's end, the double nearest to an integer is finite, has the sign, and stands for the rounded
one. -/
theorem ofQuotient_finite (negative : Bool) {n : ℕ} (h : nearest n < 2 ^ 1024) :
    (ofQuotient negative n 1).isFinite = true ∧ (ofQuotient negative n 1).isNegative = negative ∧
      (ofQuotient negative n 1).multiple = nearest n * scale := by
  rcases Nat.eq_zero_or_pos n with rfl | hpos
  · have hsign : ofQuotient negative 0 1 = ofNatBits ((if negative then 0x8000000000000000 else 0) + 0) := rfl
    have hplace := place_signed negative (p := 0) (by omega)
    rw [hsign, isFinite_iff, isNegative_signed negative (by omega), hplace, (multiple_eq_zero_iff _).mpr hplace,
      nearest_of_lt (by omega)]
    exact ⟨by omega, rfl, (Nat.zero_mul _).symm⟩
  · have hbits := ofQuotient_one negative hpos.ne'
    obtain ⟨hlow, hhigh⟩ := leading_bounds hpos.ne'
    have hround := leading_mul n
    generalize leading n = m at *
    have hfinite : (n.log2 + 1022) * 2 ^ 52 + m < 0x7FF0000000000000 := by
      refine place_lt_infinity hlow hhigh ?_
      rw [hround]
      exact Nat.mul_lt_mul_of_pos_right h scale_pos
    have hmin : min ((n.log2 + 1022) * 2 ^ 52 + m) infinity.toNat = (n.log2 + 1022) * 2 ^ 52 + m :=
      Nat.min_eq_left hfinite.le
    have hplace := place_signed negative (p := (n.log2 + 1022) * 2 ^ 52 + m) (by omega)
    rw [hbits, hmin, isFinite_iff, isNegative_signed negative (by omega), hplace, ← hround]
    exact ⟨hfinite, rfl, multiple_of_place hlow hhigh hplace⟩

/-! ### Integers that doubles stand for -/

/-- An integer rounded to 53 digits, ties to even. -/
def nearestInt (n : ℤ) : ℤ := signed (n < 0) (nearest n.natAbs)

theorem nearestInt_eq_self_iff (n : ℤ) : nearestInt n = n ↔ nearest n.natAbs = n.natAbs := by
  have hn : signed (n < 0) n.natAbs = n := by
    unfold signed
    split
    · next h =>
      rw [decide_eq_true_eq] at h
      omega
    · next h =>
      rw [decide_eq_true_eq] at h
      omega
  rw [nearestInt, ← signed_inj (b := n < 0), hn]

theorem ofInt_represents {n : ℤ} (h : nearest n.natAbs < 2 ^ 1024) : (ofInt n).Represents (nearestInt n) := by
  obtain ⟨hfinite, hsign, hmultiple⟩ := ofQuotient_finite (n < 0) h
  rw [represents_int_iff]
  refine ⟨hfinite, ?_⟩
  rw [ofInt, scaled, hsign, hmultiple, signed_mul, nearestInt]

/-- The integer part of what a double stands for: the end of the significand goes, or zeros come behind it. -/
theorem multiple_div_scale (x : Binary64) :
    ∃ k, x.multiple / scale = x.significand / 2 ^ k ∨ x.multiple / scale = x.significand * 2 ^ k := by
  rcases Nat.le_total (x.power + 1074).toNat 1074 with hless | hmore
  · obtain ⟨k, hk⟩ := Nat.exists_eq_add_of_le hless
    have hscale := pow_mul_pow (show k + (x.power + 1074).toNat = 1074 by omega)
    refine ⟨k, .inl ?_⟩
    rw [multiple, ← hscale, Nat.mul_div_mul_right _ _ (Nat.two_pow_pos _)]
  · obtain ⟨k, hk⟩ := Nat.exists_eq_add_of_le' hmore
    refine ⟨k, .inr ?_⟩
    rw [multiple, hk, pow_add_scale, ← Nat.mul_assoc, Nat.mul_div_cancel _ scale_pos]

/-- The integer part has no more digits than the significand, zeros at its end apart. -/
theorem nearest_multiple_div_scale (x : Binary64) : nearest (x.multiple / scale) = x.multiple / scale := by
  have hlt := x.significand_lt
  obtain ⟨k, hk | hk⟩ := x.multiple_div_scale
  · refine nearest_of_lt ?_
    rw [hk]
    exact lt_of_le_of_lt (Nat.div_le_self _ _) hlt
  · rw [hk]
    generalize x.significand = m at hlt
    rcases Nat.eq_zero_or_pos m with rfl | hpos
    · rw [Nat.zero_mul, nearest_of_lt (by omega)]
    · have hlog : (m * 2 ^ k).log2 < 53 + k := by
        rw [Nat.log2_lt (Nat.mul_pos hpos (Nat.two_pow_pos k)).ne', Nat.pow_add]
        exact Nat.mul_lt_mul_of_pos_right hlt (Nat.two_pow_pos k)
      rw [nearest_eq_self_iff]
      exact Dvd.dvd.mul_left (Nat.pow_dvd_pow 2 (by omega)) m

/-- A double stands for an integer if its multiple is one of the scale. -/
theorem exists_represents_iff_dvd {x : Binary64} (h : x.isFinite = true) :
    (∃ n : ℤ, x.Represents n) ↔ scale ∣ x.multiple := by
  constructor
  · rintro ⟨n, hn⟩
    obtain ⟨-, hscaled⟩ := (represents_int_iff x n).mp hn
    rw [← natAbs_scaled, hscaled, Int.natAbs_mul]
    exact Nat.dvd_mul_left _ _
  · rintro ⟨k, hk⟩
    refine ⟨signed x.isNegative k, (represents_int_iff x _).mpr ⟨h, ?_⟩⟩
    rw [scaled, hk, Nat.mul_comm, signed_mul]

theorem truncate?_of_represents {x : Binary64} {n : ℤ} (h : x.Represents n) : x.truncate? = some n := by
  obtain ⟨k, hk⟩ := (exists_represents_iff_dvd h.finite).mp ⟨n, h⟩
  obtain ⟨-, hscaled⟩ := (represents_int_iff x n).mp h
  have hpos : (scale : ℤ) ≠ 0 := Int.natCast_ne_zero.mpr scale_pos.ne'
  rw [scaled, hk, Nat.mul_comm, signed_mul] at hscaled
  rw [truncate?_of_isFinite h.finite, hk, Nat.mul_div_cancel_left k scale_pos, mul_right_cancel₀ hpos hscaled]

/-- An integer is the value of a double if and only if its first 53 digits are all there is. -/
theorem exists_represents_iff {n : ℤ} (h : nearest n.natAbs < 2 ^ 1024) :
    (∃ x : Binary64, x.Represents n) ↔ nearestInt n = n := by
  constructor
  · rintro ⟨x, hx⟩
    have hpart := truncate?_of_represents hx
    rw [truncate?_of_isFinite hx.finite, Option.some.injEq] at hpart
    rw [nearestInt_eq_self_iff, ← hpart, natAbs_signed, nearest_multiple_div_scale]
  · intro hn
    refine ⟨ofInt n, ?_⟩
    have hrepresents := ofInt_represents h
    rwa [hn] at hrepresents

theorem isFinite_iff_multiple_lt (x : Binary64) : x.isFinite = true ↔ x.multiple < 2 ^ 1024 * scale := by
  have hplace : infinity.place = 0x7FF0000000000000 := by decide
  have hmultiple : infinity.multiple = 2 ^ 1024 * scale := by
    rw [multiple_of_place (e := 2046) le_rfl (by omega) hplace, ← pow_add_scale, ← pow_add]
  rw [isFinite_iff, ← hmultiple, multiple_lt_iff, hplace]

/-- The integer part as a double equals the double if and only if that stands for an integer. -/
theorem trunc_equal_iff {x : Binary64} (h : x.isFinite = true) :
    x.trunc.equal x = true ↔ ∃ n : ℤ, x.Represents n := by
  have hlt : nearest (x.multiple / scale) < 2 ^ 1024 := by
    rw [nearest_multiple_div_scale]
    exact Nat.div_lt_of_lt_mul (Nat.mul_comm _ _ ▸ (isFinite_iff_multiple_lt x).mp h)
  have htrunc : x.trunc = ofQuotient x.isNegative (x.multiple / scale) 1 := by
    rw [trunc, truncate?_of_isFinite h]
    dsimp only
    rw [natAbs_signed]
  obtain ⟨hfinite, hsign, hmultiple⟩ := ofQuotient_finite x.isNegative hlt
  rw [← htrunc, nearest_multiple_div_scale] at hmultiple
  rw [← htrunc] at hfinite hsign
  rw [equal_iff (isNaN_of_isFinite hfinite) (isNaN_of_isFinite h), exists_represents_iff_dvd h, scaled, scaled, hsign,
    hmultiple, signed_inj, Nat.dvd_iff_div_mul_eq]

end PluginRelay.Binary64
