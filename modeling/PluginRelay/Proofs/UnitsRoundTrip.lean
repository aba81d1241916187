import Mathlib.Data.List.Basic
import Mathlib.Tactic.SplitIfs
import PluginRelay.Proofs.Utf8Pieces
import PluginRelay.Text.Utf16

/-!
# Texts of characters as units

The units of a text give its characters back, and units among which no surrogate stands alone are those of a text. So
such units come back unchanged from the text that is made of them. What is NUL among them is NUL in the text.
-/
namespace PluginRelay.Units

/-! ### Units and numbers -/

theorem codePointsOf_cons {u : UInt16} (h : isLead u = false) (rest : List UInt16) :
    codePointsOf (u :: rest) = u.toNat :: codePointsOf rest := by
  cases rest with
  | nil => rfl
  | cons v rest => rw [codePointsOf, h, Bool.false_and, if_neg Bool.false_ne_true]

theorem codePointsOf_pair {u v : UInt16} (hlead : isLead u = true) (htrail : isTrail v = true) (rest : List UInt16) :
    codePointsOf (u :: v :: rest) = pair u v :: codePointsOf rest := by
  rw [codePointsOf, hlead, htrail, Bool.and_self, if_pos rfl]

theorem isLead_iff (u : UInt16) : isLead u = true ↔ 0xD800 ≤ u.toNat ∧ u.toNat < 0xDC00 := by
  simp only [isLead, Bool.and_eq_true, decide_eq_true_iff, UInt16.le_iff_toNat_le, UInt16.lt_iff_toNat_lt]
  rfl

theorem isTrail_iff (u : UInt16) : isTrail u = true ↔ 0xDC00 ≤ u.toNat ∧ u.toNat < 0xE000 := by
  simp only [isTrail, Bool.and_eq_true, decide_eq_true_iff, UInt16.le_iff_toNat_le, UInt16.lt_iff_toNat_lt]
  rfl

theorem toNat_ofNat_lt {n : Nat} (h : n < 0x10000) : (UInt16.ofNat n).toNat = n := UInt16.toNat_ofNat_of_lt' h

/-- The number that some units stand for comes back, whatever follows. -/
theorem codePointsOf_ofCodePoint {n : Nat} (hvalid : n.isValidChar) (rest : List UInt16) :
    codePointsOf (ofCodePoint n ++ rest) = n :: codePointsOf rest := by
  have hrange : n < 0xD800 ∨ 0xDFFF < n ∧ n < 0x110000 := hvalid
  unfold ofCodePoint
  split
  · next hsmall =>
    have hn := toNat_ofNat_lt hsmall
    have hlead : isLead (UInt16.ofNat n) = false := by
      refine Bool.eq_false_iff.mpr fun hlead => ?_
      rw [isLead_iff, hn] at hlead
      omega
    rw [List.singleton_append, codePointsOf_cons hlead, hn]
  · next hlarge =>
    have hhigh := toNat_ofNat_lt (show 0xD800 + (n - 0x10000) / 0x400 < 0x10000 by omega)
    have hlow := toNat_ofNat_lt (show 0xDC00 + (n - 0x10000) % 0x400 < 0x10000 by omega)
    generalize UInt16.ofNat (0xD800 + (n - 0x10000) / 0x400) = u at hhigh ⊢
    generalize UInt16.ofNat (0xDC00 + (n - 0x10000) % 0x400) = v at hlow ⊢
    have hlead : isLead u = true := by
      rw [isLead_iff, hhigh]
      omega
    have htrail : isTrail v = true := by
      rw [isTrail_iff, hlow]
      omega
    have hpair : pair u v = n := by
      unfold pair
      omega
    rw [List.cons_append, List.singleton_append, codePointsOf_pair hlead htrail, hpair]

theorem codePoints_ofChars (cs : List Char) : (ofChars cs).codePoints = cs.map Char.toNat := by
  change codePointsOf (cs.flatMap fun c => ofCodePoint c.toNat) = cs.map Char.toNat
  induction cs with
  | nil => rfl
  | cons c cs ih => rw [List.flatMap_cons, codePointsOf_ofCodePoint (n := c.toNat) c.valid, ih, List.map_cons]

theorem ofCodePoint_toNat (u : UInt16) : ofCodePoint u.toNat = [u] := by
  rw [ofCodePoint, if_pos u.toNat_lt, UInt16.ofNat_toNat]

/-- Units are those of the numbers that they stand for. -/
theorem flatMap_codePointsOf (us : List UInt16) : (codePointsOf us).flatMap ofCodePoint = us := by
  fun_induction codePointsOf us with
  | case1 => rfl
  | case2 u => rw [List.flatMap_singleton, ofCodePoint_toNat]
  | case3 u v rest hpair ih =>
    obtain ⟨hlead, htrail⟩ := Bool.and_eq_true_iff.mp hpair
    rw [isLead_iff] at hlead
    rw [isTrail_iff] at htrail
    have hhigh : 0xD800 + (pair u v - 0x10000) / 0x400 = u.toNat := by
      unfold pair
      omega
    have hlow : 0xDC00 + (pair u v - 0x10000) % 0x400 = v.toNat := by
      unfold pair
      omega
    have hlarge : ¬pair u v < 0x10000 := by
      unfold pair
      omega
    rw [List.flatMap_cons, ih, ofCodePoint, if_neg hlarge, hhigh, hlow, UInt16.ofNat_toNat, UInt16.ofNat_toNat]
    rfl
  | case4 u v rest hpair ih => rw [List.flatMap_cons, ofCodePoint_toNat, ih, List.singleton_append]

theorem codePointsOf_lt (us : List UInt16) : ∀ n ∈ codePointsOf us, n < 0x110000 := by
  have hone (u : UInt16) : u.toNat < 0x110000 := Nat.lt_trans u.toNat_lt (by decide)
  fun_induction codePointsOf us with
  | case1 => exact List.forall_mem_nil _
  | case2 u => exact List.forall_mem_singleton.mpr (hone u)
  | case3 u v rest hpair ih =>
    obtain ⟨hlead, htrail⟩ := Bool.and_eq_true_iff.mp hpair
    rw [isLead_iff] at hlead
    rw [isTrail_iff] at htrail
    refine List.forall_mem_cons.mpr ⟨?_, ih⟩
    unfold pair
    omega
  | case4 u v rest hpair ih => exact List.forall_mem_cons.mpr ⟨hone u, ih⟩

/-- A number that is no surrogate is that of a character. -/
theorem toNat_ofNat {n : Nat} (hlt : n < 0x110000) (h : isSurrogate n = false) : (Char.ofNat n).toNat = n := by
  have hn : n.isValidChar := by
    simp only [isSurrogate, Bool.and_eq_false_iff, decide_eq_false_iff_not] at h
    change n < 0xD800 ∨ 0xDFFF < n ∧ n < 0x110000
    omega
  rw [show Char.ofNat n = Char.ofNatAux n hn from dif_pos hn]
  rfl

/-- Units are those of a text if no surrogate stands alone. -/
theorem ofChars_codePoints {s : Units} (h : s.isWellFormed) : ofChars (s.codePoints.map Char.ofNat) = s := by
  have hvalid : ∀ n ∈ s.codePoints, (Char.ofNat n).toNat = n := by
    intro n hn
    exact toNat_ofNat (codePointsOf_lt s.toList n hn) (by simpa using List.all_eq_true.mp h n hn)
  have hunits : (s.codePoints.map Char.ofNat).flatMap (fun c => ofCodePoint c.toNat) = s.toList := by
    rw [List.flatMap_map, List.flatMap_congr fun n hn => congrArg ofCodePoint (hvalid n hn)]
    exact flatMap_codePointsOf s.toList
  rw [ofChars, hunits, Array.toArray_toList]

/-! ### Bytes -/

theorem codePointBytes_toNat (c : Char) : codePointBytes c.toNat = String.utf8EncodeChar c := by
  have hlt : c.val.toNat < 0x110000 := by
    have hvalid : c.val.toNat < 0xD800 ∨ 0xDFFF < c.val.toNat ∧ c.val.toNat < 0x110000 := c.valid
    omega
  unfold codePointBytes String.utf8EncodeChar Char.toNat
  dsimp only
  generalize c.val.toNat = n at hlt ⊢
  have htwo : n < 0x800 → n / 64 % 32 = n / 64 := by omega
  have hthree : n < 0x10000 → n / 4096 % 16 = n / 4096 := by omega
  have hfour : n / 262144 % 8 = n / 262144 := by omega
  -- the bounds of both schemes are the same, so most of the cases do not occur
  split_ifs <;> first
    | omega
    | rfl
    | simp only [Nat.add_comm, *]

theorem toBytes_ofChars (cs : List Char) : (ofChars cs).toBytes = Utf8.encodeChars cs := by
  unfold toBytes
  rw [codePoints_ofChars, List.flatMap_map]
  induction cs with
  | nil => rfl
  | cons c cs ih => rw [List.flatMap_cons, codePointBytes_toNat, ih, Utf8.encodeChars_cons]

theorem toBytes_ofString (text : String) : (ofString text).toBytes = Utf8.encode text := by
  rw [ofString, toBytes_ofChars, Utf8.encode_eq_encodeChars]

/-- A text comes back from its units. -/
theorem toStringLossy_ofString (text : String) : (ofString text).toStringLossy = text := by
  rw [toStringLossy, toBytes_ofString, Utf8.encode_eq_encodeChars, Utf8.decodeLossy, Utf8.lossyChars_encodeChars,
    String.ofList_toList]

/-- Units among which no surrogate stands alone come back from their text. -/
theorem ofString_toStringLossy {s : Units} (h : s.isWellFormed) : ofString s.toStringLossy = s := by
  obtain ⟨text, htext⟩ : ∃ text, ofString text = s := by
    refine ⟨String.ofList (s.codePoints.map Char.ofNat), ?_⟩
    rw [ofString, String.toList_ofList, ofChars_codePoints h]
  rw [← htext, toStringLossy_ofString]

/-! ### NUL -/

theorem unit_eq_zero_iff {n : Nat} : 0 = UInt16.ofNat n ↔ n % 65536 = 0 := by
  rw [← UInt16.toNat_inj, UInt16.toNat_ofNat']
  exact eq_comm

theorem byte_eq_zero_iff {n : Nat} : 0 = UInt8.ofNat n ↔ n % 256 = 0 := by
  rw [← UInt8.toNat_inj, UInt8.toNat_ofNat']
  exact eq_comm

theorem zero_mem_ofCodePoint {n : Nat} (h : n < 0x110000) : 0 ∈ ofCodePoint n ↔ n = 0 := by
  unfold ofCodePoint
  split
  · rw [List.mem_singleton, unit_eq_zero_iff]
    omega
  · simp only [List.mem_cons, List.not_mem_nil, or_false, unit_eq_zero_iff]
    omega

theorem zero_mem_codePointBytes {n : Nat} (h : n < 0x110000) : 0 ∈ codePointBytes n ↔ n = 0 := by
  unfold codePointBytes
  split_ifs <;> simp only [List.mem_cons, List.not_mem_nil, or_false, byte_eq_zero_iff] <;> omega

/-- The only NUL bytes are those of NUL units. -/
theorem zero_mem_toBytes (s : Units) : 0 ∈ s.toBytes ↔ 0 ∈ s := by
  have hunits : 0 ∈ s ↔ 0 ∈ s.codePoints.flatMap ofCodePoint := by
    rw [codePoints, flatMap_codePointsOf, Array.mem_toList_iff]
  rw [hunits, toBytes, List.mem_flatMap, List.mem_flatMap]
  refine exists_congr fun n => and_congr_right fun hn => ?_
  have hlt := codePointsOf_lt s.toList n hn
  rw [zero_mem_codePointBytes hlt, zero_mem_ofCodePoint hlt]

end PluginRelay.Units
