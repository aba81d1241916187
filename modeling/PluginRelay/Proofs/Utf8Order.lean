import Mathlib.Data.String.Basic
import PluginRelay.Proofs.Utf8Pieces

/-!
# UTF-8 keeps the order of texts

Texts compare by their characters as their bytes do: of two characters the smaller one has the smaller bytes,
no matter what follows, since none is the beginning of the other.
-/
namespace PluginRelay.Utf8

/-- Bytes compare at the first place where they differ. -/
theorem cons_lt_cons {n m : Nat} {s t : Bytes} (hle : n ≤ m) (hm : m < 256) (h : n = m → s < t) :
    UInt8.ofNat n :: s < UInt8.ofNat m :: t := by
  rw [List.cons_lt_cons_iff]
  rcases hle.lt_or_eq with hlt | rfl
  · refine .inl ?_
    rw [UInt8.lt_iff_toNat_lt, UInt8.toNat_ofNat_of_lt' (by simp [UInt8.size]; omega),
      UInt8.toNat_ofNat_of_lt' (by simp [UInt8.size]; omega)]
    exact hlt
  · exact .inr ⟨rfl, h rfl⟩

theorem encodeChar_append_lt {c d : Char} (h : c < d) (s t : Bytes) :
    String.utf8EncodeChar c ++ s < String.utf8EncodeChar d ++ t := by
  have hv : c.val.toNat < d.val.toNat := h
  have hd := d.valid
  simp only [UInt32.isValidChar, Nat.isValidChar] at hd
  unfold String.utf8EncodeChar
  generalize c.val.toNat = v at hv
  generalize d.val.toNat = w at hv hd
  dsimp only
  -- The character with fewer bytes has the smaller first byte; with as many, one of the places differs.
  have hfirst {n m : Nat} {s t : Bytes} (hlt : n < m) (hm : m < 256) :
      UInt8.ofNat n :: s < UInt8.ofNat m :: t := cons_lt_cons hlt.le hm fun heq => by omega
  split_ifs
  · exact hfirst (by omega) (by omega)
  · exact hfirst (by omega) (by omega)
  · exact hfirst (by omega) (by omega)
  · exact hfirst (by omega) (by omega)
  · omega
  · exact cons_lt_cons (by omega) (by omega) fun _ => hfirst (by omega) (by omega)
  · exact hfirst (by omega) (by omega)
  · exact hfirst (by omega) (by omega)
  · omega
  · omega
  · refine cons_lt_cons (by omega) (by omega) fun _ => ?_
    exact cons_lt_cons (by omega) (by omega) fun _ => hfirst (by omega) (by omega)
  · exact hfirst (by omega) (by omega)
  · omega
  · omega
  · omega
  · refine cons_lt_cons (by omega) (by omega) fun _ => cons_lt_cons (by omega) (by omega) fun _ => ?_
    exact cons_lt_cons (by omega) (by omega) fun _ => hfirst (by omega) (by omega)

theorem encodeChars_lt {front back : List Char} (h : front < back) :
    encodeChars front < encodeChars back := by
  induction front generalizing back with
  | nil =>
    cases back with
    | nil => exact absurd h (List.not_lt_nil _)
    | cons d back =>
      obtain ⟨b, tail, hb, -⟩ := exists_encodeChar d
      rw [encodeChars_nil, encodeChars_cons, hb]
      exact List.nil_lt_cons _ _
  | cons c front ih =>
    cases back with
    | nil => exact absurd h (List.not_lt_nil _)
    | cons d back =>
      rw [encodeChars_cons, encodeChars_cons]
      rcases List.cons_lt_cons_iff.mp h with hlt | ⟨rfl, hlt⟩
      · exact encodeChar_append_lt hlt _ _
      · exact List.append_left_lt (ih hlt)

/-- Text keys in order have their bytes in order. -/
theorem encode_lt {a b : String} (h : a < b) : encode a < encode b := by
  rw [encode_eq_encodeChars, encode_eq_encodeChars]
  exact encodeChars_lt h

theorem encode_lt_encode_iff {a b : String} : encode a < encode b ↔ a < b := by
  refine ⟨fun h => lt_of_not_ge fun hle => ?_, encode_lt⟩
  rcases hle.lt_or_eq with hlt | rfl
  · exact List.lt_asymm h (encode_lt hlt)
  · exact List.lt_irrefl _ h

end PluginRelay.Utf8
