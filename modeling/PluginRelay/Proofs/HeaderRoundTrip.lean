import PluginRelay.Proofs.Digits
import PluginRelay.Proofs.NarrowFloat
import PluginRelay.Proofs.Readers

/-!
# Headers survive writing and reading

Every header whose length fits 64 bits is read back from its shortest form, whatever follows it. In the
other direction, reading takes at least one byte off the front and never gives a length that does not fit.
-/
namespace PluginRelay.Cbor.Header

/-- The length in the header fits the eight bytes there are for it. -/
def Fits : Header → Prop
  | .bytes (some n) => n < UInt64.size
  | .text (some n) => n < UInt64.size
  | .array (some n) => n < UInt64.size
  | .map (some n) => n < UInt64.size
  | _ => True

/-! ## Reading what was written -/

theorem readWide_append (front rest : Bytes) :
    readWide front.length (front ++ rest) = .ok (some (Bytes.toNat front), rest) := by
  rw [readWide, Bytes.take?_append]

theorem readArgument_wide {front : Bytes} {low : Nat}
    (h : low = 24 ∧ front.length = 1 ∨ low = 25 ∧ front.length = 2 ∨ low = 26 ∧ front.length = 4 ∨
      low = 27 ∧ front.length = 8) (rest : Bytes) :
    readArgument low (front ++ rest) = .ok (some (Bytes.toNat front), rest) := by
  have hw := readWide_append front rest
  rcases h with ⟨rfl, hl⟩ | ⟨rfl, hl⟩ | ⟨rfl, hl⟩ | ⟨rfl, hl⟩
  all_goals
    rw [hl] at hw
    simp [readArgument, hw]

/-- The first byte of an argument in its shortest form, and what the rest of the form is. -/
theorem exists_writeArgument (major : Nat) {n : Nat} (hn : n < UInt64.size) :
    ∃ low tail, writeArgument major n = UInt8.ofNat (major * 32 + low) :: tail ∧ low < 28 ∧
      ∀ rest, readArgument low (tail ++ rest) = .ok (some n, rest) := by
  have hsize : n < 256 ^ 8 := hn
  unfold writeArgument
  split_ifs with h1 h2 h3 h4
  · exact ⟨n, [], rfl, by omega, fun rest => by simp [readArgument, h1]⟩
  · refine ⟨24, _, rfl, by omega, fun rest => ?_⟩
    rw [readArgument_wide (by simp [Bytes.length_ofNat]), Bytes.toNat_ofNat h2]
  · refine ⟨25, _, rfl, by omega, fun rest => ?_⟩
    rw [readArgument_wide (by simp [Bytes.length_ofNat]), Bytes.toNat_ofNat h3]
  · refine ⟨26, _, rfl, by omega, fun rest => ?_⟩
    rw [readArgument_wide (by simp [Bytes.length_ofNat]), Bytes.toNat_ofNat h4]
  · refine ⟨27, _, rfl, by omega, fun rest => ?_⟩
    rw [readArgument_wide (by simp [Bytes.length_ofNat]), Bytes.toNat_ofNat hsize]

theorem toNat_first {major low : Nat} (hm : major < 8) (hl : low < 32) :
    (UInt8.ofNat (major * 32 + low)).toNat / 32 = major ∧
      (UInt8.ofNat (major * 32 + low)).toNat % 32 = low := by
  rw [UInt8.toNat_ofNat_of_lt' (show major * 32 + low < 256 by omega)]
  omega

theorem read_cons {major low : Nat} (hm : major < 8) (hl : low < 32) (input : Bytes) :
    read (UInt8.ofNat (major * 32 + low) :: input) = do
      let (a, rest) ← readArgument low input
      let h ← ofParts major low a
      return (h, rest) := by
  obtain ⟨hd, hr⟩ := toNat_first hm hl
  simp only [read, hd, hr]

/-- Below major type 7 the argument alone makes the header. -/
theorem ofParts_low {major : Nat} (hm : major < 7) (low low' : Nat) (a : Option Nat) :
    ofParts major low a = ofParts major low' a := by
  match major, hm with
  | 0, _ | 1, _ | 2, _ | 3, _ | 4, _ | 5, _ | 6, _ => rfl

theorem read_writeArgument {major n : Nat} (hm : major < 7) (hn : n < UInt64.size) {h : Header}
    (hh : ofParts major 0 (some n) = .ok h) (rest : Bytes) :
    read (writeArgument major n ++ rest) = .ok (h, rest) := by
  obtain ⟨low, tail, hw, hl, ha⟩ := exists_writeArgument major hn
  rw [hw, List.cons_append, read_cons (by omega) (by omega), ha]
  simp only [ok_bind]
  rw [ofParts_low hm low 0, hh]
  rfl

theorem read_writeLength {major : Nat} (hm : major < 7) {length : Option Nat}
    (hn : ∀ n, length = some n → n < UInt64.size) {h : Header}
    (hh : ofParts major 0 length = .ok h) (rest : Bytes) :
    read (writeLength major length ++ rest) = .ok (h, rest) := by
  cases length with
  | some n => exact read_writeArgument hm (hn n rfl) hh rest
  | none =>
    rw [writeLength, List.singleton_append, read_cons (by omega) (by omega)]
    rw [ofParts_low hm 0 31] at hh
    simp [readArgument, hh]

theorem read_writeFloat (x : Binary64) (rest : Bytes) :
    read (writeFloat x ++ rest) = .ok (.float x, rest) := by
  have hx : x.toNat < BinaryFormat.double.size := x.bits.toNat_lt
  have hbits : Binary64.ofNatBits x.toNat = x := by simp [Binary64.ofNatBits, Binary64.toNat]
  unfold writeFloat
  split
  · next bits hnarrow =>
    have hlt : bits < 256 ^ 2 := BinaryFormat.narrow?_lt (by decide) hnarrow
    have hwide := BinaryFormat.widen_of_narrow? (by decide) hx hnarrow
    change read (UInt8.ofNat (7 * 32 + 25) :: (Bytes.ofNat 2 bits ++ rest)) = _
    rw [read_cons (by omega) (by omega), readArgument_wide (by simp [Bytes.length_ofNat]),
      Bytes.toNat_ofNat hlt]
    simp [ofParts, Binary64.ofHalfBits, hwide, hbits]
  · split
    · next bits hnarrow =>
      have hlt : bits < 256 ^ 4 := BinaryFormat.narrow?_lt (by decide) hnarrow
      have hwide := BinaryFormat.widen_of_narrow? (by decide) hx hnarrow
      change read (UInt8.ofNat (7 * 32 + 26) :: (Bytes.ofNat 4 bits ++ rest)) = _
      rw [read_cons (by omega) (by omega), readArgument_wide (by simp [Bytes.length_ofNat]),
        Bytes.toNat_ofNat hlt]
      simp [ofParts, Binary64.ofSingleBits, hwide, hbits]
    · have hlt : x.toNat < 256 ^ 8 := hx
      change read (UInt8.ofNat (7 * 32 + 27) :: (Bytes.ofNat 8 x.toNat ++ rest)) = _
      rw [read_cons (by omega) (by omega), readArgument_wide (by simp [Bytes.length_ofNat]),
        Bytes.toNat_ofNat hlt]
      simp [ofParts, hbits]

theorem read_simple (n : UInt8) (rest : Bytes) :
    read (write (.simple n) ++ rest) = .ok (.simple n, rest) := by
  simp only [write]
  split_ifs with h
  · have hn : n.toNat < 24 := h
    have hfirst : 0xE0 + n = UInt8.ofNat (7 * 32 + n.toNat) := by
      rw [UInt8.ofNat_add]
      simp
    rw [hfirst, List.singleton_append, read_cons (by omega) (by omega)]
    simp only [readArgument, if_pos hn, ok_bind, ofParts]
    split
    · omega
    · omega
    · omega
    · simp
  · change read (UInt8.ofNat (7 * 32 + 24) :: ([n] ++ rest)) = _
    rw [read_cons (by omega) (by omega), readArgument_wide (by simp)]
    simp [ofParts, Bytes.toNat]

theorem read_write {h : Header} (hf : h.Fits) (rest : Bytes) :
    read (write h ++ rest) = .ok (h, rest) := by
  cases h with
  | natural n => exact read_writeArgument (by omega) n.toNat_lt (by simp [ofParts]) rest
  | negative n => exact read_writeArgument (by omega) n.toNat_lt (by simp [ofParts]) rest
  | bytes length =>
    exact read_writeLength (by omega) (by rintro n rfl; exact hf) (by simp [ofParts]) rest
  | text length =>
    exact read_writeLength (by omega) (by rintro n rfl; exact hf) (by simp [ofParts]) rest
  | array length =>
    exact read_writeLength (by omega) (by rintro n rfl; exact hf) (by simp [ofParts]) rest
  | map length =>
    exact read_writeLength (by omega) (by rintro n rfl; exact hf) (by simp [ofParts]) rest
  | tag n => exact read_writeArgument (by omega) n.toNat_lt (by simp [ofParts]) rest
  | simple n => exact read_simple n rest
  | float x => exact read_writeFloat x rest
  | stop => rfl

/-! ## What was read -/

theorem readWide_eq_ok {width : Nat} {input rest : Bytes} {a : Option Nat}
    (h : readWide width input = .ok (a, rest)) :
    ∃ front, front.length = width ∧ a = some (Bytes.toNat front) ∧ input = front ++ rest := by
  unfold readWide at h
  split at h
  · next front rest' ht =>
    obtain ⟨rfl, rfl⟩ := by simpa using h
    obtain ⟨rfl, rfl⟩ := Bytes.take?_eq_some ht
    exact ⟨front, rfl, rfl, rfl⟩
  · simp at h

theorem readArgument_eq_ok {low : Nat} {input rest : Bytes} {a : Option Nat}
    (h : readArgument low input = .ok (a, rest)) :
    (low < 24 ∧ a = some low ∧ input = rest) ∨ (low = 31 ∧ a = none ∧ input = rest) ∨
      ∃ front, 0 < front.length ∧ front.length ≤ 8 ∧ a = some (Bytes.toNat front) ∧
        input = front ++ rest := by
  have wide {width : Nat} (hw : 0 < width ∧ width ≤ 8) (h : readWide width input = .ok (a, rest)) :
      ∃ front, 0 < front.length ∧ front.length ≤ 8 ∧ a = some (Bytes.toNat front) ∧
        input = front ++ rest := by
    obtain ⟨front, rfl, ha, hi⟩ := readWide_eq_ok h
    exact ⟨front, hw.1, hw.2, ha, hi⟩
  unfold readArgument at h
  split_ifs at h with hlow
  · obtain ⟨rfl, rfl⟩ := by simpa using h
    exact .inl ⟨hlow, rfl, rfl⟩
  · split at h
    · exact .inr (.inr (wide (by omega) h))
    · exact .inr (.inr (wide (by omega) h))
    · exact .inr (.inr (wide (by omega) h))
    · exact .inr (.inr (wide (by omega) h))
    · obtain ⟨rfl, rfl⟩ := by simpa using h
      exact .inr (.inl ⟨rfl, rfl, rfl⟩)
    · simp at h

theorem read_eq_ok {input rest : Bytes} {h : Header} (hr : read input = .ok (h, rest)) :
    ∃ first tail a, input = first :: tail ∧ readArgument (first.toNat % 32) tail = .ok (a, rest) ∧
      ofParts (first.toNat / 32) (first.toNat % 32) a = .ok h := by
  cases input with
  | nil => simp [read] at hr
  | cons first tail =>
    simp only [read] at hr
    obtain ⟨⟨a, rest'⟩, ha, hr⟩ := bind_eq_ok.mp hr
    obtain ⟨h', hp, hr⟩ := bind_eq_ok.mp hr
    obtain ⟨rfl, rfl⟩ := by simpa using hr
    exact ⟨first, tail, a, rfl, ha, hp⟩

theorem read_suffix {input rest : Bytes} {h : Header} (hr : read input = .ok (h, rest)) :
    rest <:+ input ∧ rest.length < input.length := by
  obtain ⟨first, tail, a, rfl, ha, -⟩ := read_eq_ok hr
  rcases readArgument_eq_ok ha with ⟨-, -, rfl⟩ | ⟨-, -, rfl⟩ | ⟨front, -, -, -, rfl⟩
  · exact ⟨List.suffix_cons _ _, by simp⟩
  · exact ⟨List.suffix_cons _ _, by simp⟩
  · exact ⟨⟨first :: front, rfl⟩, by simp only [List.length_cons, List.length_append]; omega⟩

theorem fits_of_ofParts {major low : Nat} {a : Option Nat} {h : Header}
    (ha : ∀ n, a = some n → n < UInt64.size) (hp : ofParts major low a = .ok h) : h.Fits := by
  cases a with
  | none =>
    simp only [ofParts] at hp
    split at hp
    all_goals cases hp
    all_goals trivial
  | some n =>
    simp only [ofParts] at hp
    split at hp
    case h_8 =>
      split at hp
      all_goals cases hp
      all_goals trivial
    all_goals cases hp
    all_goals first | trivial | exact ha n rfl

theorem fits_of_read {input rest : Bytes} {h : Header} (hr : read input = .ok (h, rest)) :
    h.Fits := by
  obtain ⟨first, tail, a, -, ha, hp⟩ := read_eq_ok hr
  refine fits_of_ofParts (fun n hn => ?_) hp
  subst hn
  rcases readArgument_eq_ok ha with ⟨hlow, hn, -⟩ | ⟨-, hn, -⟩ | ⟨front, -, hlen, hn, -⟩
  · obtain rfl := Option.some.inj hn
    exact hlow.trans (by decide)
  · simp at hn
  · obtain rfl := Option.some.inj hn
    exact lt_of_lt_of_le (Bytes.toNat_lt front) (Nat.pow_le_pow_right (by decide) hlen)

end PluginRelay.Cbor.Header
