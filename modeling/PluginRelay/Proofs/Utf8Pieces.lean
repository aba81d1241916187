import Mathlib.Tactic.Linarith
import PluginRelay.Proofs.Readers

/-!
# Texts cut into pieces

A prefix of a UTF-8 text is some whole characters and the beginning of one more, at most three bytes
of it. `validUpTo` finds that place and `lossyChars` the characters in front of it, which is why a
reader may take a text in pieces of any size.
-/
namespace PluginRelay.Utf8

/-- The bytes of a list of characters. -/
def encodeChars (chars : List Char) : Bytes := chars.flatMap String.utf8EncodeChar

@[simp] theorem encodeChars_nil : encodeChars [] = [] := rfl

@[simp] theorem encodeChars_cons (c : Char) (chars : List Char) :
    encodeChars (c :: chars) = String.utf8EncodeChar c ++ encodeChars chars := rfl

theorem encodeChars_append (front back : List Char) :
    encodeChars (front ++ back) = encodeChars front ++ encodeChars back := by
  simp [encodeChars]

theorem encode_ofList (chars : List Char) : encode (String.ofList chars) = encodeChars chars := by
  simp [encode, encodeChars, List.utf8Encode]

theorem encode_eq_encodeChars (text : String) : encode text = encodeChars text.toList := by
  rw [← encode_ofList, String.ofList_toList]

theorem continuation_of_length_lt {need : Nat} {rest : Bytes} (h : rest.length < need)
    (seen low high bits : Nat) : ∃ k, continuation need seen low high bits rest = .broken k := by
  induction need generalizing rest seen low high bits with
  | zero => omega
  | succ need ih =>
    cases rest with
    | nil => exact ⟨seen, rfl⟩
    | cons b rest =>
      unfold continuation
      split
      · exact ih (by simpa using h) _ _ _ _
      · exact ⟨seen, rfl⟩

theorem continuation_cons {low high n : Nat} (hl : low ≤ n) (hh : n ≤ high) (hn : n < 256)
    (need seen bits : Nat) (rest : Bytes) :
    continuation (need + 1) seen low high bits (UInt8.ofNat n :: rest) =
      continuation need (seen + 1) 0x80 0xBF (bits * 64 + n % 64) rest := by
  have hb : (UInt8.ofNat n).toNat = n := UInt8.toNat_ofNat_of_lt' hn
  simp [continuation, hb, hl, hh]

theorem continuation_zero (seen low high bits : Nat) (rest : Bytes) :
    continuation 0 seen low high bits rest = .char (Char.ofNat bits) seen := by
  unfold continuation
  rfl

/-- The lead of three bytes leaves out what two bytes would say and the surrogates. -/
theorem lead?_three {v : Nat} (hlow : 0x800 ≤ v) (hhigh : v < 0x10000)
    (hs : v < 0xD800 ∨ 0xDFFF < v) :
    ∃ l, lead? (v / 4096 + 0xE0) = some l ∧ l.count = 2 ∧ l.bits = v / 4096 ∧
      l.low ≤ v / 64 % 64 + 0x80 ∧ v / 64 % 64 + 0x80 ≤ l.high := by
  unfold lead?
  rw [if_neg (by omega), if_neg (by omega)]
  by_cases h0 : v / 4096 = 0
  · exact ⟨_, if_pos (by omega), rfl, h0.symm, by simp only; omega, by simp only; omega⟩
  · rw [if_neg (by omega)]
    by_cases hd : v / 4096 = 13
    · exact ⟨_, if_pos (by omega), rfl, hd.symm, by simp only; omega, by simp only; omega⟩
    · rw [if_neg (by omega)]
      exact ⟨_, if_pos (by omega), rfl, by simp only; omega, by simp only; omega,
        by simp only; omega⟩

/-- The lead of four bytes leaves out what three bytes would say and what is no character. -/
theorem lead?_four {v : Nat} (hlow : 0x10000 ≤ v) (hhigh : v < 0x110000) :
    ∃ l, lead? (v / 262144 + 0xF0) = some l ∧ l.count = 3 ∧ l.bits = v / 262144 ∧
      l.low ≤ v / 4096 % 64 + 0x80 ∧ v / 4096 % 64 + 0x80 ≤ l.high := by
  unfold lead?
  rw [if_neg (by omega), if_neg (by omega), if_neg (by omega), if_neg (by omega), if_neg (by omega)]
  by_cases h0 : v / 262144 = 0
  · exact ⟨_, if_pos (by omega), rfl, h0.symm, by simp only; omega, by simp only; omega⟩
  · rw [if_neg (by omega)]
    by_cases h4 : v / 262144 = 4
    · rw [if_neg (by omega)]
      exact ⟨_, if_pos (by omega), rfl, h4.symm, by simp only; omega, by simp only; omega⟩
    · exact ⟨_, if_pos (by omega), rfl, by simp only; omega, by simp only; omega,
        by simp only; omega⟩

/-- A character of several bytes: its first byte says how many follow, and these give it. -/
theorem lead?_encodeChar {c : Char} {b : UInt8} {tail : Bytes}
    (h : String.utf8EncodeChar c = b :: tail) (hb : 0x80 ≤ b.toNat) :
    ∃ l, lead? b.toNat = some l ∧ l.count = tail.length ∧
      ∀ rest, continuation l.count 1 l.low l.high l.bits (tail ++ rest) = .char c c.utf8Size := by
  have hs := congrArg List.length h
  rw [String.length_utf8EncodeChar] at hs
  have hv := c.valid
  simp only [UInt32.isValidChar, Nat.isValidChar] at hv
  have hc : Char.ofNat c.val.toNat = c := Char.ofNat_toNat c
  unfold String.utf8EncodeChar at h
  generalize c.val.toNat = v at h hv hc
  simp only at h
  split at h
  · obtain ⟨rfl, rfl⟩ := List.cons.inj h
    simp at hb
    omega
  · split at h
    · obtain ⟨rfl, rfl⟩ := List.cons.inj h
      have hn : (UInt8.ofNat (v / 64 % 32 + 192)).toNat = v / 64 + 192 := by
        rw [UInt8.toNat_ofNat_of_lt' (by simp [UInt8.size]; omega)]
        omega
      refine ⟨⟨1, 0x80, 0xBF, v / 64⟩, ?_, rfl, fun rest => ?_⟩
      · rw [hn, lead?, if_neg (by omega), if_pos (by omega)]
        congr 2
        omega
      · change continuation 1 1 0x80 0xBF (v / 64) (UInt8.ofNat (v % 64 + 128) :: rest) = _
        rw [continuation_cons (by omega) (by omega) (by omega), continuation_zero, hs,
          show v / 64 * 64 + (v % 64 + 128) % 64 = v by omega, hc]
        rfl
    · split at h
      · obtain ⟨rfl, rfl⟩ := List.cons.inj h
        have hn : (UInt8.ofNat (v / 4096 % 16 + 224)).toNat = v / 4096 + 224 := by
          rw [UInt8.toNat_ofNat_of_lt' (by simp [UInt8.size]; omega)]
          omega
        obtain ⟨l, hl, hcount, hbits, hlow, hhigh⟩ :=
          lead?_three (v := v) (by omega) (by omega) (by omega)
        refine ⟨l, by rw [hn, hl], hcount, fun rest => ?_⟩
        rw [hcount, hbits, List.cons_append, List.singleton_append,
          continuation_cons hlow hhigh (by omega), continuation_cons (by omega) (by omega) (by omega),
          continuation_zero, hs, show (v / 4096 * 64 + (v / 64 % 64 + 128) % 64) * 64 +
            (v % 64 + 128) % 64 = v by omega, hc]
        rfl
      · obtain ⟨rfl, rfl⟩ := List.cons.inj h
        have hn : (UInt8.ofNat (v / 262144 % 8 + 240)).toNat = v / 262144 + 240 := by
          rw [UInt8.toNat_ofNat_of_lt' (by simp [UInt8.size]; omega)]
          omega
        obtain ⟨l, hl, hcount, hbits, hlow, hhigh⟩ := lead?_four (v := v) (by omega) (by omega)
        refine ⟨l, by rw [hn, hl], hcount, fun rest => ?_⟩
        rw [hcount, hbits, List.cons_append, List.cons_append, List.singleton_append,
          continuation_cons hlow hhigh (by omega), continuation_cons (by omega) (by omega) (by omega),
          continuation_cons (by omega) (by omega) (by omega), continuation_zero, hs,
          show ((v / 262144 * 64 + (v / 4096 % 64 + 128) % 64) * 64 + (v / 64 % 64 + 128) % 64) * 64 +
            (v % 64 + 128) % 64 = v by omega, hc]
        rfl

theorem piece_encodeChar {c : Char} {b : UInt8} {tail : Bytes}
    (h : String.utf8EncodeChar c = b :: tail) (rest : Bytes) :
    piece b (tail ++ rest) = .char c c.utf8Size := by
  unfold piece
  split
  · next hb =>
    have hc : Char.ofNat c.val.toNat = c := Char.ofNat_toNat c
    have hs := congrArg List.length h
    rw [String.length_utf8EncodeChar] at hs
    unfold String.utf8EncodeChar at h
    generalize c.val.toNat = v at h hc
    have hn (k : Nat) (hk : 0x80 ≤ k % 256) : ¬(UInt8.ofNat k).toNat < 0x80 := by
      rw [UInt8.toNat_ofNat']
      omega
    simp only at h
    split_ifs at h
    · obtain ⟨rfl, rfl⟩ := List.cons.inj h
      rw [UInt8.toNat_ofNat_of_lt' (by simp [UInt8.size]; omega), hc, hs]
      rfl
    · obtain ⟨rfl, -⟩ := List.cons.inj h
      exact absurd hb (hn _ (by omega))
    · obtain ⟨rfl, -⟩ := List.cons.inj h
      exact absurd hb (hn _ (by omega))
    · obtain ⟨rfl, -⟩ := List.cons.inj h
      exact absurd hb (hn _ (by omega))
  · next hb =>
    obtain ⟨l, hl, -, hcont⟩ := lead?_encodeChar h (by omega)
    simp only [hl]
    exact hcont rest

/-- The beginning of a character is no character yet. -/
theorem piece_of_prefix {c : Char} {b : UInt8} {front : Bytes}
    (h : b :: front <+: String.utf8EncodeChar c) (hlt : (b :: front).length < c.utf8Size) :
    ∃ k, piece b front = .broken k := by
  obtain ⟨back, hback⟩ := h
  have htail : String.utf8EncodeChar c = b :: (front ++ back) := by simpa using hback.symm
  have hlen := congrArg List.length htail
  rw [String.length_utf8EncodeChar] at hlen
  simp only [List.length_cons, List.length_append] at hlen hlt
  have hb : 0x80 ≤ b.toNat := by
    by_contra hsmall
    have hp := piece_encodeChar htail []
    unfold piece at hp
    rw [if_pos (by omega)] at hp
    have hsize := (Piece.char.inj hp).2
    omega
  obtain ⟨l, hl, hcount, -⟩ := lead?_encodeChar htail hb
  have hshort : front.length < l.count := by
    rw [hcount, List.length_append]
    omega
  unfold piece
  rw [if_neg (by omega)]
  simp only [hl]
  exact continuation_of_length_lt hshort _ _ _ _

theorem validUpTo_append (front rest : Bytes) (read : Nat) :
    validUpTo front.length read (front ++ rest) = validUpTo 0 (read + front.length) rest := by
  induction front generalizing read with
  | nil => rfl
  | cons b front ih =>
    rw [List.length_cons, List.cons_append, validUpTo, ih]
    congr 1
    omega

theorem lossyChars_append (front rest : Bytes) :
    lossyChars front.length (front ++ rest) = lossyChars 0 rest := by
  induction front with
  | nil => rfl
  | cons b front ih => rw [List.length_cons, List.cons_append, lossyChars, ih]

/-- A character has a first byte. -/
theorem exists_encodeChar (c : Char) :
    ∃ b tail, String.utf8EncodeChar c = b :: tail ∧ c.utf8Size = tail.length + 1 := by
  obtain ⟨b, tail, h⟩ := List.exists_cons_of_ne_nil (String.utf8EncodeChar_ne_nil (c := c))
  refine ⟨b, tail, h, ?_⟩
  rw [← String.length_utf8EncodeChar, h, List.length_cons]

theorem validUpTo_encodeChar (c : Char) (rest : Bytes) (read : Nat) :
    validUpTo 0 read (String.utf8EncodeChar c ++ rest) = validUpTo 0 (read + c.utf8Size) rest := by
  obtain ⟨b, tail, h, hs⟩ := exists_encodeChar c
  rw [h, List.cons_append, validUpTo, piece_encodeChar h, hs]
  simp only [Nat.add_sub_cancel]
  rw [validUpTo_append]
  congr 1
  omega

theorem lossyChars_encodeChar (c : Char) (rest : Bytes) :
    lossyChars 0 (String.utf8EncodeChar c ++ rest) = c :: lossyChars 0 rest := by
  obtain ⟨b, tail, h, hs⟩ := exists_encodeChar c
  rw [h, List.cons_append, lossyChars, piece_encodeChar h, hs]
  simp only [Piece.shown, Piece.length, Nat.add_sub_cancel]
  rw [lossyChars_append]

theorem lossyChars_encodeChars (chars : List Char) : lossyChars 0 (encodeChars chars) = chars := by
  induction chars with
  | nil => rfl
  | cons c chars ih => rw [encodeChars_cons, lossyChars_encodeChar, ih]

/-- The beginning of the first character of a text, not all of it. -/
def Begins (part : Bytes) : List Char → Prop
  | [] => part = []
  | c :: _ => part <+: String.utf8EncodeChar c ∧ part.length < c.utf8Size

theorem Begins.length_le {part : Bytes} {chars : List Char} (h : Begins part chars) :
    part.length ≤ 3 := by
  cases chars with
  | nil => simp [show part = [] from h]
  | cons c chars =>
    have := c.utf8Size_le_four
    have := h.2
    omega

theorem Begins.eq_nil {part : Bytes} {chars : List Char} (h : Begins part chars)
    (he : part = encodeChars chars) : chars = [] := by
  cases chars with
  | nil => rfl
  | cons c chars =>
    have hlen := congrArg List.length he
    have := h.2
    simp only [encodeChars_cons, List.length_append, String.length_utf8EncodeChar] at hlen
    omega

theorem validUpTo_of_begins {part : Bytes} {chars : List Char} (h : Begins part chars) (read : Nat) :
    validUpTo 0 read part = read := by
  cases part with
  | nil => rfl
  | cons b front =>
    cases chars with
    | nil => exact absurd (show b :: front = [] from h) (by simp)
    | cons c chars =>
      obtain ⟨k, hk⟩ := piece_of_prefix h.1 h.2
      rw [validUpTo, hk]

theorem validUpTo_encodeChars (whole : List Char) {part : Bytes} {chars : List Char}
    (h : Begins part chars) (read : Nat) :
    validUpTo 0 read (encodeChars whole ++ part) = read + (encodeChars whole).length := by
  induction whole generalizing read with
  | nil => simpa using validUpTo_of_begins h read
  | cons c whole ih =>
    rw [encodeChars_cons, List.append_assoc, validUpTo_encodeChar, ih, List.length_append,
      String.length_utf8EncodeChar]
    omega

/-- Any prefix of a text is whole characters and the beginning of the next. -/
theorem exists_whole_of_prefix {front : Bytes} {chars : List Char} (h : front <+: encodeChars chars) :
    ∃ whole left part, chars = whole ++ left ∧ front = encodeChars whole ++ part ∧ Begins part left := by
  induction chars generalizing front with
  | nil => exact ⟨[], [], [], rfl, by simpa using h, rfl⟩
  | cons c chars ih =>
    rw [encodeChars_cons] at h
    by_cases hlt : front.length < c.utf8Size
    · refine ⟨[], c :: chars, front, rfl, rfl, ?_, hlt⟩
      exact List.prefix_of_prefix_length_le h (List.prefix_append _ _) (by simp; omega)
    · have hle : (String.utf8EncodeChar c).length ≤ front.length := by simp; omega
      obtain ⟨back, rfl⟩ := List.prefix_of_prefix_length_le (List.prefix_append _ _) h hle
      obtain ⟨whole, left, part, rfl, rfl, hb⟩ := ih ((List.prefix_append_right_inj _).mp h)
      exact ⟨c :: whole, left, part, rfl, by simp, hb⟩

/-! ## The characters of arbitrary bytes -/

theorem toNat_ofNat_le (n : Nat) : (Char.ofNat n).toNat ≤ n := by
  by_cases h : n.isValidChar
  · have hn : Char.ofNat n = Char.ofNatAux n h := dif_pos h
    rw [hn]
    exact Nat.le_refl n
  · have hn : Char.ofNat n = Char.ofNatAux 0 (.inl (by decide)) := dif_neg h
    rw [hn]
    exact Nat.zero_le n

theorem utf8Size_le_of_toNat_lt {c : Char} {n : Nat} (h1 : 0 < n) (h2 : n = 1 → c.toNat < 0x80)
    (h3 : n = 2 → c.toNat < 0x800) (h4 : n = 3 → c.toNat < 0x10000) : c.utf8Size ≤ n := by
  have hmax := c.utf8Size_le_four
  unfold Char.utf8Size
  simp only [UInt32.le_iff_toNat_le]
  change (if c.toNat ≤ 127 then 1 else if c.toNat ≤ 2047 then 2 else if c.toNat ≤ 65535 then 3 else 4) ≤ n
  split_ifs <;> omega

/-- A sequence that gives a character has all its bytes, and what follows them does not matter. -/
theorem continuation_eq_char {need seen low high bits n : Nat} {rest : Bytes} {c : Char}
    (h : continuation need seen low high bits rest = .char c n) :
    n = seen + need ∧ need ≤ rest.length ∧ c.toNat < (bits + 1) * 64 ^ need ∧
      ∀ k, need ≤ k → continuation need seen low high bits (rest.take k) = .char c n := by
  induction need generalizing seen low high bits rest with
  | zero =>
    rw [continuation_zero] at h
    obtain ⟨rfl, rfl⟩ := Piece.char.inj h
    refine ⟨rfl, Nat.zero_le _, ?_, fun k _ => continuation_zero _ _ _ _ _⟩
    have := toNat_ofNat_le bits
    omega
  | succ need ih =>
    cases rest with
    | nil => simp [continuation] at h
    | cons b rest =>
      unfold continuation at h
      split at h
      · next hb =>
        obtain ⟨hn, hlen, hbits, htake⟩ := ih h
        refine ⟨by omega, by simpa using hlen, ?_, fun k hk => ?_⟩
        · have hle : bits * 64 + b.toNat % 64 + 1 ≤ (bits + 1) * 64 := by omega
          have := Nat.mul_le_mul_right (64 ^ need) hle
          rw [Nat.pow_succ']
          linarith
        · obtain ⟨k, rfl⟩ : ∃ j, k = j + 1 := ⟨k - 1, by omega⟩
          rw [List.take_succ_cons, continuation, if_pos hb]
          exact htake k (by omega)
      · simp at h

theorem lead?_bits {b : Nat} {l : Lead} (h : lead? b = some l) :
    (l.count = 1 ∧ l.bits < 32) ∨ (l.count = 2 ∧ l.bits < 16) ∨ l.count = 3 := by
  unfold lead? at h
  split_ifs at h <;> obtain rfl := Option.some.inj h <;> simp <;> omega

theorem piece_eq_char {b : UInt8} {rest : Bytes} {c : Char} {n : Nat} (h : piece b rest = .char c n) :
    0 < n ∧ n ≤ rest.length + 1 ∧ c.utf8Size ≤ n ∧
      ∀ k, n ≤ k + 1 → piece b (rest.take k) = .char c n := by
  unfold piece at h
  split at h
  · next hb =>
    obtain ⟨rfl, rfl⟩ := Piece.char.inj h
    refine ⟨by omega, by omega, ?_, fun k _ => by rw [piece, if_pos hb]⟩
    have := toNat_ofNat_le b.toNat
    exact utf8Size_le_of_toNat_lt (by omega) (by omega) (by omega) (by omega)
  · next hb =>
    split at h
    · simp at h
    · next l hl =>
      obtain ⟨hn, hlen, hbits, htake⟩ := continuation_eq_char h
      refine ⟨by omega, by omega, ?_, fun k hk => ?_⟩
      · rcases lead?_bits hl with ⟨hc, hb⟩ | ⟨hc, hb⟩ | hc
        all_goals
          rw [hc] at hbits hn
          exact utf8Size_le_of_toNat_lt (by omega) (by omega) (by omega) (by omega)
      · rw [piece, if_neg hb]
        simp only [hl]
        exact htake k (by omega)

theorem validUpTo_eq_add (skip read : Nat) (bytes : Bytes) :
    validUpTo skip read bytes = read + validUpTo skip 0 bytes := by
  induction bytes generalizing skip read with
  | nil => rfl
  | cons b rest ih =>
    cases skip with
    | succ n =>
      rw [validUpTo, ih n (read + 1), validUpTo, ih n (0 + 1)]
      omega
    | zero =>
      simp only [validUpTo]
      cases piece b rest with
      | char c n =>
        simp only
        rw [ih (n - 1) (read + 1), ih (n - 1) (0 + 1)]
        omega
      | broken k => simp

theorem le_validUpTo {skip : Nat} {bytes : Bytes} (h : skip ≤ bytes.length) :
    skip ≤ validUpTo skip 0 bytes := by
  obtain ⟨front, rest, rfl, rfl⟩ : ∃ front rest, bytes = front ++ rest ∧ skip = front.length :=
    ⟨bytes.take skip, bytes.drop skip, by simp, by simp [h]⟩
  rw [validUpTo_append, validUpTo_eq_add]
  omega

theorem validUpTo_le (skip : Nat) (bytes : Bytes) : validUpTo skip 0 bytes ≤ bytes.length := by
  induction bytes generalizing skip with
  | nil => exact Nat.le_refl 0
  | cons b rest ih =>
    cases skip with
    | succ n =>
      rw [validUpTo, validUpTo_eq_add, List.length_cons]
      have := ih n
      omega
    | zero =>
      rw [validUpTo]
      split
      · next c n _ =>
        rw [validUpTo_eq_add, List.length_cons]
        have := ih (n - 1)
        omega
      · exact Nat.zero_le _

/-- The characters in front of the first broken sequence are no longer than the bytes they came from. -/
theorem length_encodeChars_lossyChars {skip : Nat} {bytes : Bytes} (h : skip ≤ bytes.length) :
    (encodeChars (lossyChars skip (bytes.take (validUpTo skip 0 bytes)))).length + skip ≤
      validUpTo skip 0 bytes := by
  induction bytes generalizing skip with
  | nil =>
    obtain rfl : skip = 0 := Nat.le_zero.mp h
    exact le_of_eq rfl
  | cons b rest ih =>
    cases skip with
    | succ n =>
      have hn : n ≤ rest.length := by simpa using h
      rw [validUpTo, validUpTo_eq_add, Nat.zero_add, Nat.add_comm 1, List.take_succ_cons, lossyChars]
      have := ih hn
      omega
    | zero =>
      rw [validUpTo]
      split
      · next c n hp =>
        obtain ⟨hpos, hn, hsize, htake⟩ := piece_eq_char hp
        have hskip : n - 1 ≤ rest.length := by omega
        have hfit := le_validUpTo hskip
        have hi := ih hskip
        rw [validUpTo_eq_add, Nat.zero_add, Nat.add_comm 1, List.take_succ_cons, lossyChars,
          htake _ (by omega)]
        simp only [Piece.shown, Piece.length, encodeChars_cons, List.length_append,
          String.length_utf8EncodeChar]
        omega
      · simp [lossyChars]

end PluginRelay.Utf8

namespace PluginRelay.Cbor.Reader

/-- The pieces of a text, from a place inside a character on: `pending` is the part of it that has been
read. -/
theorem textPieces_encodeChars {fuel : Nat} {pending body : Bytes} {left : List Char}
    (hbody : pending ++ body = Utf8.encodeChars left) (hb : Utf8.Begins pending left)
    (hfuel : body.length < fuel) (chars : List Char) (rest : Bytes) :
    textPieces fuel body.length pending chars (body ++ rest) = .ok (chars ++ left, rest) := by
  induction fuel generalizing pending body left chars with
  | zero => omega
  | succ fuel ih =>
    unfold textPieces
    by_cases hz : body.length = 0
    · obtain rfl := List.eq_nil_of_length_eq_zero hz
      obtain rfl := hb.eq_nil (by simpa using hbody)
      obtain rfl : pending = [] := hb
      simp
    · have hp := hb.length_le
      obtain ⟨n, hn⟩ : ∃ n, n = min body.length (pieceLength - pending.length) := ⟨_, rfl⟩
      have hpiece : pieceLength = 4096 := rfl
      have hsplit : body ++ rest = body.take n ++ (body.drop n ++ rest) := by
        rw [← List.append_assoc, List.take_append_drop]
      have htake : (body.take n).length = n := by
        rw [List.length_take]
        omega
      have hread : exactly n (body ++ rest) = .ok (body.take n, body.drop n ++ rest) := by
        conv_lhs => rw [hsplit]
        simpa only [htake] using exactly_append (body.take n) (body.drop n ++ rest)
      have hfront : pending ++ body.take n <+: Utf8.encodeChars left :=
        ⟨body.drop n, by rw [List.append_assoc, List.take_append_drop, hbody]⟩
      obtain ⟨whole, left, part, rfl, hw, hpart⟩ := Utf8.exists_whole_of_prefix hfront
      have hgood : Utf8.validUpTo 0 0 (Utf8.encodeChars whole ++ part) =
          (Utf8.encodeChars whole).length := by
        rw [Utf8.validUpTo_encodeChars whole hpart, Nat.zero_add]
      have hleft : part ++ body.drop n = Utf8.encodeChars left := by
        have hall : Utf8.encodeChars whole ++ (part ++ body.drop n) =
            Utf8.encodeChars whole ++ Utf8.encodeChars left := by
          rw [← List.append_assoc, ← hw, List.append_assoc, List.take_append_drop, hbody,
            Utf8.encodeChars_append]
        exact List.append_cancel_left hall
      have hnext := ih hleft hpart (by rw [List.length_drop]; omega) (chars ++ whole)
      rw [List.length_drop, List.append_assoc] at hnext
      have hshort : ¬3 < part.length := by have := hpart.length_le; omega
      simp only [if_neg hz, ← hn, hread, ok_bind, hgood, hw, List.drop_left, List.take_left,
        if_neg hshort, Utf8.lossyChars_encodeChars]
      exact hnext

theorem textBody_encode (text : String) (rest : Bytes) :
    textBody (some (Utf8.encode text).length) (Utf8.encode text ++ rest) = .ok (text, rest) := by
  rw [Utf8.encode_eq_encodeChars, textBody]
  have hb : Utf8.Begins [] text.toList := by
    cases text.toList with
    | nil => rfl
    | cons c chars => exact ⟨List.nil_prefix, c.utf8Size_pos⟩
  have hfuel : (Utf8.encodeChars text.toList).length <
      (Utf8.encodeChars text.toList ++ rest).length + 1 := by
    rw [List.length_append]
    omega
  have h := textPieces_encodeChars (List.nil_append _) hb hfuel [] rest
  simp only [textChunk, h, ok_bind, pure_eq_ok, List.nil_append, String.ofList_toList]

end PluginRelay.Cbor.Reader
