import Mathlib.Data.List.Infix
import PluginRelay.Json.Reader
import PluginRelay.Proofs.KeyedOrder
import PluginRelay.Proofs.Utf8Pieces

/-!
# What a JSON text holds

A reader leaves an end of its text, and what it takes is no larger than the text: strings by their bytes,
arrays and objects by the number of their items. `Held` says this of a value as a whole, together with its
nesting and the order of its members.
-/
namespace PluginRelay.Json

/-! ## Sizes -/

/-- The number of bytes of a text. -/
def size (text : List Char) : Nat := (Utf8.encodeChars text).length

theorem size_cons (c : Char) (text : List Char) : size (c :: text) = c.utf8Size + size text := by
  simp [size]

theorem length_le_size (text : List Char) : text.length ≤ size text := by
  induction text with
  | nil => exact Nat.le_refl _
  | cons c text ih =>
    have hc := c.utf8Size_pos
    rw [size_cons, List.length_cons]
    omega

theorem size_le_of_suffix {rest text : List Char} (h : rest <:+ text) : size rest ≤ size text := by
  obtain ⟨front, rfl⟩ := h
  simp [size, Utf8.encodeChars_append]

/-! ## Strings and numerals -/

theorem skipBlanks_suffix (text : List Char) : skipBlanks text <:+ text := List.dropWhile_suffix _

theorem utf8Size_of_escaped {c e : Char} (h : escaped? c = some e) : e.utf8Size = 1 := by
  unfold escaped? at h
  split at h
  all_goals first | (obtain rfl := Option.some.inj h; rfl) | simp at h

/-- A character that was read is no larger than what it was read from. -/
theorem bound_cons (front : List Char) {c : Char} {text chars rest : List Char} (hc : c.utf8Size ≤ size front)
    (ih : ∀ {chars rest}, stringBody text = some (chars, rest) → rest <:+ text ∧ size chars ≤ size text)
    (h : (do let (chars, rest) ← stringBody text; return (c :: chars, rest)) = some (chars, rest)) :
    rest <:+ front ++ text ∧ size chars ≤ size (front ++ text) := by
  obtain ⟨⟨chars', rest'⟩, hread, h⟩ := Option.bind_eq_some_iff.mp h
  obtain ⟨rfl, rfl⟩ := by simpa using h
  obtain ⟨hsuffix, hsize⟩ := ih hread
  refine ⟨hsuffix.trans (List.suffix_append _ _), ?_⟩
  have happend : size (front ++ text) = size front + size text := by
    simp [size, Utf8.encodeChars_append]
  rw [size_cons, happend]
  omega

theorem stringBody_bound {text chars rest : List Char} (h : stringBody text = some (chars, rest)) :
    rest <:+ text ∧ size chars ≤ size text := by
  -- An escape of six characters stands for a character of at most four bytes.
  have escape (c : Char) {front : List Char} (hl : 4 ≤ front.length) : c.utf8Size ≤ size front :=
    c.utf8Size_le_four.trans (hl.trans (length_le_size front))
  fun_induction stringBody text generalizing chars rest with
  | case1 => simp at h
  | case2 tail =>
    obtain ⟨rfl, rfl⟩ := by simpa using h
    exact ⟨List.suffix_cons _ _, Nat.zero_le _⟩
  | case3 a b c d e f g k tail ihpair ih =>
    obtain ⟨high, -, h⟩ := Option.bind_eq_some_iff.mp h
    split_ifs at h with hhigh hlow
    · obtain ⟨low, -, h⟩ := Option.bind_eq_some_iff.mp h
      split_ifs at h
      exact bound_cons ['\\', 'u', a, b, c, d, '\\', 'u', e, f, g, k] (escape _ (by simp))
        ihpair h
    · exact bound_cons ['\\', 'u', a, b, c, d] (escape _ (by simp)) ih h
  | case4 a b c d tail _ ih =>
    obtain ⟨unit, -, h⟩ := Option.bind_eq_some_iff.mp h
    split_ifs at h
    exact bound_cons ['\\', 'u', a, b, c, d] (escape _ (by simp)) ih h
  | case5 c tail _ _ ih =>
    obtain ⟨e, he, h⟩ := Option.bind_eq_some_iff.mp h
    have hsize : e.utf8Size ≤ size ['\\', c] := by
      rw [utf8Size_of_escaped he]
      exact Nat.le_of_lt (length_le_size ['\\', c])
    exact bound_cons ['\\', c] hsize ih h
  | case6 => simp at h
  | case7 c tail _ _ _ _ _ ih =>
    exact bound_cons [c] (by simp [size_cons]) ih h

namespace Numeral

theorem skipDigits_suffix (text : List Char) : skipDigits text <:+ text := by
  induction text with
  | nil => exact List.suffix_refl _
  | cons c text ih =>
    rw [skipDigits]
    split_ifs
    · exact ih.trans (List.suffix_cons _ _)
    · exact List.suffix_refl _

theorem exponentDigits_suffix (n : Nat) (text : List Char) : (exponentDigits n text).2 <:+ text := by
  fun_induction exponentDigits n text with
  | case1 => exact List.suffix_refl _
  | case2 => exact List.suffix_refl _
  | case3 n c rest d hd hfit ih => exact ih.trans (List.suffix_cons _ _)
  | case4 => exact List.suffix_refl _

theorem exponentPart_suffix {p : Parts} {text rest : List Char} {n : Number}
    (h : exponentPart p text = some (n, rest)) : rest <:+ text := by
  unfold exponentPart at h
  split at h
  next down digits hsign =>
    have hdigits : digits <:+ text := by
      split at hsign
      all_goals obtain ⟨-, rfl⟩ := Prod.mk.inj hsign
      · exact List.suffix_cons _ _
      · exact List.suffix_cons _ _
      · exact List.suffix_refl _
    obtain ⟨c, -, h⟩ := Option.bind_eq_some_iff.mp h
    obtain ⟨_, -, h⟩ := Option.bind_eq_some_iff.mp h
    have htail := (exponentDigits_suffix 0 digits).trans hdigits
    split at h
    next e tail he =>
      rw [he] at htail
      obtain ⟨x, -, h⟩ := Option.bind_eq_some_iff.mp h
      obtain ⟨-, rfl⟩ := by simpa using h
      exact htail
    next tail he =>
      rw [he] at htail
      split at h
      · simp at h
      · obtain ⟨-, rfl⟩ := by simpa using h
        exact (skipDigits_suffix tail).trans htail

theorem doubleEnd_suffix {p : Parts} {text rest : List Char} {n : Number}
    (h : doubleEnd p text = some (n, rest)) : rest <:+ text := by
  unfold doubleEnd at h
  split at h
  · exact (exponentPart_suffix h).trans (List.suffix_cons _ _)
  · exact (exponentPart_suffix h).trans (List.suffix_cons _ _)
  · obtain ⟨x, -, h⟩ := Option.map_eq_some_iff.mp h
    obtain ⟨-, rfl⟩ := by simpa using h
    exact List.suffix_refl _

theorem fractionDigits_suffix {p : Parts} {text rest : List Char} {n : Number}
    (h : fractionDigits p text = some (n, rest)) : rest <:+ text := by
  fun_induction fractionDigits p text with
  | case1 p => exact doubleEnd_suffix h
  | case2 p c tail hc => exact doubleEnd_suffix h
  | case3 p c tail d hd hfit ih => exact (ih h).trans (List.suffix_cons _ _)
  | case4 p c tail d hd hfit =>
    exact ((doubleEnd_suffix h).trans (skipDigits_suffix tail)).trans (List.suffix_cons _ _)

theorem fractionPart_suffix {p : Parts} {text rest : List Char} {n : Number}
    (h : fractionPart p text = some (n, rest)) : rest <:+ text := by
  obtain ⟨c, -, h⟩ := Option.bind_eq_some_iff.mp h
  obtain ⟨_, -, h⟩ := Option.bind_eq_some_iff.mp h
  exact fractionDigits_suffix h

theorem longInteger_suffix {p : Parts} {text rest : List Char} {n : Number}
    (h : longInteger p text = some (n, rest)) : rest <:+ text := by
  fun_induction longInteger p text with
  | case1 p => exact doubleEnd_suffix h
  | case2 p tail => exact (fractionPart_suffix h).trans (List.suffix_cons _ _)
  | case3 p c tail hpoint hc ih => exact (ih h).trans (List.suffix_cons _ _)
  | case4 p c tail hpoint hc => exact doubleEnd_suffix h

theorem integerEnd_suffix {p : Parts} {text rest : List Char} {n : Number}
    (h : integerEnd p text = some (n, rest)) : rest <:+ text := by
  unfold integerEnd at h
  split at h
  · exact (fractionPart_suffix h).trans (List.suffix_cons _ _)
  · exact (exponentPart_suffix h).trans (List.suffix_cons _ _)
  · exact (exponentPart_suffix h).trans (List.suffix_cons _ _)
  · obtain ⟨-, rfl⟩ := by simpa using h
    exact List.suffix_refl _

theorem integerDigits_suffix {p : Parts} {text rest : List Char} {n : Number}
    (h : integerDigits p text = some (n, rest)) : rest <:+ text := by
  fun_induction integerDigits p text with
  | case1 p => exact integerEnd_suffix h
  | case2 p c tail hc => exact integerEnd_suffix h
  | case3 p c tail d hd hfit ih => exact (ih h).trans (List.suffix_cons _ _)
  | case4 p c tail d hd hfit => exact longInteger_suffix h

theorem unsigned_suffix {negative : Bool} {text rest : List Char} {n : Number}
    (h : unsigned negative text = some (n, rest)) : rest <:+ text := by
  unfold unsigned at h
  split at h
  · split at h
    · simp at h
    · exact (integerEnd_suffix h).trans (List.suffix_cons _ _)
  · obtain ⟨_, -, h⟩ := Option.bind_eq_some_iff.mp h
    exact integerDigits_suffix h
  · simp at h

theorem read?_suffix {text rest : List Char} {n : Number} (h : read? text = some (n, rest)) :
    rest <:+ text := by
  unfold read? at h
  split at h
  · exact (unsigned_suffix h).trans (List.suffix_cons _ _)
  · exact unsigned_suffix h

end Numeral

/-! ## Values -/

/-- A value that a text of that many bytes can hold, of at most that much nesting. -/
inductive Held (bytes : Nat) : Nat → Value → Prop
  | null (depth : Nat) : Held bytes depth .null
  | bool (depth : Nat) (b : Bool) : Held bytes depth (.bool b)
  | number (depth : Nat) (n : Number) : Held bytes depth (.number n)
  | string (depth : Nat) {chars : List Char} (hs : size chars ≤ bytes) :
    Held bytes depth (.string (String.ofList chars))
  | array {depth : Nat} {items : List Value} (hl : items.length ≤ bytes)
    (h : ∀ v ∈ items, Held bytes depth v) : Held bytes (depth + 1) (.array items)
  | object {depth : Nat} {members : List (String × Value)} (hl : members.length ≤ bytes)
    (ho : Keyed.Sorted members) (hk : ∀ m ∈ members, (Utf8.encode m.1).length ≤ bytes)
    (h : ∀ m ∈ members, Held bytes depth m.2) : Held bytes (depth + 1) (.object members)

theorem Held.mono {bytes more depth : Nat} {v : Value} (h : Held bytes depth v) (hle : bytes ≤ more) :
    Held more depth v := by
  induction h with
  | null depth => exact .null depth
  | bool depth b => exact .bool depth b
  | number depth n => exact .number depth n
  | string depth hs => exact .string depth (hs.trans hle)
  | array hl _ ih => exact .array (hl.trans hle) ih
  | object hl ho hk _ ih => exact .object (hl.trans hle) ho (fun m hm => (hk m hm).trans hle) ih

/-- The reader leaves an end of its text, and what it takes is one of those that the text can hold. -/
def Takes {α : Type} (item : Reader α) (P : Nat → α → Prop) : Prop :=
  ∀ ⦃text a rest⦄, item text = some (a, rest) → rest <:+ text ∧ P (size text) a

theorem Takes.behind {α : Type} {item : Reader α} {P : Nat → α → Prop} (hi : Takes item P)
    (hmono : ∀ {a b x}, P a x → a ≤ b → P b x) {front text rest : List Char} {x : α}
    (h : item text = some (x, rest)) (hs : text <:+ front) : rest <:+ front ∧ P (size front) x := by
  obtain ⟨hrest, hx⟩ := hi h
  exact ⟨hrest.trans hs, hmono hx (size_le_of_suffix hs)⟩

/-- What is read later is held by the whole text as well. -/
theorem forall_cons {α : Type} (P : Nat → α → Prop) (hmono : ∀ {a b x}, P a x → a ≤ b → P b x)
    {text after : List Char} (hs : after <:+ text) {x : α} {others : List α} (hx : P (size text) x)
    (h : ∀ y ∈ others, P (size after) y) : ∀ y ∈ x :: others, P (size text) y :=
  List.forall_mem_cons.mpr ⟨hx, fun y hy => hmono (h y hy) (size_le_of_suffix hs)⟩

theorem cons_suffix {c : Char} {text rest : List Char} (h : skipBlanks text = c :: rest) :
    rest <:+ text := (List.suffix_cons c rest).trans (h ▸ skipBlanks_suffix text)

section

variable {item : Reader Value} {depth : Nat} {text rest : List Char}

theorem itemsTail_takes (hi : Takes item (Held · depth)) {fuel : Nat} {vs : List Value}
    (h : itemsTail item fuel text = some (vs, rest)) :
    rest <:+ text ∧ vs.length ≤ fuel ∧ ∀ v ∈ vs, Held (size text) depth v := by
  fun_induction itemsTail item fuel text generalizing vs rest with
  | case1 fuel text tail hskip =>
    obtain ⟨rfl, rfl⟩ := by simpa using h
    exact ⟨cons_suffix hskip, Nat.zero_le _, by simp⟩
  | case2 text fuel tail hskip ih =>
    obtain ⟨⟨v, after⟩, hv, h⟩ := Option.bind_eq_some_iff.mp h
    obtain ⟨⟨others, last⟩, hothers, h⟩ := Option.bind_eq_some_iff.mp h
    obtain ⟨rfl, rfl⟩ := by simpa using h
    obtain ⟨hafter, hheld⟩ := hi.behind Held.mono hv (cons_suffix hskip)
    obtain ⟨hlast, hlength, hall⟩ := ih _ hothers
    exact ⟨hlast.trans hafter, Nat.succ_le_succ hlength,
      forall_cons (Held · depth) Held.mono hafter hheld hall⟩
  | case3 => simp at h

theorem items_takes (hi : Takes item (Held · depth)) {vs : List Value}
    (h : items item text = some (vs, rest)) :
    rest <:+ text ∧ vs.length ≤ size text + 1 ∧ ∀ v ∈ vs, Held (size text) depth v := by
  unfold items at h
  split at h
  next tail hskip =>
    obtain ⟨rfl, rfl⟩ := by simpa using h
    exact ⟨cons_suffix hskip, Nat.zero_le _, by simp⟩
  next =>
    obtain ⟨⟨v, after⟩, hv, h⟩ := Option.bind_eq_some_iff.mp h
    obtain ⟨⟨others, last⟩, hothers, h⟩ := Option.bind_eq_some_iff.mp h
    obtain ⟨rfl, rfl⟩ := by simpa using h
    obtain ⟨hafter, hheld⟩ := hi.behind Held.mono hv (skipBlanks_suffix text)
    obtain ⟨hlast, hlength, hall⟩ := itemsTail_takes hi hothers
    have hcount := (hlength.trans (length_le_size _)).trans (size_le_of_suffix hafter)
    exact ⟨hlast.trans hafter, Nat.succ_le_succ hcount,
      forall_cons (Held · depth) Held.mono hafter hheld hall⟩

/-- A member that a text of that many bytes can hold. -/
def HeldEntry (depth bytes : Nat) (m : String × Value) : Prop :=
  (Utf8.encode m.1).length ≤ bytes ∧ Held bytes depth m.2

theorem HeldEntry.mono {bytes more : Nat} {m : String × Value} (h : HeldEntry depth bytes m)
    (hle : bytes ≤ more) : HeldEntry depth more m := ⟨h.1.trans hle, h.2.mono hle⟩

theorem entry_takes (hi : Takes item (Held · depth)) : Takes (entry item) (HeldEntry depth) := by
  intro text m rest h
  unfold entry at h
  split at h
  next tail hskip =>
    obtain ⟨⟨key, after⟩, hkey, h⟩ := Option.bind_eq_some_iff.mp h
    obtain ⟨hafter, hsize⟩ := stringBody_bound hkey
    have htail := cons_suffix hskip
    dsimp only at h
    split at h
    next last hcolon =>
      obtain ⟨⟨v, final⟩, hv, h⟩ := Option.bind_eq_some_iff.mp h
      obtain ⟨rfl, rfl⟩ := by simpa using h
      obtain ⟨hfinal, hheld⟩ :=
        hi.behind Held.mono hv ((cons_suffix hcolon).trans (hafter.trans htail))
      refine ⟨hfinal, ?_, hheld⟩
      rw [Utf8.encode_ofList]
      exact hsize.trans (size_le_of_suffix htail)
    next => simp at h
  next => simp at h

theorem entriesTail_takes (hi : Takes item (Held · depth)) {fuel : Nat} {ms : List (String × Value)}
    (h : entriesTail item fuel text = some (ms, rest)) :
    rest <:+ text ∧ ms.length ≤ fuel ∧ ∀ m ∈ ms, HeldEntry depth (size text) m := by
  fun_induction entriesTail item fuel text generalizing ms rest with
  | case1 fuel text tail hskip =>
    obtain ⟨rfl, rfl⟩ := by simpa using h
    exact ⟨cons_suffix hskip, Nat.zero_le _, by simp⟩
  | case2 text fuel tail hskip ih =>
    obtain ⟨⟨m, after⟩, hm, h⟩ := Option.bind_eq_some_iff.mp h
    obtain ⟨⟨others, last⟩, hothers, h⟩ := Option.bind_eq_some_iff.mp h
    obtain ⟨rfl, rfl⟩ := by simpa using h
    obtain ⟨hafter, hheld⟩ := (entry_takes hi).behind HeldEntry.mono hm (cons_suffix hskip)
    obtain ⟨hlast, hlength, hall⟩ := ih _ hothers
    exact ⟨hlast.trans hafter, Nat.succ_le_succ hlength,
      forall_cons (HeldEntry depth) HeldEntry.mono hafter hheld hall⟩
  | case3 => simp at h

theorem entries_takes (hi : Takes item (Held · depth)) {ms : List (String × Value)}
    (h : entries item text = some (ms, rest)) :
    rest <:+ text ∧ ms.length ≤ size text + 1 ∧ ∀ m ∈ ms, HeldEntry depth (size text) m := by
  unfold entries at h
  split at h
  next tail hskip =>
    obtain ⟨rfl, rfl⟩ := by simpa using h
    exact ⟨cons_suffix hskip, Nat.zero_le _, by simp⟩
  next =>
    obtain ⟨⟨m, after⟩, hm, h⟩ := Option.bind_eq_some_iff.mp h
    obtain ⟨⟨others, last⟩, hothers, h⟩ := Option.bind_eq_some_iff.mp h
    obtain ⟨rfl, rfl⟩ := by simpa using h
    obtain ⟨hafter, hheld⟩ := (entry_takes hi).behind HeldEntry.mono hm (skipBlanks_suffix text)
    obtain ⟨hlast, hlength, hall⟩ := entriesTail_takes hi hothers
    have hcount := (hlength.trans (length_le_size _)).trans (size_le_of_suffix hafter)
    exact ⟨hlast.trans hafter, Nat.succ_le_succ hcount,
      forall_cons (HeldEntry depth) HeldEntry.mono hafter hheld hall⟩

end

theorem afterWord?_suffix {word text rest : List Char} (h : afterWord? word text = some rest) :
    rest <:+ text := by
  fun_induction afterWord? word text with
  | case1 text =>
    obtain rfl := Option.some.inj h
    exact List.suffix_refl _
  | case2 => simp at h
  | case3 w word text ih => exact (ih h).trans (List.suffix_cons _ _)
  | case4 => simp at h

theorem scalar_takes (depth : Nat) : Takes scalar (Held · depth) := by
  intro text v rest h
  unfold scalar at h
  split at h
  · obtain ⟨tail, htail, h⟩ := Option.map_eq_some_iff.mp h
    obtain ⟨rfl, rfl⟩ := by simpa using h
    exact ⟨(afterWord?_suffix htail).trans (List.suffix_cons _ _), .null depth⟩
  · obtain ⟨tail, htail, h⟩ := Option.map_eq_some_iff.mp h
    obtain ⟨rfl, rfl⟩ := by simpa using h
    exact ⟨(afterWord?_suffix htail).trans (List.suffix_cons _ _), .bool depth true⟩
  · obtain ⟨tail, htail, h⟩ := Option.map_eq_some_iff.mp h
    obtain ⟨rfl, rfl⟩ := by simpa using h
    exact ⟨(afterWord?_suffix htail).trans (List.suffix_cons _ _), .bool depth false⟩
  · obtain ⟨⟨chars, tail⟩, htail, h⟩ := Option.map_eq_some_iff.mp h
    obtain ⟨rfl, rfl⟩ := by simpa using h
    obtain ⟨hsuffix, hsize⟩ := stringBody_bound htail
    have hcons := hsuffix.trans (List.suffix_cons '"' _)
    exact ⟨hcons, .string depth (hsize.trans (size_le_of_suffix (List.suffix_cons _ _)))⟩
  · obtain ⟨⟨n, tail⟩, htail, h⟩ := Option.map_eq_some_iff.mp h
    obtain ⟨rfl, rfl⟩ := by simpa using h
    exact ⟨Numeral.read?_suffix htail, .number depth n⟩

theorem size_lt_of_skipBlanks {text rest : List Char} {c : Char} (h : skipBlanks text = c :: rest) :
    size rest < size text := by
  have hsize := size_le_of_suffix (skipBlanks_suffix text)
  have hc := c.utf8Size_pos
  rw [h, size_cons] at hsize
  omega

theorem array_takes {depth : Nat} (hi : Takes (value depth) (Held · depth)) {text tail rest : List Char}
    (hskip : skipBlanks text = '[' :: tail) {vs : List Value} (h : items (value depth) tail = some (vs, rest)) :
    rest <:+ text ∧ Held (size text) (depth + 1) (.array vs) := by
  obtain ⟨hrest, hlength, hall⟩ := items_takes hi h
  have hsize := size_lt_of_skipBlanks hskip
  exact ⟨hrest.trans (cons_suffix hskip), .array (hlength.trans hsize) fun v hv => (hall v hv).mono hsize.le⟩

theorem object_takes {depth : Nat} (hi : Takes (value depth) (Held · depth)) {text tail rest : List Char}
    (hskip : skipBlanks text = '\x7b' :: tail) {ms : List (String × Value)}
    (h : entries (value depth) tail = some (ms, rest)) :
    rest <:+ text ∧ Held (size text) (depth + 1) (.object (Keyed.ofList ms)) := by
  obtain ⟨hrest, hlength, hall⟩ := entries_takes hi h
  have hsize := size_lt_of_skipBlanks hskip
  have hmember (m) (hm : m ∈ Keyed.ofList ms) : HeldEntry depth (size text) m :=
    (hall m (Keyed.mem_of_mem_ofList hm)).mono hsize.le
  exact ⟨hrest.trans (cons_suffix hskip),
    .object ((Keyed.length_ofList_le ms).trans (hlength.trans hsize)) (Keyed.sorted_ofList ms)
      (fun m hm => (hmember m hm).1) fun m hm => (hmember m hm).2⟩

theorem value_takes (depth : Nat) : Takes (value depth) (Held · depth) := by
  induction depth with
  | zero =>
    intro text v rest h
    unfold value at h
    split at h
    · simp at h
    · simp at h
    next heq _ => simp at heq
    next heq _ => simp at heq
    · exact (scalar_takes 0).behind Held.mono h (skipBlanks_suffix text)
  | succ depth ih =>
    intro text v rest h
    unfold value at h
    split at h
    next heq _ => simp at heq
    next heq _ => simp at heq
    next inner tail heq hskip =>
      obtain rfl : depth = inner := by simpa using heq
      obtain ⟨⟨vs, after⟩, hvs, h⟩ := Option.map_eq_some_iff.mp h
      obtain ⟨rfl, rfl⟩ := by simpa using h
      exact array_takes ih hskip hvs
    next inner tail heq hskip =>
      obtain rfl : depth = inner := by simpa using heq
      obtain ⟨⟨ms, after⟩, hms, h⟩ := Option.map_eq_some_iff.mp h
      obtain ⟨rfl, rfl⟩ := by simpa using h
      exact object_takes ih hskip hms
    · exact (scalar_takes (depth + 1)).behind Held.mono h (skipBlanks_suffix text)

/-- What a text writes is a value that the text can hold. -/
theorem held_of_parse? {text : String} {v : Value} (h : parse? text = some v) :
    Held (Utf8.encode text).length depthLimit v := by
  unfold parse? parseWithin? at h
  split at h
  next w rest hread =>
    split_ifs at h
    obtain rfl := Option.some.inj h
    rw [Utf8.encode_eq_encodeChars]
    exact (value_takes depthLimit hread).2
  next => simp at h

end PluginRelay.Json
