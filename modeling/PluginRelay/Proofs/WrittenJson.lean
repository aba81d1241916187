import Mathlib.Data.List.Basic
import PluginRelay.Json.Printer
import PluginRelay.Json.Reader
import PluginRelay.Proofs.KeyedOrder

/-!
# Written JSON reads back

What the printer writes is read again as the value that was written, and nothing behind it is touched:
strings through their escapes, integers through their digits, and arrays and objects as deep as the reader may
go. Doubles are left out, since the last place of a numeral may be off when it is read.
-/
namespace PluginRelay.Json

/-! ## Strings -/

theorem unit?_hexDigit {n : Nat} (h : n < 0x20) :
    unit? '0' '0' (hexDigit (n / 16)) (hexDigit (n % 16)) = some n := by
  have hall : ∀ n < 0x20, unit? '0' '0' (hexDigit (n / 16)) (hexDigit (n % 16)) = some n := by decide
  exact hall n h

/-- An escaped unit below the surrogates is a character, also in front of another one. -/
theorem stringBody_unit {a b c d : Char} {unit : Nat} (h : unit? a b c d = some unit) (hu : unit < 0xD800)
    (text : List Char) :
    stringBody ('\\' :: 'u' :: a :: b :: c :: d :: text) =
      (stringBody text).map fun (chars, rest) => (Char.ofNat unit :: chars, rest) := by
  have hlow : ¬0xD800 ≤ unit := by omega
  have hhigh : ¬0xDC00 ≤ unit := by omega
  conv_lhs => unfold stringBody
  split
  next heq => simp at heq
  next heq => simp at heq
  next heq =>
    obtain ⟨rfl, rfl, rfl, rfl, rfl⟩ := by simpa using heq
    simp only [h, Option.bind_eq_bind, Option.bind_some, hlow, hhigh, false_and, if_false]
    cases stringBody _ <;> rfl
  next heq =>
    obtain ⟨rfl, rfl, rfl, rfl, rfl⟩ := by simpa using heq
    simp only [h, Option.bind_eq_bind, Option.bind_some, hlow, false_and, if_false]
    cases stringBody _ <;> rfl
  next hfour heq =>
    obtain ⟨rfl, rfl⟩ := by simpa using heq
    exact absurd rfl (hfour _ _ _ _ _ rfl)
  next hescape heq =>
    obtain ⟨rfl, rfl⟩ := List.cons.inj heq
    exact (hescape _ _ rfl rfl).elim

theorem stringBody_escaped {c e : Char} (h : escaped? c = some e) (text : List Char) :
    stringBody ('\\' :: c :: text) = (stringBody text).map fun (chars, rest) => (e :: chars, rest) := by
  have hc : c ≠ 'u' := by
    rintro rfl
    simp [escaped?] at h
  conv_lhs => unfold stringBody
  split
  next heq => simp at heq
  next heq => simp at heq
  next heq => exact absurd (by simpa using heq) (by simp [hc])
  next heq => exact absurd (by simpa using heq) (by simp [hc])
  next heq =>
    obtain ⟨rfl, rfl⟩ := by simpa using heq
    simp only [h, Option.bind_eq_bind, Option.bind_some]
    cases stringBody _ <;> rfl
  next hescape heq =>
    obtain ⟨rfl, rfl⟩ := List.cons.inj heq
    exact (hescape _ _ rfl rfl).elim

theorem stringBody_plain {c : Char} (hquote : c ≠ '"') (hback : c ≠ '\\') (hc : ¬c.toNat < 0x20)
    (text : List Char) :
    stringBody (c :: text) = (stringBody text).map fun (chars, rest) => (c :: chars, rest) := by
  conv_lhs => unfold stringBody
  split
  next heq => simp at heq
  next heq => exact absurd (List.cons.inj heq).1 hquote
  next heq => exact absurd (List.cons.inj heq).1 hback
  next heq => exact absurd (List.cons.inj heq).1 hback
  next heq => exact absurd (List.cons.inj heq).1 hback
  next heq =>
    obtain ⟨rfl, rfl⟩ := List.cons.inj heq
    rw [if_neg (not_or.mpr ⟨hback, hc⟩)]
    cases stringBody _ <;> rfl

theorem stringBody_escape (c : Char) (text : List Char) :
    stringBody (escape c ++ text) = (stringBody text).map fun (chars, rest) => (c :: chars, rest) := by
  unfold escape
  split
  · exact stringBody_escaped rfl text
  · exact stringBody_escaped rfl text
  · exact stringBody_escaped rfl text
  · exact stringBody_escaped rfl text
  · exact stringBody_escaped rfl text
  · exact stringBody_escaped rfl text
  · exact stringBody_escaped rfl text
  next hquote hback _ _ _ _ _ =>
    split_ifs with hc
    · have hunit := stringBody_unit (unit?_hexDigit hc) (hc.trans (by decide)) text
      rw [Char.ofNat_toNat] at hunit
      exact hunit
    · exact stringBody_plain hquote hback hc text

theorem stringBody_quoted (chars rest : List Char) :
    stringBody (chars.flatMap escape ++ '"' :: rest) = some (chars, rest) := by
  induction chars with
  | nil => rfl
  | cons c chars ih =>
    rw [List.flatMap_cons, List.append_assoc, stringBody_escape, ih]
    rfl

theorem toList_quoted (s : String) : (quoted s).toList = '"' :: (s.toList.flatMap escape ++ ['"']) := by
  rw [quoted, String.toList_ofList]

/-! ## Integers -/

/-- What may stand behind a value: the end, a comma or the end of what holds it. -/
def Closes (rest : List Char) : Prop := ∀ c ∈ rest.head?, c = ',' ∨ c = ']' ∨ c = '}'

namespace Numeral

theorem digit?_of_isDigit {c : Char} (h : c.isDigit) : digit? c = some (c.toNat - '0'.toNat) := by
  have hc : '0' ≤ c ∧ c ≤ '9' := by simpa [Char.isDigit, Char.le_def] using h
  rw [digit?, if_pos hc]
  rfl

theorem integerEnd_of_closes (p : Parts) {rest : List Char} (h : Closes rest) :
    integerEnd p rest = some (p.toInteger, rest) := by
  unfold integerEnd
  split
  · simp [Closes] at h
  · simp [Closes] at h
  · simp [Closes] at h
  · rfl

theorem digit?_of_closes {c : Char} {rest : List Char} (h : Closes (c :: rest)) : digit? c = none := by
  rcases h c rfl with rfl | rfl | rfl
  · rfl
  · rfl
  · rfl

theorem le_ofDigitChars (digits : List Char) (n : Nat) : n ≤ Nat.ofDigitChars 10 digits n := by
  rw [Nat.ofDigitChars_eq_ofDigitChars_zero]
  have hpos : 1 ≤ 10 ^ digits.length := Nat.one_le_pow _ _ (by decide)
  have hmul := Nat.mul_le_mul_right n hpos
  omega

theorem integerDigits_append {digits rest : List Char} (hd : ∀ c ∈ digits, c.isDigit) (hr : Closes rest)
    (p : Parts) (hfit : Nat.ofDigitChars 10 digits p.significand < UInt64.size) :
    integerDigits p (digits ++ rest) =
      some ({ p with significand := Nat.ofDigitChars 10 digits p.significand }.toInteger, rest) := by
  induction digits generalizing p with
  | nil =>
    cases rest with
    | nil => exact integerEnd_of_closes p hr
    | cons c rest =>
      rw [List.nil_append, integerDigits, digit?_of_closes hr]
      exact integerEnd_of_closes p hr
  | cons c digits ih =>
    have hstep : Nat.ofDigitChars 10 (c :: digits) p.significand =
        Nat.ofDigitChars 10 digits (p.significand * 10 + (c.toNat - '0'.toNat)) := by
      rw [Nat.ofDigitChars_eq_foldl, Nat.ofDigitChars_eq_foldl, List.foldl_cons, Nat.mul_comm]
    rw [hstep] at hfit ⊢
    have hnext := lt_of_le_of_lt (le_ofDigitChars digits _) hfit
    rw [List.cons_append, integerDigits, digit?_of_isDigit (hd c List.mem_cons_self)]
    simp only [fits, hnext, decide_true, if_true]
    exact ih (fun c hc => hd c (List.mem_cons_of_mem _ hc)) _ hfit

theorem isDigit_of_mem {n : Nat} {c : Char} (h : c ∈ Nat.toDigits 10 n) : c.isDigit :=
  Nat.isDigit_of_mem_toDigits (by decide) (by decide) h

theorem exists_digit (n : Nat) : ∃ c digits, Nat.toDigits 10 n = c :: digits ∧ c.isDigit := by
  obtain ⟨c, digits, h⟩ := List.exists_cons_of_ne_nil (Nat.toDigits_ne_nil (n := n) (b := 10))
  exact ⟨c, digits, h, isDigit_of_mem (h ▸ List.mem_cons_self)⟩

/-- Only zero is written with a zero in front. -/
theorem exists_toDigits (n : Nat) :
    (n = 0 ∧ Nat.toDigits 10 n = ['0']) ∨ ∃ c digits, Nat.toDigits 10 n = c :: digits ∧ c ≠ '0' := by
  induction n using Nat.strongRecOn with
  | ind n ih =>
    rcases lt_or_ge n 10 with hn | hn
    · rw [Nat.toDigits_of_lt_base hn]
      rcases Nat.eq_zero_or_pos n with rfl | hpos
      · exact .inl ⟨rfl, rfl⟩
      · exact .inr ⟨_, [], rfl, fun h => hpos.ne' (Nat.digitChar_eq_zero.mp h)⟩
    · rw [Nat.toDigits_of_base_le (by decide) hn]
      rcases ih (n / 10) (by omega) with ⟨hzero, -⟩ | ⟨c, digits, hdigits, hc⟩
      · omega
      · exact .inr ⟨c, digits ++ [(n % 10).digitChar], by rw [hdigits, List.cons_append], hc⟩

theorem unsigned_toDigits (negative : Bool) {n : Nat} (hn : n < UInt64.size) {rest : List Char}
    (hr : Closes rest) :
    unsigned negative (Nat.toDigits 10 n ++ rest) = some ((Parts.mk negative n 0).toInteger, rest) := by
  rcases exists_toDigits n with ⟨rfl, hzero⟩ | ⟨c, digits, hdigits, hc⟩
  · have hbehind : rest.head?.bind digit? = none := by
      cases rest with
      | nil => rfl
      | cons c rest => exact digit?_of_closes hr
    rw [hzero, List.singleton_append, unsigned, hbehind]
    exact integerEnd_of_closes _ hr
  · have hread := integerDigits_append (fun _ => isDigit_of_mem) hr ⟨negative, 0, 0⟩
      (by simpa only [Nat.ofDigitChars_ten_toDigits] using hn)
    rw [Nat.ofDigitChars_ten_toDigits] at hread
    have hfirst : digit? c = some (c.toNat - '0'.toNat) :=
      digit?_of_isDigit (isDigit_of_mem (hdigits ▸ List.mem_cons_self))
    rw [hdigits, List.cons_append] at hread ⊢
    rw [unsigned]
    · simp [hfirst, hread]
    · exact hc

theorem read?_toDigits {n : Nat} (hn : n < UInt64.size) {rest : List Char} (hr : Closes rest) :
    read? (Nat.toDigits 10 n ++ rest) = some (.natural (UInt64.ofNat n), rest) := by
  unfold read?
  split
  next tail heq =>
    -- A digit is no sign.
    obtain ⟨c, digits, hdigits, hc⟩ := exists_digit n
    rw [hdigits, List.cons_append] at heq
    obtain ⟨rfl, -⟩ := List.cons.inj heq
    exact absurd hc (by decide)
  next => exact unsigned_toDigits false hn hr

theorem read?_minus {n : Nat} (hpos : 0 < n) (hn : n ≤ 1 <<< 63) {rest : List Char} (hr : Closes rest) :
    read? ('-' :: (Nat.toDigits 10 n ++ rest)) = some (.negative (Int64.ofInt (-(n : Int))), rest) := by
  have hsize : n < UInt64.size := lt_of_le_of_lt hn (by decide)
  have hfits : ¬(n = 0 ∨ 1 <<< 63 < n) := by omega
  rw [read?, unsigned_toDigits true hsize hr, Parts.toInteger, Bool.not_true, if_neg Bool.false_ne_true,
    if_neg hfits]

end Numeral

/-- A number that is an integer in the one form it is read in. -/
def Number.IsInteger : Number → Prop
  | .natural _ => True
  | .negative n => n.toInt < 0
  | .double _ => False

theorem Number.toList_render_natural (n : UInt64) : (Number.natural n).render.toList = Nat.toDigits 10 n.toNat := by
  rw [Number.render, Nat.toString_eq_ofList_toDigits, String.toList_ofList]

theorem Number.toList_render_negative {n : Int64} (h : n.toInt < 0) :
    (Number.negative n).render.toList = '-' :: Nat.toDigits 10 n.toInt.natAbs := by
  obtain ⟨k, hk⟩ := Int.eq_negSucc_of_lt_zero h
  have htext : toString (Int.negSucc k) = "-" ++ toString (k + 1) := rfl
  rw [Number.render, hk, htext, String.toList_append, Nat.toString_eq_ofList_toDigits, String.toList_ofList]
  simp

theorem Number.read?_render {n : Number} (h : n.IsInteger) {rest : List Char} (hr : Closes rest) :
    Numeral.read? (n.render.toList ++ rest) = some (n, rest) := by
  cases n with
  | natural n =>
    rw [toList_render_natural, Numeral.read?_toDigits n.toNat_lt hr, UInt64.ofNat_toNat]
  | negative n =>
    have hneg : n.toInt < 0 := h
    have hlow := n.le_toInt
    have hmagnitude : n.toInt.natAbs ≤ 1 <<< 63 := by
      rw [Nat.one_shiftLeft]
      omega
    have hback : -(n.toInt.natAbs : Int) = n.toInt := by omega
    rw [toList_render_negative hneg, List.cons_append, Numeral.read?_minus (by omega) hmagnitude hr, hback,
      Int64.ofInt_toInt]
  | double x => exact h.elim

/-- What a numeral may start with. -/
def StartsNumber (c : Char) : Prop := c = '-' ∨ c.isDigit

theorem StartsNumber.ne {c d : Char} (h : StartsNumber c) (hminus : d ≠ '-') (hd : d.isDigit = false) : c ≠ d := by
  rintro rfl
  rcases h with rfl | hc
  · exact hminus rfl
  · simp [hd] at hc

theorem StartsNumber.isBlank {c : Char} (h : StartsNumber c) : isBlank c = false := by
  simp only [Json.isBlank, Bool.or_eq_false_iff, decide_eq_false_iff_not]
  exact ⟨⟨⟨h.ne (by decide) rfl, h.ne (by decide) rfl⟩, h.ne (by decide) rfl⟩, h.ne (by decide) rfl⟩

theorem Number.exists_render {n : Number} (h : n.IsInteger) :
    ∃ c text, n.render.toList = c :: text ∧ StartsNumber c := by
  cases n with
  | natural n =>
    obtain ⟨c, digits, hdigits, hc⟩ := Numeral.exists_digit n.toNat
    exact ⟨c, digits, (toList_render_natural n).trans hdigits, .inr hc⟩
  | negative n => exact ⟨_, _, toList_render_negative h, .inl rfl⟩
  | double x => exact h.elim

/-! ## Values -/

/-- A value that comes back when it is written and read where `depth` containers may be opened: its integers have
the form they are read in, and its members are in the order of their keys. -/
inductive Printable : Nat → Value → Prop
  | null (depth : Nat) : Printable depth .null
  | bool (depth : Nat) (b : Bool) : Printable depth (.bool b)
  | number (depth : Nat) {n : Number} (h : n.IsInteger) : Printable depth (.number n)
  | string (depth : Nat) (s : String) : Printable depth (.string s)
  | array {depth : Nat} {items : List Value} (h : ∀ v ∈ items, Printable depth v) :
    Printable (depth + 1) (.array items)
  | object {depth : Nat} {members : List (String × Value)} (ho : Keyed.Sorted members)
    (h : ∀ m ∈ members, Printable depth m.2) : Printable (depth + 1) (.object members)

/-- The reader takes the value off a text that starts with it as it is written. -/
def ReadsBack (item : Reader Value) (v : Value) : Prop :=
  ∀ ⦃rest⦄, Closes rest → item (v.render.toList ++ rest) = some (v, rest)

theorem skipBlanks_cons {c : Char} (h : isBlank c = false) (text : List Char) :
    skipBlanks (c :: text) = c :: text := by
  rw [skipBlanks, List.dropWhile_cons_of_neg (by simp [h])]

/-- What is written item by item behind the first one. -/
def tailText {α : Type} (text : α → List Char) (others : List α) : List Char :=
  others.flatMap fun a => ',' :: text a

theorem length_le_tailText {α : Type} (text : α → List Char) (others : List α) :
    others.length ≤ (tailText text others).length := by
  induction others with
  | nil => exact Nat.le_refl _
  | cons a others ih =>
    simp only [tailText, List.flatMap_cons, List.length_append, List.length_cons] at ih ⊢
    omega

theorem toList_renderItems (v : Value) (vs : List Value) :
    (renderItems (v :: vs)).toList = v.render.toList ++ tailText (·.render.toList) vs := by
  induction vs generalizing v with
  | nil => simp [renderItems, tailText]
  | cons w vs ih =>
    rw [renderItems, String.toList_append, String.toList_append, ih w]
    simp [tailText]

def memberText (m : String × Value) : List Char := (quoted m.1).toList ++ ':' :: m.2.render.toList

theorem toList_renderMembers (m : String × Value) (ms : List (String × Value)) :
    (renderMembers (m :: ms)).toList = memberText m ++ tailText memberText ms := by
  induction ms generalizing m with
  | nil => simp [renderMembers, memberText, tailText]
  | cons n ms ih =>
    rw [renderMembers, String.toList_append, ih n]
    simp [memberText, tailText]

/-- No text starts with a blank or with the end of what holds it. -/
theorem Printable.exists_render {depth : Nat} {v : Value} (h : Printable depth v) :
    ∃ c text, v.render.toList = c :: text ∧ isBlank c = false ∧ c ≠ ']' := by
  cases h with
  | null => exact ⟨_, _, rfl, by decide, by decide⟩
  | bool _ b => cases b <;> exact ⟨_, _, rfl, by decide, by decide⟩
  | number _ hn =>
    obtain ⟨c, text, htext, hc⟩ := Number.exists_render hn
    exact ⟨c, text, htext, hc.isBlank, hc.ne (by decide) rfl⟩
  | string _ s =>
    rw [Value.render, toList_quoted]
    exact ⟨_, _, rfl, by decide, by decide⟩
  | array h =>
    rw [Value.render, String.toList_append, String.toList_append]
    exact ⟨_, _, rfl, by decide, by decide⟩
  | object ho h =>
    rw [Value.render, String.toList_append, String.toList_append]
    exact ⟨_, _, rfl, by decide, by decide⟩

section

variable {item : Reader Value}

theorem closes_tailText {α : Type} (text : α → List Char) (others : List α) {c : Char} (hc : c = ']' ∨ c = '\x7d')
    (rest : List Char) : Closes (tailText text others ++ c :: rest) := by
  cases others with
  | nil => simp [tailText, Closes, hc]
  | cons a others => simp [tailText, Closes]

theorem itemsTail_render {vs : List Value} (h : ∀ v ∈ vs, ReadsBack item v) {fuel : Nat}
    (hf : vs.length ≤ fuel) (rest : List Char) :
    itemsTail item fuel (tailText (·.render.toList) vs ++ ']' :: rest) = some (vs, rest) := by
  induction vs generalizing fuel with
  | nil =>
    rw [itemsTail.eq_def]
    rfl
  | cons v vs ih =>
    obtain ⟨fuel, rfl⟩ : ∃ more, fuel = more + 1 := ⟨fuel - 1, by simp only [List.length_cons] at hf; omega⟩
    have hv := h v List.mem_cons_self (closes_tailText (·.render.toList) vs (.inl rfl) rest)
    have hvs := ih (fun w hw => h w (List.mem_cons_of_mem _ hw)) (Nat.le_of_succ_le_succ hf)
    rw [tailText, List.flatMap_cons, List.cons_append, List.cons_append, List.append_assoc,
      itemsTail.eq_def, skipBlanks_cons (by decide)]
    simp only [tailText] at hv hvs
    simp only [hv, hvs, Option.bind_eq_bind, Option.bind_some]
    rfl

theorem items_render {depth : Nat} {vs : List Value} (hp : ∀ v ∈ vs, Printable depth v)
    (h : ∀ v ∈ vs, ReadsBack item v) (rest : List Char) :
    items item ((renderItems vs).toList ++ ']' :: rest) = some (vs, rest) := by
  cases vs with
  | nil => rfl
  | cons v vs =>
    obtain ⟨c, text, htext, hblank, hend⟩ := (hp v List.mem_cons_self).exists_render
    have hv := h v List.mem_cons_self (closes_tailText (·.render.toList) vs (.inl rfl) rest)
    have hfuel : vs.length ≤ (tailText (·.render.toList) vs ++ ']' :: rest).length := by
      have hlength := length_le_tailText (·.render.toList) vs
      simp only [List.length_append]
      omega
    have hvs := itemsTail_render (fun w hw => h w (List.mem_cons_of_mem _ hw)) hfuel rest
    rw [toList_renderItems, List.append_assoc]
    have hskip := skipBlanks_cons hblank (text ++ (tailText (·.render.toList) vs ++ ']' :: rest))
    rw [← List.cons_append, ← htext] at hskip
    unfold items
    rw [hskip]
    split
    next heq =>
      rw [htext] at heq
      exact absurd (List.cons.inj heq).1 hend
    next =>
      simp only [hv, hvs, Option.bind_eq_bind, Option.bind_some]
      rfl

theorem entry_render {m : String × Value} (h : ReadsBack item m.2) {rest : List Char} (hr : Closes rest) :
    entry item (memberText m ++ rest) = some (m, rest) := by
  obtain ⟨k, v⟩ := m
  have hv := h hr
  rw [memberText, toList_quoted]
  simp only [List.cons_append, List.append_assoc]
  rw [entry, skipBlanks_cons (by decide)]
  simp only [stringBody_quoted, Option.bind_eq_bind, Option.bind_some, skipBlanks_cons (c := ':') (by decide),
    List.nil_append, hv]
  simp

theorem entriesTail_render {ms : List (String × Value)} (h : ∀ m ∈ ms, ReadsBack item m.2) {fuel : Nat}
    (hf : ms.length ≤ fuel) (rest : List Char) :
    entriesTail item fuel (tailText memberText ms ++ '\x7d' :: rest) = some (ms, rest) := by
  induction ms generalizing fuel with
  | nil =>
    rw [entriesTail.eq_def]
    rfl
  | cons m ms ih =>
    obtain ⟨fuel, rfl⟩ : ∃ more, fuel = more + 1 := ⟨fuel - 1, by simp only [List.length_cons] at hf; omega⟩
    have hm := entry_render (h m List.mem_cons_self) (closes_tailText memberText ms (.inr rfl) rest)
    have hms := ih (fun n hn => h n (List.mem_cons_of_mem _ hn)) (Nat.le_of_succ_le_succ hf)
    rw [tailText, List.flatMap_cons, List.cons_append, List.cons_append, List.append_assoc,
      entriesTail.eq_def, skipBlanks_cons (by decide)]
    simp only [tailText] at hm hms
    simp only [hm, hms, Option.bind_eq_bind, Option.bind_some]
    rfl

theorem entries_render {ms : List (String × Value)} (h : ∀ m ∈ ms, ReadsBack item m.2) (rest : List Char) :
    entries item ((renderMembers ms).toList ++ '\x7d' :: rest) = some (ms, rest) := by
  cases ms with
  | nil => rfl
  | cons m ms =>
    have hm := entry_render (h m List.mem_cons_self) (closes_tailText memberText ms (.inr rfl) rest)
    have hfuel : ms.length ≤ (tailText memberText ms ++ '\x7d' :: rest).length := by
      have hlength := length_le_tailText memberText ms
      simp only [List.length_append]
      omega
    have hms := entriesTail_render (fun n hn => h n (List.mem_cons_of_mem _ hn)) hfuel rest
    rw [toList_renderMembers, List.append_assoc]
    have hskip : skipBlanks (memberText m ++ (tailText memberText ms ++ '\x7d' :: rest)) =
        memberText m ++ (tailText memberText ms ++ '\x7d' :: rest) := by
      rw [memberText, toList_quoted]
      exact skipBlanks_cons (by decide) _
    unfold entries
    rw [hskip]
    split
    next heq =>
      rw [memberText, toList_quoted] at heq
      exact absurd (List.cons.inj heq).1 (by decide)
    next =>
      simp only [hm, hms, Option.bind_eq_bind, Option.bind_some]
      rfl

end

theorem value_scalar {depth : Nat} {c : Char} (hblank : isBlank c = false) (harray : c ≠ '[') (hobject : c ≠ '\x7b')
    (text : List Char) : value depth (c :: text) = scalar (c :: text) := by
  unfold value
  rw [skipBlanks_cons hblank]
  split
  next heq => exact absurd (List.cons.inj heq).1 harray
  next heq => exact absurd (List.cons.inj heq).1 hobject
  next heq => exact absurd (List.cons.inj heq).1 harray
  next heq => exact absurd (List.cons.inj heq).1 hobject
  next => rfl

theorem scalar_number {c : Char} (h : StartsNumber c) (text : List Char) :
    scalar (c :: text) = (Numeral.read? (c :: text)).map fun (n, rest) => (.number n, rest) := by
  unfold scalar
  split
  next heq => exact absurd (List.cons.inj heq).1 (h.ne (by decide) rfl)
  next heq => exact absurd (List.cons.inj heq).1 (h.ne (by decide) rfl)
  next heq => exact absurd (List.cons.inj heq).1 (h.ne (by decide) rfl)
  next heq => exact absurd (List.cons.inj heq).1 (h.ne (by decide) rfl)
  next => rfl

theorem value_array (depth : Nat) (text : List Char) :
    value (depth + 1) ('[' :: text) = (items (value depth) text).map fun (vs, rest) => (.array vs, rest) := by
  rw [value.eq_def, skipBlanks_cons (by decide)]
  rfl

theorem value_object (depth : Nat) (text : List Char) :
    value (depth + 1) ('\x7b' :: text) =
      (entries (value depth) text).map fun (ms, rest) => (.object (Keyed.ofList ms), rest) := by
  rw [value.eq_def, skipBlanks_cons (by decide)]
  rfl

theorem value_render {depth : Nat} {v : Value} (h : Printable depth v) : ReadsBack (value depth) v := by
  induction h with
  | null depth =>
    intro rest hr
    exact value_scalar (by decide) (by decide) (by decide) _
  | bool depth b =>
    intro rest hr
    cases b with
    | true => exact value_scalar (by decide) (by decide) (by decide) _
    | false => exact value_scalar (by decide) (by decide) (by decide) _
  | number depth hn =>
    intro rest hr
    obtain ⟨c, text, htext, hc⟩ := Number.exists_render hn
    have hread := Number.read?_render hn hr
    rw [htext, List.cons_append] at hread
    rw [Value.render, htext, List.cons_append,
      value_scalar hc.isBlank (hc.ne (by decide) rfl) (hc.ne (by decide) rfl), scalar_number hc, hread,
      Option.map_some]
  | string depth s =>
    intro rest hr
    rw [Value.render, toList_quoted, List.cons_append, List.append_assoc, List.singleton_append,
      value_scalar (by decide) (by decide) (by decide)]
    simp only [scalar, stringBody_quoted, Option.map_some, String.ofList_toList]
  | array h ih =>
    intro rest hr
    have htext : ("[" : String).toList = ['['] := rfl
    have hend : ("]" : String).toList = [']'] := rfl
    rw [Value.render, String.toList_append, String.toList_append, htext, hend, List.append_assoc, List.append_assoc,
      List.singleton_append, List.singleton_append, value_array, items_render h ih, Option.map_some]
  | object ho h ih =>
    intro rest hr
    have htext : ("\x7b" : String).toList = ['\x7b'] := rfl
    have hend : ("\x7d" : String).toList = ['\x7d'] := rfl
    rw [Value.render, String.toList_append, String.toList_append, htext, hend, List.append_assoc, List.append_assoc,
      List.singleton_append, List.singleton_append, value_object, entries_render ih, Option.map_some]
    simp only [Keyed.ofList_of_sorted ho]

/-- A text that was written is read as what it was written from. -/
theorem parse?_render {v : Value} (h : Printable depthLimit v) : parse? v.render = some v := by
  have hread : value depthLimit (v.render.toList ++ []) = some (v, []) := value_render h (by simp [Closes])
  rw [List.append_nil] at hread
  rw [parse?, parseWithin?, hread]
  rfl

end PluginRelay.Json
