import Mathlib.Data.List.Forall2
import Mathlib.Data.List.Induction
import PluginRelay.Command.Arguments

/-!
# Command lines of `invoke`

Positional words and options with their values attached may stand in any order, as long as the path comes before the
endpoint. A positional word is taken for good only when the next argument begins, but no line is read differently for
that: it is as if every word were taken at once. So what counts is how often each argument occurs, and with what text.
-/
namespace PluginRelay.Command

/-! ### Numerals -/

/-- The text is a decimal numeral of the number, perhaps behind a plus sign. -/
def Writes (text : String) (n : Nat) : Prop :=
  ∃ digits : List Char, digits ≠ [] ∧ (∀ c ∈ digits, c.isDigit) ∧
    (text.toList = digits ∨ text.toList = '+' :: digits) ∧ Nat.ofDigitChars 10 digits 0 = n

theorem writes_toString (n : Nat) : Writes (toString n) n := by
  refine ⟨Nat.toDigits 10 n, Nat.toDigits_ne_nil, fun c hc => ?_, .inl ?_, Nat.ofDigitChars_ten_toDigits⟩
  · exact Nat.isDigit_of_mem_toDigits (by decide) (by decide) hc
  · rw [Nat.toString_eq_ofList_toDigits, String.toList_ofList]

/-- The characters of a numeral behind its sign. -/
def unsignedPart (text : String) : List Char :=
  match text.toList with
  | '+' :: rest => rest
  | chars => chars

theorem unsignedPart_of_digits {text : String} {digits : List Char} (hdigits : ∀ c ∈ digits, c.isDigit)
    (h : text.toList = digits ∨ text.toList = '+' :: digits) : unsignedPart text = digits := by
  unfold unsignedPart
  obtain h | h := h
  · rw [h]
    split
    · exact absurd (hdigits '+' List.mem_cons_self) (by decide)
    · rfl
  · simp only [h]

theorem unsignedPart_cases (text : String) :
    text.toList = unsignedPart text ∨ text.toList = '+' :: unsignedPart text := by
  unfold unsignedPart
  split
  · next rest h => exact .inr h
  · exact .inl rfl

theorem any_not_digit (digits : List Char) :
    (digits.any fun c => c < '0' ∨ '9' < c) = !digits.all Char.isDigit := by
  have hdigit (c : Char) : decide (c < '0' ∨ '9' < c) = !c.isDigit := by
    rw [Bool.eq_iff_iff, Bool.not_eq_true', decide_eq_true_eq, ← Bool.not_eq_true]
    simp only [Char.isDigit, Bool.and_eq_true, decide_eq_true_eq, not_and_or, ge_iff_le, UInt32.not_le]
    rfl
  rw [List.not_all_eq_any_not]
  simp only [hdigit]

theorem number?_eq (text : String) :
    number? text =
      if ((unsignedPart text).isEmpty || !(unsignedPart text).all Char.isDigit) = true then none
      else if Nat.ofDigitChars 10 (unsignedPart text) 0 < UInt64.size then
        some (Nat.ofDigitChars 10 (unsignedPart text) 0)
      else none := by
  have hvalue : (unsignedPart text).foldl (fun n c => n * 10 + (c.toNat - 48)) 0 =
      Nat.ofDigitChars 10 (unsignedPart text) 0 := by
    rw [Nat.ofDigitChars_eq_foldl]
    simp only [Nat.mul_comm]
    rfl
  change (if (unsignedPart text).isEmpty ∨ ((unsignedPart text).any fun c => c < '0' ∨ '9' < c) = true then none
    else if (unsignedPart text).foldl (fun n c => n * 10 + (c.toNat - 48)) 0 < UInt64.size then
      some ((unsignedPart text).foldl (fun n c => n * 10 + (c.toNat - 48)) 0) else none) = _
  rw [hvalue, any_not_digit]
  simp only [Bool.or_eq_true]

/-- What is read as a number is written as one. -/
theorem number?_eq_some_iff {text : String} {n : Nat} :
    number? text = some n ↔ Writes text n ∧ n < UInt64.size := by
  rw [number?_eq]
  constructor
  · intro h
    split at h
    · nomatch h
    · next hnumeral =>
      rw [Bool.or_eq_true, not_or, List.isEmpty_iff, Bool.not_eq_true', Bool.not_eq_false, List.all_eq_true] at hnumeral
      obtain ⟨hne, hdigits⟩ := hnumeral
      split at h
      · next hlt =>
        obtain rfl := Option.some.inj h
        exact ⟨⟨_, hne, hdigits, unsignedPart_cases text, rfl⟩, hlt⟩
      · nomatch h
  · rintro ⟨⟨digits, hne, hdigits, htext, rfl⟩, hlt⟩
    have hall : digits.all Char.isDigit = true := List.all_eq_true.mpr hdigits
    rw [unsignedPart_of_digits hdigits htext, hall, if_neg (by simpa using hne), if_pos hlt]

/-! ### Words -/

/-- The options of `invoke` that take a value. -/
inductive Valued where
  | payload | export_ | fuel
  deriving DecidableEq, Repr

namespace Valued

def name : Valued → String
  | payload => "payload"
  | export_ => "export"
  | fuel => "fuel"

def kind : Valued → ValueKind
  | fuel => .number
  | _ => .text

theorem name_injective {o o' : Valued} (h : o.name = o'.name) : o = o' := by
  cases o <;> cases o' <;> first | rfl | exact absurd h (by decide)

end Valued

/-- The flag of `invoke`. -/
def forgetName : String := "fire-and-forget"

/-- A word behind `invoke`: a positional one, an option with its value attached, or the flag. -/
inductive Part where
  | plain (text : String)
  | valued (o : Valued) (text : String)
  | forget
  deriving DecidableEq, Repr

def Part.word : Part → String
  | plain text => text
  | valued o text => "--" ++ o.name ++ "=" ++ text
  | forget => "--" ++ forgetName

/-- The positional words of a line. -/
def plains (line : List Part) : List String :=
  line.filterMap fun
    | .plain text => some text
    | _ => none

/-- The texts that a line gives to an option. -/
def texts (o : Valued) (line : List Part) : List String :=
  line.filterMap fun
    | .valued o' text => if o' = o then some text else none
    | _ => none

/-- How often the flag stands in a line. -/
def forgets (line : List Part) : Nat := line.count .forget

/-- No positional word looks like an option: it starts with no hyphen, or is nothing but one. -/
def Legible (line : List Part) : Prop := ∀ text ∈ plains line, text.toList.head? = some '-' → text = "-"

theorem Legible.behind {part : Part} {rest : List Part} (h : Legible (part :: rest)) : Legible rest := by
  intro text htext
  obtain ⟨p, hp, hsome⟩ := List.mem_filterMap.mp htext
  exact h text (List.mem_filterMap.mpr ⟨p, List.mem_cons_of_mem _ hp, hsome⟩)

theorem splitEquals_append {front : List Char} (h : '=' ∉ front) (rest : List Char) :
    splitEquals (front ++ '=' :: rest) = (front, some rest) := by
  induction front with
  | nil => rfl
  | cons c front ih =>
    obtain ⟨hc, hfront⟩ := not_or.mp (mt List.mem_cons.mpr h)
    have hsplit : splitEquals (c :: (front ++ '=' :: rest)) =
        (c :: (splitEquals (front ++ '=' :: rest)).1, (splitEquals (front ++ '=' :: rest)).2) := by
      rw [splitEquals.eq_3]
      exact fun h => hc h.symm
    rw [List.cons_append, hsplit, ih hfront]

theorem ofText_valued (o : Valued) (text : String) :
    Word.ofText (Part.valued o text).word = .long o.name (some text) := by
  have hchars : (Part.valued o text).word.toList = '-' :: '-' :: (o.name.toList ++ '=' :: text.toList) := by
    simp only [Part.word, String.toList_append, List.append_assoc]
    rfl
  have hname : '=' ∉ o.name.toList := by cases o <;> decide
  have hsplit := splitEquals_append hname text.toList
  obtain ⟨c, rest, hrest⟩ : ∃ c rest, o.name.toList ++ '=' :: text.toList = c :: rest :=
    List.exists_cons_of_ne_nil (by simp)
  have hlong : Word.ofText (Part.valued o text).word =
      .long (String.ofList (splitEquals (c :: rest)).1) ((splitEquals (c :: rest)).2.map String.ofList) := by
    unfold Word.ofText
    rw [hchars, hrest]
    rfl
  rw [hlong, ← hrest, hsplit]
  simp only [Option.map_some, String.ofList_toList]

theorem ofText_plain {text : String} (h : text.toList.head? = some '-' → text = "-") :
    Word.ofText text = .plain ∨ Word.ofText text = .cluster [] := by
  by_cases hhyphen : text.toList.head? = some '-'
  · rw [h hhyphen]
    exact .inr (by decide)
  · refine .inl ?_
    unfold Word.ofText
    split
    · next heq => simp [heq] at hhyphen
    · next heq => simp [heq] at hhyphen
    · next heq => simp [heq] at hhyphen
    · rfl

/-! ### Reading word by word -/

/-- A result is there exactly if another one is, and a refusal makes the program fail. -/
inductive Refines {α : Type} : Except Complaint α → Option α → Prop
  | ok (x : α) : Refines (.ok x) (some x)
  | refused {c : Complaint} (h : c.refusal.exitCode = 2) : Refines (.error c) none

namespace Refines

variable {α β : Type} {r : Except Complaint α} {x : Option α}

theorem bind {f : α → Except Complaint β} {g : α → Option β} (h : Refines r x)
    (hf : ∀ a, x = some a → Refines (f a) (g a)) : Refines (r >>= f) (x.bind g) := by
  cases h with
  | ok a => exact hf a rfl
  | refused hc => exact .refused hc

theorem map (h : Refines r x) (f : α → β) : Refines (r.map f) (x.map f) := by
  cases h with
  | ok a => exact .ok _
  | refused hc => exact .refused hc

theorem eq_some {a : α} (h : Refines (.ok a) x) : x = some a := by
  cases h
  rfl

end Refines

/-- Whether a text is a good value. -/
def ValueKind.accepts (kind : ValueKind) (text : String) : Bool :=
  match kind with
  | .text => true
  | .path => text ≠ ""
  | .number => (number? text).isSome

theorem ValueKind.check_refines (kind : ValueKind) (text : String) :
    Refines (kind.check text) (if kind.accepts text then some () else none) := by
  cases kind with
  | text => exact .ok ()
  | path =>
    by_cases hempty : text = ""
    · simp only [check, accepts, hempty]
      exact .refused rfl
    · simp only [check, accepts, hempty, String.isEmpty_iff, ne_eq, not_false_eq_true, decide_true, if_true, if_false]
      exact .ok ()
  | number =>
    cases hnumber : number? text with
    | none =>
      simp only [check, accepts, hnumber]
      exact .refused rfl
    | some n =>
      simp only [check, accepts, hnumber]
      exact .ok ()

namespace State

/-- Gives an argument a value. -/
def give (s : State) (name text : String) : State := { s with values := s.values ++ [(name, text)] }

@[simp] theorem give_flags (s : State) (name text : String) : (s.give name text).flags = s.flags := rfl
@[simp] theorem give_position (s : State) (name text : String) : (s.give name text).position = s.position := rfl

@[simp]
theorem value?_give (s : State) (name text other : String) :
    (s.give name text).value? other = (s.value? other).or (if other = name then some text else none) := by
  have hlast : List.lookup other [(name, text)] = if other = name then some text else none := by
    by_cases h : other = name
    · simp [h]
    · rw [if_neg h, List.lookup_eq_none_iff]
      simpa using h
  rw [← hlast]
  exact List.lookup_append

/-- Gives an argument its value, if it has none yet and the value is good. -/
def put (s : State) (name : String) (kind : ValueKind) (text : String) : Option State :=
  if (s.value? name).isSome || !kind.accepts text then none else some (s.give name text)

theorem commit_refines (s : State) (name : String) (kind : ValueKind) (text : String) :
    Refines (s.commit name kind text) (s.put name kind text) := by
  have hcheck := (kind.check_refines text).map fun () => s.give name text
  unfold give at hcheck
  unfold commit put give
  cases (s.value? name).isSome with
  | true => exact .refused rfl
  | false =>
    cases haccepts : kind.accepts text with
    | true => simpa [haccepts] using hcheck
    | false => simpa [haccepts] using hcheck

/-- The state once the value that is pending is taken. -/
def settled? (s : State) : Option State :=
  match s.pending with
  | none => some s
  | some ⟨_, _, none⟩ => none
  | some ⟨name, kind, some text⟩ => { s with pending := none }.put name kind text

theorem settle_refines (s : State) : Refines s.settle s.settled? := by
  unfold settle settled?
  rcases s.pending with _ | ⟨name, kind, _ | text⟩
  · exact .ok s
  · exact .refused rfl
  · exact commit_refines _ name kind text

/-- Takes a word at once. -/
def accept (s : State) : Part → Option State
  | .plain text =>
    match Arguments.invokeLevel.positionals[s.position]? with
    | some p => { s with position := s.position + 1 }.put p.name p.kind text
    | none => none
  | .valued o text => s.put o.name o.kind text
  | .forget => if s.flags.contains forgetName then none else some { s with flags := s.flags ++ [forgetName] }

theorem accept_plain (s : State) (text : String) :
    s.accept (.plain text) = match Arguments.invokeLevel.positionals[s.position]? with
      | some p => { s with position := s.position + 1 }.put p.name p.kind text
      | none => none := rfl

theorem accept_valued (s : State) (o : Valued) (text : String) :
    s.accept (.valued o text) = s.put o.name o.kind text := rfl

theorem accept_forget (s : State) :
    s.accept .forget =
      if s.flags.contains forgetName then none else some { s with flags := s.flags ++ [forgetName] } := rfl

/-- No value is pending, and no separator has been read. -/
structure Idle (s : State) : Prop where
  pending : s.pending = none
  trailing : s.trailing = false

variable {s s' : State} {name text : String} {kind : ValueKind}

theorem put_eq_some :
    s.put name kind text = some s' ↔ s.value? name = none ∧ kind.accepts text = true ∧ s' = s.give name text := by
  unfold put
  cases s.value? name with
  | some old => simp
  | none => cases kind.accepts text <;> simp [eq_comm]

theorem put_eq_none : s.put name kind text = none ↔ s.value? name ≠ none ∨ kind.accepts text = false := by
  unfold put
  cases s.value? name with
  | some old => simp
  | none => cases kind.accepts text <;> simp

theorem Idle.put (hs : s.Idle) (h : s.put name kind text = some s') : s'.Idle := by
  obtain ⟨-, -, rfl⟩ := put_eq_some.mp h
  exact ⟨hs.pending, hs.trailing⟩

theorem Idle.settled?_eq (hs : s.Idle) : s.settled? = some s := by rw [settled?, hs.pending]

/-- A value that is taken late changes nothing but the values. -/
theorem settled?_eq_some (htrailing : s.trailing = false) (h : s.settled? = some s') :
    s'.Idle ∧ s'.position = s.position := by
  unfold settled? at h
  split at h
  · next hpending =>
    obtain rfl := Option.some.inj h
    exact ⟨⟨hpending, htrailing⟩, rfl⟩
  · nomatch h
  · next name kind text _ =>
    obtain ⟨-, -, rfl⟩ := put_eq_some.mp h
    exact ⟨⟨rfl, htrailing⟩, rfl⟩

end State

open Arguments (invokeLevel)

variable {s : State}

theorem step_valued (htrailing : s.trailing = false) (o : Valued) (text : String) :
    invokeLevel.step s (Part.valued o text).word = s.settle >>= fun s => s.commit o.name o.kind text := by
  unfold Level.step
  rw [htrailing, ofText_valued]
  cases o <;> rfl

theorem step_forget (htrailing : s.trailing = false) :
    invokeLevel.step s Part.forget.word = s.settle >>= fun s =>
      if s.flags.contains forgetName then .error Refusal.argumentConflict.plain
      else .ok { s with flags := s.flags ++ [forgetName] } := by
  have hword : Word.ofText Part.forget.word = .long forgetName none := by decide
  unfold Level.step
  rw [htrailing, hword]
  rfl

theorem step_plain (htrailing : s.trailing = false) (hawaiting : s.awaiting = false) {text : String}
    (htext : text.toList.head? = some '-' → text = "-") :
    invokeLevel.step s (Part.plain text).word = invokeLevel.positional s text := by
  have hbare : invokeLevel.bare s text = invokeLevel.positional s text := by
    unfold Level.bare
    unfold State.awaiting at hawaiting
    split
    · next hpending => simp [hpending] at hawaiting
    · rfl
  change invokeLevel.step s text = _
  unfold Level.step
  obtain hword | hword := ofText_plain htext <;> rw [htrailing, hword] <;> exact hbare

theorem State.Idle.accept {s' : State} {part : Part} (hs : s.Idle) (h : s.accept part = some s') : s'.Idle := by
  cases part with
  | plain text =>
    rw [State.accept_plain] at h
    split at h
    · exact State.Idle.put (s := { s with position := s.position + 1 }) ⟨hs.pending, hs.trailing⟩ h
    · nomatch h
  | valued o text => exact hs.put h
  | forget =>
    rw [State.accept_forget] at h
    split at h
    · nomatch h
    · obtain rfl := Option.some.inj h
      exact ⟨hs.pending, hs.trailing⟩

/-- An option is taken at once, after the value that is pending. -/
theorem step_option_refines {part : Part} (hpart : ∀ text, part ≠ .plain text) (htrailing : s.trailing = false) :
    Refines (invokeLevel.step s part.word) (s.settled?.bind (·.accept part)) := by
  cases part with
  | plain text => exact absurd rfl (hpart text)
  | valued o text =>
    rw [step_valued htrailing]
    exact s.settle_refines.bind fun s _ => s.commit_refines _ _ _
  | forget =>
    rw [step_forget htrailing]
    refine s.settle_refines.bind fun s _ => ?_
    rw [State.accept_forget]
    split
    · exact .refused rfl
    · exact .ok _

/-- A positional word is pending after its turn. -/
theorem positional_refines (htrailing : s.trailing = false) (text : String) :
    ∃ x, Refines (invokeLevel.positional s text) x ∧
      (∀ s', x = some s' → s'.trailing = false ∧ s'.awaiting = false) ∧
      x.bind State.settled? = s.settled?.bind (·.accept (.plain text)) := by
  unfold Level.positional
  cases hplace : invokeLevel.positionals[s.position]? with
  | none =>
    refine ⟨none, ?_, nofun, ?_⟩
    · rw [htrailing]
      exact .refused rfl
    · cases hsettled : s.settled? with
      | none => rfl
      | some s₁ =>
        obtain ⟨-, hposition⟩ := State.settled?_eq_some htrailing hsettled
        rw [Option.bind_none, Option.bind_some, State.accept_plain, hposition, hplace]
  | some p =>
    refine ⟨s.settled?.bind fun s =>
      some { s with pending := some ⟨p.name, p.kind, some text⟩, position := s.position + 1 }, ?_, ?_, ?_⟩
    · exact s.settle_refines.bind fun s _ => .ok _
    · intro s' hs'
      obtain ⟨s₁, hsettled, heq⟩ := Option.bind_eq_some_iff.mp hs'
      obtain ⟨hidle, -⟩ := State.settled?_eq_some htrailing hsettled
      obtain rfl := Option.some.inj heq
      exact ⟨hidle.trailing, rfl⟩
    · cases hsettled : s.settled? with
      | none => rfl
      | some s₁ =>
        obtain ⟨hidle, hposition⟩ := State.settled?_eq_some htrailing hsettled
        rw [Option.bind_some, Option.bind_some, Option.bind_some, State.accept_plain, hposition, hplace]
        simp only [State.settled?, hidle.pending]

/-- Behind an option nothing is pending. -/
theorem read_behind_option {part : Part} {rest : List Part} (hpart : ∀ text, part ≠ .plain text)
    (htrailing : s.trailing = false)
    (hrest : ∀ s : State, s.Idle → Refines (invokeLevel.read s (rest.map Part.word))
      ((rest.foldlM State.accept s).map (·, none))) :
    Refines (invokeLevel.step s part.word >>= fun s => invokeLevel.read s (rest.map Part.word))
      (((s.settled?.bind (·.accept part)).bind fun s => rest.foldlM State.accept s).map (·, none)) := by
  rw [Option.map_bind]
  refine (step_option_refines hpart htrailing).bind fun s' hs' => ?_
  obtain ⟨s₁, hsettled, haccept⟩ := Option.bind_eq_some_iff.mp hs'
  obtain ⟨hidle, -⟩ := State.settled?_eq_some htrailing hsettled
  exact hrest s' (hidle.accept haccept)

/-- Words are read as if each was taken at once. -/
theorem read_refines {line : List Part} (hline : Legible line) (htrailing : s.trailing = false)
    (hawaiting : s.awaiting = false) :
    Refines (invokeLevel.read s (line.map Part.word))
      ((s.settled?.bind fun s => line.foldlM State.accept s).map (·, none)) := by
  induction line generalizing s with
  | nil =>
    have hsettle := s.settle_refines.map fun s => (s, (none : Option (String × List String)))
    simpa [Level.read] using hsettle
  | cons part rest ih =>
    have hrest : Legible rest := hline.behind
    have hread : invokeLevel.read s ((part :: rest).map Part.word) =
        invokeLevel.step s part.word >>= fun s => invokeLevel.read s (rest.map Part.word) := by
      rw [List.map_cons, Level.read, if_neg (by simp [Arguments.invokeLevel])]
    have hfold : (s.settled?.bind fun s => (part :: rest).foldlM State.accept s) =
        (s.settled?.bind (·.accept part)).bind fun s => rest.foldlM State.accept s := by
      rw [Option.bind_assoc]
      rfl
    have hbehind (s : State) (hs : s.Idle) : Refines (invokeLevel.read s (rest.map Part.word))
        ((rest.foldlM State.accept s).map (·, none)) := by
      have hread := ih hrest hs.trailing (by rw [State.awaiting, hs.pending])
      rwa [hs.settled?_eq, Option.bind_some] at hread
    rw [hread, hfold]
    cases part with
    | plain text =>
      rw [step_plain htrailing hawaiting (hline text List.mem_cons_self)]
      obtain ⟨x, hrefines, hready, hsettled⟩ := positional_refines htrailing text
      rw [← hsettled, Option.bind_assoc, Option.map_bind]
      refine hrefines.bind fun s' hs' => ?_
      obtain ⟨htrailing', hawaiting'⟩ := hready s' hs'
      exact ih hrest htrailing' hawaiting'
    | valued o text => exact read_behind_option nofun htrailing hbehind
    | forget => exact read_behind_option nofun htrailing hbehind

/-! ### What a line gives -/

section Parts

variable (line : List Part) (text : String) (o o' : Valued)

@[simp]
theorem plains_plain : plains (line ++ [.plain text]) = plains line ++ [text] := List.filterMap_append

@[simp]
theorem plains_valued : plains (line ++ [.valued o text]) = plains line := by
  simp [plains]

@[simp]
theorem plains_forget : plains (line ++ [.forget]) = plains line := by
  simp [plains]

@[simp]
theorem texts_plain : texts o (line ++ [.plain text]) = texts o line := by
  simp [texts]

@[simp]
theorem texts_valued :
    texts o (line ++ [.valued o' text]) = texts o line ++ if o' = o then [text] else [] := by
  by_cases h : o' = o <;> simp [texts, h]

@[simp]
theorem texts_forget : texts o (line ++ [.forget]) = texts o line := by
  simp [texts]

@[simp]
theorem forgets_plain : forgets (line ++ [.plain text]) = forgets line := List.count_append

@[simp]
theorem forgets_valued : forgets (line ++ [.valued o text]) = forgets line := List.count_append

@[simp]
theorem forgets_forget : forgets (line ++ [.forget]) = forgets line + 1 := List.count_append

end Parts

/-- No argument is given more often than it may be, and the values are good. -/
structure Fits (line : List Part) : Prop where
  words : (plains line).length ≤ 2
  path : (plains line).head? ≠ some ""
  once : ∀ o, (texts o line).length ≤ 1
  number : ∀ text ∈ texts .fuel line, (number? text).isSome
  flag : forgets line ≤ 1

theorem Fits.front {line : List Part} {part : Part} (h : Fits (line ++ [part])) : Fits line := by
  obtain ⟨hwords, hpath, honce, hnumber, hflag⟩ := h
  cases part with
  | plain text =>
    simp only [plains_plain, texts_plain, forgets_plain, List.length_append, List.head?_append] at *
    refine ⟨by omega, fun hhead => hpath (by rw [hhead, Option.some_or]), honce, hnumber, hflag⟩
  | valued o text =>
    simp only [plains_valued, texts_valued, forgets_valued, List.length_append] at *
    refine ⟨hwords, hpath, fun o => ?_, fun t ht => hnumber t (List.mem_append_left _ ht), hflag⟩
    have honce := honce o
    omega
  | forget =>
    simp only [plains_forget, texts_forget, forgets_forget] at *
    exact ⟨hwords, hpath, honce, hnumber, by omega⟩

/-- A positional word needs a place, and the path may not be empty. -/
theorem Fits.plain_iff {line : List Part} {text : String} (h : Fits line) :
    Fits (line ++ [.plain text]) ↔ (plains line).length < 2 ∧ (plains line ++ [text]).head? ≠ some "" := by
  constructor
  · intro hfits
    obtain ⟨hwords, hpath, -, -, -⟩ := hfits
    rw [plains_plain] at hwords hpath
    rw [List.length_append] at hwords
    exact ⟨hwords, hpath⟩
  · rintro ⟨hroom, hpath⟩
    refine ⟨?_, ?_, fun o => ?_, ?_, ?_⟩
    · rw [plains_plain, List.length_append]
      exact hroom
    · rwa [plains_plain]
    · rw [texts_plain]
      exact h.once o
    · rw [texts_plain]
      exact h.number
    · rw [forgets_plain]
      exact h.flag

/-- An option is given once, with a good value. -/
theorem Fits.valued_iff {line : List Part} {o : Valued} {text : String} (h : Fits line) :
    Fits (line ++ [.valued o text]) ↔ texts o line = [] ∧ o.kind.accepts text = true := by
  constructor
  · intro hfits
    refine ⟨?_, ?_⟩
    · have honce := hfits.once o
      rw [texts_valued, if_pos rfl, List.length_append, List.length_singleton] at honce
      exact List.length_eq_zero_iff.mp (by omega)
    · cases o with
      | fuel => exact hfits.number text (by simp)
      | payload | export_ => rfl
  · rintro ⟨hfresh, hgood⟩
    refine ⟨?_, ?_, fun o' => ?_, fun t ht => ?_, ?_⟩
    · rw [plains_valued]
      exact h.words
    · rw [plains_valued]
      exact h.path
    · rw [texts_valued]
      by_cases heq : o = o'
      · obtain rfl := heq
        simp [hfresh]
      · simpa [heq] using h.once o'
    · rw [texts_valued] at ht
      obtain ht | ht := List.mem_append.mp ht
      · exact h.number t ht
      · by_cases heq : o = .fuel
        · obtain rfl := heq
          obtain rfl : t = text := by simpa using ht
          exact hgood
        · simp [heq] at ht
    · rw [forgets_valued]
      exact h.flag

/-- The flag is given once. -/
theorem Fits.forget_iff {line : List Part} (h : Fits line) : Fits (line ++ [.forget]) ↔ forgets line = 0 := by
  constructor
  · intro hfits
    have hflag := hfits.flag
    rw [forgets_forget] at hflag
    omega
  · intro hfresh
    refine ⟨?_, ?_, fun o => ?_, ?_, ?_⟩
    · rw [plains_forget]
      exact h.words
    · rw [plains_forget]
      exact h.path
    · rw [texts_forget]
      exact h.once o
    · rw [texts_forget]
      exact h.number
    · have hcount := forgets_forget line
      omega

/-- The state has what the line gives. -/
structure Holds (line : List Part) (s : State) : Prop where
  fits : Fits line
  count : s.count = 0
  position : s.position = (plains line).length
  plugin : s.value? "plugin" = (plains line)[0]?
  endpoint : s.value? "endpoint" = (plains line)[1]?
  options : ∀ o : Valued, (s.value? o.name).toList = texts o line
  flag : forgets line = if s.flags.contains forgetName then 1 else 0

theorem holds_start : Holds [] .start where
  fits := ⟨by decide, by decide, fun o => by cases o <;> decide, nofun, by decide⟩
  count := rfl
  position := rfl
  plugin := rfl
  endpoint := rfl
  options _ := rfl
  flag := rfl

theorem Valued.name_ne_positional (o : Valued) : o.name ≠ "plugin" ∧ o.name ≠ "endpoint" := by
  cases o <;> decide

namespace Holds

variable {line : List Part} {s : State}

/-- A positional word in its place. -/
theorem take_plain (h : Holds line s) {name text : String} (hfits : Fits (line ++ [.plain text]))
    (hname : ∀ o : Valued, o.name ≠ name)
    (hplugin : (s.give name text).value? "plugin" = (plains line ++ [text])[0]?)
    (hendpoint : (s.give name text).value? "endpoint" = (plains line ++ [text])[1]?) :
    Holds (line ++ [.plain text]) ({ s with position := s.position + 1 }.give name text) := by
  refine ⟨hfits, h.count, ?_, ?_, ?_, fun o => ?_, ?_⟩
  · rw [plains_plain, State.give_position, List.length_append, h.position]
    rfl
  · rw [plains_plain]
    exact hplugin
  · rw [plains_plain]
    exact hendpoint
  · rw [State.value?_give, if_neg (hname o), Option.or_none, texts_plain]
    exact h.options o
  · rw [forgets_plain]
    exact h.flag

/-- An option with its value. -/
theorem take_valued (h : Holds line s) {o : Valued} {text : String} (hfits : Fits (line ++ [.valued o text]))
    (hfresh : s.value? o.name = none) : Holds (line ++ [.valued o text]) (s.give o.name text) := by
  obtain ⟨hplugin, hendpoint⟩ := o.name_ne_positional
  refine ⟨hfits, h.count, ?_, ?_, ?_, fun o' => ?_, ?_⟩
  · rw [plains_valued, State.give_position]
    exact h.position
  · rw [plains_valued, State.value?_give, if_neg (Ne.symm hplugin), Option.or_none]
    exact h.plugin
  · rw [plains_valued, State.value?_give, if_neg (Ne.symm hendpoint), Option.or_none]
    exact h.endpoint
  · rw [State.value?_give, texts_valued, ← h.options]
    by_cases heq : o = o'
    · obtain rfl := heq
      simp [hfresh]
    · have hne : o'.name ≠ o.name := fun hname => heq (Valued.name_injective hname.symm)
      simp [heq, hne]
  · rw [forgets_valued, State.give_flags]
    exact h.flag

/-- The flag. -/
theorem take_forget (h : Holds line s) (hfits : Fits (line ++ [.forget])) (hfresh : forgets line = 0) :
    Holds (line ++ [.forget]) { s with flags := s.flags ++ [forgetName] } := by
  refine ⟨hfits, h.count, ?_, ?_, ?_, fun o => ?_, ?_⟩
  · rw [plains_forget]
    exact h.position
  · rw [plains_forget]
    exact h.plugin
  · rw [plains_forget]
    exact h.endpoint
  · rw [texts_forget]
    exact h.options o
  · rw [forgets_forget, hfresh]
    simp

/-- A positional word is taken in a place that is free exactly if its text is good there. -/
theorem accept_positional (h : Holds line s) {name text : String} {kind : ValueKind}
    (hplace : s.accept (.plain text) = State.put { s with position := s.position + 1 } name kind text)
    (hfree : s.value? name = none) (hgood : Fits (line ++ [.plain text]) ↔ kind.accepts text = true)
    (hname : ∀ o : Valued, o.name ≠ name)
    (hplugin : (s.give name text).value? "plugin" = (plains line ++ [text])[0]?)
    (hendpoint : (s.give name text).value? "endpoint" = (plains line ++ [text])[1]?) :
    match s.accept (.plain text) with
    | some s' => Holds (line ++ [.plain text]) s'
    | none => ¬Fits (line ++ [.plain text]) := by
  rw [hplace]
  cases hput : State.put { s with position := s.position + 1 } name kind text with
  | none =>
    intro hfits
    obtain hgiven | hbad := State.put_eq_none.mp hput
    · exact hgiven hfree
    · exact Bool.eq_false_iff.mp hbad (hgood.mp hfits)
  | some s' =>
    obtain ⟨-, haccepts, rfl⟩ := State.put_eq_some.mp hput
    exact h.take_plain (hgood.mpr haccepts) hname hplugin hendpoint

/-- The path comes first. -/
theorem accept_path (h : Holds line s) (hnone : plains line = []) (text : String) :
    match s.accept (.plain text) with
    | some s' => Holds (line ++ [.plain text]) s'
    | none => ¬Fits (line ++ [.plain text]) := by
  have hplugin := h.plugin
  have hendpoint := h.endpoint
  rw [hnone] at hplugin hendpoint
  have hgood : Fits (line ++ [.plain text]) ↔ ValueKind.path.accepts text = true := by
    rw [h.fits.plain_iff, hnone]
    simp [ValueKind.accepts]
  refine h.accept_positional ?_ hplugin hgood (fun o => o.name_ne_positional.1) ?_ ?_
  · rw [State.accept_plain, h.position, hnone]
    rfl
  · simp [hnone, hplugin]
  · simp [hnone, hendpoint]

/-- Behind the path comes the endpoint. -/
theorem accept_endpoint (h : Holds line s) {path : String} (hone : plains line = [path]) (text : String) :
    match s.accept (.plain text) with
    | some s' => Holds (line ++ [.plain text]) s'
    | none => ¬Fits (line ++ [.plain text]) := by
  have hplugin := h.plugin
  have hendpoint := h.endpoint
  rw [hone] at hplugin hendpoint
  have hgood : Fits (line ++ [.plain text]) ↔ ValueKind.text.accepts text = true := by
    have hpath := h.fits.path
    rw [hone] at hpath
    rw [h.fits.plain_iff, hone]
    simpa [ValueKind.accepts] using hpath
  refine h.accept_positional ?_ hendpoint hgood (fun o => o.name_ne_positional.2) ?_ ?_
  · rw [State.accept_plain, h.position, hone]
    rfl
  · simp [hone, hplugin]
  · simp [hone, hendpoint]

theorem accept_plain (h : Holds line s) (text : String) :
    match s.accept (.plain text) with
    | some s' => Holds (line ++ [.plain text]) s'
    | none => ¬Fits (line ++ [.plain text]) := by
  rcases hwords : plains line with _ | ⟨path, _ | ⟨endpoint, more⟩⟩
  · exact h.accept_path hwords text
  · exact h.accept_endpoint hwords text
  · have hfull : Arguments.invokeLevel.positionals[s.position]? = none := by
      rw [h.position, hwords]
      rfl
    rw [State.accept_plain, hfull]
    intro hfits
    obtain ⟨hroom, -⟩ := h.fits.plain_iff.mp hfits
    rw [hwords, List.length_cons, List.length_cons] at hroom
    omega

theorem accept_valued (h : Holds line s) (o : Valued) (text : String) :
    match s.accept (.valued o text) with
    | some s' => Holds (line ++ [.valued o text]) s'
    | none => ¬Fits (line ++ [.valued o text]) := by
  have hgiven : texts o line = [] ↔ s.value? o.name = none := by
    rw [← h.options, Option.toList_eq_nil_iff]
  rw [State.accept_valued]
  cases hput : s.put o.name o.kind text with
  | none =>
    intro hfits
    obtain ⟨hfresh, hgood⟩ := h.fits.valued_iff.mp hfits
    obtain hold | hbad := State.put_eq_none.mp hput
    · exact hold (hgiven.mp hfresh)
    · exact Bool.eq_false_iff.mp hbad hgood
  | some s' =>
    obtain ⟨hfresh, hgood, rfl⟩ := State.put_eq_some.mp hput
    exact h.take_valued (h.fits.valued_iff.mpr ⟨hgiven.mpr hfresh, hgood⟩) hfresh

theorem accept_forget (h : Holds line s) :
    match s.accept .forget with
    | some s' => Holds (line ++ [.forget]) s'
    | none => ¬Fits (line ++ [.forget]) := by
  have hflag := h.flag
  rw [State.accept_forget]
  cases hgiven : s.flags.contains forgetName with
  | true =>
    intro hfits
    rw [h.fits.forget_iff.mp hfits, hgiven] at hflag
    exact absurd hflag (by decide)
  | false =>
    have hfresh : forgets line = 0 := by
      rw [hflag, hgiven]
      rfl
    exact h.take_forget (h.fits.forget_iff.mpr hfresh) hfresh

theorem accept (h : Holds line s) (part : Part) :
    match s.accept part with
    | some s' => Holds (line ++ [part]) s'
    | none => ¬Fits (line ++ [part]) := by
  cases part with
  | plain text => exact h.accept_plain text
  | valued o text => exact h.accept_valued o text
  | forget => exact h.accept_forget

end Holds

/-- A line leaves a state exactly if it fits, and then one that has what the line gives. -/
theorem acceptAll_spec (line : List Part) :
    match line.foldlM State.accept .start with
    | some s => Holds line s
    | none => ¬Fits line := by
  induction line using List.reverseRecOn with
  | nil => exact holds_start
  | append_singleton line part ih =>
    rw [List.foldlM_append]
    cases hfold : line.foldlM State.accept .start with
    | none =>
      rw [hfold] at ih
      exact fun h => ih h.front
    | some s =>
      rw [hfold] at ih
      have haccept := ih.accept part
      cases hpart : s.accept part with
      | none => simpa [hpart] using haccept
      | some s' => simpa [hpart] using haccept

/-! ### Options of a request -/

/-- What the parsed words of a line say: every option of the request stands in it once if it has a value, and not at
all if not. -/
structure Describes (line : List Part) (o : InvokeOptions) : Prop where
  words : plains line = [o.plugin, o.endpoint]
  path : o.plugin ≠ ""
  payload : texts .payload line = o.payload.toList
  export_ : texts .export_ line = o.export_.toList
  fuel : List.Forall₂ (fun text n => Writes text n ∧ n < UInt64.size) (texts .fuel line) o.fuel.toList
  forget : forgets line = if o.fireAndForget then 1 else 0

/-- What no request may look like: an argument is given twice or is missing, or the fuel is no number. -/
inductive Faulty (line : List Part) : Prop
  | repeated (o : Valued) (h : 2 ≤ (texts o line).length)
  | flag (h : 2 ≤ forgets line)
  | words (h : (plains line).length ≠ 2)
  | fuel (text : String) (h : text ∈ texts .fuel line) (hn : ∀ n < UInt64.size, ¬Writes text n)

theorem Describes.fuel_cases {line : List Part} {o : InvokeOptions} (h : Describes line o) :
    (texts .fuel line = [] ∧ o.fuel = none) ∨
      ∃ text n, texts .fuel line = [text] ∧ o.fuel = some n ∧ number? text = some n := by
  have hfuel := h.fuel
  cases hgiven : o.fuel with
  | none =>
    rw [hgiven, Option.toList_none, List.forall₂_nil_right_iff] at hfuel
    exact .inl ⟨hfuel, rfl⟩
  | some n =>
    rw [hgiven, Option.toList_some] at hfuel
    obtain ⟨text, rest, hn, hrest, htexts⟩ := List.forall₂_cons_right_iff.mp hfuel
    rw [List.forall₂_nil_right_iff.mp hrest] at htexts
    exact .inr ⟨text, n, htexts, rfl, number?_eq_some_iff.mpr hn⟩

theorem Describes.fits {line : List Part} {o : InvokeOptions} (h : Describes line o) : Fits line where
  words := by simp [h.words]
  path := by simp [h.words, h.path]
  once
    | .payload => by
      rw [h.payload]
      exact Option.length_toList_le
    | .export_ => by
      rw [h.export_]
      exact Option.length_toList_le
    | .fuel => by
      rw [h.fuel.length_eq]
      exact Option.length_toList_le
  number text htext := by
    obtain ⟨hnone, -⟩ | ⟨_, n, hone, -, hnumber⟩ := h.fuel_cases
    · rw [hnone] at htext
      nomatch htext
    · rw [hone] at htext
      obtain rfl := List.mem_singleton.mp htext
      rw [hnumber]
      rfl
  flag := by
    rw [h.forget]
    split <;> decide

theorem Faulty.unfit {line : List Part} (h : Faulty line) : ¬Fits line ∨ (plains line).length ≠ 2 := by
  cases h with
  | repeated o h => exact .inl fun hfits => absurd (hfits.once o) (by omega)
  | flag h => exact .inl fun hfits => absurd hfits.flag (by omega)
  | words h => exact .inr h
  | fuel text h hn =>
    refine .inl fun hfits => ?_
    obtain ⟨n, hnumber⟩ := Option.isSome_iff_exists.mp (hfits.number text h)
    obtain ⟨hwrites, hlt⟩ := number?_eq_some_iff.mp hnumber
    exact hn n hlt hwrites

/-! ### Commands -/

/-- The commands that do something. -/
inductive Verb where
  | eval | invoke
  deriving DecidableEq, Repr

namespace Verb

def word : Verb → String
  | eval => Arguments.evalWord
  | invoke => Arguments.invokeWord

def level : Verb → Level
  | eval => Arguments.evalLevel
  | invoke => Arguments.invokeLevel

/-- What is to be done by what was read. -/
def task : Verb → State → Except Complaint Task
  | eval, s => (Arguments.evalOptions s).map .eval
  | invoke, s => (Arguments.invokeOptions s).map .invoke

end Verb

theorem parse_eq {line words : List String} {s : State} {verb : Verb}
    (hread : Arguments.outer.read .start line = .ok (s, some (verb.word, words))) :
    Arguments.parse line =
      match verb.level.read .start words with
      | .error c => .error ⟨c, some verb.word⟩
      | .ok (inner, _) =>
        match verb.task inner with
        | .error c => .error ⟨c, some verb.word⟩
        | .ok task => .ok ⟨Arguments.effectiveVerbosity s inner, task⟩ := by
  unfold Arguments.parse
  rw [hread]
  cases verb with
  | eval =>
    have hhelp : Verb.eval.word ≠ Arguments.helpWord := by decide
    have heval : Verb.eval.word = Arguments.evalWord := rfl
    simp only [Arguments.refuseAt, bind, Except.bind, if_neg hhelp, if_pos heval, Verb.task, Verb.level]
    cases Arguments.evalLevel.read .start words with
    | error c => rfl
    | ok read =>
      dsimp only
      cases Arguments.evalOptions read.1 <;> rfl
  | invoke =>
    have hhelp : Verb.invoke.word ≠ Arguments.helpWord := by decide
    have heval : Verb.invoke.word ≠ Arguments.evalWord := by decide
    simp only [Arguments.refuseAt, bind, Except.bind, if_neg hhelp, if_neg heval, Verb.task, Verb.level]
    cases invokeLevel.read .start words with
    | error c => rfl
    | ok read =>
      dsimp only
      cases Arguments.invokeOptions read.1 <;> rfl

/-! ### Requests -/

/-- What a level has read on a line that fits. -/
theorem read_line {line : List Part} (hline : Legible line) :
    (∃ s, invokeLevel.read .start (line.map Part.word) = .ok (s, none) ∧ Holds line s) ∨
      (∃ c, invokeLevel.read .start (line.map Part.word) = .error c ∧ c.refusal.exitCode = 2 ∧ ¬Fits line) := by
  have hread : Refines (invokeLevel.read .start (line.map Part.word))
      ((line.foldlM State.accept .start).map (·, none)) := read_refines hline rfl rfl
  have hspec := acceptAll_spec line
  cases hfold : line.foldlM State.accept .start with
  | some s =>
    rw [hfold] at hread hspec
    generalize invokeLevel.read .start (line.map Part.word) = r at hread ⊢
    cases hread
    exact .inl ⟨s, rfl, hspec⟩
  | none =>
    rw [hfold] at hread hspec
    generalize invokeLevel.read .start (line.map Part.word) = r at hread ⊢
    cases hread with
    | refused hc => exact .inr ⟨_, rfl, hc, hspec⟩

theorem parse_invoke (words : List String) :
    Arguments.parse (Arguments.invokeWord :: words) =
      match invokeLevel.read .start words with
      | .error c => .error ⟨c, some Arguments.invokeWord⟩
      | .ok (s, _) =>
        match Arguments.invokeOptions s with
        | .error c => .error ⟨c, some Arguments.invokeWord⟩
        | .ok o => .ok ⟨s.count, .invoke o⟩ := by
  have houter : Arguments.outer.read .start (Arguments.invokeWord :: words) =
      .ok (.start, some (Verb.invoke.word, words)) := by
    rw [Level.read, if_pos (by decide)]
    rfl
  have hverbosity (s : State) : Arguments.effectiveVerbosity .start s = s.count := by
    unfold Arguments.effectiveVerbosity
    split
    · next h => exact h.symm
    · rfl
  rw [parse_eq houter]
  simp only [Verb.level, Verb.task, Verb.word, hverbosity]
  cases invokeLevel.read .start words with
  | error c => rfl
  | ok read =>
    dsimp only
    cases Arguments.invokeOptions read.1 <;> rfl

/-- The options of a line with two positional words. -/
theorem Holds.options_eq {line : List Part} {s : State} {path endpoint : String} (h : Holds line s)
    (hwords : plains line = [path, endpoint]) :
    Arguments.invokeOptions s = .ok ⟨path, endpoint, s.value? "payload", s.flags.contains forgetName,
      s.value? "export", (s.value? "fuel").bind number?⟩ := by
  have hplugin := h.plugin
  have hendpoint := h.endpoint
  rw [hwords] at hplugin hendpoint
  have hgiven : Arguments.nothingGiven s = false := by
    unfold Arguments.nothingGiven
    cases hvalues : s.values with
    | nil => simp [State.value?, hvalues] at hplugin
    | cons => rfl
  unfold Arguments.invokeOptions
  rw [hgiven, hplugin, hendpoint]
  rfl

theorem Holds.options_refused {line : List Part} {s : State} (h : Holds line s) (hwords : (plains line).length ≠ 2) :
    ∃ c, Arguments.invokeOptions s = .error c ∧ c.refusal.exitCode = 2 := by
  have hendpoint : s.value? "endpoint" = none := by
    rw [h.endpoint, List.getElem?_eq_none_iff]
    have hbound := h.fits.words
    omega
  unfold Arguments.invokeOptions
  split
  · exact ⟨_, rfl, rfl⟩
  · rw [hendpoint]
    split
    · next heq => nomatch heq
    · exact ⟨_, rfl, rfl⟩

theorem Holds.value?_eq {line : List Part} {s : State} (h : Holds line s) (o : Valued) :
    s.value? o.name = (texts o line).head? := by
  rw [← h.options, Option.head?_toList]

theorem parse_of_describes {line : List Part} {o : InvokeOptions} (hline : Legible line) (h : Describes line o) :
    Arguments.parse (Arguments.invokeWord :: line.map Part.word) = .ok ⟨0, .invoke o⟩ := by
  obtain ⟨s, hread, hs⟩ | ⟨-, -, -, hunfit⟩ := read_line hline
  · have hpayload : s.value? "payload" = o.payload := by
      rw [← Option.head?_toList (o := o.payload), ← h.payload]
      exact hs.value?_eq .payload
    have hexport : s.value? "export" = o.export_ := by
      rw [← Option.head?_toList (o := o.export_), ← h.export_]
      exact hs.value?_eq .export_
    have hfuel : (s.value? "fuel").bind number? = o.fuel := by
      rw [show s.value? "fuel" = (texts .fuel line).head? from hs.value?_eq .fuel]
      obtain ⟨hnone, hfuel⟩ | ⟨text, n, hone, hfuel, hnumber⟩ := h.fuel_cases
      · rw [hnone, hfuel]
        rfl
      · rw [hone, hfuel]
        exact hnumber
    have hforget : s.flags.contains forgetName = o.fireAndForget := by
      have hflag := hs.flag.symm.trans h.forget
      cases hgiven : s.flags.contains forgetName <;> cases hwanted : o.fireAndForget <;> simp_all
    rw [parse_invoke, hread]
    simp only [hs.options_eq h.words, hpayload, hexport, hfuel, hforget, hs.count]
  · exact absurd h.fits hunfit

theorem parse_of_faulty {line : List Part} (hline : Legible line) (h : Faulty line) :
    ∃ r, Arguments.parse (Arguments.invokeWord :: line.map Part.word) = .error r ∧
      r.complaint.refusal.exitCode = 2 := by
  rw [parse_invoke]
  obtain ⟨s, hread, hs⟩ | ⟨c, hread, hc, -⟩ := read_line hline
  · obtain hunfit | hwords := h.unfit
    · exact absurd hs.fits hunfit
    · obtain ⟨c, hoptions, hc⟩ := hs.options_refused hwords
      refine ⟨⟨c, some Arguments.invokeWord⟩, ?_, hc⟩
      simp only [hread, hoptions]
  · refine ⟨⟨c, some Arguments.invokeWord⟩, ?_, hc⟩
    simp only [hread]

/-- Options and positional words of a request may stand in any order. Every line with the options once, each with its
value attached, parses to these values, whatever their texts. No line with an option twice, with another number of
positional words or with a fuel that is no number is taken. -/
theorem request_lines {line : List Part} (hline : Legible line) :
    (∀ n, Writes (toString n) n) ∧
    (∀ o, Describes line o → Arguments.parse (Arguments.invokeWord :: line.map Part.word) = .ok ⟨0, .invoke o⟩) ∧
    (Faulty line → ∃ r, Arguments.parse (Arguments.invokeWord :: line.map Part.word) = .error r ∧
      r.complaint.refusal.exitCode = 2) :=
  ⟨writes_toString, fun _ => parse_of_describes hline, parse_of_faulty hline⟩

theorem options_between_words :
    Arguments.parse ["invoke", "--fuel=1000", "plugin.wasm", "--payload=a=b", "greet", "--fire-and-forget"] =
      .ok ⟨0, .invoke ⟨"plugin.wasm", "greet", some "a=b", true, none, some 1000⟩⟩ ∧
    ∃ r, Arguments.parse ["invoke", "plugin.wasm", "--payload=1", "greet", "--payload=2"] = .error r ∧
      r.complaint.refusal.exitCode = 2 := by
  have hlegible : Legible [.valued .fuel "1000", .plain "plugin.wasm", .valued .payload "a=b", .plain "greet",
      .forget] := by
    unfold Legible
    decide
  have htwice : Legible [.plain "plugin.wasm", .valued .payload "1", .plain "greet", .valued .payload "2"] := by
    unfold Legible
    decide
  have hfuel : Writes "1000" 1000 ∧ 1000 < UInt64.size := ⟨writes_toString 1000, by decide⟩
  exact ⟨(request_lines hlegible).2.1 _ ⟨rfl, by decide, rfl, rfl, .cons hfuel .nil, rfl⟩,
    (request_lines htwice).2.2 (.repeated .payload (by decide))⟩

end PluginRelay.Command
