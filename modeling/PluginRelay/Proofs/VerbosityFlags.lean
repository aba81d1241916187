import PluginRelay.Proofs.InvocationLines
import PluginRelay.Proofs.Readers

/-!
# Flags for the verbosity

Flags for the verbosity may stand anywhere on a command line but between an option and its value. A flag takes the
value that is pending a little earlier than the next word would, and raises the count of its level up to 255; nothing
else of the state shows that it was there. But the counts of the two levels are not added up. Once a flag stands behind
the command those in front of it are lost, so that one more flag can lower the verbosity.
-/
namespace PluginRelay.Command

open Cbor (bind_eq_ok)

/-! ### Lines with flags -/

/-- A flag for the verbosity: the long one, or a hyphen and its letter, once or more often. -/
inductive VerbosityFlag where
  | long
  | letters (more : Nat)
  deriving DecidableEq, Repr

namespace VerbosityFlag

def word : VerbosityFlag → String
  | long => "--verbose"
  | letters more => String.ofList ('-' :: List.replicate (more + 1) 'v')

/-- How many occurrences a flag stands for. -/
def weight : VerbosityFlag → Nat
  | long => 1
  | letters more => more + 1

end VerbosityFlag

/-- The options whose value may be the next word. -/
def optionWords : List String := ["-e", "--eval", "--payload", "--export", "--fuel"]

/-- Whether a word has a flag for the verbosity. In a group of letters all behind an `e` is the value of that option. -/
def hasFlag (text : String) : Bool :=
  match Word.ofText text with
  | .long name _ => name = "verbose"
  | .cluster letters => (letters.takeWhile (· ≠ 'e')).contains 'v'
  | _ => false

/-- There is neither a separator nor a flag for the verbosity. -/
def Quiet (words : List String) : Prop := ∀ text ∈ words, text ≠ "--" ∧ hasFlag text = false

/-- Words with flags put between them, and how many occurrences these stand for. An option and the word that is its
value stay together. -/
inductive Flagged : List String → Nat → List String → Prop
  | nil : Flagged [] 0 []
  | word {text : String} {words words' : List String} {n : Nat} (htext : text ∉ optionWords)
      (h : Flagged words n words') : Flagged (text :: words) n (text :: words')
  | option {text value : String} {words words' : List String} {n : Nat} (htext : text ∈ optionWords)
      (h : Flagged words n words') : Flagged (text :: value :: words) n (text :: value :: words')
  | flag {words words' : List String} {n : Nat} (f : VerbosityFlag) (h : Flagged words n words') :
      Flagged words (f.weight + n) (f.word :: words')

/-- A whole line with flags put in: those in front of its first word, the command, and those behind it are counted
apart. -/
inductive Raised : List String → Nat → Nat → List String → Prop
  | command {command : String} {words words' : List String} {behind : Nat} (h : Flagged words behind words') :
      Raised (command :: words) 0 behind (command :: words')
  | flag {line line' : List String} {before behind : Nat} (f : VerbosityFlag)
      (h : Raised line before behind line') : Raised line (f.weight + before) behind (f.word :: line')

/-! ### The count of a state -/

namespace State

/-- The state with another count. -/
def counting (s : State) (n : Nat) : State := { s with count := n }

variable (s : State) (n m : Nat) (name : String)

@[simp] theorem counting_count : (s.counting n).count = n := rfl
@[simp] theorem counting_flags : (s.counting n).flags = s.flags := rfl
@[simp] theorem counting_pending : (s.counting n).pending = s.pending := rfl
@[simp] theorem counting_value? : (s.counting n).value? name = s.value? name := rfl
@[simp] theorem counting_counting : (s.counting n).counting m = s.counting m := rfl
@[simp] theorem counting_self : s.counting s.count = s := rfl

theorem count_eq_of_counting {s : State} {n : Nat} (h : s = s.counting n) : s.count = n :=
  calc s.count = (s.counting n).count := congrArg State.count h
    _ = n := rfl

theorem commit_counting (kind : ValueKind) (text : String) :
    (s.counting n).commit name kind text = (s.commit name kind text).map (·.counting n) := by
  unfold commit
  rw [counting_value?]
  split
  · rfl
  · cases kind.check text <;> rfl

theorem settle_counting : (s.counting n).settle = s.settle.map (·.counting n) := by
  unfold settle
  rw [counting_pending]
  rcases s.pending with _ | ⟨name, kind, _ | text⟩
  · rfl
  · rfl
  · exact commit_counting { s with pending := none } n name kind text

variable {s} {t u : State}

theorem settle_of_pending (h : s.pending = none) : s.settle = .ok s := by
  unfold settle
  rw [h]

theorem settled?_of_settle (h : s.settle = .ok t) : s.settled? = some t := by
  have hrefines := s.settle_refines
  rw [h] at hrefines
  exact hrefines.eq_some

theorem idle_of_settle (htrailing : s.trailing = false) (h : s.settle = .ok t) : t.Idle :=
  (settled?_eq_some htrailing (settled?_of_settle h)).1

theorem position_of_settle (htrailing : s.trailing = false) (h : s.settle = .ok t) : t.position = s.position :=
  (settled?_eq_some htrailing (settled?_of_settle h)).2

theorem count_of_settle (h : s.settle = .ok t) : t.count = s.count := by
  have hsame := settle_counting s s.count
  rw [counting_self, h] at hsame
  exact count_eq_of_counting (Except.ok.inj hsame)

theorem awaiting_of_settle (h : s.settle = .ok t) : s.awaiting = false := by
  unfold settle at h
  unfold awaiting
  split at h
  · next hpending => rw [hpending]
  · nomatch h
  · next hpending => rw [hpending]

/-- Neither a separator has been read nor an option that waits for its value. -/
structure Ready (s : State) : Prop where
  trailing : s.trailing = false
  awaiting : s.awaiting = false

theorem Idle.awaiting (h : s.Idle) : s.awaiting = false := by rw [State.awaiting, h.pending]

theorem Idle.ready (h : s.Idle) : s.Ready := ⟨h.trailing, h.awaiting⟩

/-- What comes after settling may as well start from the settled state. -/
theorem exists_settled (htrailing : s.trailing = false) {g : State → Except Complaint State}
    (h : (s.settle >>= g) = .ok u) : ∃ t, s.settle = .ok t ∧ t.Idle ∧ g t = .ok u ∧ (t.settle >>= g) = .ok u := by
  obtain ⟨t, hsettle, hg⟩ := bind_eq_ok.mp h
  have hidle := idle_of_settle htrailing hsettle
  refine ⟨t, hsettle, hidle, hg, ?_⟩
  rw [settle_of_pending hidle.pending]
  exact hg

end State

/-! ### Options -/

/-- What an option does once nothing is pending: the count plays no part in it, and only an option that takes the next
word waits for a value behind it. -/
structure Acts (act : State → Except Complaint State) (next : Bool) : Prop where
  counting : ∀ {s u : State} (n : Nat), act s = .ok u → act (s.counting n) = .ok (u.counting n)
  behind : ∀ {s u : State}, s.Idle → act s = .ok u → u.trailing = false ∧ u.awaiting = next

theorem acts_flag (name : String) :
    Acts (fun s => if s.flags.contains name then .error Refusal.argumentConflict.plain
      else .ok { s with flags := s.flags ++ [name] }) false where
  counting n h := by
    rw [State.counting_flags]
    split at h
    · nomatch h
    · next hnew =>
      obtain rfl := Except.ok.inj h
      rw [if_neg hnew]
      rfl
  behind hs h := by
    split at h
    · nomatch h
    · obtain rfl := Except.ok.inj h
      exact ⟨hs.trailing, hs.awaiting⟩

theorem acts_commit (name : String) (kind : ValueKind) (text : String) :
    Acts (·.commit name kind text) false where
  counting n h := by
    rw [State.commit_counting, h]
    rfl
  behind {s u} hs h := by
    have hrefines := s.commit_refines name kind text
    rw [show s.commit name kind text = .ok u from h] at hrefines
    have hidle := hs.put hrefines.eq_some
    exact ⟨hidle.trailing, hidle.awaiting⟩

theorem acts_next (name : String) (kind : ValueKind) :
    Acts (fun s => .ok { s with pending := some ⟨name, kind, none⟩ }) true where
  counting n h := by
    obtain rfl := Except.ok.inj h
    rfl
  behind hs h := by
    obtain rfl := Except.ok.inj h
    exact ⟨hs.trailing, rfl⟩

theorem act_eq (s : State) {o : Opt} (hkind : o.kind = .flag) :
    s.act o = s.settle >>= fun s =>
      if s.flags.contains o.name then .error Refusal.argumentConflict.plain
      else .ok { s with flags := s.flags ++ [o.name] } := by
  unfold State.act
  rw [hkind]
  rfl

theorem act_verbose {s t : State} (h : s.settle = .ok t) :
    s.act Arguments.verboseOption = .ok (t.counting (min 255 (t.count + 1))) := by
  unfold State.act
  rw [h]
  rfl

theorem act_refused (s : State) {o : Opt} (hkind : o.kind = .help ∨ o.kind = .version) (u : State) :
    s.act o ≠ .ok u := by
  unfold State.act
  intro h
  obtain ⟨t, -, ht⟩ := bind_eq_ok.mp h
  obtain hkind | hkind := hkind <;> rw [hkind] at ht <;> nomatch ht

/-! ### Bare words -/

section Bare

variable {level : Level} {s u : State} {text : String}

theorem positional_eq_ok (htrailing : s.trailing = false) :
    level.positional s text = .ok u ↔
      ∃ p t, level.positionals[s.position]? = some p ∧ s.settle = .ok t ∧
        u = { t with pending := some ⟨p.name, p.kind, some text⟩, position := t.position + 1 } := by
  unfold Level.positional
  cases level.positionals[s.position]? with
  | none =>
    rw [htrailing]
    cases level.subcommands.isEmpty <;> simp
  | some p =>
    simp only [bind_eq_ok, Cbor.pure_eq_ok, Except.ok.injEq, Option.some.injEq]
    constructor
    · rintro ⟨t, ht, rfl⟩
      exact ⟨p, t, rfl, ht, rfl⟩
    · rintro ⟨_, t, rfl, ht, rfl⟩
      exact ⟨t, ht, rfl⟩

/-- A bare word is the value of an option that waits for one, or a positional argument in the next place. -/
theorem bare_eq_ok (htrailing : s.trailing = false) :
    level.bare s text = .ok u ↔
      (∃ name kind, s.pending = some ⟨name, kind, none⟩ ∧ u = { s with pending := some ⟨name, kind, some text⟩ }) ∨
        ∃ p t, level.positionals[s.position]? = some p ∧ s.settle = .ok t ∧
          u = { t with pending := some ⟨p.name, p.kind, some text⟩, position := t.position + 1 } := by
  unfold Level.bare
  split
  · next name kind hpending =>
    have hsettle (t : State) : s.settle ≠ .ok t := by
      unfold State.settle
      rw [hpending]
      nofun
    simp [htrailing, hpending, hsettle, eq_comm]
  · next hpending =>
    rw [positional_eq_ok htrailing]
    exact ⟨.inr, fun h => h.resolve_left fun ⟨name, kind, hnone, _⟩ => hpending name kind hnone⟩

theorem bare_behind (htrailing : s.trailing = false) (h : level.bare s text = .ok u) :
    u.trailing = false ∧ u.awaiting = false := by
  obtain ⟨name, kind, -, rfl⟩ | ⟨p, t, -, ht, rfl⟩ := (bare_eq_ok htrailing).mp h
  · exact ⟨htrailing, rfl⟩
  · exact ⟨(State.idle_of_settle htrailing ht).trailing, rfl⟩

theorem bare_counting (htrailing : s.trailing = false) (n : Nat) (h : level.bare s text = .ok u) :
    level.bare (s.counting n) text = .ok (u.counting n) := by
  refine (bare_eq_ok (s := s.counting n) htrailing).mpr ?_
  obtain ⟨name, kind, hpending, rfl⟩ | ⟨p, t, hp, ht, rfl⟩ := (bare_eq_ok htrailing).mp h
  · exact .inl ⟨name, kind, hpending, rfl⟩
  · refine .inr ⟨p, t.counting n, hp, ?_, rfl⟩
    rw [State.settle_counting, ht]
    rfl

theorem bare_settled (hs : s.Ready) (h : level.bare s text = .ok u) :
    ∃ t, s.settle = .ok t ∧ level.bare t text = .ok u := by
  obtain ⟨name, kind, hpending, -⟩ | ⟨p, t, hp, ht, rfl⟩ := (bare_eq_ok hs.trailing).mp h
  · have hawaiting := hs.awaiting
    simp [State.awaiting, hpending] at hawaiting
  · have hidle := State.idle_of_settle hs.trailing ht
    have hposition := State.position_of_settle hs.trailing ht
    refine ⟨t, ht, (bare_eq_ok hidle.trailing).mpr (.inr ⟨p, t, ?_, ?_, rfl⟩)⟩
    · rw [hposition, hp]
    · exact State.settle_of_pending hidle.pending

end Bare

/-! ### The look of a word -/

section Words

theorem splitEquals_none {chars : List Char} (h : (splitEquals chars).2 = none) : (splitEquals chars).1 = chars := by
  fun_induction splitEquals chars with
  | case1 => rfl
  | case2 => nomatch h
  | case3 c rest _ front value hrest ih =>
    rw [hrest] at ih
    exact congrArg (c :: ·) (ih h)

variable {text : String}

theorem ofText_separator (h : Word.ofText text = .separator) : text = "--" := by
  unfold Word.ofText at h
  split at h
  · next htext => rw [← String.ofList_toList (s := text), htext]
  all_goals nomatch h

theorem ofText_long {name : String} (h : Word.ofText text = .long name none) : text = "--" ++ name := by
  unfold Word.ofText at h
  split at h
  · nomatch h
  · next rest _ htext =>
    obtain ⟨hname, hnone⟩ := Word.long.inj h
    have hrest := splitEquals_none (Option.map_eq_none_iff.mp hnone)
    rw [← hname, hrest, ← String.toList_inj, htext]
    simp
  all_goals nomatch h

theorem ofText_cluster {letters : List Char} (h : Word.ofText text = .cluster letters) :
    text = String.ofList ('-' :: letters) := by
  unfold Word.ofText at h
  split at h
  · nomatch h
  · nomatch h
  · next htext =>
    obtain rfl := Word.cluster.inj h
    rw [← htext, String.ofList_toList]
  · nomatch h

theorem ofText_option (h : text ∈ optionWords) :
    Word.ofText text = .cluster ['e'] ∨ ∃ name, Word.ofText text = .long name none := by
  simp only [optionWords, List.mem_cons, List.not_mem_nil, or_false] at h
  obtain rfl | rfl | rfl | rfl | rfl := h
  · exact .inl (by decide)
  · exact .inr ⟨"eval", by decide⟩
  · exact .inr ⟨"payload", by decide⟩
  · exact .inr ⟨"export", by decide⟩
  · exact .inr ⟨"fuel", by decide⟩

/-! ### What a word does -/

/-- A level has the option for the verbosity; its other letters are that of code and those that end the program. -/
structure Level.HasVerbose (level : Level) : Prop where
  name : level.options.find? (·.name = "verbose") = some Arguments.verboseOption
  letter : level.options.find? (·.letter = some 'v') = some Arguments.verboseOption
  counter : ∀ o ∈ level.options, o.kind = .counter → o = Arguments.verboseOption
  flag : ∀ o ∈ level.options, o.kind = .flag → "--" ++ o.name ∉ optionWords
  valued : ∀ o ∈ level.options, o.kind ∈ [.flag, .counter, .help, .version] ∨ "--" ++ o.name ∈ optionWords
  letters : ∀ o ∈ level.options, o.letter = none ∨ o.letter = some 'v' ∨ (o.kind = .help ∨ o.kind = .version) ∨
    o.letter = some 'e' ∧ o.kind = .value .text

/-- What a word without a flag does at a level. -/
inductive Meaning (level : Level) (text : String) : Prop
  | option (o : Opt) (hmem : o ∈ level.options) (hkind : o.kind ∉ [.counter, .help, .version])
      (act : State → Except Complaint State) (hacts : Acts act (text ∈ optionWords))
      (h : ∀ s : State, s.trailing = false → level.step s text = s.settle >>= act)
  | bare (htext : text ∉ optionWords) (h : ∀ s : State, s.trailing = false → level.step s text = level.bare s text)
  | refused (h : ∀ s u : State, s.trailing = false → level.step s text ≠ .ok u)

variable {level : Level}

theorem step_of_long {name : String} {value : Option String} (hword : Word.ofText text = .long name value) {s : State}
    (htrailing : s.trailing = false) : level.step s text = level.long s name value := by
  unfold Level.step
  rw [htrailing, hword]
  rfl

theorem step_of_cluster {c : Char} {letters : List Char} (hword : Word.ofText text = .cluster (c :: letters))
    {s : State} (htrailing : s.trailing = false) : level.step s text = level.cluster s (c :: letters) := by
  unfold Level.step
  rw [htrailing, hword]
  rfl

theorem step_of_bare (hword : Word.ofText text = .plain ∨ Word.ofText text = .cluster []) {s : State}
    (htrailing : s.trailing = false) : level.step s text = level.bare s text := by
  unfold Level.step
  obtain hword | hword := hword <;> rw [htrailing, hword] <;> rfl

theorem meaning_of_bare (hword : Word.ofText text = .plain ∨ Word.ofText text = .cluster []) :
    Meaning level text := by
  refine .bare (fun hoption => ?_) fun s htrailing => step_of_bare hword htrailing
  obtain hword' | ⟨name, hword'⟩ := ofText_option hoption <;> simp [hword'] at hword

theorem Meaning.of_open {o : Opt} {kind : ValueKind} {value : Option String} (hmem : o ∈ level.options)
    (hkind : o.kind = .value kind) (htext : text ∈ optionWords ↔ value = none)
    (h : ∀ s : State, s.trailing = false → level.step s text = s.open o kind value) : Meaning level text := by
  cases value with
  | none =>
    have hacts : Acts (fun s => .ok { s with pending := some ⟨o.name, kind, none⟩ }) (text ∈ optionWords) := by
      rw [decide_eq_true (htext.mpr rfl)]
      exact acts_next o.name kind
    exact .option o hmem (by simp [hkind]) _ hacts h
  | some value =>
    have hacts : Acts (·.commit o.name kind value) (text ∈ optionWords) := by
      rw [decide_eq_false (mt htext.mp nofun)]
      exact acts_commit o.name kind value
    exact .option o hmem (by simp [hkind]) _ hacts h

theorem Meaning.of_act {o : Opt} (hmem : o ∈ level.options) (hkind : o.kind = .flag) (htext : text ∉ optionWords)
    (h : ∀ s : State, s.trailing = false → level.step s text = s.act o) : Meaning level text := by
  refine .option o hmem (by simp [hkind]) _ ?_ fun s htrailing => (h s htrailing).trans (act_eq s hkind)
  rw [decide_eq_false htext]
  exact acts_flag o.name

theorem meaning_of_long (hlevel : level.HasVerbose) {name : String} {value : Option String}
    (hword : Word.ofText text = .long name value) (hname : name ≠ "verbose") : Meaning level text := by
  have hstep (s : State) (htrailing : s.trailing = false) : level.step s text = level.long s name value :=
    step_of_long hword htrailing
  unfold Level.long at hstep
  cases hfind : level.options.find? (·.name = name) with
  | none =>
    simp only [hfind] at hstep
    exact .refused fun s u htrailing => by simp [hstep s htrailing]
  | some o =>
    have hmem := List.mem_of_find?_eq_some hfind
    obtain rfl : o.name = name := by simpa using List.find?_some hfind
    simp only [hfind] at hstep
    -- With a value attached an option does not take the next word.
    have hnone (hoption : text ∈ optionWords) : value = none := by
      obtain hword' | ⟨name, hword'⟩ := ofText_option hoption
      · simp [hword'] at hword
      · exact (Word.long.inj (hword.symm.trans hword')).2
    cases hkind : o.kind with
    | value kind =>
      simp only [hkind] at hstep
      refine .of_open hmem hkind ⟨hnone, ?_⟩ hstep
      rintro rfl
      rw [ofText_long hword]
      exact (hlevel.valued o hmem).resolve_left (by simp [hkind])
    | flag =>
      simp only [hkind] at hstep
      cases value with
      | none =>
        refine .of_act hmem hkind ?_ hstep
        rw [ofText_long hword]
        exact hlevel.flag o hmem hkind
      | some value => exact .refused fun s u htrailing => by simp [hstep s htrailing]
    | counter => exact absurd (congrArg Opt.name (hlevel.counter o hmem hkind)) hname
    | help | version =>
      simp only [hkind] at hstep
      refine .refused fun s u htrailing => ?_
      rw [hstep s htrailing]
      cases value with
      | none => exact act_refused s (by simp [hkind]) u
      | some value => nofun

theorem meaning_of_cluster (hlevel : level.HasVerbose) {c : Char} {letters : List Char}
    (hword : Word.ofText text = .cluster (c :: letters)) (hc : c ≠ 'v') : Meaning level text := by
  have hstep (s : State) (htrailing : s.trailing = false) : level.step s text = level.cluster s (c :: letters) :=
    step_of_cluster hword htrailing
  unfold Level.cluster at hstep
  cases hfind : level.options.find? (·.letter = some c) with
  | none =>
    simp only [hfind] at hstep
    exact .refused fun s u htrailing => by simp [hstep s htrailing]
  | some o =>
    have hletter : o.letter = some c := by simpa using List.find?_some hfind
    simp only [hfind] at hstep
    have hmem := List.mem_of_find?_eq_some hfind
    obtain hnone | hverbose | hends | ⟨hcode, hkind⟩ := hlevel.letters o hmem
    · exact absurd (hnone.symm.trans hletter) nofun
    · exact absurd (Option.some.inj (hletter.symm.trans hverbose)) hc
    · refine .refused fun s u htrailing h => ?_
      have hact : (s.act o >>= fun s => level.cluster s letters) = .ok u := by
        obtain hkind | hkind := hends <;> simpa only [hstep s htrailing, hkind] using h
      obtain ⟨t, ht, -⟩ := bind_eq_ok.mp hact
      exact act_refused s hends t ht
    · obtain rfl := Option.some.inj (hletter.symm.trans hcode)
      simp only [hkind] at hstep
      refine .of_open hmem hkind ⟨fun hoption => ?_, fun hnone => ?_⟩ hstep
      · obtain hword' | ⟨name, hword'⟩ := ofText_option hoption
        · obtain ⟨-, rfl⟩ : 'e' = 'e' ∧ letters = [] := by simpa [hword] using hword'
          rfl
        · simp [hword] at hword'
      · cases letters with
        | nil =>
          rw [ofText_cluster hword]
          decide
        | cons d rest => split at hnone <;> simp_all

/-- Words without a flag have a meaning of their own, whatever the state. -/
theorem meaning (hlevel : level.HasVerbose) (htext : text ≠ "--") (hflag : hasFlag text = false) :
    Meaning level text := by
  unfold hasFlag at hflag
  cases hword : Word.ofText text with
  | separator => exact absurd (ofText_separator hword) htext
  | long name value =>
    rw [hword] at hflag
    exact meaning_of_long hlevel hword (by simpa using hflag)
  | cluster letters =>
    rw [hword] at hflag
    cases letters with
    | nil => exact meaning_of_bare (.inr hword)
    | cons c letters =>
      refine meaning_of_cluster hlevel hword ?_
      rintro rfl
      simp at hflag
  | plain => exact meaning_of_bare (.inl hword)

namespace Meaning

variable {s u : State}

/-- A word is read only once what is pending can be taken. -/
theorem settled (h : Meaning level text) (hs : s.Ready) (hstep : level.step s text = .ok u) :
    ∃ t, s.settle = .ok t ∧ level.step t text = .ok u := by
  cases h with
  | option o hmem hkind act hacts h =>
    rw [h s hs.trailing] at hstep
    obtain ⟨t, hsettle, hidle, -, ht⟩ := State.exists_settled hs.trailing hstep
    exact ⟨t, hsettle, (h t hidle.trailing).trans ht⟩
  | bare htext h =>
    rw [h s hs.trailing] at hstep
    obtain ⟨t, hsettle, ht⟩ := bare_settled hs hstep
    exact ⟨t, hsettle, (h t (State.idle_of_settle hs.trailing hsettle).trailing).trans ht⟩
  | refused h => exact absurd hstep (h s u hs.trailing)

/-- The count plays no part in what a word without a flag does. -/
theorem counting (h : Meaning level text) (htrailing : s.trailing = false) (n : Nat)
    (hstep : level.step s text = .ok u) : level.step (s.counting n) text = .ok (u.counting n) := by
  cases h with
  | option o hmem hkind act hacts h =>
    rw [h s htrailing] at hstep
    obtain ⟨t, hsettle, -, hact, -⟩ := State.exists_settled htrailing hstep
    rw [h (s.counting n) htrailing, State.settle_counting, hsettle]
    exact hacts.counting n hact
  | bare htext h =>
    rw [h s htrailing] at hstep
    rw [h (s.counting n) htrailing]
    exact bare_counting htrailing n hstep
  | refused h => exact absurd hstep (h s u htrailing)

/-- Only behind an option that takes the next word is a value awaited, and the next word is that value. -/
theorem behind (h : Meaning level text) (htrailing : s.trailing = false) (hstep : level.step s text = .ok u) :
    u.trailing = false ∧ u.awaiting = (!s.awaiting && decide (text ∈ optionWords)) := by
  cases h with
  | option o hmem hkind act hacts h =>
    rw [h s htrailing] at hstep
    obtain ⟨t, hsettle, hidle, hact, -⟩ := State.exists_settled htrailing hstep
    rw [State.awaiting_of_settle hsettle]
    exact hacts.behind hidle hact
  | bare htext h =>
    rw [h s htrailing] at hstep
    rw [decide_eq_false htext, Bool.and_false]
    exact bare_behind htrailing hstep
  | refused h => exact absurd hstep (h s u htrailing)

theorem ready (h : Meaning level text) (hs : s.Ready) (htext : text ∉ optionWords)
    (hstep : level.step s text = .ok u) : u.Ready := by
  obtain ⟨htrailing, hawaiting⟩ := h.behind hs.trailing hstep
  rw [decide_eq_false htext, Bool.and_false] at hawaiting
  exact ⟨htrailing, hawaiting⟩

theorem ready_behind_value {value : String} {v : State} (h : Meaning level text) (hvalue : Meaning level value)
    (hs : s.Ready) (htext : text ∈ optionWords) (hstep : level.step s text = .ok u)
    (hstep' : level.step u value = .ok v) : v.Ready := by
  obtain ⟨htrailing, hawaiting⟩ := h.behind hs.trailing hstep
  obtain ⟨htrailing', hawaiting'⟩ := hvalue.behind htrailing hstep'
  rw [hawaiting, hs.awaiting, decide_eq_true htext] at hawaiting'
  exact ⟨htrailing', hawaiting'⟩

theorem count_eq (h : Meaning level text) (htrailing : s.trailing = false) (hstep : level.step s text = .ok u) :
    u.count = s.count := by
  have hsame := h.counting htrailing s.count hstep
  rw [State.counting_self, hstep] at hsame
  exact State.count_eq_of_counting (Except.ok.inj hsame)

end Meaning

/-! ### What a flag does -/

theorem VerbosityFlag.ofText_letters (more : Nat) :
    Word.ofText (letters more).word = .cluster ('v' :: List.replicate more 'v') := by
  unfold Word.ofText
  simp only [word, String.toList_ofList, List.replicate_succ]
  rfl

theorem cluster_verbose (hlevel : level.HasVerbose) (s : State) (letters : List Char) :
    level.cluster s ('v' :: letters) = s.act Arguments.verboseOption >>= fun s => level.cluster s letters := by
  rw [Level.cluster.eq_def level s ('v' :: letters)]
  simp only [hlevel.letter]
  rfl

theorem cluster_letters (hlevel : level.HasVerbose) (more : Nat) {s t : State} (htrailing : s.trailing = false)
    (hsettle : s.settle = .ok t) :
    level.cluster s ('v' :: List.replicate more 'v') = .ok (t.counting (min 255 (t.count + (more + 1)))) := by
  induction more generalizing s t with
  | zero =>
    rw [cluster_verbose hlevel, act_verbose hsettle]
    rfl
  | succ more ih =>
    have hidle := State.idle_of_settle htrailing hsettle
    have hrest := ih (s := t.counting (min 255 (t.count + 1))) hidle.trailing (State.settle_of_pending hidle.pending)
    have hcount : min 255 (min 255 (t.count + 1) + (more + 1)) = min 255 (t.count + (more + 1 + 1)) := by omega
    rw [cluster_verbose hlevel, act_verbose hsettle, Cbor.ok_bind, List.replicate_succ, hrest, State.counting_count,
      State.counting_counting, hcount]

/-- A flag takes what is pending, and raises the count. -/
theorem step_flag (hlevel : level.HasVerbose) (f : VerbosityFlag) {s t : State} (htrailing : s.trailing = false)
    (hsettle : s.settle = .ok t) :
    level.step s f.word = .ok (t.counting (min 255 (t.count + f.weight))) := by
  cases f with
  | long =>
    have hword : Word.ofText VerbosityFlag.long.word = .long "verbose" none := by decide
    rw [step_of_long hword htrailing, Level.long, hlevel.name]
    exact act_verbose hsettle
  | letters more =>
    rw [step_of_cluster (VerbosityFlag.ofText_letters more) htrailing]
    exact cluster_letters hlevel more htrailing hsettle

/-! ### Lines -/

theorem Quiet.head {words : List String} (h : Quiet (text :: words)) : text ≠ "--" ∧ hasFlag text = false :=
  h text List.mem_cons_self

theorem Quiet.behind {words : List String} (h : Quiet (text :: words)) : Quiet words :=
  fun other hother => h other (List.mem_cons_of_mem text hother)

section Read

variable {s s' : State} {words words' : List String} {rest : Option (String × List String)}
  (hlevel : level.HasVerbose) (hsubcommands : level.subcommands = [])

include hlevel in
theorem Quiet.meaning (h : Quiet (text :: words)) : Meaning level text := Command.meaning hlevel h.head.1 h.head.2

include hsubcommands

theorem read_cons_eq_ok :
    level.read s (text :: words) = .ok (s', rest) ↔
      ∃ u, level.step s text = .ok u ∧ level.read u words = .ok (s', rest) := by
  rw [Level.read, if_neg (by simp [hsubcommands]), bind_eq_ok]

include hlevel

/-- Words are read only once what is pending can be taken. -/
theorem read_settled (hquiet : Quiet words) (hs : s.Ready) (h : level.read s words = .ok (s', rest)) :
    ∃ t, s.settle = .ok t ∧ level.read t words = .ok (s', rest) := by
  cases words with
  | nil =>
    obtain ⟨t, hsettle, heq⟩ := Cbor.map_eq_ok.mp h
    have hidle := State.idle_of_settle hs.trailing hsettle
    exact ⟨t, hsettle, Cbor.map_eq_ok.mpr ⟨t, State.settle_of_pending hidle.pending, heq⟩⟩
  | cons text words =>
    obtain ⟨u, hstep, hread⟩ := (read_cons_eq_ok hsubcommands).mp h
    obtain ⟨t, hsettle, ht⟩ := (hquiet.meaning hlevel).settled hs hstep
    exact ⟨t, hsettle, (read_cons_eq_ok hsubcommands).mpr ⟨u, ht, hread⟩⟩

/-- The count plays no part in what words without flags do. -/
theorem read_counting (hquiet : Quiet words) (htrailing : s.trailing = false) (n : Nat)
    (h : level.read s words = .ok (s', rest)) : level.read (s.counting n) words = .ok (s'.counting n, rest) := by
  induction words generalizing s with
  | nil =>
    obtain ⟨t, hsettle, heq⟩ := Cbor.map_eq_ok.mp h
    obtain ⟨rfl, rfl⟩ := Prod.mk.inj heq
    refine Cbor.map_eq_ok.mpr ⟨t.counting n, ?_, rfl⟩
    rw [State.settle_counting, hsettle]
    rfl
  | cons text words ih =>
    obtain ⟨u, hstep, hread⟩ := (read_cons_eq_ok hsubcommands).mp h
    have hmeaning := hquiet.meaning hlevel
    have hrest := ih hquiet.behind (hmeaning.behind htrailing hstep).1 hread
    exact (read_cons_eq_ok hsubcommands).mpr ⟨u.counting n, hmeaning.counting htrailing n hstep, hrest⟩

theorem read_count_eq (hquiet : Quiet words) (htrailing : s.trailing = false)
    (h : level.read s words = .ok (s', rest)) : s'.count = s.count := by
  have hsame := read_counting hlevel hsubcommands hquiet htrailing s.count h
  rw [State.counting_self, h] at hsame
  exact State.count_eq_of_counting (Prod.mk.inj (Except.ok.inj hsame)).1

/-- Flags between the words raise the count by their occurrences, and change nothing else. -/
theorem read_flagged {n : Nat} (hflags : Flagged words n words') (hquiet : Quiet words) (hs : s.Ready)
    (hcount : s.count ≤ 255) (h : level.read s words = .ok (s', rest)) :
    level.read s words' = .ok (s'.counting (min 255 (s.count + n)), rest) := by
  induction hflags generalizing s s' with
  | nil =>
    have hsame := read_count_eq hlevel hsubcommands hquiet hs.trailing h
    rw [Nat.add_zero, Nat.min_eq_right hcount, ← hsame, State.counting_self]
    exact h
  | word htext _ ih =>
    obtain ⟨u, hstep, hread⟩ := (read_cons_eq_ok hsubcommands).mp h
    have hmeaning := hquiet.meaning hlevel
    rw [← hmeaning.count_eq hs.trailing hstep] at hcount ⊢
    have hrest := ih hquiet.behind (hmeaning.ready hs htext hstep) hcount hread
    exact (read_cons_eq_ok hsubcommands).mpr ⟨u, hstep, hrest⟩
  | option htext _ ih =>
    obtain ⟨u, hstep, hread⟩ := (read_cons_eq_ok hsubcommands).mp h
    obtain ⟨v, hstep', hread'⟩ := (read_cons_eq_ok hsubcommands).mp hread
    have hmeaning := hquiet.meaning hlevel
    have hvalue := hquiet.behind.meaning hlevel
    have htrailing := (hmeaning.behind hs.trailing hstep).1
    rw [← hmeaning.count_eq hs.trailing hstep, ← hvalue.count_eq htrailing hstep'] at hcount ⊢
    have hready := hmeaning.ready_behind_value hvalue hs htext hstep hstep'
    have hrest := ih hquiet.behind.behind hready hcount hread'
    exact (read_cons_eq_ok hsubcommands).mpr ⟨u, hstep, (read_cons_eq_ok hsubcommands).mpr ⟨v, hstep', hrest⟩⟩
  | @flag words words' n f _ ih =>
    -- The words behind the flag are the same, but read from a state in which nothing is pending any more.
    obtain ⟨t, hsettle, hread⟩ := read_settled hlevel hsubcommands hquiet hs h
    have hidle := State.idle_of_settle hs.trailing hsettle
    have hstep := step_flag hlevel f hs.trailing hsettle
    have hraised := read_counting hlevel hsubcommands hquiet hidle.trailing (min 255 (t.count + f.weight)) hread
    have hready : (t.counting (min 255 (t.count + f.weight))).Ready := ⟨hidle.trailing, hidle.awaiting⟩
    have hrest := ih hquiet hready (Nat.min_le_left 255 _) hraised
    have hsame := State.count_of_settle hsettle
    have hsum : min 255 (min 255 (t.count + f.weight) + n) = min 255 (s.count + (f.weight + n)) := by omega
    rw [State.counting_count, State.counting_counting, hsum] at hrest
    exact (read_cons_eq_ok hsubcommands).mpr ⟨_, hstep, hrest⟩

end Read

end Words

/-! ### The two levels -/

theorem invokeOptions_counting {s : State} {o : InvokeOptions} (n : Nat) (h : Arguments.invokeOptions s = .ok o) :
    Arguments.invokeOptions (s.counting n) = .ok o := by
  have hgiven : Arguments.nothingGiven s = false := by
    cases hnothing : Arguments.nothingGiven s with
    | true => simp [Arguments.invokeOptions, hnothing] at h
    | false => rfl
  obtain ⟨plugin, hplugin⟩ : ∃ plugin, s.value? "plugin" = some plugin := by
    cases hvalue : s.value? "plugin" with
    | none => simp [Arguments.invokeOptions, hgiven, hvalue] at h
    | some plugin => exact ⟨plugin, rfl⟩
  -- The path is a value, so that something is given whatever the count.
  have hgiven' : Arguments.nothingGiven (s.counting n) = false := by
    unfold Arguments.nothingGiven
    cases hvalues : s.values with
    | nil => simp [State.value?, hvalues] at hplugin
    | cons value values => simp [State.counting, hvalues]
  unfold Arguments.invokeOptions at h ⊢
  rw [hgiven] at h
  rw [hgiven']
  exact h

namespace Verb

theorem hasVerbose (verb : Verb) : verb.level.HasVerbose := by
  cases verb <;> exact ⟨by decide, by decide, by decide, by decide, by decide, by decide⟩

theorem subcommands_level (verb : Verb) : verb.level.subcommands = [] := by cases verb <;> rfl

theorem task_counting {verb : Verb} {s : State} {task : Task} (n : Nat) (h : verb.task s = .ok task) :
    verb.task (s.counting n) = .ok task := by
  cases verb with
  | eval => exact h
  | invoke =>
    obtain ⟨o, hoptions, rfl⟩ := Cbor.map_eq_ok.mp h
    exact Cbor.map_eq_ok.mpr ⟨o, invokeOptions_counting n hoptions, rfl⟩

end Verb

theorem outer_hasVerbose : Arguments.outer.HasVerbose :=
  ⟨by decide, by decide, by decide, by decide, by decide, by decide⟩

/-- In front of a command nothing but flags may stand. -/
theorem outer_step_refused {text : String} (htext : text ≠ "--") (hflag : hasFlag text = false) (u : State) :
    Arguments.outer.step .start text ≠ .ok u := by
  intro hstep
  cases meaning outer_hasVerbose htext hflag with
  | option o hmem hkind =>
    have hkinds : ∀ o ∈ Arguments.outer.options, o.kind ∈ [.counter, .help, .version] := by decide
    exact hkind (hkinds o hmem)
  | bare htext h =>
    rw [h .start rfl, bare_eq_ok rfl] at hstep
    obtain ⟨_, _, hpending, -⟩ | ⟨_, _, hplace, -⟩ := hstep
    · nomatch hpending
    · nomatch hplace
  | refused h => exact h .start u rfl hstep

theorem VerbosityFlag.word_not_subcommand (f : VerbosityFlag) :
    Arguments.outer.subcommands.contains f.word = false := by
  have hhyphen : f.word.toList.head? = some '-' := by
    cases f with
    | long => decide
    | letters more => simp [word]
  have hnames : ∀ name ∈ Arguments.outer.subcommands, name.toList.head? ≠ some '-' := by decide
  rw [List.contains_eq_mem, decide_eq_false_iff_not]
  exact fun hmem => hnames _ hmem hhyphen

theorem read_command (verb : Verb) (words : List String) {s : State} (hs : s.Ready) :
    Arguments.outer.read s (verb.word :: words) = .ok (s, some (verb.word, words)) := by
  have hverb : Arguments.outer.subcommands.contains verb.word = true := by cases verb <;> decide
  rw [Level.read, hs.trailing, hs.awaiting, hverb]
  rfl

/-- Flags in front of a command raise the count of the outer level. -/
theorem read_raised {line line' words : List String} {before behind : Nat} {verb : Verb} {s : State}
    (hflags : Raised line before behind line') (hline : line = verb.word :: words) (hs : s.Idle)
    (hcount : s.count ≤ 255) :
    ∃ words', Flagged words behind words' ∧
      Arguments.outer.read s line' = .ok (s.counting (min 255 (s.count + before)), some (verb.word, words')) := by
  induction hflags generalizing s with
  | @command command words words' behind hflagged =>
    obtain ⟨rfl, rfl⟩ := List.cons.inj hline
    refine ⟨words', hflagged, ?_⟩
    rw [Nat.add_zero, Nat.min_eq_right hcount, State.counting_self]
    exact read_command verb words' hs.ready
  | @flag line line' before behind f _ ih =>
    have hstep := step_flag outer_hasVerbose f hs.trailing (State.settle_of_pending hs.pending)
    have hidle : (s.counting (min 255 (s.count + f.weight))).Idle := ⟨hs.pending, hs.trailing⟩
    obtain ⟨words', hflagged, hrest⟩ := ih hline hidle (Nat.min_le_left 255 _)
    have hsum : min 255 (min 255 (s.count + f.weight) + before) = min 255 (s.count + (f.weight + before)) := by omega
    refine ⟨words', hflagged, ?_⟩
    rw [Level.read, f.word_not_subcommand, Bool.and_false, if_neg Bool.false_ne_true, hstep, Cbor.ok_bind, hrest,
      State.counting_count, State.counting_counting, hsum]

theorem parse_eq_ok {line words : List String} {s : State} {verb : Verb} {a : Arguments}
    (hread : Arguments.outer.read .start line = .ok (s, some (verb.word, words))) :
    Arguments.parse line = .ok a ↔ ∃ inner rest, verb.level.read .start words = .ok (inner, rest) ∧
      verb.task inner = .ok a.task ∧ a.verbosity = Arguments.effectiveVerbosity s inner := by
  rw [parse_eq hread]
  cases verb.level.read .start words with
  | error c => simp
  | ok read =>
    obtain ⟨inner, rest⟩ := read
    obtain ⟨verbosity, task⟩ := a
    cases htask : verb.task inner with
    | error c => simp [htask]
    | ok task => simp [htask, and_comm, eq_comm]

/-- A line without flags starts with a command. -/
theorem exists_verb {line : List String} {a : Arguments} (hquiet : Quiet line) (h : Arguments.parse line = .ok a) :
    ∃ (verb : Verb) (words : List String), line = verb.word :: words := by
  cases line with
  | nil => nomatch h
  | cons text words =>
    have hread : Arguments.outer.read .start (text :: words) =
        if Arguments.outer.subcommands.contains text then .ok (.start, some (text, words))
        else Arguments.outer.step .start text >>= fun s => Arguments.outer.read s words := rfl
    unfold Arguments.parse at h
    rw [hread] at h
    split at h
    · next hcommand =>
      have hmem : text = Arguments.evalWord ∨ text = Arguments.invokeWord ∨ text = Arguments.helpWord := by
        simpa [Arguments.outer, Arguments.subcommands] using hcommand
      obtain rfl | rfl | rfl := hmem
      · exact ⟨.eval, words, rfl⟩
      · exact ⟨.invoke, words, rfl⟩
      · nomatch h
    · cases hstep : Arguments.outer.step .start text with
      | error c =>
        rw [hstep] at h
        nomatch h
      | ok u => exact absurd hstep (outer_step_refused hquiet.head.1 hquiet.head.2 u)

/-- What a line says with flags put into it. Those in front of the command count only if none stands behind it. -/
theorem parse_raised {line line' : List String} {a : Arguments} {before behind : Nat} (hquiet : Quiet line)
    (hvalid : Arguments.parse line = .ok a) (hflags : Raised line before behind line') :
    Arguments.parse line' = .ok ⟨min 255 (if behind = 0 then before else behind), a.task⟩ := by
  obtain ⟨verb, words, rfl⟩ := exists_verb hquiet hvalid
  have hidle : State.start.Idle := ⟨rfl, rfl⟩
  have hcount : State.start.count ≤ 255 := by decide
  obtain ⟨inner, rest, hread, htask, -⟩ := (parse_eq_ok (read_command verb words hidle.ready)).mp hvalid
  obtain ⟨words', hflagged, houter⟩ := read_raised hflags rfl hidle hcount
  have hread' := read_flagged verb.hasVerbose verb.subcommands_level hflagged hquiet.behind
    hidle.ready hcount hread
  have hstart (n : Nat) : min 255 (State.start.count + n) = min 255 n := congrArg (min 255) (Nat.zero_add n)
  refine (parse_eq_ok houter).mpr ⟨_, rest, hread', Verb.task_counting _ htask, ?_⟩
  simp only [Arguments.effectiveVerbosity, State.counting_count, hstart]
  split <;> split <;> omega

/-- Flags for the verbosity may be put anywhere into a line but between an option and its value, and all that the line
says stays as it was. On one side of the command they are all counted, up to 255. On both sides only those behind
it are. -/
theorem verbosity_of_flags {line line' : List String} {a : Arguments} {before behind : Nat} (hquiet : Quiet line)
    (hvalid : Arguments.parse line = .ok a) (hflags : Raised line before behind line') :
    (before = 0 ∨ behind = 0 → Arguments.parse line' = .ok ⟨min 255 (before + behind), a.task⟩) ∧
      (behind ≠ 0 → Arguments.parse line' = .ok ⟨min 255 behind, a.task⟩) := by
  rw [parse_raised hquiet hvalid hflags]
  refine ⟨fun hside => ?_, fun hbehind => by rw [if_neg hbehind]⟩
  have hsum : (if behind = 0 then before else behind) = before + behind := by split <;> omega
  rw [hsum]

theorem flags_around_words :
    Arguments.parse ["invoke", "--verbose", "p.wasm", "-vv", "greet", "--payload", "[1]", "-v"] =
        .ok ⟨4, .invoke ⟨"p.wasm", "greet", some "[1]", false, none, none⟩⟩ ∧
      Arguments.parse ["-v", "--verbose", "eval", "-vvv", "-e", "-"] = .ok ⟨3, .eval ⟨none, some "-"⟩⟩ := by
  have hrequest : Quiet ["invoke", "p.wasm", "greet", "--payload", "[1]"] := by
    unfold Quiet
    decide
  have hcode : Quiet ["eval", "-e", "-"] := by
    unfold Quiet
    decide
  have hbehind : Flagged ["p.wasm", "greet", "--payload", "[1]"] 4
      ["--verbose", "p.wasm", "-vv", "greet", "--payload", "[1]", "-v"] :=
    .flag .long (.word (by decide) (.flag (.letters 1) (.word (by decide)
      (.option (by decide) (.flag (.letters 0) .nil)))))
  have hboth : Raised ["eval", "-e", "-"] 2 3 ["-v", "--verbose", "eval", "-vvv", "-e", "-"] :=
    .flag (.letters 0) (.flag .long (.command (.flag (.letters 2) (.option (by decide) .nil))))
  exact ⟨(verbosity_of_flags hrequest rfl (.command hbehind)).1 (.inl rfl),
    (verbosity_of_flags hcode rfl hboth).2 (by decide)⟩

/-- A flag behind the command takes back those in front of it. -/
theorem verbosity_is_lowered :
    Raised ["eval"] 2 1 ["-vv", "eval", "-v"] ∧ Quiet ["eval"] ∧
      Arguments.parse ["eval"] = .ok ⟨0, .eval ⟨none, none⟩⟩ ∧
      Arguments.parse ["-vv", "eval"] = .ok ⟨2, .eval ⟨none, none⟩⟩ ∧
      Arguments.parse ["-vv", "eval", "-v"] = .ok ⟨1, .eval ⟨none, none⟩⟩ ∧
      Arguments.parse ["-vv", "eval", "-v"] ≠ .ok ⟨min 255 (2 + 1), .eval ⟨none, none⟩⟩ := by
  refine ⟨.flag (.letters 1) (.command (.flag (.letters 0) .nil)), ?_, ?_, ?_, ?_, ?_⟩
  · unfold Quiet
    decide
  · rfl
  · rfl
  · rfl
  · nofun

end PluginRelay.Command
