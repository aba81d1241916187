import Mathlib.Data.List.Nodup
import Mathlib.Logic.Function.Basic
import PluginRelay.Embedding.Engines

/-!
# Turns of exceptions

Each exception that is taken has a turn of its own, in whichever engine of the process that is. So the turn tells at
which place of which record an exception was taken, and a context that keeps an exception of some turn keeps the one that
was taken then. The program sees numbers in place of turns; these tell the same until the counter is through.
-/
namespace PluginRelay.Embedding

open Script

variable {κ τ : Type}

/-! ### Records -/

theorem mem_turnsOf {turn : ℕ} {record : List Occurrence} :
    turn ∈ turnsOf record ↔ ∃ id e v, .taken id turn e v ∈ record := by
  unfold turnsOf
  rw [List.mem_flatMap]
  constructor
  · rintro ⟨o, ho, hturn⟩
    cases o with
    | taken id n e v =>
      obtain rfl := List.mem_singleton.mp hturn
      exact ⟨id, e, v, ho⟩
    | rethrown id n => cases hturn
    | forgotten id => cases hturn
  · rintro ⟨id, e, v, ho⟩
    exact ⟨_, ho, List.mem_singleton_self _⟩

/-- The numbers of the exceptions that were taken. -/
def serialsOf (record : List Occurrence) : List UInt64 :=
  record.flatMap fun
    | .taken _ _ e _ => [e.serial]
    | _ => []

theorem serialsOf_eq_map {record : List Occurrence}
    (h : ∀ id turn e v, .taken id turn e v ∈ record → e.serial = serialOf turn) :
    serialsOf record = (turnsOf record).map serialOf := by
  unfold serialsOf turnsOf
  rw [List.map_flatMap]
  refine List.flatMap_congr fun o ho => ?_
  cases o with
  | taken id turn e v => exact congrArg ([·]) (h id turn e v ho)
  | rethrown id turn => rfl
  | forgotten id => rfl

theorem keptAfter_append {id : ContextId} {since : List Occurrence} (h : ∀ o ∈ since, o.context ≠ id)
    (record : List Occurrence) : keptAfter id (since ++ record) = keptAfter id record := by
  induction since with
  | nil => rfl
  | cons o rest ih =>
    rw [List.cons_append, keptAfter_cons, if_neg (h o List.mem_cons_self)]
    exact ih fun o ho => h o (List.mem_cons_of_mem _ ho)

/-- What a context keeps was taken, and nothing has happened to the context since. -/
theorem keptAfter_eq_some {id : ContextId} {turn : ℕ} {v : Value} {record : List Occurrence} :
    keptAfter id record = some (turn, v) ↔
      ∃ since e before, record = since ++ .taken id turn e v :: before ∧ ∀ o ∈ since, o.context ≠ id := by
  constructor
  · intro h
    obtain ⟨o, hfind, hleaves⟩ := Option.bind_eq_some_iff.mp h
    obtain ⟨hcontext, since, before, hrecord, hsince⟩ := List.find?_eq_some_iff_append.mp hfind
    cases o with
    | taken other n e w =>
      obtain rfl : other = id := by simpa [Occurrence.context] using of_decide_eq_true hcontext
      obtain ⟨rfl, rfl⟩ : n = turn ∧ w = v := by simpa [Occurrence.leaves] using hleaves
      exact ⟨since, e, before, hrecord, fun o ho => by simpa using hsince o ho⟩
    | rethrown other n => cases hleaves
    | forgotten other => cases hleaves
  · rintro ⟨since, e, before, rfl, hsince⟩
    rw [keptAfter_append hsince, keptAfter_cons, Occurrence.context, if_pos rfl]
    rfl

/-- A turn tells the place of the record at which it was taken. -/
theorem place_unique {id other : ContextId} {turn : ℕ} {e f : Thrown} {v w : Value}
    {since since' before before' : List Occurrence}
    (hdistinct : (turnsOf (since ++ .taken id turn e v :: before)).Nodup)
    (hrecord : since ++ .taken id turn e v :: before = since' ++ .taken other turn f w :: before') :
    since = since' ∧ id = other ∧ v = w := by
  induction since generalizing since' with
  | nil =>
    cases since' with
    | nil =>
      obtain ⟨heq, -⟩ := List.cons.inj hrecord
      cases heq
      exact ⟨rfl, rfl, rfl⟩
    | cons o rest =>
      obtain ⟨rfl, rfl⟩ := List.cons.inj hrecord
      simp [Occurrence.turns] at hdistinct
  | cons o rest ih =>
    cases since' with
    | nil =>
      obtain ⟨rfl, rfl⟩ := List.cons.inj hrecord
      simp [Occurrence.turns] at hdistinct
    | cons o' rest' =>
      obtain ⟨rfl, hrest⟩ := List.cons.inj hrecord
      rw [List.cons_append, turnsOf_cons] at hdistinct
      obtain ⟨rfl, hid, hv⟩ := ih (List.nodup_append.mp hdistinct).2.1 hrest
      exact ⟨rfl, hid, hv⟩

/-- Since then the context has taken no other exception and has not thrown this one again. -/
def Untouched (id : ContextId) (turn : ℕ) (since : List Occurrence) : Prop :=
  (∀ later e v, .taken id later e v ∉ since) ∧ .rethrown id turn ∉ since

namespace Exceptions

variable {x : Exceptions} {used turn : ℕ} {pending : List ℕ} {record since before : List Occurrence}
variable {id : ContextId} {e : Thrown} {v : Value}

theorem Fits.nodup_turns (h : x.Fits used pending record) : (turnsOf record).Nodup :=
  (List.nodup_append.mp h.distinct).2.1

theorem Fits.lt_of_taken (h : x.Fits used pending record) (htaken : .taken id turn e v ∈ record) : turn < used :=
  h.before turn (List.mem_append_right _ (mem_turnsOf.mpr ⟨id, e, v, htaken⟩))

/-- What a context keeps was taken under the number that it has. -/
theorem Fits.taken_of_kept (h : x.Fits used pending record) {serial : UInt64} (hkept : x.kept[id]? = some (serial, v)) :
    ∃ turn e, .taken id turn e v ∈ record ∧ e.serial = serial := by
  obtain ⟨turn, hafter, rfl⟩ := h.turn_of_kept hkept
  obtain ⟨since, e, before, rfl, -⟩ := keptAfter_eq_some.mp hafter
  exact ⟨turn, e, by simp, h.described id turn e v (by simp)⟩

/-- Until the counter is through, the number of a turn tells the turn. -/
theorem Fits.keptAfter_of_kept (h : x.Fits used pending record) (hused : used ≤ UInt64.size) (hturn : turn < used)
    (hkept : x.kept[id]? = some (serialOf turn, v)) : keptAfter id record = some (turn, v) := by
  obtain ⟨kept, hafter, hserial⟩ := h.turn_of_kept hkept
  obtain ⟨since, e, before, hrecord, -⟩ := keptAfter_eq_some.mp hafter
  have hlt : kept < used := h.lt_of_taken (hrecord ▸ List.mem_append_right since List.mem_cons_self)
  rwa [serialOf_inj (Nat.lt_of_lt_of_le hlt hused) (Nat.lt_of_lt_of_le hturn hused) hserial] at hafter

/-- An exception that was taken is kept by no context but its own, and only while nothing happens to that. -/
theorem Fits.keptAfter_iff (h : x.Fits used pending (since ++ .taken id turn e v :: before)) (other : ContextId)
    (w : Value) : keptAfter other (since ++ .taken id turn e v :: before) = some (turn, w) ↔
      other = id ∧ w = v ∧ ∀ o ∈ since, o.context ≠ id := by
  rw [keptAfter_eq_some]
  constructor
  · rintro ⟨since', f, before', hrecord, hsince⟩
    obtain ⟨rfl, rfl, rfl⟩ := place_unique h.nodup_turns hrecord
    exact ⟨rfl, rfl, hsince⟩
  · rintro ⟨rfl, rfl, hsince⟩
    exact ⟨since, e, before, rfl, hsince⟩

/-- Only what a context keeps can it throw again. -/
theorem Reached.kept_of_rethrown (h : Reached used pending record x)
    (hrecord : record = since ++ .rethrown id turn :: before) : ∃ v, keptAfter id before = some (turn, v) := by
  induction h generalizing since with
  | start => simp at hrecord
  | number _ ih => exact ih hrecord
  | elsewhere _ ih => exact ih hrecord
  | keep other f w _ _ ih =>
    cases since with
    | nil => nomatch (List.cons.inj hrecord).1
    | cons o rest => exact ih (List.cons.inj hrecord).2
  | forget other _ ih =>
    cases since with
    | nil => nomatch (List.cons.inj hrecord).1
    | cons o rest => exact ih (List.cons.inj hrecord).2
  | rethrow hbefore hkept ih =>
    cases since with
    | nil =>
      obtain ⟨heq, rfl⟩ := List.cons.inj hrecord
      cases heq
      exact ⟨_, hkept⟩
    | cons o rest => exact ih (List.cons.inj hrecord).2

/-- The first thing that happens to an untouched exception in its context would be to throw it again. -/
theorem Reached.context_ne_of_untouched (h : Reached used pending (since ++ .taken id turn e v :: before) x)
    (huntouched : Untouched id turn since) {first rest : List Occurrence} {o : Occurrence}
    (hsince : since = first ++ o :: rest) (halive : o ≠ .forgotten id) (hrest : ∀ o ∈ rest, o.context ≠ id) :
    o.context ≠ id := by
  intro ho
  have hmem : o ∈ since := hsince ▸ List.mem_append_right first List.mem_cons_self
  cases o with
  | taken other later f w =>
    obtain rfl : other = id := ho
    exact huntouched.1 later f w hmem
  | forgotten other => exact halive (congrArg Occurrence.forgotten ho)
  | rethrown other later =>
    obtain rfl : other = id := ho
    -- The context still keeps this exception, so it is the one that was thrown.
    have hrecord : since ++ .taken other turn e v :: before =
        first ++ .rethrown other later :: (rest ++ .taken other turn e v :: before) := by
      rw [hsince, List.append_assoc, List.cons_append]
    obtain ⟨w, hw⟩ := h.kept_of_rethrown hrecord
    rw [keptAfter_append hrest, keptAfter_cons, Occurrence.context, if_pos rfl] at hw
    obtain ⟨rfl, -⟩ : turn = later ∧ v = w := by simpa [Occurrence.leaves] using hw
    exact huntouched.2 hmem

/-- In a context that is not gone, nothing has happened to an exception that is untouched. -/
theorem Reached.untouched_iff (h : Reached used pending (since ++ .taken id turn e v :: before) x)
    (halive : .forgotten id ∉ since) : Untouched id turn since ↔ ∀ o ∈ since, o.context ≠ id := by
  constructor
  · intro huntouched
    have hsuffix : ∀ first last, since = first ++ last → ∀ o ∈ last, o.context ≠ id := by
      intro first last
      induction last generalizing first with
      | nil => exact fun _ => nofun
      | cons o rest ih =>
        intro hsince
        have hrest : ∀ o ∈ rest, o.context ≠ id := ih (first ++ [o]) (by rw [hsince, List.append_cons])
        have hnot : o ≠ .forgotten id := by
          rintro rfl
          exact halive (hsince ▸ List.mem_append_right first List.mem_cons_self)
        exact List.forall_mem_cons.mpr ⟨h.context_ne_of_untouched huntouched hsince hnot hrest, hrest⟩
    exact hsuffix [] since rfl
  · intro hsince
    exact ⟨fun later f w hm => hsince _ hm rfl, fun hm => hsince _ hm rfl⟩

end Exceptions

/-! ### What contexts keep -/

namespace World

variable {w : World κ τ} {used turn : ℕ} {pending : List ℕ} {record since before : List Occurrence}
variable {id context : ContextId} {e : Thrown} {v : Value}

theorem Reached.not_forgotten (h : w.Reached used pending record) (halive : w.manages id = true) :
    .forgotten id ∉ record := by
  intro hm
  have hgone : w.contexts[id]? = some .gone := h.gone id hm
  simp [manages, hgone] at halive

/-- In a context that is there, an exception is kept as long as it is untouched. -/
theorem Reached.keptAfter_iff (h : w.Reached used pending (since ++ .taken id turn e v :: before))
    (halive : w.manages context = true) (value : Value) :
    keptAfter context (since ++ .taken id turn e v :: before) = some (turn, value) ↔
      (context = id ∧ Untouched id turn since) ∧ value = v := by
  rw [h.exceptions.fits.keptAfter_iff]
  constructor
  · rintro ⟨rfl, rfl, hsince⟩
    have hnot : .forgotten context ∉ since := fun hm => h.not_forgotten halive (List.mem_append_left _ hm)
    exact ⟨⟨rfl, (h.exceptions.untouched_iff hnot).mpr hsince⟩, rfl⟩
  · rintro ⟨⟨rfl, huntouched⟩, rfl⟩
    have hnot : .forgotten context ∉ since := fun hm => h.not_forgotten halive (List.mem_append_left _ hm)
    exact ⟨rfl, rfl, (h.exceptions.untouched_iff hnot).mp huntouched⟩

theorem takeThrown_of_keptAfter (h : w.Reached used pending record) (he : e.serial = serialOf turn)
    (hkept : keptAfter context record = some (turn, v)) : (w.takeThrown context e).1 = some ⟨context, v⟩ := by
  have hfits := h.exceptions.fits.kept context
  rw [hkept] at hfits
  rw [takeThrown, hfits]
  exact congrArg Prod.fst (if_pos he.symm)

theorem takeThrown_of_not_keptAfter (h : w.Reached used pending record) (hused : used ≤ UInt64.size)
    (hturn : turn < used) (he : e.serial = serialOf turn)
    (hnot : ∀ v, keptAfter context record ≠ some (turn, v)) : (w.takeThrown context e).1 = none := by
  unfold takeThrown
  split
  · next serial value hkept =>
    split
    · next hserial =>
      rw [hserial, he] at hkept
      exact absurd (h.exceptions.fits.keptAfter_of_kept hused hturn hkept) (hnot value)
    · rfl
  · rfl

/-- What is thrown again has the number of the exception that it is thrown for. -/
theorem kept_of_takeThrown {h : Handle} (htake : (w.takeThrown context e).1 = some h) :
    w.exceptions.kept[context]? = some (e.serial, h.value) := by
  unfold takeThrown at htake
  split at htake
  · next serial value hkept =>
    split at htake
    · next hserial =>
      obtain rfl := Option.some.inj htake
      rw [hkept, hserial]
    · cases htake
  · cases htake

end World

/-! ### Engines of a process -/

namespace Engines

/-- How a process has come about: how many turns are used up, and of each engine, which of them belong to exceptions
that it still describes, and what has happened in it. No two engines have had the same turn. -/
structure Reached (p : Engines κ τ) (used : ℕ) (pending : ℕ → List ℕ) (record : ℕ → List Occurrence) : Prop where
  next : p.next = serialOf used
  engine : ∀ i m, p.engine? i = some m → m.host.Reached used (pending i) (record i)
  absent : ∀ i, p.engine? i = none → pending i = [] ∧ record i = []
  apart : ∀ i j turn, turn ∈ pending i ++ turnsOf (record i) → turn ∈ pending j ++ turnsOf (record j) → i = j

variable {p : Engines κ τ} {used used' : ℕ} {pending : ℕ → List ℕ} {record : ℕ → List Occurrence} {i j : ℕ}
  {m m' : Engine κ τ}

theorem reached_start : (start : Engines κ τ).Reached 0 (fun _ => []) fun _ => [] :=
  ⟨rfl, fun _ _ hm => (nomatch hm), fun _ _ => ⟨rfl, rfl⟩, fun _ _ _ hturn => (nomatch hturn)⟩

theorem reached_new (config : Config) (own : τ) : (World.new config own : World κ τ).Reached 0 [] [] :=
  ⟨.start, nofun⟩

/-- An engine that is new has had no turn. -/
theorem Reached.add (h : p.Reached used pending record) (config : Config) (own : τ) :
    (p.add config own).Reached used pending record := by
  refine ⟨h.next, fun i m hm => ?_, fun i hi => ?_, h.apart⟩
  · rw [engine?_add] at hm
    split at hm
    · next hlast =>
      obtain rfl := Option.some.inj hm
      have hnone : p.engine? i = none := by simp [engine?, hlast]
      obtain ⟨hpending, hrecord⟩ := h.absent i hnone
      rw [hpending, hrecord, h.next]
      exact (reached_new config own).lend (Nat.zero_le used)
    · exact h.engine i m hm
  · rw [engine?_add] at hi
    split at hi
    · cases hi
    · exact h.absent i hi

theorem Reached.lt_of_mem (h : p.Reached used pending record) {turn : ℕ}
    (hturn : turn ∈ pending i ++ turnsOf (record i)) : turn < used := by
  cases hm : p.engine? i with
  | none =>
    obtain ⟨hpending, hrecord⟩ := h.absent i hm
    rw [hpending, hrecord] at hturn
    nomatch hturn
  | some m => exact (h.engine i m hm).exceptions.fits.before turn hturn

/-- One engine goes on, with turns that it had or that nobody had. -/
theorem Reached.put (h : p.Reached used pending record) (hm : p.engine? i = some m) (m' : Engine κ τ)
    {left : List ℕ} {happened : List Occurrence} (hreached : m'.host.Reached used' left happened) (hle : used ≤ used')
    (hturns : ∀ turn ∈ left ++ turnsOf happened, turn ∈ pending i ++ turnsOf (record i) ∨ used ≤ turn) :
    (p.put i m').Reached used' (Function.update pending i left) (Function.update record i happened) := by
  have hnext : m'.host.exceptions.next = serialOf used' := hreached.exceptions.fits.next
  -- A turn of the engine that went on is not one of another engine.
  have hapart : ∀ j turn, j ≠ i → turn ∈ left ++ turnsOf happened → turn ∈ pending j ++ turnsOf (record j) → False := by
    intro j turn hj hturn hother
    obtain hold | hnew := hturns turn hturn
    · exact hj (h.apart j i turn hother hold)
    · exact Nat.not_lt.mpr hnew (h.lt_of_mem hother)
  refine ⟨hnext, fun j n hn => ?_, fun j hn => ?_, fun j k turn hj hk => ?_⟩
  · by_cases hij : j = i
    · subst hij
      rw [engine?_put_self hm] at hn
      obtain rfl := Option.some.inj hn
      rwa [Function.update_self, Function.update_self]
    · rw [engine?_put_ne (Ne.symm hij), hnext] at hn
      obtain ⟨old, hold, rfl⟩ := Option.map_eq_some_iff.mp hn
      rw [Function.update_of_ne hij, Function.update_of_ne hij]
      exact (h.engine j old hold).lend hle
  · by_cases hij : j = i
    · subst hij
      rw [engine?_put_self hm] at hn
      nomatch hn
    · rw [engine?_put_ne (Ne.symm hij), Option.map_eq_none_iff] at hn
      rw [Function.update_of_ne hij, Function.update_of_ne hij]
      exact h.absent j hn
  · by_cases hij : j = i
    · by_cases hik : k = i
      · exact hij.trans hik.symm
      · rw [hij, Function.update_self, Function.update_self] at hj
        rw [Function.update_of_ne hik, Function.update_of_ne hik] at hk
        exact (hapart k turn hik hj hk).elim
    · rw [Function.update_of_ne hij, Function.update_of_ne hij] at hj
      by_cases hik : k = i
      · rw [hik, Function.update_self, Function.update_self] at hk
        exact (hapart j turn hij hk hj).elim
      · rw [Function.update_of_ne hik, Function.update_of_ne hik] at hk
        exact h.apart j k turn hj hk

/-- An engine starts to describe an exception, in the next turn. -/
theorem Reached.number (h : p.Reached used pending record) (hm : p.engine? i = some m) :
    (p.put i { m with host := m.host.number }).Reached (used + 1) (Function.update pending i (used :: pending i))
      record := by
  have hput := h.put hm { m with host := m.host.number } (h.engine i m hm).number (Nat.le_succ used)
    fun turn hturn => ?_
  · rwa [Function.update_eq_self] at hput
  · rw [List.cons_append, List.mem_cons] at hturn
    exact hturn.elim (fun heq => .inr (Nat.le_of_eq heq.symm)) .inl

/-- More has happened in an engine. -/
theorem Reached.follows (h : p.Reached used pending record) (hm : p.engine? i = some m) {since : List Occurrence}
    (hfollows : m'.host.Follows used (pending i) (record i) since used') :
    (p.put i m').Reached used' pending (Function.update record i (since ++ record i)) := by
  have hput := h.put hm m' hfollows.reached hfollows.le fun turn hturn => ?_
  · rwa [Function.update_eq_self] at hput
  · rw [turnsOf_append, List.mem_append, List.mem_append] at hturn
    obtain hpending | hsince | hbefore := hturn
    · exact .inl (List.mem_append_left _ hpending)
    · exact .inr (hfollows.later turn hsince)
    · exact .inl (List.mem_append_right _ hbefore)

/-- An engine of a process has gone on, and more has happened in it. -/
def GoesOn (p : Engines κ τ) (i : ℕ) (pending : ℕ → List ℕ) (record : ℕ → List Occurrence) : Prop :=
  ∃ since used, p.Reached used pending (Function.update record i (since ++ record i))

theorem Reached.goesOn (h : p.Reached used pending record) (hm : p.engine? i = some m)
    (hevolves : World.Evolves m.host m'.host) : (p.put i m').GoesOn i pending record := by
  obtain ⟨since, used', hfollows⟩ := hevolves.reached used _ _ (h.engine i m hm)
  exact ⟨since, used', h.follows hm hfollows⟩

/-- An engine is done with describing an exception, and a context keeps it. -/
theorem Reached.keep (h : p.Reached used pending record) (hm : p.engine? i = some m) {turn : ℕ} {left : List ℕ}
    (hpending : pending i = turn :: left) (held : Handle) {e : Thrown} (he : e.serial = serialOf turn) :
    ∃ since used', (p.put i { m with host := m.host.keep e.serial held }).Reached used'
      (Function.update pending i left)
      (Function.update record i (.taken held.context turn e held.value :: (since ++ record i))) := by
  have hreached := h.engine i m hm
  rw [hpending] at hreached
  obtain ⟨since, used', hkept, hle, hlater⟩ := hreached.keep held he
  refine ⟨since, used', h.put hm { m with host := m.host.keep e.serial held } hkept hle fun n hn => ?_⟩
  rw [turnsOf_cons, turnsOf_append, Occurrence.turns] at hn
  rw [hpending]
  simp only [List.mem_append, List.mem_cons, List.mem_nil_iff, or_false] at hn ⊢
  obtain hleft | rfl | hsince | hbefore := hn
  · exact .inl (.inl (.inr hleft))
  · exact .inl (.inl (.inl rfl))
  · exact .inr (hlater n hsince)
  · exact .inl (.inr hbefore)

theorem Reached.turn_of_taken (h : p.Reached used pending record) {id : ContextId} {turn : ℕ} {e : Thrown} {v : Value}
    (htaken : .taken id turn e v ∈ record i) :
    turn < used ∧ e.serial = serialOf turn ∧ turn ∈ pending i ++ turnsOf (record i) := by
  have hmem : turn ∈ pending i ++ turnsOf (record i) :=
    List.mem_append_right _ (mem_turnsOf.mpr ⟨id, e, v, htaken⟩)
  refine ⟨h.lt_of_mem hmem, ?_, hmem⟩
  cases hm : p.engine? i with
  | none =>
    rw [(h.absent i hm).2] at htaken
    nomatch htaken
  | some m => exact (h.engine i m hm).exceptions.fits.described id turn e v htaken

/-- No two exceptions have the same number, until the counter is through. -/
theorem Reached.nodup_serials (h : p.Reached used pending record) (hused : used ≤ UInt64.size) (i : ℕ) :
    (serialsOf (record i)).Nodup := by
  rw [serialsOf_eq_map fun id turn e v htaken => (h.turn_of_taken htaken).2.1]
  refine List.Nodup.map_on (fun a ha b hb hserial => ?_) ?_
  · have hlt : ∀ turn ∈ turnsOf (record i), turn < UInt64.size := fun turn hturn =>
      Nat.lt_of_lt_of_le (h.lt_of_mem (List.mem_append_right _ hturn)) hused
    exact serialOf_inj (hlt a ha) (hlt b hb) hserial
  · cases hm : p.engine? i with
    | none =>
      rw [(h.absent i hm).2]
      exact List.nodup_nil
    | some m => exact (h.engine i m hm).exceptions.fits.nodup_turns

theorem Reached.disjoint_serials (h : p.Reached used pending record) (hused : used ≤ UInt64.size) (hij : i ≠ j) :
    (serialsOf (record i)).Disjoint (serialsOf (record j)) := by
  rw [serialsOf_eq_map fun id turn e v htaken => (h.turn_of_taken htaken).2.1,
    serialsOf_eq_map fun id turn e v htaken => (h.turn_of_taken htaken).2.1]
  intro serial hi hj
  obtain ⟨a, ha, rfl⟩ := List.mem_map.mp hi
  obtain ⟨b, hb, hserial⟩ := List.mem_map.mp hj
  have hmem := List.mem_append_right (pending i) ha
  have hmem' := List.mem_append_right (pending j) hb
  have hlt := Nat.lt_of_lt_of_le (h.lt_of_mem hmem) hused
  have hlt' := Nat.lt_of_lt_of_le (h.lt_of_mem hmem') hused
  obtain rfl := serialOf_inj hlt' hlt hserial
  exact hij (h.apart i j b hmem hmem')

/-- An exception is there to be thrown again only in its own engine and context, and as long as it is untouched. -/
theorem Reached.takeThrown (h : p.Reached used pending record) (hm : p.engine? i = some m) {context id : ContextId}
    (halive : m.host.manages context = true) {turn : ℕ} {e : Thrown} {v : Value} {since before : List Occurrence}
    (hrecord : record j = since ++ .taken id turn e v :: before) :
    (i = j ∧ context = id ∧ Untouched id turn since → (m.host.takeThrown context e).1 = some ⟨context, v⟩) ∧
    (used ≤ UInt64.size → ¬(i = j ∧ context = id ∧ Untouched id turn since) →
      (m.host.takeThrown context e).1 = none) := by
  have htaken : .taken id turn e v ∈ record j := hrecord ▸ List.mem_append_right since List.mem_cons_self
  obtain ⟨hlt, he, hmem⟩ := h.turn_of_taken htaken
  have hreached := h.engine i m hm
  constructor
  · rintro ⟨rfl, huntouched⟩
    refine World.takeThrown_of_keptAfter hreached he ?_
    rw [hrecord] at hreached ⊢
    exact (hreached.keptAfter_iff halive v).mpr ⟨huntouched, rfl⟩
  · intro hused hother
    refine World.takeThrown_of_not_keptAfter hreached hused hlt he fun value hkept => ?_
    obtain ⟨_, f, _, hplace, -⟩ := keptAfter_eq_some.mp hkept
    have hsame : i = j := by
      refine h.apart i j turn (List.mem_append_right _ (mem_turnsOf.mpr ⟨context, f, value, ?_⟩)) hmem
      rw [hplace]
      exact List.mem_append_right _ List.mem_cons_self
    subst hsame
    rw [hrecord] at hreached hkept
    exact hother ⟨rfl, ((hreached.keptAfter_iff halive value).mp hkept).1⟩

end Engines

end PluginRelay.Embedding
