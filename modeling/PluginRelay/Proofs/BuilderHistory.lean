import Mathlib.Data.List.Sort
import PluginRelay.Message.Building
import PluginRelay.Message.Wire
import PluginRelay.Proofs.KeyedOrder

/-!
# Builders through their steps

Every step sets one slot of the message, or none if its value does not convert. What is built holds in each slot
what the last step for it put there, so that steps for different slots may change places.
-/
namespace PluginRelay

/-! ## The last step counts -/

namespace Keyed

variable {α : Type}

theorem find?_eq_some_iff {entries : List (String × α)} (h : Sorted entries) {key : String} {value : α} :
    find? key entries = some value ↔ (key, value) ∈ entries := by
  induction entries with
  | nil => simp [find?]
  | cons e rest ih =>
    obtain ⟨hhead, hrest⟩ := sorted_cons.mp h
    by_cases he : e.1 = key
    · have hbehind : (key, value) ∉ rest := fun hmem => (hhead _ hmem).ne he
      simp [find?, he, hbehind, Prod.ext_iff, eq_comm]
    · have hne : (key, value) ≠ e := fun heq => he (heq ▸ rfl)
      rw [List.mem_cons, or_iff_right hne, ← ih hrest]
      simp [find?, he]

theorem find?_insert (key other : String) (value : α) (entries : List (String × α)) :
    find? key (insert other value entries) = (if other = key then some value else none).or (find? key entries) := by
  split_ifs with h
  · rw [h, find?_insert_self, Option.some_or]
  · rw [find?_insert_other (Ne.symm h), Option.none_or]

/-- Entries in the order of their keys are known by what is found under each key. -/
theorem eq_of_find? {a b : List (String × α)} (ha : Sorted a) (hb : Sorted b)
    (h : ∀ key, find? key a = find? key b) : a = b := by
  have : Std.Irrefl fun e f : String × α => e.1 < f.1 := ⟨fun e => lt_irrefl e.1⟩
  have : Std.Antisymm fun e f : String × α => e.1 < f.1 := ⟨fun _ _ hlt hgt => absurd hgt hlt.not_gt⟩
  refine List.Pairwise.eq_of_mem_iff ha hb fun e => ?_
  rw [← find?_eq_some_iff ha, ← find?_eq_some_iff hb, h]

end Keyed

section

variable {σ ε κ β : Type}

/-- A part of the state that every step sets or leaves alone is what the last step that sets it made it. -/
theorem foldl_eq_last {next : σ → ε → σ} {set? : ε → Option β} (part : σ → Option β)
    (h : ∀ s e, part (next s e) = (set? e).or (part s)) (s : σ) (steps : List ε) :
    part (steps.foldl next s) = (steps.filterMap set?).getLast?.or (part s) := by
  induction steps generalizing s with
  | nil => rfl
  | cons e steps ih =>
    rw [List.foldl_cons, ih, h, List.filterMap_cons]
    cases set? e with
    | none => rfl
    | some v =>
      rw [List.getLast?_cons]
      cases (steps.filterMap set?).getLast? <;> rfl

/-- The same of a part that is always there. -/
theorem foldl_eq_lastD {next : σ → ε → σ} {set? : ε → Option β} (part : σ → β)
    (h : ∀ s e, part (next s e) = (set? e).getD (part s)) (s : σ) (steps : List ε) :
    part (steps.foldl next s) = (steps.filterMap set?).getLast?.getD (part s) := by
  have hstep (s : σ) (e : ε) : some (part (next s e)) = (set? e).or (some (part s)) := by
    rw [h, Option.or_some]
  have hlast := foldl_eq_last (fun s => some (part s)) hstep s steps
  rw [Option.or_some] at hlast
  exact Option.some.inj hlast

variable [DecidableEq κ] {slot? : ε → Option κ}

/-- The two sequences have the same steps for each slot, in the same order. -/
def SameOrder (slot? : ε → Option κ) (a b : List ε) : Prop :=
  ∀ slot, a.filter (slot? · = some slot) = b.filter (slot? · = some slot)

theorem SameOrder.filterMap {a b : List ε} (h : SameOrder slot? a b) {slot : κ} {set? : ε → Option β}
    (hset : ∀ e, slot? e ≠ some slot → set? e = none) : a.filterMap set? = b.filterMap set? := by
  have hfilter (steps : List ε) : (steps.filter (slot? · = some slot)).filterMap set? = steps.filterMap set? := by
    rw [List.filterMap_filter]
    refine List.filterMap_congr fun e _ => ?_
    split_ifs with he
    · rfl
    · exact (hset e (by simpa using he)).symm
  rw [← hfilter a, ← hfilter b, h slot]

end

namespace Message

/-- What a step may set: a field, or the value under one key. -/
inductive Slot where
  | requestId
  | fireAndForget
  | payload
  | entry (key : String)
  deriving DecidableEq

/-- No step spends the builder. -/
theorem Builder.changed_eq {α ε : Type} {step : ε → Builder α → Step α} {next : α → ε → α}
    (h : ∀ a c, (step c (some a)).builder = some (next a c)) (a : α) (changes : List ε) :
    changed step (some a) changes = some (changes.foldl next a) := by
  induction changes generalizing a with
  | nil => rfl
  | cons c changes ih =>
    rw [changed, List.foldl_cons, h]
    exact ih (next a c)

/-! ## Requests -/

namespace Request

/-- What a step that succeeds sets. -/
def Change.slot? : Change → Option Slot
  | .requestId _ => some .requestId
  | .rawPayload _ => some .payload
  | .payload converted => converted.map fun _ => .payload
  | .fireAndForget _ => some .fireAndForget
  | .entry key _ => some (.entry key)

def Change.id? : Change → Option Uuid
  | .requestId id => some id
  | _ => none

def Change.payload? : Change → Option Cbor.Value
  | .rawPayload value => some value
  | .payload converted => converted
  | _ => none

def Change.flag? : Change → Option Bool
  | .fireAndForget yes => some yes
  | _ => none

def Change.entry? (key : String) : Change → Option Cbor.Value
  | .entry k value => if k = key then some value else none
  | _ => none

/-- Each slot of the request holds what the last step that set it put there, or what a new request has. -/
structure Holds (r : Request) (id : Uuid) (endpoint : String) (changes : List Change) : Prop where
  id : r.id = (changes.filterMap Change.id?).getLast?.getD id
  endpoint : r.endpoint = endpoint
  fireAndForget : r.fireAndForget = (changes.filterMap Change.flag?).getLast?.getD false
  payload : r.payload = (changes.filterMap Change.payload?).getLast?.getD .null
  sorted : Keyed.Sorted r.entries
  entries : ∀ key, Keyed.find? key r.entries = (changes.filterMap (Change.entry? key)).getLast?

/-- The request that a step leaves behind. -/
def Change.next (r : Request) : Change → Request
  | .requestId id => r.setId id
  | .rawPayload value => r.setPayload value
  | .payload none => r
  | .payload (some value) => r.setPayload value
  | .fireAndForget yes => r.setFireAndForget yes
  | .entry key value => r.setMeta key value

theorem builder_step (r : Request) (c : Change) : (c.step (some r)).builder = some (c.next r) := by
  match c with
  | .requestId _ | .rawPayload _ | .payload none | .payload (some _) | .fireAndForget _ | .entry _ _ => rfl

/-- A step succeeds exactly if it sets something; the only other ones are those whose value does not convert. -/
theorem step_cases (c : Change) (r : Request) :
    (c.slot?.isSome ∧ c.step (some r) = .done (some (c.next r))) ∨
      (c = .payload none ∧ c.slot? = none ∧ c.step (some r) = .refused .inconvertible (some r)) := by
  match c with
  | .payload none => exact .inr ⟨rfl, rfl, rfl⟩
  | .requestId _ | .rawPayload _ | .payload (some _) | .fireAndForget _ | .entry _ _ => exact .inl ⟨rfl, rfl⟩

section

variable (r : Request) (c : Change)

theorem id_next : (c.next r).id = c.id?.getD r.id := by
  rcases c with _ | _ | (_ | _) | _ | _ <;> rfl

theorem endpoint_next : (c.next r).endpoint = r.endpoint := by
  rcases c with _ | _ | (_ | _) | _ | _ <;> rfl

theorem fireAndForget_next : (c.next r).fireAndForget = c.flag?.getD r.fireAndForget := by
  rcases c with _ | _ | (_ | _) | _ | _ <;> rfl

theorem payload_next : (c.next r).payload = c.payload?.getD r.payload := by
  rcases c with _ | _ | (_ | _) | _ | _ <;> rfl

theorem find?_next (key : String) :
    Keyed.find? key (c.next r).entries = (c.entry? key).or (Keyed.find? key r.entries) := by
  rcases c with _ | _ | (_ | _) | _ | _
  case entry => exact Keyed.find?_insert key _ _ _
  all_goals rfl

theorem sorted_next {r : Request} (h : Keyed.Sorted r.entries) : Keyed.Sorted (c.next r).entries := by
  rcases c with _ | _ | (_ | _) | _ | _
  case entry => exact Keyed.sorted_insert _ _ h
  all_goals exact h

end

theorem holds_foldl (id : Uuid) (endpoint : String) (changes : List Change) :
    (changes.foldl Change.next (new id endpoint)).Holds id endpoint changes where
  id := foldl_eq_lastD Request.id id_next _ _
  endpoint := List.foldlRecOn (motive := fun r => r.endpoint = endpoint) changes Change.next rfl
    fun r h c _ => (endpoint_next r c).trans h
  fireAndForget := foldl_eq_lastD Request.fireAndForget fireAndForget_next _ _
  payload := foldl_eq_lastD Request.payload payload_next _ _
  sorted := List.foldlRecOn (motive := fun r => Keyed.Sorted r.entries) changes Change.next Keyed.sorted_nil
    fun _ h c _ => sorted_next c h
  entries key := by
    rw [foldl_eq_last (fun r => Keyed.find? key r.entries) (fun r c => find?_next r c key)]
    exact Option.or_none

section

variable {c : Change}

theorem id?_eq_none (h : c.slot? ≠ some .requestId) : c.id? = none := by
  cases c with
  | requestId => exact absurd rfl h
  | _ => rfl

theorem id?_of_slot (h : c.slot? = some .requestId) : ∃ id, c.id? = some id := by
  match c, h with
  | .requestId id, _ => exact ⟨id, rfl⟩
  | .payload none, h | .payload (some _), h => simp [Change.slot?] at h

theorem flag?_eq_none (h : c.slot? ≠ some .fireAndForget) : c.flag? = none := by
  cases c with
  | fireAndForget => exact absurd rfl h
  | _ => rfl

theorem payload?_eq_none (h : c.slot? ≠ some .payload) : c.payload? = none := by
  match c, h with
  | .rawPayload _, h | .payload (some _), h => exact absurd rfl h
  | .requestId _, _ | .payload none, _ | .fireAndForget _, _ | .entry _ _, _ => rfl

theorem entry?_eq_none {key : String} (h : c.slot? ≠ some (.entry key)) : c.entry? key = none := by
  cases c with
  | entry k v => exact if_neg fun hk => h (congrArg (fun k => some (Slot.entry k)) hk)
  | _ => rfl

end

/-- Nothing but the last step for each slot shows in a request. -/
theorem Holds.eq_of_sameOrder {r s : Request} {id id' : Uuid} {endpoint : String} {a b : List Change}
    (hr : r.Holds id endpoint a) (hs : s.Holds id' endpoint b) (h : SameOrder Change.slot? a b)
    (hid : id = id' ∨ ∃ c ∈ a, c.slot? = some .requestId) : r = s := by
  have hids : r.id = s.id := by
    rw [hr.id, hs.id, ← h.filterMap fun _ => id?_eq_none]
    rcases hid with rfl | ⟨c, hc, hslot⟩
    · rfl
    · obtain ⟨x, hx⟩ := id?_of_slot hslot
      have hmem : x ∈ a.filterMap Change.id? := List.mem_filterMap.mpr ⟨c, hc, hx⟩
      rw [List.getLast?_eq_some_getLast (List.ne_nil_of_mem hmem)]
      rfl
  have hflags : r.fireAndForget = s.fireAndForget := by
    rw [hr.fireAndForget, hs.fireAndForget, h.filterMap fun _ => flag?_eq_none]
  have hpayloads : r.payload = s.payload := by
    rw [hr.payload, hs.payload, h.filterMap fun _ => payload?_eq_none]
  have hentries : r.entries = s.entries :=
    Keyed.eq_of_find? hr.sorted hs.sorted fun key => by
      rw [hr.entries, hs.entries, h.filterMap fun _ => entry?_eq_none]
  have hendpoints : r.endpoint = s.endpoint := hr.endpoint.trans hs.endpoint.symm
  cases r
  cases s
  rw [mk.injEq]
  exact ⟨hids, hentries, hflags, hendpoints, hpayloads⟩

/-- No step keeps a request from being built. -/
theorem exists_built (id : Uuid) (endpoint : String) (changes : List Change) :
    ∃ r, built id endpoint changes = .ok (r, none) ∧ r.Holds id endpoint changes :=
  ⟨_, by rw [built, Builder.changed_eq builder_step, Builder.finish], holds_foldl id endpoint changes⟩

end Request

/-! ## Responses -/

namespace Response

def Change.slot? : Change → Option Slot
  | .rawPayload _ => some .payload
  | .payload converted => converted.map fun _ => .payload
  | .error _ => some .payload
  | .entry key _ => some (.entry key)

/-- An error and a payload are for the same slot. -/
def Change.payload? : Change → Option (Except Error Cbor.Value)
  | .rawPayload value => some (.ok value)
  | .payload converted => converted.map .ok
  | .error e => some (.error e)
  | .entry _ _ => none

def Change.entry? (key : String) : Change → Option Cbor.Value
  | .entry k value => if k = key then some value else none
  | _ => none

structure Holds (r : Response) (requestId : Uuid) (changes : List Change) : Prop where
  requestId : r.requestId = requestId
  payload : r.payload = (changes.filterMap Change.payload?).getLast?.getD (.ok .null)
  sorted : Keyed.Sorted r.entries
  entries : ∀ key, Keyed.find? key r.entries = (changes.filterMap (Change.entry? key)).getLast?

def Change.next (r : Response) : Change → Response
  | .rawPayload value => r.setPayload value
  | .payload none => r
  | .payload (some value) => r.setPayload value
  | .error e => r.setError e
  | .entry key value => r.setMeta key value

theorem builder_step (r : Response) (c : Change) : (c.step (some r)).builder = some (c.next r) := by
  rcases c with _ | (_ | _) | _ | _ <;> rfl

theorem step_cases (c : Change) (r : Response) :
    (c.slot?.isSome ∧ c.step (some r) = .done (some (c.next r))) ∨
      (c = .payload none ∧ c.slot? = none ∧ c.step (some r) = .refused .inconvertible (some r)) := by
  match c with
  | .payload none => exact .inr ⟨rfl, rfl, rfl⟩
  | .rawPayload _ | .payload (some _) | .error _ | .entry _ _ => exact .inl ⟨rfl, rfl⟩

section

variable (r : Response) (c : Change)

theorem requestId_next : (c.next r).requestId = r.requestId := by
  rcases c with _ | (_ | _) | _ | _ <;> rfl

theorem payload_next : (c.next r).payload = c.payload?.getD r.payload := by
  rcases c with _ | (_ | _) | _ | _ <;> rfl

theorem find?_next (key : String) :
    Keyed.find? key (c.next r).entries = (c.entry? key).or (Keyed.find? key r.entries) := by
  rcases c with _ | (_ | _) | _ | _
  case entry => exact Keyed.find?_insert key _ _ _
  all_goals rfl

theorem sorted_next {r : Response} (h : Keyed.Sorted r.entries) : Keyed.Sorted (c.next r).entries := by
  rcases c with _ | (_ | _) | _ | _
  case entry => exact Keyed.sorted_insert _ _ h
  all_goals exact h

end

theorem holds_foldl (requestId : Uuid) (changes : List Change) :
    (changes.foldl Change.next (new requestId)).Holds requestId changes where
  requestId := List.foldlRecOn (motive := fun r => r.requestId = requestId) changes Change.next rfl
    fun r h c _ => (requestId_next r c).trans h
  payload := foldl_eq_lastD Response.payload payload_next _ _
  sorted := List.foldlRecOn (motive := fun r => Keyed.Sorted r.entries) changes Change.next Keyed.sorted_nil
    fun _ h c _ => sorted_next c h
  entries key := by
    rw [foldl_eq_last (fun r => Keyed.find? key r.entries) (fun r c => find?_next r c key)]
    exact Option.or_none

section

variable {c : Change}

theorem payload?_eq_none (h : c.slot? ≠ some .payload) : c.payload? = none := by
  match c, h with
  | .rawPayload _, h | .payload (some _), h | .error _, h => exact absurd rfl h
  | .payload none, _ | .entry _ _, _ => rfl

theorem entry?_eq_none {key : String} (h : c.slot? ≠ some (.entry key)) : c.entry? key = none := by
  cases c with
  | entry k v => exact if_neg fun hk => h (congrArg (fun k => some (Slot.entry k)) hk)
  | _ => rfl

end

theorem Holds.eq_of_sameOrder {r s : Response} {requestId : Uuid} {a b : List Change}
    (hr : r.Holds requestId a) (hs : s.Holds requestId b) (h : SameOrder Change.slot? a b) : r = s := by
  have hids : r.requestId = s.requestId := hr.requestId.trans hs.requestId.symm
  have hpayloads : r.payload = s.payload := by
    rw [hr.payload, hs.payload, h.filterMap fun _ => payload?_eq_none]
  have hentries : r.entries = s.entries :=
    Keyed.eq_of_find? hr.sorted hs.sorted fun key => by
      rw [hr.entries, hs.entries, h.filterMap fun _ => entry?_eq_none]
  cases r
  cases s
  rw [mk.injEq]
  exact ⟨hids, hentries, hpayloads⟩

theorem exists_built (requestId : Uuid) (changes : List Change) :
    ∃ r, built requestId changes = .ok (r, none) ∧ r.Holds requestId changes :=
  ⟨_, by rw [built, Builder.changed_eq builder_step, Builder.finish], holds_foldl requestId changes⟩

end Response

/-! ## Both -/

/-- What is built holds in each slot what the last step that set it put there, and what a new message has where none
did; a step whose value does not convert reports that and leaves the builder as it was. Sequences with the same
steps in the same order for each slot build the same message, the same in bytes; the identifier a request was
created with only matters where no step sets one. -/
theorem built_by_last_steps :
    ((∀ id endpoint changes, ∃ r, Request.built id endpoint changes = .ok (r, none) ∧ r.Holds id endpoint changes) ∧
      (∀ (c : Request.Change) r, (c.slot?.isSome ∧ c.step (some r) = .done (some (c.next r))) ∨
        (c = .payload none ∧ c.slot? = none ∧ c.step (some r) = .refused .inconvertible (some r))) ∧
      ∀ id id' endpoint a b, SameOrder Request.Change.slot? a b →
        (id = id' ∨ ∃ c ∈ a, c.slot? = some .requestId) →
          ∃ r s, Request.built id endpoint a = .ok (r, none) ∧ Request.built id' endpoint b = .ok (s, none) ∧
            r = s ∧ r.encode = s.encode) ∧
    ((∀ requestId changes, ∃ r, Response.built requestId changes = .ok (r, none) ∧ r.Holds requestId changes) ∧
      (∀ (c : Response.Change) r, (c.slot?.isSome ∧ c.step (some r) = .done (some (c.next r))) ∨
        (c = .payload none ∧ c.slot? = none ∧ c.step (some r) = .refused .inconvertible (some r))) ∧
      ∀ requestId a b, SameOrder Response.Change.slot? a b →
        ∃ r s, Response.built requestId a = .ok (r, none) ∧ Response.built requestId b = .ok (s, none) ∧
          r = s ∧ r.encode = s.encode) ∧
    Error.inconvertible.kind = .serializationError := by
  refine ⟨⟨Request.exists_built, Request.step_cases, ?_⟩, ⟨Response.exists_built, Response.step_cases, ?_⟩, rfl⟩
  · intro id id' endpoint a b h hid
    obtain ⟨r, hr, hheld⟩ := Request.exists_built id endpoint a
    obtain ⟨s, hs, hheld'⟩ := Request.exists_built id' endpoint b
    have heq : r = s := hheld.eq_of_sameOrder hheld' h hid
    exact ⟨r, s, hr, hs, heq, congrArg Request.encode heq⟩
  · intro requestId a b h
    obtain ⟨r, hr, hheld⟩ := Response.exists_built requestId a
    obtain ⟨s, hs, hheld'⟩ := Response.exists_built requestId b
    have heq : r = s := hheld.eq_of_sameOrder hheld' h
    exact ⟨r, s, hr, hs, heq, congrArg Response.encode heq⟩

/-- Two keys in either order, a value that does not convert in between, and an error before a payload. -/
theorem built_by_last_steps_interleaved :
    let a : List Request.Change := [.entry "b" .null, .payload (some (.bool true)), .entry "a" .null,
      .payload none, .requestId .zero, .rawPayload (.text "x")]
    let b : List Request.Change := [.requestId .zero, .payload (some (.bool true)), .rawPayload (.text "x"),
      .entry "a" .null, .entry "b" .null]
    let c : List Response.Change := [.error (.noEndpoint "x"), .entry "k" .null, .rawPayload (.text "y")]
    let d : List Response.Change :=
      [.entry "k" .null, .error (.noEndpoint "x"), .payload none, .rawPayload (.text "y")]
    let id : Uuid := ⟨List.replicate 16 1, rfl⟩
    (∃ r s, Request.built .zero "greet" a = .ok (r, none) ∧ Request.built id "greet" b = .ok (s, none) ∧
      r = s ∧ r.encode = s.encode) ∧
    ∃ r s, Response.built .zero c = .ok (r, none) ∧ Response.built .zero d = .ok (s, none) ∧
      r = s ∧ r.encode = s.encode := by
  intro a b c d id
  have hrequest : SameOrder Request.Change.slot? a b := by
    intro slot
    cases slot with
    | entry key =>
      rcases eq_or_ne "a" key with rfl | ha
      · rfl
      rcases eq_or_ne "b" key with rfl | hb
      · rfl
      simp [a, b, Request.Change.slot?, ha, hb]
    | _ => rfl
  have hresponse : SameOrder Response.Change.slot? c d := by
    intro slot
    cases slot with
    | entry key =>
      rcases eq_or_ne "k" key with rfl | hk
      · rfl
      simp [c, d, Response.Change.slot?, hk]
    | _ => rfl
  have hid : ∃ c ∈ a, c.slot? = some .requestId := ⟨.requestId .zero, by simp [a], rfl⟩
  exact ⟨built_by_last_steps.1.2.2 _ _ _ a b hrequest (.inr hid), built_by_last_steps.2.1.2.2 _ c d hresponse⟩

end Message

end PluginRelay
