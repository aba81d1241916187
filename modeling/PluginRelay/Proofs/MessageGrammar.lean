import Mathlib.Data.List.Forall2
import PluginRelay.Proofs.FieldSlots
import PluginRelay.Proofs.ResponseRoundTrip

/-!
# Which maps are messages

The fields of a message come in any order among others that do not count. Each field has a slot, which the
values under its key fill: one value that has the right form, and no second one. So a message is read
exactly if the values under its keys describe it.
-/
namespace PluginRelay.Message

open Cbor
open Keyed (occurrences)
open Value (ofFields encodeText)
open Reader (Reads Leads)

/-- A name that is read in one piece. -/
def Short (key : String) : Prop := (Utf8.encode key).length ≤ Reader.pieceLength

/-- A longer name is refused. -/
theorem name_of_not_short {key : String} (hk : ¬Short key) (hs : (Value.text key).Sized) (rest : Bytes) :
    Reader.name (encodeText key ++ rest) = .error .mismatch := by
  rw [Reader.name, encodeText, List.append_assoc,
    Reader.skipTags_write (h := .text (some _)) (Value.sized_text.mp hs) (by simp)]
  simp only [ok_bind]
  exact if_neg hk

/-! ## Requests -/

/-- What a field does to the fields that were read before. -/
def RequestFields.Step (s : RequestFields) (e : String × Value) (t : RequestFields) : Prop :=
  if e.1 = "id" then Sets IsUuid s.id (fun a => { s with id := some a }) e.2 t
  else if e.1 = "meta" then Sets IsMeta s.entries (fun a => { s with entries := some a }) e.2 t
  else if e.1 = "fire_and_forget" then
    Sets IsBool s.fireAndForget (fun a => { s with fireAndForget := some a }) e.2 t
  else if e.1 = "endpoint" then
    Sets IsText s.endpoint (fun a => { s with endpoint := some a }) e.2 t
  else if e.1 = "payload" then
    Sets Eq s.payload (fun a => { s with payload := some a }) e.2 t
  else t = s

theorem requestField_iff {limit : Nat} {key : String} {v : Value} (hk : Short key)
    (hv : v.Readable limit) (s : RequestFields) (rest : Bytes) (t : RequestFields) (rest' : Bytes) :
    requestField limit s (encodeText key ++ (v.encode ++ rest)) = .ok (t, rest') ↔
      s.Step (key, v) t ∧ rest' = rest := by
  rw [requestField, Reader.name_encodeText hk, RequestFields.Step]
  simp only [ok_bind, Option.some.injEq]
  split_ifs
  · exact once_iff (reads_uuid hv) (fun a => { s with id := some a }) rest t rest'
  · exact once_iff (reads_meta hv) (fun a => { s with entries := some a }) rest t rest'
  · exact once_iff (reads_bool hv) (fun a => { s with fireAndForget := some a }) rest t rest'
  · exact once_iff (reads_text hv) (fun a => { s with endpoint := some a }) rest t rest'
  · exact once_iff (reads_value hv) (fun a => { s with payload := some a }) rest t rest'
  · exact ignored_iff hv s rest t rest'

theorem leads_request {s t : RequestFields} {fields : List (String × Value)} :
    Leads RequestFields.Step s fields t ↔
      Fills IsUuid s.id (occurrences "id" fields) t.id ∧
      Fills IsMeta s.entries (occurrences "meta" fields) t.entries ∧
      Fills IsBool s.fireAndForget (occurrences "fire_and_forget" fields)
        t.fireAndForget ∧
      Fills IsText s.endpoint (occurrences "endpoint" fields) t.endpoint ∧
      Fills Eq s.payload (occurrences "payload" fields) t.payload := by
  induction fields generalizing s with
  | nil =>
    cases s
    cases t
    simp [Leads, Fills]
  | cons e fields ih =>
    obtain ⟨key, v⟩ := e
    simp only [Leads, ih, RequestFields.Step]
    split_ifs with hid hmeta hflag hendpoint hpayload
    all_goals
      simp only [exists_sets_iff, exists_eq_left, fills_some, Keyed.occurrences_cons, *, if_true,
        fills_cons, reduceIte, String.reduceEq]
    all_goals grind

namespace Request

/-- The fields hold the request: one value for each of its fields, of the right form. -/
structure Described (r : Request) (fields : List (String × Value)) : Prop where
  id : OccursOnce IsUuid "id" fields r.id
  entries : OccursOnce IsMeta "meta" fields r.entries
  fireAndForget : OccursOnce IsBool "fire_and_forget" fields r.fireAndForget
  endpoint : OccursOnce IsText "endpoint" fields r.endpoint
  payload : OccursOnce Eq "payload" fields r.payload

theorem described_iff {r : Request} {fields : List (String × Value)} :
    r.Described fields ↔ Leads RequestFields.Step ⟨none, none, none, none, none⟩ fields
      ⟨some r.id, some r.entries, some r.fireAndForget, some r.endpoint, some r.payload⟩ := by
  simp only [leads_request, ← occursOnce_iff]
  constructor
  · rintro ⟨hid, hmeta, hflag, hendpoint, hpayload⟩
    exact ⟨hid, hmeta, hflag, hendpoint, hpayload⟩
  · rintro ⟨hid, hmeta, hflag, hendpoint, hpayload⟩
    exact ⟨hid, hmeta, hflag, hendpoint, hpayload⟩

end Request

theorem reads_request {fields : List (String × Value)} (hk : ∀ f ∈ fields, Short f.1)
    (h : (ofFields fields).Readable depthLimit) :
    Reads request (ofFields fields) (Request.Described · fields) := by
  intro rest r rest'
  have hmap := Reader.mapInto_ofFields_iff (R := RequestFields.Step) h
    (fun inner _ e he _ hv s rest t rest' => requestField_iff (hk e he) hv s rest t rest')
    ⟨none, none, none, none, none⟩ rest
  simp only [request, bind_eq_ok, Request.described_iff]
  constructor
  · rintro ⟨⟨f, after⟩, hread, hr⟩
    obtain ⟨hleads, rfl⟩ := (hmap f after).mp hread
    split at hr
    next hid hentries hflag hendpoint hpayload =>
      obtain ⟨rfl, rfl⟩ := by simpa using hr
      rw [← hid, ← hentries, ← hflag, ← hendpoint, ← hpayload]
      exact ⟨hleads, rfl⟩
    next => simp at hr
  · rintro ⟨hleads, rfl⟩
    exact ⟨_, (hmap _ _).mpr ⟨hleads, rfl⟩, rfl⟩

/-! ## Errors -/

def IsKind (v : Value) (k : Kind) : Prop := v = k.toValue

def IsDetail (v : Value) (detail : Option Value) : Prop := detail = Reader.nonNull? v

/-- Each kind among the fields is one of the three names or a number. -/
def KindsNamed (fields : List (String × Value)) : Prop :=
  ∀ v ∈ occurrences "kind" fields, ∃ k : Kind, v = k.toValue

theorem reads_kind (limit : Nat) (k : Kind) : Reads (kind (limit + 1)) k.toValue (IsKind k.toValue) := by
  intro rest a rest'
  rw [kind_encode, IsKind]
  constructor
  · intro h
    obtain ⟨rfl, rfl⟩ := by simpa using h
    exact ⟨rfl, rfl⟩
  · rintro ⟨hk, rfl⟩
    rw [Kind.toValue_injective hk]

theorem reads_detail {limit : Nat} {v : Value} (h : v.Readable limit) :
    Reads (Reader.optional limit) v (IsDetail v) := Reader.reads_optional h

/-- What a field does to the fields that were read before. -/
def ErrorFields.Step (s : ErrorFields) (e : String × Value) (t : ErrorFields) : Prop :=
  Short e.1 ∧
    if e.1 = "kind" then Sets IsKind s.kind (fun a => { s with kind := some a }) e.2 t
    else if e.1 = "description" then
      Sets IsText s.description (fun a => { s with description := some a }) e.2 t
    else if e.1 = "detail" then Sets IsDetail s.detail (fun a => { s with detail := some a }) e.2 t
    else t = s

theorem errorField_iff {limit : Nat} {key : String} {v : Value} (hs : (Value.text key).Sized)
    (hv : v.Readable (limit + 1)) (hkind : key = "kind" → ∃ k : Kind, v = k.toValue) (s : ErrorFields)
    (rest : Bytes) (t : ErrorFields) (rest' : Bytes) :
    errorField (limit + 1) s (encodeText key ++ (v.encode ++ rest)) = .ok (t, rest') ↔
      s.Step (key, v) t ∧ rest' = rest := by
  rw [errorField, ErrorFields.Step]
  by_cases hk : Short key
  · rw [Reader.name_encodeText hk]
    simp only [ok_bind, Option.some.injEq, hk, true_and]
    split_ifs with h
    · obtain ⟨k, rfl⟩ := hkind h
      exact once_iff (reads_kind limit k) (fun a => { s with kind := some a }) rest t rest'
    · exact once_iff (reads_text hv) (fun a => { s with description := some a }) rest t rest'
    · exact once_iff (reads_detail hv) (fun a => { s with detail := some a }) rest t rest'
    · exact ignored_iff hv s rest t rest'
  · rw [name_of_not_short hk hs]
    simp [hk]

theorem leads_error {s t : ErrorFields} {fields : List (String × Value)} :
    Leads ErrorFields.Step s fields t ↔
      (∀ f ∈ fields, Short f.1) ∧
      Fills IsKind s.kind (occurrences "kind" fields) t.kind ∧
      Fills IsText s.description (occurrences "description" fields) t.description ∧
      Fills IsDetail s.detail (occurrences "detail" fields) t.detail := by
  induction fields generalizing s with
  | nil =>
    cases s
    cases t
    simp [Leads, Fills]
  | cons e fields ih =>
    obtain ⟨key, v⟩ := e
    simp only [Leads, ih, ErrorFields.Step, and_assoc, exists_and_left, List.forall_mem_cons]
    refine and_congr_right fun _ => ?_
    split_ifs with hkind hdescription hdetail
    all_goals
      simp only [exists_sets_iff, exists_eq_left, fills_some, Keyed.occurrences_cons, *, if_true,
        fills_cons, reduceIte, String.reduceEq]
    all_goals grind

namespace Error

/-- The fields hold the error: its kind and its description, and perhaps its detail. -/
structure Described (e : Error) (fields : List (String × Value)) : Prop where
  short : ∀ f ∈ fields, Short f.1
  kind : OccursOnce IsKind "kind" fields e.kind
  description : OccursOnce IsText "description" fields e.description
  detail : occurrences "detail" fields = [] ∧ e.detail = none ∨
    OccursOnce IsDetail "detail" fields e.detail
  source : e.source = none

theorem described_iff {e : Error} {fields : List (String × Value)} :
    e.Described fields ↔ ∃ detail, e = ⟨e.kind, e.description, detail.getD none, none⟩ ∧
      Leads ErrorFields.Step ⟨none, none, none⟩ fields ⟨some e.kind, some e.description, detail⟩ := by
  simp only [leads_error, ← occursOnce_iff]
  constructor
  · rintro ⟨hshort, hkind, hdescription, hdetail, hsource⟩
    obtain ⟨kind, description, detail, source⟩ := e
    obtain rfl : source = none := hsource
    rcases hdetail with ⟨hnone, rfl⟩ | hsome
    · exact ⟨none, rfl, hshort, hkind, hdescription, fills_none_none.mpr hnone⟩
    · exact ⟨some detail, rfl, hshort, hkind, hdescription, occursOnce_iff.mp hsome⟩
  · rintro ⟨detail, he, hshort, hkind, hdescription, hdetail⟩
    have hsource : e.source = none := congrArg Error.source he
    have hget : e.detail = detail.getD none := congrArg Error.detail he
    refine ⟨hshort, hkind, hdescription, ?_, hsource⟩
    cases detail with
    | none => exact .inl ⟨fills_none_none.mp hdetail, hget⟩
    | some d =>
      rw [hget]
      exact .inr (occursOnce_iff.mpr hdetail)

end Error

theorem reads_error {limit : Nat} {fields : List (String × Value)}
    (h : (ofFields fields).Readable (limit + 2)) (hkinds : KindsNamed fields) :
    Reads (error (limit + 2)) (ofFields fields) (Error.Described · fields) := by
  intro rest e rest'
  have hmap := Reader.mapInto_ofFields_iff (R := ErrorFields.Step) h (by
    rintro inner hinner ⟨key, v⟩ he hs hv s rest t rest'
    obtain rfl : inner = limit + 1 := by omega
    refine errorField_iff hs hv ?_ s rest t rest'
    rintro rfl
    exact hkinds v (Keyed.mem_occurrences.mpr he)) ⟨none, none, none⟩ rest
  simp only [error, bind_eq_ok, Error.described_iff]
  constructor
  · rintro ⟨⟨f, after⟩, hread, he⟩
    obtain ⟨hleads, rfl⟩ := (hmap f after).mp hread
    split at he
    next hkind hdescription =>
      obtain ⟨rfl, rfl⟩ := by simpa using he
      refine ⟨⟨f.detail, rfl, ?_⟩, rfl⟩
      rw [← hkind, ← hdescription]
      exact hleads
    next => simp at he
  · rintro ⟨⟨detail, he, hleads⟩, rfl⟩
    refine ⟨_, (hmap _ _).mpr ⟨hleads, rfl⟩, ?_⟩
    rw [he]
    rfl

/-! ## Responses -/

/-- A payload, or an error among fields that a reader takes further. -/
inductive ResultShaped : Value → Prop where
  | ok (payload : Value) : ResultShaped (ofFields [("Ok", payload)])
  | err {fields : List (String × Value)} (h : KindsNamed fields) :
    ResultShaped (ofFields [("Err", ofFields fields)])

/-- What a result is written as, the fields of an error in any order. -/
def IsResult (v : Value) : Except Error Value → Prop
  | .ok payload => v = ofFields [("Ok", payload)]
  | .error e => ∃ fields, v = ofFields [("Err", ofFields fields)] ∧ e.Described fields

theorem isResult_ok {payload : Value} {result : Except Error Value} :
    IsResult (ofFields [("Ok", payload)]) result ↔ result = .ok payload := by
  cases result with
  | ok v => simp [IsResult, ofFields, eq_comm]
  | error e => simp [IsResult, ofFields]

theorem isResult_err {fields : List (String × Value)} {result : Except Error Value} :
    IsResult (ofFields [("Err", ofFields fields)]) result ↔
      ∃ e : Error, result = .error e ∧ e.Described fields := by
  cases result with
  | ok v => simp [IsResult, ofFields]
  | error e =>
    simp only [IsResult, Except.error.injEq, exists_eq_left']
    constructor
    · rintro ⟨others, heq, he⟩
      obtain rfl : fields = others := Value.ofFields_injective (by simpa [ofFields] using heq)
      exact he
    · intro he
      exact ⟨fields, rfl, he⟩

theorem reads_result {limit : Nat} {v : Value} (h : v.Readable (limit + 3)) (hv : ResultShaped v) :
    Reads (result (limit + 3)) v (IsResult v) := by
  intro rest r rest'
  cases hv with
  | ok payload =>
    have hpayload : payload.Readable (limit + 2) := (h.entries List.mem_cons_self).2
    have hread := Reader.reads_value hpayload rest
    rw [isResult_ok, result, ofFields, List.map_singleton, Reader.variant_encode_map (by decide)]
    simp only [resultBody, if_true, map_eq_ok]
    constructor
    · rintro ⟨⟨w, after⟩, hw, heq⟩
      obtain ⟨rfl, rfl⟩ := (hread w after).mp hw
      obtain ⟨rfl, rfl⟩ := by simpa using heq
      exact ⟨rfl, rfl⟩
    · rintro ⟨rfl, rfl⟩
      exact ⟨(payload, _), (hread _ _).mpr ⟨rfl, rfl⟩, rfl⟩
  | @err fields hkinds =>
    have herror : (ofFields fields).Readable (limit + 2) := (h.entries List.mem_cons_self).2
    have hread := reads_error herror hkinds rest
    rw [isResult_err, result, ofFields, List.map_singleton, Reader.variant_encode_map (by decide)]
    simp only [resultBody, Option.some.injEq, String.reduceEq, reduceIte, map_eq_ok]
    constructor
    · rintro ⟨⟨e, after⟩, he, heq⟩
      obtain ⟨hdescribed, rfl⟩ := (hread e after).mp he
      obtain ⟨rfl, rfl⟩ := by simpa using heq
      exact ⟨⟨e, rfl, hdescribed⟩, rfl⟩
    · rintro ⟨⟨e, rfl, hdescribed⟩, rfl⟩
      exact ⟨(e, _), (hread _ _).mpr ⟨hdescribed, rfl⟩, rfl⟩

/-- What a field does to the fields that were read before. -/
def ResponseFields.Step (s : ResponseFields) (e : String × Value) (t : ResponseFields) : Prop :=
  if e.1 = "request_id" then Sets IsUuid s.requestId (fun a => { s with requestId := some a }) e.2 t
  else if e.1 = "meta" then Sets IsMeta s.entries (fun a => { s with entries := some a }) e.2 t
  else if e.1 = "payload" then Sets IsResult s.payload (fun a => { s with payload := some a }) e.2 t
  else t = s

theorem responseField_iff {limit : Nat} {key : String} {v : Value} (hk : Short key)
    (hv : v.Readable (limit + 3)) (hpayload : key = "payload" → ResultShaped v) (s : ResponseFields)
    (rest : Bytes) (t : ResponseFields) (rest' : Bytes) :
    responseField (limit + 3) s (encodeText key ++ (v.encode ++ rest)) = .ok (t, rest') ↔
      s.Step (key, v) t ∧ rest' = rest := by
  rw [responseField, Reader.name_encodeText hk, ResponseFields.Step]
  simp only [ok_bind, Option.some.injEq]
  split_ifs with _ _ h
  · exact once_iff (reads_uuid hv) (fun a => { s with requestId := some a }) rest t rest'
  · exact once_iff (reads_meta hv) (fun a => { s with entries := some a }) rest t rest'
  · exact once_iff (reads_result hv (hpayload h)) (fun a => { s with payload := some a }) rest t rest'
  · exact ignored_iff hv s rest t rest'

theorem leads_response {s t : ResponseFields} {fields : List (String × Value)} :
    Leads ResponseFields.Step s fields t ↔
      Fills IsUuid s.requestId (occurrences "request_id" fields) t.requestId ∧
      Fills IsMeta s.entries (occurrences "meta" fields) t.entries ∧
      Fills IsResult s.payload (occurrences "payload" fields) t.payload := by
  induction fields generalizing s with
  | nil =>
    cases s
    cases t
    simp [Leads, Fills]
  | cons e fields ih =>
    obtain ⟨key, v⟩ := e
    simp only [Leads, ih, ResponseFields.Step]
    split_ifs with hid hmeta hpayload
    all_goals
      simp only [exists_sets_iff, exists_eq_left, fills_some, Keyed.occurrences_cons, *, if_true,
        fills_cons, reduceIte, String.reduceEq]
    all_goals grind

namespace Response

/-- The fields hold the response: one value for each of its fields, of the right form. -/
structure Described (r : Response) (fields : List (String × Value)) : Prop where
  requestId : OccursOnce IsUuid "request_id" fields r.requestId
  entries : OccursOnce IsMeta "meta" fields r.entries
  payload : OccursOnce IsResult "payload" fields r.payload

theorem described_iff {r : Response} {fields : List (String × Value)} :
    r.Described fields ↔ Leads ResponseFields.Step ⟨none, none, none⟩ fields
      ⟨some r.requestId, some r.entries, some r.payload⟩ := by
  simp only [leads_response, ← occursOnce_iff]
  constructor
  · rintro ⟨hid, hmeta, hpayload⟩
    exact ⟨hid, hmeta, hpayload⟩
  · rintro ⟨hid, hmeta, hpayload⟩
    exact ⟨hid, hmeta, hpayload⟩

end Response

theorem reads_response {fields : List (String × Value)} (hk : ∀ f ∈ fields, Short f.1)
    (h : (ofFields fields).Readable depthLimit)
    (hp : ∀ v ∈ occurrences "payload" fields, ResultShaped v) :
    Reads response (ofFields fields) (Response.Described · fields) := by
  intro rest r rest'
  have hmap := Reader.mapInto_ofFields_iff (R := ResponseFields.Step) h (by
    rintro inner hinner ⟨key, v⟩ he _ hv s rest t rest'
    obtain rfl : inner = 252 + 3 := by simpa [depthLimit] using hinner.symm
    refine responseField_iff (hk _ he) hv ?_ s rest t rest'
    rintro rfl
    exact hp v (Keyed.mem_occurrences.mpr he)) ⟨none, none, none⟩ rest
  simp only [response, bind_eq_ok, Response.described_iff]
  constructor
  · rintro ⟨⟨f, after⟩, hread, hr⟩
    obtain ⟨hleads, rfl⟩ := (hmap f after).mp hread
    split at hr
    next hid hentries hpayload =>
      obtain ⟨rfl, rfl⟩ := by simpa using hr
      rw [← hid, ← hentries, ← hpayload]
      exact ⟨hleads, rfl⟩
    next => simp at hr
  · rintro ⟨hleads, rfl⟩
    exact ⟨_, (hmap _ _).mpr ⟨hleads, rfl⟩, rfl⟩

/-! ## Decoding -/

/-- Fields that a reader of messages gets through: names read in one piece, and no value with a tag or too
deep. -/
structure Legible (fields : List (String × Value)) : Prop where
  short : ∀ f ∈ fields, Short f.1
  readable : (ofFields fields).Readable depthLimit

/-- The same values under the keys, whatever stands between them. -/
def Agree (keys : List String) (a b : List (String × Value)) : Prop :=
  ∀ key ∈ keys, occurrences key a = occurrences key b

theorem Agree.symm {keys : List String} {a b : List (String × Value)} (h : Agree keys a b) :
    Agree keys b a := fun key hkey => (h key hkey).symm

section

variable {α : Type} {accepts : Value → α → Prop} {key : String} {fields : List (String × Value)} {a : α}

theorem OccursOnce.accepts_of_mem (h : OccursOnce accepts key fields a) {v : Value} (hv : (key, v) ∈ fields) :
    accepts v a := by
  obtain ⟨w, hw, ha⟩ := h
  have hmem := Keyed.mem_occurrences.mpr hv
  rw [hw] at hmem
  rwa [List.mem_singleton.mp hmem]

theorem OccursOnce.of_agree (h : OccursOnce accepts key fields a) {keys : List String}
    {others : List (String × Value)} (hagree : Agree keys fields others) (hkey : key ∈ keys) :
    OccursOnce accepts key others a := by
  rwa [OccursOnce, ← hagree key hkey]

end

/-- Of the values under one key, the last one is kept. -/
theorem find?_of_occursOnce {fields inner : List (String × Value)} {entries : Meta}
    (h : OccursOnce IsMeta "meta" fields entries) (hi : ("meta", ofFields inner) ∈ fields) (key : String) :
    Keyed.find? key entries = (occurrences key inner).getLast? := by
  obtain ⟨others, heq, rfl⟩ := h.accepts_of_mem hi
  rw [Value.ofFields_injective heq, Keyed.find?_ofList]

theorem exists_isUuid {v : Value} : (∃ id, IsUuid v id) ↔ ∃ b : Bytes, v = .bytes b ∧ b.length = 16 := by
  constructor
  · rintro ⟨id, rfl⟩
    exact ⟨id.bytes, rfl, id.length_bytes⟩
  · rintro ⟨b, rfl, hb⟩
    exact ⟨⟨b, hb⟩, rfl⟩

namespace Request

def keys : List String := ["id", "meta", "fire_and_forget", "endpoint", "payload"]

/-- Under each key of a request there is one value, of the right form. -/
structure Complete (fields : List (String × Value)) : Prop where
  id : ∃ b : Bytes, occurrences "id" fields = [.bytes b] ∧ b.length = 16
  entries : ∃ inner, occurrences "meta" fields = [ofFields inner]
  fireAndForget : ∃ b, occurrences "fire_and_forget" fields = [.bool b]
  endpoint : ∃ s, occurrences "endpoint" fields = [.text s]
  payload : ∃ v, occurrences "payload" fields = [v]

theorem Described.complete {r : Request} {fields : List (String × Value)} (hr : r.Described fields) :
    Complete fields := by
  obtain ⟨⟨v, hid, hv⟩, ⟨_, hmeta, inner, rfl, -⟩, ⟨_, hflag, rfl⟩, ⟨_, hendpoint, rfl⟩, ⟨_, hpayload, -⟩⟩ := hr
  obtain ⟨b, rfl, hb⟩ := exists_isUuid.mp ⟨_, hv⟩
  exact ⟨⟨b, hid, hb⟩, ⟨inner, hmeta⟩, ⟨_, hflag⟩, ⟨_, hendpoint⟩, ⟨_, hpayload⟩⟩

theorem Complete.exists_described {fields : List (String × Value)} (h : Complete fields) :
    ∃ r : Request, r.Described fields := by
  obtain ⟨⟨b, hid, hb⟩, ⟨inner, hmeta⟩, ⟨flag, hflag⟩, ⟨endpoint, hendpoint⟩, ⟨payload, hpayload⟩⟩ := h
  exact ⟨⟨⟨b, hb⟩, Keyed.ofList inner, flag, endpoint, payload⟩, ⟨_, hid, rfl⟩,
    ⟨_, hmeta, inner, rfl, rfl⟩, ⟨_, hflag, rfl⟩, ⟨_, hendpoint, rfl⟩, ⟨_, hpayload, rfl⟩⟩

theorem Described.of_agree {r : Request} {a b : List (String × Value)} (hr : r.Described a)
    (h : Agree keys a b) : r.Described b where
  id := hr.id.of_agree h (by simp [keys])
  entries := hr.entries.of_agree h (by simp [keys])
  fireAndForget := hr.fireAndForget.of_agree h (by simp [keys])
  endpoint := hr.endpoint.of_agree h (by simp [keys])
  payload := hr.payload.of_agree h (by simp [keys])

theorem decode_eq_ok {input : Bytes} {r : Request} :
    decode input = .ok r ↔ ∃ rest, request input = .ok (r, rest) := by
  rw [decode]
  cases request input with
  | ok read => simp [Prod.ext_iff]
  | error fault => simp

theorem decode_eq_ok_iff {fields : List (String × Value)} (h : Legible fields) {r : Request} :
    decode (ofFields fields).encode = .ok r ↔ r.Described fields := by
  have hread := reads_request h.short h.readable []
  rw [List.append_nil] at hread
  simp only [decode_eq_ok, hread, exists_eq_right]

end Request

namespace Error

def keys : List String := ["kind", "description", "detail"]

/-- Under the keys of an error there are its kind and a text, and at most one detail. -/
structure Complete (fields : List (String × Value)) : Prop where
  short : ∀ f ∈ fields, Short f.1
  kind : ∃ v, occurrences "kind" fields = [v]
  description : ∃ s, occurrences "description" fields = [.text s]
  detail : (occurrences "detail" fields).length ≤ 1

theorem Described.complete {e : Error} {fields : List (String × Value)} (he : e.Described fields) :
    Complete fields := by
  obtain ⟨hshort, ⟨v, hkind, -⟩, ⟨_, hdescription, rfl⟩, hdetail, -⟩ := he
  refine ⟨hshort, ⟨v, hkind⟩, ⟨_, hdescription⟩, ?_⟩
  rcases hdetail with ⟨hnone, -⟩ | ⟨w, hone, -⟩
  · simp [hnone]
  · simp [hone]

theorem Complete.exists_described {fields : List (String × Value)} (h : Complete fields)
    (hkinds : KindsNamed fields) : ∃ e : Error, e.Described fields := by
  obtain ⟨hshort, ⟨v, hkind⟩, ⟨description, hdescription⟩, hdetail⟩ := h
  obtain ⟨k, rfl⟩ := hkinds v (by simp [hkind])
  match hvalues : occurrences "detail" fields, hdetail with
  | [], _ =>
    exact ⟨⟨k, description, none, none⟩, hshort, ⟨_, hkind, rfl⟩, ⟨_, hdescription, rfl⟩,
      .inl ⟨hvalues, rfl⟩, rfl⟩
  | [w], _ =>
    exact ⟨⟨k, description, Reader.nonNull? w, none⟩, hshort, ⟨_, hkind, rfl⟩, ⟨_, hdescription, rfl⟩,
      .inr ⟨w, hvalues, rfl⟩, rfl⟩

theorem Described.of_agree {e : Error} {a b : List (String × Value)} (he : e.Described a)
    (hb : ∀ f ∈ b, Short f.1) (h : Agree keys a b) : e.Described b where
  short := hb
  kind := he.kind.of_agree h (by simp [keys])
  description := he.description.of_agree h (by simp [keys])
  detail := by
    have hkey : "detail" ∈ keys := by simp [keys]
    rw [← h "detail" hkey]
    exact he.detail.imp_right fun hdetail => hdetail.of_agree h hkey
  source := he.source

end Error

/-- The same payload, or errors that agree in the fields that count. -/
inductive SameResult : Value → Value → Prop
  | refl (v : Value) : SameResult v v
  | err {a b : List (String × Value)} (ha : ∀ f ∈ a, Short f.1) (hb : ∀ f ∈ b, Short f.1)
    (h : Agree Error.keys a b) :
    SameResult (ofFields [("Err", ofFields a)]) (ofFields [("Err", ofFields b)])

theorem SameResult.isResult {v w : Value} (h : SameResult v w) {result : Except Error Value}
    (hv : IsResult v result) : IsResult w result := by
  cases h with
  | refl => exact hv
  | err ha hb h =>
    obtain ⟨e, rfl, he⟩ := isResult_err.mp hv
    exact isResult_err.mpr ⟨e, rfl, he.of_agree hb h⟩

theorem SameResult.symm {v w : Value} (h : SameResult v w) : SameResult w v := by
  cases h with
  | refl => exact .refl v
  | err ha hb h => exact .err hb ha h.symm

namespace Response

/-- Under each key of a response there is one value, of the right form. -/
structure Complete (fields : List (String × Value)) : Prop where
  requestId : ∃ b : Bytes, occurrences "request_id" fields = [.bytes b] ∧ b.length = 16
  entries : ∃ inner, occurrences "meta" fields = [ofFields inner]
  payload : ∃ v, occurrences "payload" fields = [v] ∧
    ∀ inner, v = ofFields [("Err", ofFields inner)] → Error.Complete inner

theorem Described.complete {r : Response} {fields : List (String × Value)} (hr : r.Described fields) :
    Complete fields := by
  obtain ⟨⟨v, hid, hv⟩, ⟨_, hmeta, inner, rfl, -⟩, ⟨w, hpayload, hw⟩⟩ := hr
  obtain ⟨b, rfl, hb⟩ := exists_isUuid.mp ⟨_, hv⟩
  refine ⟨⟨b, hid, hb⟩, ⟨inner, hmeta⟩, ⟨w, hpayload, ?_⟩⟩
  rintro inner rfl
  obtain ⟨e, -, he⟩ := isResult_err.mp hw
  exact he.complete

theorem Complete.exists_described {fields : List (String × Value)} (h : Complete fields)
    (hp : ∀ v ∈ occurrences "payload" fields, ResultShaped v) : ∃ r : Response, r.Described fields := by
  obtain ⟨⟨b, hid, hb⟩, ⟨inner, hmeta⟩, ⟨v, hpayload, hv⟩⟩ := h
  have hresult : ∃ result, IsResult v result := by
    cases hp v (by simp [hpayload]) with
    | ok payload => exact ⟨.ok payload, isResult_ok.mpr rfl⟩
    | err hkinds =>
      obtain ⟨e, he⟩ := (hv _ rfl).exists_described hkinds
      exact ⟨.error e, isResult_err.mpr ⟨e, rfl, he⟩⟩
  obtain ⟨result, hresult⟩ := hresult
  exact ⟨⟨⟨b, hb⟩, Keyed.ofList inner, result⟩, ⟨_, hid, rfl⟩, ⟨_, hmeta, inner, rfl, rfl⟩,
    ⟨_, hpayload, hresult⟩⟩

/-- The fields agree in what a response is read from. -/
structure Alike (a b : List (String × Value)) : Prop where
  agree : Agree ["request_id", "meta"] a b
  payload : List.Forall₂ SameResult (occurrences "payload" a) (occurrences "payload" b)

theorem Alike.symm {a b : List (String × Value)} (h : Alike a b) : Alike b a where
  agree := h.agree.symm
  payload := (h.payload.imp fun _ _ hsame => hsame.symm).flip

theorem Described.of_alike {r : Response} {a b : List (String × Value)} (hr : r.Described a)
    (h : Alike a b) : r.Described b where
  requestId := hr.requestId.of_agree h.agree (by simp)
  entries := hr.entries.of_agree h.agree (by simp)
  payload := by
    obtain ⟨v, hv, hresult⟩ := hr.payload
    have hsame := h.payload
    rw [hv, List.forall₂_cons_left_iff] at hsame
    obtain ⟨w, others, hsame, hnil, hw⟩ := hsame
    rw [List.forall₂_nil_left_iff.mp hnil] at hw
    exact ⟨w, hw, hsame.isResult hresult⟩

theorem decode_eq_ok {input : Bytes} {r : Response} :
    decode input = .ok r ↔ ∃ rest, response input = .ok (r, rest) := by
  rw [decode]
  cases response input with
  | ok read => simp [Prod.ext_iff]
  | error fault => simp

theorem decode_eq_ok_iff {fields : List (String × Value)} (h : Legible fields)
    (hp : ∀ v ∈ occurrences "payload" fields, ResultShaped v) {r : Response} :
    decode (ofFields fields).encode = .ok r ↔ r.Described fields := by
  have hread := reads_response h.short h.readable hp []
  rw [List.append_nil] at hread
  simp only [decode_eq_ok, hread, exists_eq_right]

end Response

/-- A map is read as a message exactly if each key of the message has one value of the right form under it.
Other fields and the order do not count, and under a repeated key of the values by key the last one is kept. -/
theorem decode_ofFields {fields : List (String × Value)} (h : Legible fields) :
    (((∃ r, Request.decode (ofFields fields).encode = .ok r) ↔ Request.Complete fields) ∧
      (∀ r, Request.decode (ofFields fields).encode = .ok r ↔ r.Described fields) ∧
      (∀ r inner, Request.decode (ofFields fields).encode = .ok r → ("meta", ofFields inner) ∈ fields →
        ∀ key, Keyed.find? key r.entries = (occurrences key inner).getLast?) ∧
      ∀ others, Legible others → Agree Request.keys fields others → ∀ r,
        Request.decode (ofFields others).encode = .ok r ↔
          Request.decode (ofFields fields).encode = .ok r) ∧
    ((∀ v ∈ occurrences "payload" fields, ResultShaped v) →
      ((∃ r, Response.decode (ofFields fields).encode = .ok r) ↔ Response.Complete fields) ∧
      (∀ r, Response.decode (ofFields fields).encode = .ok r ↔ r.Described fields) ∧
      (∀ r inner, Response.decode (ofFields fields).encode = .ok r → ("meta", ofFields inner) ∈ fields →
        ∀ key, Keyed.find? key r.entries = (occurrences key inner).getLast?) ∧
      ∀ others, Legible others → (∀ v ∈ occurrences "payload" others, ResultShaped v) →
        Response.Alike fields others → ∀ r,
          Response.decode (ofFields others).encode = .ok r ↔
            Response.decode (ofFields fields).encode = .ok r) := by
  refine ⟨⟨?_, fun r => Request.decode_eq_ok_iff h, ?_, ?_⟩, fun hp =>
    ⟨?_, fun r => Response.decode_eq_ok_iff h hp, ?_, ?_⟩⟩
  · simp only [Request.decode_eq_ok_iff h]
    exact ⟨fun ⟨r, hr⟩ => hr.complete, fun hc => hc.exists_described⟩
  · intro r inner hr hi
    exact find?_of_occursOnce ((Request.decode_eq_ok_iff h).mp hr).entries hi
  · intro others ho hagree r
    rw [Request.decode_eq_ok_iff ho, Request.decode_eq_ok_iff h]
    exact ⟨fun hr => hr.of_agree hagree.symm, fun hr => hr.of_agree hagree⟩
  · simp only [Response.decode_eq_ok_iff h hp]
    exact ⟨fun ⟨r, hr⟩ => hr.complete, fun hc => hc.exists_described hp⟩
  · intro r inner hr hi
    exact find?_of_occursOnce ((Response.decode_eq_ok_iff h hp).mp hr).entries hi
  · intro others ho hop halike r
    rw [Response.decode_eq_ok_iff ho hop, Response.decode_eq_ok_iff h hp]
    exact ⟨fun hr => hr.of_alike halike.symm, fun hr => hr.of_alike halike⟩

/-- A map with the fields of both messages in the wrong order, with other fields between them, a repeated key
among the values by key, and an error in its payload. -/
theorem decode_ofFields_permuted :
    let inner : List (String × Value) := [("detail", .null), ("note", .bool true),
      ("description", .text "no such row"), ("kind", (Kind.other 404).toValue), ("note", .null)]
    let payload := ofFields [("Err", ofFields inner)]
    let fields : List (String × Value) := [("payload", payload), ("note", .array [.null]),
      ("endpoint", .text "greet"), ("meta", ofFields [("b", .bool true), ("a", .null), ("b", .bool false)]),
      ("request_id", .bytes Uuid.zero.bytes), ("note", .text "again"), ("fire_and_forget", .bool true),
      ("id", .bytes Uuid.zero.bytes)]
    let entries : Meta := [("a", .null), ("b", .bool false)]
    (Legible fields ∧ ∀ v ∈ occurrences "payload" fields, ResultShaped v) ∧
      Request.decode (ofFields fields).encode = .ok ⟨.zero, entries, true, "greet", payload⟩ ∧
      Response.decode (ofFields fields).encode =
        .ok ⟨.zero, entries, .error ⟨.other 404, "no such row", none, none⟩⟩ := by
  intro inner payload fields entries
  have hu : (ofFields fields).Untagged := by
    simp [fields, payload, inner, ofFields, Kind.toValue, Value.ofNat, Value.Untagged, Value.Everywhere,
      Value.EverywhereItems, Value.EverywhereEntries]
  have hs : (ofFields fields).Sized := by
    simp +decide [fields, payload, inner, ofFields, Kind.toValue, Value.ofNat, Value.Sized, Value.Everywhere,
      Value.EverywhereItems, Value.EverywhereEntries, Value.LengthFits]
  have hd : (ofFields fields).depth ≤ depthLimit := by
    simp [fields, payload, inner, ofFields, Kind.toValue, Value.ofNat, Value.depth, Value.depthEntries,
      Value.depthItems, depthLimit]
  have hk : ∀ f ∈ fields, Short f.1 := by
    simp +decide [fields, Short, Reader.pieceLength]
  have h : Legible fields := ⟨hk, hu, hs, hd⟩
  have hkinds : KindsNamed inner := by
    intro v hv
    exact ⟨.other 404, by simpa [occurrences, inner] using hv⟩
  have hp : ∀ v ∈ occurrences "payload" fields, ResultShaped v := by
    intro v hv
    obtain rfl : v = payload := by simpa [occurrences, fields] using hv
    exact .err hkinds
  have he : Error.Described ⟨.other 404, "no such row", none, none⟩ inner :=
    ⟨by simp +decide [inner, Short, Reader.pieceLength], ⟨_, rfl, rfl⟩, ⟨_, rfl, rfl⟩, .inr ⟨_, rfl, rfl⟩, rfl⟩
  refine ⟨⟨h, hp⟩, ((decode_ofFields h).1.2.1 _).mpr ?_, (((decode_ofFields h).2 hp).2.1 _).mpr ?_⟩
  · exact ⟨⟨_, rfl, rfl⟩, ⟨_, rfl, _, rfl, rfl⟩, ⟨_, rfl, rfl⟩, ⟨_, rfl, rfl⟩, ⟨_, rfl, rfl⟩⟩
  · exact ⟨⟨_, rfl, rfl⟩, ⟨_, rfl, _, rfl, rfl⟩, ⟨_, rfl, inner, rfl, he⟩⟩

end PluginRelay.Message
