import PluginRelay.Message.Building
import PluginRelay.Proofs.RequestRoundTrip
import PluginRelay.Proofs.ResponseRoundTrip
import PluginRelay.Proofs.TypedPayloads

/-!
# Data there and back

A builder takes a datum as the payload of its message, and the datum is read from the message that was built. It is
also read from what arrives of the message, wherever the message would arrive without a payload: the frame and
the values by key are read alike whatever the payload is.
-/
namespace PluginRelay.Message

open Cbor (Value)
open Payload (Datum Schema)

theorem reread_of_readable {limit : Nat} {v : Value} (h : v.Readable limit) : v.reread limit = .ok v := by
  rw [Value.reread_of_settled h.untagged.settled, Value.within, if_pos h.depth_le]

/-- A payload that its schema can tell apart from all others. -/
theorem matching_toValue {depth : Nat} {s : Schema} {d : Datum} (hd : s.Fits d) (hs : s.Exact depth) :
    matching s d.toValue = .ok d := by
  rw [matching, Schema.match?_toValue hd hs]

theorem readable_null (limit : Nat) : Value.null.Readable limit := ⟨by rintro _ _ ⟨⟩, trivial, Nat.zero_le _⟩

namespace Request

variable {r received : Request} {v : Value}

/-- What arrives of a request that holds a payload in its builder's place. -/
theorem decode_setPayload_iff (hk : Keyed.Sorted r.entries) (hz : (r.setPayload v).toValue.Sized)
    (hv : v.Readable 255) : decode (r.setPayload v).encode = .ok received ↔
      ∃ entries, rereadMeta 254 r.entries = .ok entries ∧ received = { r with entries, payload := v } := by
  rw [decode_encode hz hk, Cbor.mapError_eq_ok]
  constructor
  · intro h
    obtain ⟨entries, hmeta, h⟩ := Cbor.bind_eq_ok.mp h
    obtain ⟨payload, hpayload, h⟩ := Cbor.bind_eq_ok.mp h
    obtain rfl : v = payload := Except.ok.inj ((reread_of_readable hv).symm.trans hpayload)
    exact ⟨entries, hmeta, (Except.ok.inj h).symm⟩
  · rintro ⟨entries, hmeta, rfl⟩
    exact Cbor.bind_eq_ok.mpr ⟨entries, hmeta, Cbor.bind_eq_ok.mpr ⟨v, reread_of_readable hv, rfl⟩⟩

theorem sized_setPayload_null (hz : (r.setPayload v).toValue.Sized) : (r.setPayload .null).toValue.Sized := by
  obtain ⟨hentries, hendpoint, -⟩ := sized_toValue.mp hz
  exact sized_toValue.mpr ⟨hentries, hendpoint, Value.sized_null⟩

end Request

namespace Response

variable {r received : Response} {v : Value}

theorem decode_setPayload_iff (hk : Keyed.Sorted r.entries) (hz : (r.setPayload v).toValue.Sized)
    (hv : v.Readable 254) : decode (r.setPayload v).encode = .ok received ↔
      ∃ entries, rereadMeta 254 r.entries = .ok entries ∧ received = { r with entries, payload := .ok v } := by
  have hread : rereadResult 254 (.ok v) = .ok (.ok v) := by
    rw [rereadResult, reread_of_readable hv]
    rfl
  rw [decode_encode hz hk, Cbor.mapError_eq_ok]
  constructor
  · intro h
    obtain ⟨entries, hmeta, h⟩ := Cbor.bind_eq_ok.mp h
    obtain ⟨payload, hpayload, h⟩ := Cbor.bind_eq_ok.mp h
    obtain rfl : .ok v = payload := Except.ok.inj (hread.symm.trans hpayload)
    exact ⟨entries, hmeta, (Except.ok.inj h).symm⟩
  · rintro ⟨entries, hmeta, rfl⟩
    exact Cbor.bind_eq_ok.mpr ⟨entries, hmeta, Cbor.bind_eq_ok.mpr ⟨.ok v, hread, rfl⟩⟩

theorem sized_payload (hz : (r.setPayload v).toValue.Sized) : v.Sized :=
  ((Value.sized_map.mp (sized_toValue.mp hz).2).2 _ List.mem_cons_self).2

theorem sized_setPayload_null (hz : (r.setPayload v).toValue.Sized) : (r.setPayload .null).toValue.Sized := by
  have hresult : (resultValue (.ok .null)).Sized := by
    simp +decide [resultValue, Value.sized_map, Value.sized_text, Value.sized_null]
  exact sized_toValue.mpr ⟨(sized_toValue.mp hz).1, hresult⟩

end Response

/-! ## Carrying data -/

/-- The builder of the request takes the datum, and the datum is read from the built request and from what arrives
of it. With no values by key it does arrive; with some it does where it would arrive without a payload. -/
structure Request.Carries (r : Request) (s : Schema) (d : Datum) : Prop where
  taken : (Change.payload (some d.toValue)).step (some r) = .done (some (r.setPayload d.toValue))
  read : (r.setPayload d.toValue).typedPayload s = .ok d
  arrives : Keyed.Sorted r.entries → (r.setPayload d.toValue).toValue.Sized →
    (r.entries = [] ∨ ∃ received, decode (r.setPayload .null).encode = .ok received) →
      ∃ arrived, decode (r.setPayload d.toValue).encode = .ok arrived ∧ arrived.typedPayload s = .ok d

/-- The same of a response, whatever payload or error its builder held before. -/
structure Response.Carries (r : Response) (s : Schema) (d : Datum) : Prop where
  taken : (Change.payload (some d.toValue)).step (some r) = .done (some (r.setPayload d.toValue))
  read : (r.setPayload d.toValue).typedPayload s = .ok d
  arrives : Keyed.Sorted r.entries → (r.setPayload d.toValue).toValue.Sized →
    (r.entries = [] ∨ ∃ received, decode (r.setPayload .null).encode = .ok received) →
      ∃ arrived, decode (r.setPayload d.toValue).encode = .ok arrived ∧ arrived.typedPayload s = .ok d

section

variable {s : Schema} {d : Datum} (hs : s.Exact 254) (hd : s.Fits d)
include hs hd

theorem Request.carries_of_fits (r : Request) : r.Carries s d where
  taken := rfl
  read := matching_toValue hd hs
  arrives hk hz hframe := by
    have hread := (Schema.readable_toValue hd hs (sized_toValue.mp hz).2.2).mono (Nat.le_succ 254)
    obtain ⟨entries, hmeta⟩ : ∃ entries, rereadMeta 254 r.entries = .ok entries := by
      rcases hframe with hempty | ⟨received, h⟩
      · exact ⟨[], by rw [hempty, rereadMeta]⟩
      · obtain ⟨entries, hmeta, -⟩ :=
          (decode_setPayload_iff hk (sized_setPayload_null hz) (readable_null 255)).mp h
        exact ⟨entries, hmeta⟩
    exact ⟨_, (decode_setPayload_iff hk hz hread).mpr ⟨entries, hmeta, rfl⟩, matching_toValue hd hs⟩

theorem Response.carries_of_fits (r : Response) : r.Carries s d where
  taken := rfl
  read := matching_toValue hd hs
  arrives hk hz hframe := by
    have hread := Schema.readable_toValue hd hs (sized_payload hz)
    obtain ⟨entries, hmeta⟩ : ∃ entries, rereadMeta 254 r.entries = .ok entries := by
      rcases hframe with hempty | ⟨received, h⟩
      · exact ⟨[], by rw [hempty, rereadMeta]⟩
      · obtain ⟨entries, hmeta, -⟩ :=
          (decode_setPayload_iff hk (sized_setPayload_null hz) (readable_null 254)).mp h
        exact ⟨entries, hmeta⟩
    exact ⟨_, (decode_setPayload_iff hk hz hread).mpr ⟨entries, hmeta, rfl⟩, matching_toValue hd hs⟩

end

/-- Requests and responses carry every datum of every schema that tells its data apart, as those with a name do but
the one of all values. -/
theorem carries_typed_payloads :
    (∀ e ∈ Schema.catalog, e.1 ≠ "value" → e.2.Exact 254) ∧
      ∀ s d, Schema.Exact 254 s → s.Fits d → (∀ r : Request, r.Carries s d) ∧ ∀ r : Response, r.Carries s d :=
  ⟨Schema.exact_catalog 252, fun _ _ hs hd =>
    ⟨Request.carries_of_fits hs hd, Response.carries_of_fits hs hd⟩⟩

/-- An absent age and no tags in a request; a single that is no number, under its label, in place of an error. -/
theorem carries_typed_payloads_absent :
    let profile : Datum := .record [("name", .text "wl"), ("age", .absent), ("tags", .list [])]
    let r : Request := ⟨.zero, [("trace", .text "abc")], true, "greet", .bool false⟩
    let labelled : Schema := .choice [("plain", none), ("single", some .single)]
    let single : Datum := .choice "single" (some (.double (.ofSingleBits 0x7FA00000)))
    let answer : Response := ⟨.zero, [], .error (.noEndpoint "greet")⟩
    (∃ arrived, Request.decode (r.setPayload profile.toValue).encode = .ok arrived ∧
      arrived.typedPayload Schema.profile = .ok profile) ∧
    ∃ arrived, Response.decode (answer.setPayload single.toValue).encode = .ok arrived ∧
      arrived.typedPayload labelled = .ok single := by
  intro profile r labelled single answer
  have hprofile : Schema.profile.Fits profile := by
    refine .record (by decide) ?_
    simpa using ⟨.text "wl", .absent _, .list (by simp)⟩
  have hexact : labelled.Exact 254 := .choice (by decide) fun name s h => by
    obtain ⟨-, rfl⟩ : name = "single" ∧ s = .single := by simpa [labelled] using h
    exact .single _
  have hsingle : labelled.Fits single := .body (by simp) (.single (by decide))
  have hsorted : Keyed.Sorted r.entries := List.pairwise_singleton _ _
  have hrequest : (r.setPayload profile.toValue).toValue.Sized := by
    have htags : (Value.array []).Sized :=
      Value.everywhere_array.mpr ⟨show 0 < UInt64.size by decide, by simp⟩
    simp +decide [Request.sized_toValue, sized_metaValue, r, Request.setPayload, profile, Datum.toValue,
      Datum.toEntries, Datum.toValues, Value.sized_map, Value.sized_text, Value.sized_null, htags]
  have hframe : (Request.decode (r.setPayload .null).encode).isOk = true := by decide +kernel
  have hanswer : (answer.setPayload single.toValue).toValue.Sized := by
    have hfloat : (Value.float (.ofSingleBits 0x7FA00000)).Sized := trivial
    simp +decide [Response.sized_toValue, sized_metaValue, answer, Response.setPayload, resultValue, single,
      Datum.toValue, Value.sized_map, Value.sized_text, hfloat]
  have hexact' : Schema.profile.Exact 254 := Schema.exact_profile 252
  refine ⟨?_, ((carries_typed_payloads.2 labelled single hexact hsingle).2 answer).arrives Keyed.sorted_nil hanswer
    (.inl rfl)⟩
  refine ((carries_typed_payloads.2 _ profile hexact' hprofile).1 r).arrives hsorted hrequest (.inr ?_)
  cases h : Request.decode (r.setPayload .null).encode with
  | error e => simp [h, Except.isOk, Except.toBool] at hframe
  | ok received => exact ⟨received, rfl⟩

end PluginRelay.Message
