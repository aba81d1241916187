import PluginRelay.Proofs.MetaRoundTrip

/-!
# Requests survive writing and reading

A written request is read back field by field. What comes back is what `Value.reread` says of the value
that the request is written as, so that it is the same request exactly if that value is settled and not
too deep.
-/
namespace PluginRelay.Message

open Cbor
open Value (encodeText within)

section

variable {depth : Nat} {fields : RequestFields}

theorem requestField_id (h : fields.id = none) (id : Uuid) (rest : Bytes) :
    requestField depth fields (encodeText "id" ++ (Value.encode (.bytes id.bytes) ++ rest)) =
      .ok ({ fields with id := some id }, rest) := by
  rw [requestField, Reader.name_encodeText (by decide)]
  simp [h, once, uuid_encode]

theorem requestField_meta (h : fields.entries = none) {entries : Meta}
    (hs : (metaValue entries).Sized) (hk : Keyed.Sorted entries) (rest : Bytes) :
    requestField (depth + 1) fields (encodeText "meta" ++ ((metaValue entries).encode ++ rest)) =
      (rereadMeta depth entries).map fun entries => ({ fields with entries := some entries }, rest) := by
  rw [requestField, Reader.name_encodeText (by decide)]
  simp only [ok_bind, h, once, metaMap_encode hs hk]
  cases rereadMeta depth entries <;> simp

theorem requestField_fireAndForget (h : fields.fireAndForget = none) (b : Bool) (rest : Bytes) :
    requestField depth fields (encodeText "fire_and_forget" ++ (Value.encode (.bool b) ++ rest)) =
      .ok ({ fields with fireAndForget := some b }, rest) := by
  rw [requestField, Reader.name_encodeText (by decide)]
  simp [h, once, Reader.bool_encode]

theorem requestField_endpoint (h : fields.endpoint = none) {s : String}
    (hs : (Value.text s).Sized) (rest : Bytes) :
    requestField depth fields (encodeText "endpoint" ++ (Value.encode (.text s) ++ rest)) =
      .ok ({ fields with endpoint := some s }, rest) := by
  rw [requestField, Reader.name_encodeText (by decide)]
  simp [h, once, Reader.text_encode hs]

theorem requestField_payload (h : fields.payload = none) {v : Value} (hv : v.Sized) (rest : Bytes) :
    requestField depth fields (encodeText "payload" ++ (v.encode ++ rest)) =
      (v.reread depth).map fun v => ({ fields with payload := some v }, rest) := by
  rw [requestField, Reader.name_encodeText (by decide)]
  simp only [ok_bind, h, once, Value.value_encode hv]
  cases v.reread depth <;> simp

end

namespace Request

/-- What is read back of a written request. -/
def reread (r : Request) : Except Fault Request := do
  let entries ← rereadMeta (depthLimit - 2) r.entries
  let payload ← r.payload.reread (depthLimit - 1)
  return { r with entries, payload }

theorem sized_toValue {r : Request} : r.toValue.Sized ↔
    (metaValue r.entries).Sized ∧ (Value.text r.endpoint).Sized ∧ r.payload.Sized := by
  have hid := sized_uuid r.id
  have hflag : (Value.bool r.fireAndForget).Sized := trivial
  simp +decide [toValue, Value.sized_map, Value.sized_text, hid, hflag]

theorem plain_toValue {r : Request} : r.toValue.Plain ↔
    (∀ e ∈ r.entries, e.2.Plain) ∧ r.payload.Plain := by
  have hflag : (Value.bool r.fireAndForget).Plain := by rintro _ _ ⟨⟩
  rw [← plain_metaValue]
  simp [toValue, Value.plain_map, Value.plain_text, plain_uuid, hflag]

end Request

theorem request_encode {r : Request} (hs : r.toValue.Sized) (hk : Keyed.Sorted r.entries)
    (rest : Bytes) : request (r.encode ++ rest) = r.reread.map fun r => (r, rest) := by
  obtain ⟨hm, he, hp⟩ := Request.sized_toValue.mp hs
  have hl := (Value.sized_map.mp hs).1
  rw [request, Request.encode, Request.toValue, Request.reread, depthLimit, Reader.mapInto_encode hl]
  rw [Reader.stepTimes_cons, requestField_id rfl]
  simp only [ok_bind]
  rw [Reader.stepTimes_cons, requestField_meta rfl hm hk]
  cases rereadMeta 254 r.entries with
  | error e => rfl
  | ok entries =>
    simp only [map_ok, ok_bind]
    rw [Reader.stepTimes_cons, requestField_fireAndForget rfl]
    simp only [ok_bind]
    rw [Reader.stepTimes_cons, requestField_endpoint rfl he]
    simp only [ok_bind]
    rw [Reader.stepTimes_cons, requestField_payload rfl hp]
    cases r.payload.reread 255 with
    | error e => rfl
    | ok payload => rfl

namespace Request

theorem toValue_injective {a b : Request} (h : a.toValue = b.toValue) : a = b := by
  obtain ⟨id, entries, fireAndForget, endpoint, payload⟩ := a
  obtain ⟨id', entries', fireAndForget', endpoint', payload'⟩ := b
  simp only [toValue, Value.map.injEq, List.cons.injEq, Prod.mk.injEq, true_and, and_true,
    Value.bytes.injEq, Value.bool.injEq, Value.text.injEq] at h
  obtain ⟨hid, hmeta, rfl, rfl, rfl⟩ := h
  obtain rfl := metaValue_injective hmeta
  obtain rfl := uuid_bytes_inj.mp hid
  rfl

theorem reread_toValue (r : Request) : r.toValue.reread depthLimit = r.reread.map toValue := by
  rw [reread, depthLimit, toValue]
  simp only [Value.reread, Value.rereadEntries, ok_bind, reread_metaValue]
  cases rereadMeta 254 r.entries with
  | error e => rfl
  | ok entries =>
    cases r.payload.reread 255 with
    | error e => rfl
    | ok payload => rfl

theorem reread_of_settled {r : Request} (h : r.toValue.Settled) :
    r.reread = within depthLimit r.toValue.depth r := by
  rw [within]
  split_ifs with hd
  · obtain ⟨r', hr, he⟩ := exists_reread_of_settled (reread_toValue r) h hd
    rw [hr, toValue_injective he]
  · exact reread_eq_tooDeep (reread_toValue r) h hd

theorem decode_encode {r : Request} (hs : r.toValue.Sized) (hk : Keyed.Sorted r.entries) :
    decode r.encode = r.reread.mapError (.undecodable .request) := by
  have hr := request_encode hs hk []
  rw [List.append_nil] at hr
  rw [decode, hr]
  cases r.reread <;> rfl

theorem decode_encode_of_settled {r : Request} (hs : r.toValue.Sized) (hk : Keyed.Sorted r.entries)
    (ht : r.toValue.Settled) :
    decode r.encode =
      if r.toValue.depth ≤ depthLimit then .ok r else .error (.undecodable .request .tooDeep) := by
  rw [decode_encode hs hk, reread_of_settled ht, within]
  split_ifs <;> rfl

theorem decode_encode_eq_self_iff {r : Request} (hs : r.toValue.Sized) (hk : Keyed.Sorted r.entries)
    (hd : r.toValue.depth ≤ depthLimit) : decode r.encode = .ok r ↔ r.toValue.Settled := by
  constructor
  · intro h
    rw [decode_encode hs hk, mapError_eq_ok] at h
    exact settled_of_reread (reread_toValue r) h
  · intro h
    rw [decode_encode_of_settled hs hk h, if_pos hd]

theorem decode_encode_ne_tooDeep {r : Request} (hs : r.toValue.Sized) (hk : Keyed.Sorted r.entries)
    (hd : r.toValue.depth ≤ depthLimit) :
    decode r.encode ≠ .error (.undecodable .request .tooDeep) := by
  rw [decode_encode hs hk, Ne, mapError_eq_error]
  rintro ⟨fault, hr, hf⟩
  obtain rfl := Error.undecodable_injective hf
  exact reread_ne_tooDeep (reread_toValue r) hd hr

/-- A request comes back as it was, unless too many containers are nested in it. -/
theorem decode_encode_of_plain {r : Request} (hs : r.toValue.Sized) (hk : Keyed.Sorted r.entries)
    (hp : r.toValue.Plain) :
    decode r.encode =
      if r.toValue.depth ≤ depthLimit then .ok r else .error (.undecodable .request .tooDeep) :=
  decode_encode_of_settled hs hk hp.settled

/-- A request with two large integers under one key of its payload. -/
theorem decode_encode_large_integers :
    let r : Request := ⟨.zero, [("trace", .array [.bool true])], false, "greet",
      .map [(.text "limit", Value.ofInt (2 ^ 70)), (.text "limit", Value.ofInt (-2 ^ 127))]⟩
    (r.toValue.Sized ∧ Keyed.Sorted r.entries ∧ r.toValue.Plain ∧ r.toValue.depth ≤ depthLimit) ∧
      decode r.encode = .ok r := by
  intro r
  have hs : r.toValue.Sized := by
    simp +decide [r, sized_toValue, sized_metaValue, Value.sized_map, Value.sized_text,
      Value.sized_ofInt]
    simp +decide [Value.Sized, Value.Everywhere, Value.EverywhereItems, Value.LengthFits]
  have hk : Keyed.Sorted r.entries := List.pairwise_singleton _ _
  have hlow : (Value.ofInt (2 ^ 70)).Plain := Value.StandsBelow.plain ⟨_, by omega, by omega, rfl⟩
  have hhigh : (Value.ofInt (-2 ^ 127)).Plain := Value.StandsBelow.plain ⟨_, by omega, by omega, rfl⟩
  have hp : r.toValue.Plain := by
    simp only [r, plain_toValue, Value.plain_map, List.forall_mem_cons, Value.plain_text, hlow, hhigh]
    simp [Value.Plain, Value.Everywhere, Value.EverywhereItems, Value.TagPlain]
  have hd : r.toValue.depth ≤ depthLimit := by
    simp [r, toValue, metaValue, Value.depth, Value.depthEntries, Value.depthItems,
      Value.depth_ofInt, depthLimit]
  refine ⟨⟨hs, hk, hp, hd⟩, ?_⟩
  rw [decode_encode_of_plain hs hk hp, if_pos hd]

end Request

end PluginRelay.Message
