import PluginRelay.Proofs.MetaRoundTrip

/-!
# Responses survive writing and reading

The payload of a response is a value or an error. An error loses its source on the way, and a detail
that is null becomes none; everything else comes back as it was.
-/
namespace PluginRelay.Message

open Cbor
open Value (encodeText within)

/-! ## What arrives -/

/-- An error on the other side. -/
def Error.received (e : Error) : Error :=
  { e with detail := e.detail.bind Reader.nonNull?, source := none }

def Response.received (r : Response) : Response :=
  { r with payload := r.payload.mapError Error.received }

/-! ## Kinds -/

theorem word32_encode (code : UInt32) (rest : Bytes) :
    word32 ((Value.ofNat code.toNat).encode ++ rest) = .ok (code, rest) := by
  have hlt := code.toNat_lt
  have hn : (UInt64.ofNat code.toNat).toNat = code.toNat :=
    UInt64.toNat_ofNat_of_lt' (hlt.trans (by decide))
  rw [word32, Value.ofNat, Reader.natural_encode, hn]
  simp only [ok_bind]
  rw [if_pos (show code.toNat < UInt32.size from hlt)]
  simp

theorem kind_encode (depth : Nat) (k : Kind) (rest : Bytes) :
    kind (depth + 1) (k.toValue.encode ++ rest) = .ok (k, rest) := by
  cases k with
  | other code =>
    rw [kind, Kind.toValue, Reader.variant_encode_map (by decide)]
    simp [kindBody, word32_encode]
  | _ =>
    simp only [kind, Kind.toValue]
    rw [Reader.variant_encode_text (by decide)]
    simp [kindBody, Kind.word]

/-! ## Errors -/

section

variable {depth : Nat} {fields : ErrorFields}

theorem errorField_kind (h : fields.kind = none) (k : Kind) (rest : Bytes) :
    errorField (depth + 1) fields (encodeText "kind" ++ (k.toValue.encode ++ rest)) =
      .ok ({ fields with kind := some k }, rest) := by
  rw [errorField, Reader.name_encodeText (by decide)]
  simp [h, once, kind_encode]

theorem errorField_description (h : fields.description = none) {s : String}
    (hs : (Value.text s).Sized) (rest : Bytes) :
    errorField depth fields (encodeText "description" ++ (Value.encode (.text s) ++ rest)) =
      .ok ({ fields with description := some s }, rest) := by
  rw [errorField, Reader.name_encodeText (by decide)]
  simp [h, once, Reader.text_encode hs]

theorem errorField_detail (h : fields.detail = none) {v : Value} (hv : v.Sized) (rest : Bytes) :
    errorField depth fields (encodeText "detail" ++ (v.encode ++ rest)) =
      (v.reread depth).map fun v => ({ fields with detail := some (Reader.nonNull? v) }, rest) := by
  rw [errorField, Reader.name_encodeText (by decide)]
  simp only [ok_bind, h, once, Reader.optional_encode hv]
  cases v.reread depth <;> simp

end

namespace Error

/-- What is read back of a written error. -/
def reread (depth : Nat) (e : Error) : Except Fault Error := do
  let detail ← (e.detail.getD .null).reread depth
  return ⟨e.kind, e.description, Reader.nonNull? detail, none⟩

theorem sized_toValue {e : Error} : e.toValue.Sized ↔
    (Value.text e.description).Sized ∧ (e.detail.getD .null).Sized := by
  have hkind : e.kind.toValue.Sized := by
    cases e.kind with
    | other code =>
      have hcode : (Value.ofNat code.toNat).Sized := trivial
      simp +decide [Kind.toValue, Value.sized_map, Value.sized_text, hcode]
    | _ => simp +decide [Kind.toValue, Value.sized_text, Kind.word]
  simp +decide [toValue, Value.sized_map, Value.sized_text, hkind]

theorem plain_toValue {e : Error} : e.toValue.Plain ↔ (e.detail.getD .null).Plain := by
  have hkind : e.kind.toValue.Plain := by
    cases e.kind with
    | other code =>
      have hcode : (Value.ofNat code.toNat).Plain := by rintro _ _ ⟨⟩
      simp [Kind.toValue, Value.plain_map, Value.plain_text, hcode]
    | _ => exact Value.plain_text _
  simp [toValue, Value.plain_map, Value.plain_text, hkind]

end Error

theorem error_encode {e : Error} (hs : e.toValue.Sized) (depth : Nat) (rest : Bytes) :
    error (depth + 2) (e.toValue.encode ++ rest) =
      (e.reread (depth + 1)).map fun e => (e, rest) := by
  obtain ⟨hdescription, hdetail⟩ := Error.sized_toValue.mp hs
  have hl := (Value.sized_map.mp hs).1
  rw [error, Error.toValue, Reader.mapInto_encode hl]
  rw [Reader.stepTimes_cons, errorField_kind rfl]
  simp only [ok_bind]
  rw [Reader.stepTimes_cons, errorField_description rfl hdescription]
  simp only [ok_bind]
  rw [Reader.stepTimes_cons, errorField_detail rfl hdetail, Error.reread]
  cases (e.detail.getD .null).reread (depth + 1) with
  | error e => rfl
  | ok detail => rfl

/-! ## Responses -/

def rereadResult (depth : Nat) : Except Error Value → Except Fault (Except Error Value)
  | .ok payload => (payload.reread depth).map .ok
  | .error e => (e.reread (depth - 1)).map .error

theorem result_encode {payload : Except Error Value} (hs : (resultValue payload).Sized) (depth : Nat)
    (rest : Bytes) :
    result (depth + 3) ((resultValue payload).encode ++ rest) =
      (rereadResult (depth + 2) payload).map fun payload => (payload, rest) := by
  cases payload with
  | ok v =>
    have hv := ((Value.sized_map.mp hs).2 _ List.mem_cons_self).2
    rw [result, resultValue, Reader.variant_encode_map (by decide), rereadResult]
    simp only [resultBody, if_true, Value.value_encode hv]
    cases v.reread (depth + 2) <;> rfl
  | error e =>
    have he := ((Value.sized_map.mp hs).2 _ List.mem_cons_self).2
    rw [result, resultValue, Reader.variant_encode_map (by decide), rereadResult]
    simp only [resultBody, error_encode he]
    simp
    cases e.reread (depth + 1) <;> rfl

section

variable {depth : Nat} {fields : ResponseFields}

theorem responseField_requestId (h : fields.requestId = none) (id : Uuid) (rest : Bytes) :
    responseField depth fields
        (encodeText "request_id" ++ (Value.encode (.bytes id.bytes) ++ rest)) =
      .ok ({ fields with requestId := some id }, rest) := by
  rw [responseField, Reader.name_encodeText (by decide)]
  simp [h, once, uuid_encode]

theorem responseField_meta (h : fields.entries = none) {entries : Meta}
    (hs : (metaValue entries).Sized) (hk : Keyed.Sorted entries) (rest : Bytes) :
    responseField (depth + 1) fields (encodeText "meta" ++ ((metaValue entries).encode ++ rest)) =
      (rereadMeta depth entries).map fun entries => ({ fields with entries := some entries }, rest) := by
  rw [responseField, Reader.name_encodeText (by decide)]
  simp only [ok_bind, h, once, metaMap_encode hs hk]
  cases rereadMeta depth entries <;> simp

theorem responseField_payload (h : fields.payload = none) {payload : Except Error Value}
    (hs : (resultValue payload).Sized) (rest : Bytes) :
    responseField (depth + 3) fields
        (encodeText "payload" ++ ((resultValue payload).encode ++ rest)) =
      (rereadResult (depth + 2) payload).map fun payload =>
        ({ fields with payload := some payload }, rest) := by
  rw [responseField, Reader.name_encodeText (by decide)]
  simp only [ok_bind, h, once, result_encode hs]
  cases rereadResult (depth + 2) payload <;> simp

end

namespace Response

/-- What is read back of a written response. -/
def reread (r : Response) : Except Fault Response := do
  let entries ← rereadMeta (depthLimit - 2) r.entries
  let payload ← rereadResult (depthLimit - 2) r.payload
  return { r with entries, payload }

theorem sized_toValue {r : Response} : r.toValue.Sized ↔
    (metaValue r.entries).Sized ∧ (resultValue r.payload).Sized := by
  have hid := sized_uuid r.requestId
  simp +decide [toValue, Value.sized_map, Value.sized_text, hid]

/-- The values that a response holds, apart from the frame around them. -/
theorem plain_toValue {r : Response} : r.toValue.Plain ↔ (∀ e ∈ r.entries, e.2.Plain) ∧
    (∀ v, r.payload = .ok v → v.Plain) ∧
      ∀ e, r.payload = .error e → (e.detail.getD .null).Plain := by
  have hpayload : (resultValue r.payload).Plain ↔ (∀ v, r.payload = .ok v → v.Plain) ∧
      ∀ e, r.payload = .error e → (e.detail.getD .null).Plain := by
    cases r.payload with
    | ok v => simp [resultValue, Value.plain_map, Value.plain_text]
    | error e => simp [resultValue, Value.plain_map, Value.plain_text, Error.plain_toValue]
  rw [← plain_metaValue, ← hpayload]
  simp [toValue, Value.plain_map, Value.plain_text, plain_uuid]

end Response

theorem response_encode {r : Response} (hs : r.toValue.Sized) (hk : Keyed.Sorted r.entries)
    (rest : Bytes) : response (r.encode ++ rest) = r.reread.map fun r => (r, rest) := by
  obtain ⟨hm, hp⟩ := Response.sized_toValue.mp hs
  have hl := (Value.sized_map.mp hs).1
  rw [response, Response.encode, Response.toValue, Response.reread, depthLimit, Reader.mapInto_encode hl]
  rw [Reader.stepTimes_cons, responseField_requestId rfl]
  simp only [ok_bind]
  rw [Reader.stepTimes_cons, responseField_meta rfl hm hk]
  cases rereadMeta 254 r.entries with
  | error e => rfl
  | ok entries =>
    simp only [map_ok, ok_bind]
    rw [Reader.stepTimes_cons, responseField_payload rfl hp]
    cases rereadResult 254 r.payload with
    | error e => rfl
    | ok payload => rfl

/-! ## The value a message is written as -/

namespace Kind

theorem reread_toValue (depth : Nat) (k : Kind) :
    k.toValue.reread (depth + 1) = .ok k.toValue := by
  cases k <;> rfl

theorem toValue_injective {a b : Kind} (h : a.toValue = b.toValue) : a = b := by
  have ha := kind_encode 0 a []
  rw [h, kind_encode] at ha
  simpa using (Except.ok.inj ha).symm

end Kind

namespace Error

theorem reread_toValue (depth : Nat) (e : Error) :
    e.toValue.reread (depth + 2) = (e.reread (depth + 1)).map toValue := by
  rw [reread, toValue]
  simp only [Value.reread, Value.rereadEntries, ok_bind, Kind.reread_toValue]
  cases (e.detail.getD .null).reread (depth + 1) with
  | error e => rfl
  | ok detail => cases detail <;> rfl

/-- Errors are written alike exactly if they arrive alike. -/
theorem toValue_eq_iff {a b : Error} : a.toValue = b.toValue ↔ a.received = b.received := by
  have hdetail : a.detail.getD .null = b.detail.getD .null ↔
      a.detail.bind Reader.nonNull? = b.detail.bind Reader.nonNull? := by
    rw [← Reader.nonNull?_getD, ← Reader.nonNull?_getD]
    exact ⟨congrArg _, Reader.nonNull?_injective⟩
  have hkind : a.kind.toValue = b.kind.toValue ↔ a.kind = b.kind :=
    ⟨Kind.toValue_injective, congrArg _⟩
  simp [toValue, received, hdetail, hkind]

theorem received_eq_self_iff {e : Error} :
    e.received = e ↔ e.source = none ∧ e.detail ≠ some .null := by
  obtain ⟨kind, description, detail, source⟩ := e
  cases detail with
  | none => simp [received, eq_comm]
  | some v => cases v <;> simp [received, Reader.nonNull?, eq_comm]

theorem received_of_reread {depth : Nat} {e e' : Error} (h : e.reread depth = .ok e') :
    e'.received = e' := by
  obtain ⟨v, -, hv⟩ := bind_eq_ok.mp h
  obtain rfl := Except.ok.inj hv
  cases v <;> rfl

end Error

theorem reread_resultValue (depth : Nat) (payload : Except Error Value) :
    (resultValue payload).reread (depth + 3) =
      (rereadResult (depth + 2) payload).map resultValue := by
  cases payload with
  | ok v =>
    simp only [resultValue, rereadResult, Value.reread, Value.rereadEntries, ok_bind]
    cases v.reread (depth + 2) <;> rfl
  | error e =>
    simp only [resultValue, rereadResult, Value.reread, Value.rereadEntries, ok_bind]
    rw [Error.reread_toValue]
    simp
    cases e.reread (depth + 1) <;> rfl

namespace Response

theorem reread_toValue (r : Response) : r.toValue.reread depthLimit = r.reread.map toValue := by
  rw [reread, depthLimit, toValue]
  simp only [Value.reread, Value.rereadEntries, ok_bind, reread_metaValue]
  cases rereadMeta 254 r.entries with
  | error e => rfl
  | ok entries =>
    simp only [map_ok, ok_bind, reread_resultValue]
    cases rereadResult 254 r.payload with
    | error e => rfl
    | ok payload => rfl

/-- Responses are written alike exactly if they arrive alike. -/
theorem toValue_eq_iff {a b : Response} : a.toValue = b.toValue ↔ a.received = b.received := by
  obtain ⟨id, entries, payload⟩ := a
  obtain ⟨id', entries', payload'⟩ := b
  have hmeta : metaValue entries = metaValue entries' ↔ entries = entries' :=
    ⟨metaValue_injective, congrArg _⟩
  have hpayload : resultValue payload = resultValue payload' ↔
      payload.mapError Error.received = payload'.mapError Error.received := by
    cases payload with
    | ok v => cases payload' <;> simp [resultValue]
    | error e => cases payload' <;> simp [resultValue, Error.toValue_eq_iff]
  simp [toValue, received, uuid_bytes_inj, hmeta, hpayload]

theorem received_of_reread {r r' : Response} (h : r.reread = .ok r') : r'.received = r' := by
  obtain ⟨entries, -, h⟩ := bind_eq_ok.mp h
  obtain ⟨payload, hp, h⟩ := bind_eq_ok.mp h
  obtain rfl := Except.ok.inj h
  have hpayload : payload.mapError Error.received = payload := by
    cases hr : r.payload with
    | ok v =>
      rw [hr, rereadResult] at hp
      obtain ⟨w, -, rfl⟩ := map_eq_ok.mp hp
      rfl
    | error e =>
      rw [hr, rereadResult] at hp
      obtain ⟨e', he, rfl⟩ := map_eq_ok.mp hp
      simp [Error.received_of_reread he]
  simp [received, hpayload]

theorem reread_of_settled {r : Response} (h : r.toValue.Settled) :
    r.reread = within depthLimit r.toValue.depth r.received := by
  rw [within]
  split_ifs with hd
  · obtain ⟨r', hr, he⟩ := exists_reread_of_settled (reread_toValue r) h hd
    rw [hr, ← received_of_reread hr, toValue_eq_iff.mp he]
  · exact reread_eq_tooDeep (reread_toValue r) h hd

theorem decode_encode {r : Response} (hs : r.toValue.Sized) (hk : Keyed.Sorted r.entries) :
    decode r.encode = r.reread.mapError (.undecodable .response) := by
  have hr := response_encode hs hk []
  rw [List.append_nil] at hr
  rw [decode, hr]
  cases r.reread <;> rfl

theorem decode_encode_of_settled {r : Response} (hs : r.toValue.Sized) (hk : Keyed.Sorted r.entries)
    (ht : r.toValue.Settled) (hd : r.toValue.depth ≤ depthLimit) :
    decode r.encode = .ok r.received := by
  rw [decode_encode hs hk, reread_of_settled ht, within, if_pos hd]
  rfl

theorem decode_encode_eq_self_iff {r : Response} (hs : r.toValue.Sized)
    (hk : Keyed.Sorted r.entries) (hd : r.toValue.depth ≤ depthLimit) (hr : r.received = r) :
    decode r.encode = .ok r ↔ r.toValue.Settled := by
  constructor
  · intro h
    rw [decode_encode hs hk, mapError_eq_ok] at h
    exact settled_of_reread (reread_toValue r) h
  · intro h
    rw [decode_encode_of_settled hs hk h hd, hr]

theorem decode_encode_ne_tooDeep {r : Response} (hs : r.toValue.Sized) (hk : Keyed.Sorted r.entries)
    (hd : r.toValue.depth ≤ depthLimit) :
    decode r.encode ≠ .error (.undecodable .response .tooDeep) := by
  rw [decode_encode hs hk, Ne, mapError_eq_error]
  rintro ⟨fault, hr, hf⟩
  obtain rfl := Error.undecodable_injective hf
  exact reread_ne_tooDeep (reread_toValue r) hd hr

theorem received_eq_self_iff {r : Response} :
    r.received = r ↔ ∀ e, r.payload = .error e → e.source = none ∧ e.detail ≠ some .null := by
  obtain ⟨id, entries, payload⟩ := r
  cases payload with
  | ok v => simp [received]
  | error e => simp [received, Error.received_eq_self_iff]

/-- Everything arrives but the source of an error and a detail that is null. -/
theorem decode_encode_eq_received {r : Response} (hs : r.toValue.Sized) (hk : Keyed.Sorted r.entries)
    (hp : r.toValue.Plain) (hd : r.toValue.depth ≤ depthLimit) :
    decode r.encode = .ok r.received ∧
      (r.received = r ↔ ∀ e, r.payload = .error e → e.source = none ∧ e.detail ≠ some .null) :=
  ⟨decode_encode_of_settled hs hk hp.settled hd, received_eq_self_iff⟩

/-- An error of an unnamed kind whose number has a name, with both things that are lost. -/
theorem decode_encode_error :
    let r (detail : Option Value) (source : Option Source) : Response :=
      ⟨.zero, [("trace", .null)], .error ⟨.other 404, "no such row", detail, source⟩⟩
    let sent := r (some .null) (some (.text "disk"))
    (sent.toValue.Sized ∧ Keyed.Sorted sent.entries ∧ sent.toValue.Plain ∧
      sent.toValue.depth ≤ depthLimit) ∧ decode sent.encode = .ok (r none none) := by
  intro r sent
  have hs : sent.toValue.Sized := by
    simp +decide [sent, r, sized_toValue, sized_metaValue, resultValue, Error.sized_toValue,
      Value.sized_map, Value.sized_text, Value.sized_null]
  have hk : Keyed.Sorted sent.entries := List.pairwise_singleton _ _
  have hp : sent.toValue.Plain := by
    simp [sent, r, plain_toValue, Value.plain_null]
  have hd : sent.toValue.depth ≤ depthLimit := by
    simp [sent, r, toValue, metaValue, resultValue, Error.toValue, Kind.toValue, Value.ofNat,
      Value.depth, Value.depthEntries, depthLimit]
  exact ⟨⟨hs, hk, hp, hd⟩, (decode_encode_eq_received hs hk hp hd).1⟩

end Response

end PluginRelay.Message
