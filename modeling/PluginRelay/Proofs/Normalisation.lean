import PluginRelay.Proofs.DecodedMessages

/-!
# Decoding normalises

What was read of any bytes is written in the one form that is read back as the same message. Only a large
integer that came in chunks is kept as a tagged byte string first and read as an integer then.
-/
namespace PluginRelay.Message

open Cbor

theorem Request.of_decode {input : Bytes} {r : Request} (h : Request.decode input = .ok r) :
    Keyed.Sorted r.entries ∧ r.toValue.Decoded input depthLimit := by
  unfold Request.decode at h
  split at h
  · next r' rest hr =>
    obtain rfl := Except.ok.inj h
    exact (request_gives (List.suffix_refl input) hr).2
  · simp at h

theorem Response.of_decode {input : Bytes} {r : Response} (h : Response.decode input = .ok r) :
    Keyed.Sorted r.entries ∧ r.received = r ∧ r.toValue.Decoded input depthLimit := by
  unfold Response.decode at h
  split at h
  · next r' rest hr =>
    obtain rfl := Except.ok.inj h
    exact (response_gives (List.suffix_refl input) hr).2
  · simp at h

/-- A message that was read is read back unchanged exactly if it is settled, as it is unless a large
integer came in chunks, and never fails to be read back for its depth. -/
theorem decode_encode_of_decode {input : Bytes} (hl : input.length < UInt64.size) :
    (∀ r, Request.decode input = .ok r →
      (Request.decode r.encode = .ok r ↔ r.toValue.Settled) ∧
      (Reader.Unchunked input → Request.decode r.encode = .ok r) ∧
      Request.decode r.encode ≠ .error (.undecodable .request .tooDeep)) ∧
    (∀ r, Response.decode input = .ok r →
      (Response.decode r.encode = .ok r ↔ r.toValue.Settled) ∧
      (Reader.Unchunked input → Response.decode r.encode = .ok r) ∧
      Response.decode r.encode ≠ .error (.undecodable .response .tooDeep)) := by
  constructor
  · intro r h
    obtain ⟨hk, hd⟩ := Request.of_decode h
    have hs := hd.sized hl
    have hself := Request.decode_encode_eq_self_iff hs hk hd.depth_le
    exact ⟨hself, fun hc => hself.mpr (hd.settled hc),
      Request.decode_encode_ne_tooDeep hs hk hd.depth_le⟩
  · intro r h
    obtain ⟨hk, hr, hd⟩ := Response.of_decode h
    have hs := hd.sized hl
    have hself := Response.decode_encode_eq_self_iff hs hk hd.depth_le hr
    exact ⟨hself, fun hc => hself.mpr (hd.settled hc),
      Response.decode_encode_ne_tooDeep hs hk hd.depth_le⟩

/-- One input that is a request and a response: an indefinite map with the fields of both, a key that is
there twice, an undefined value, and a byte behind the end. -/
theorem decode_encode_lenient_input :
    let input : Bytes :=
      [0xBF, 0x62, 0x69, 0x64, 0x50] ++ List.replicate 16 1 ++
      [0x6A] ++ Utf8.encode "request_id" ++ [0x50] ++ List.replicate 16 2 ++
      [0x64] ++ Utf8.encode "meta" ++ [0xA2, 0x61, 0x6B, 0x01, 0x61, 0x6B, 0x18, 0x02] ++
      [0x6F] ++ Utf8.encode "fire_and_forget" ++ [0xF5] ++
      [0x68] ++ Utf8.encode "endpoint" ++ [0x61, 0x78] ++
      [0x67] ++ Utf8.encode "payload" ++ [0xA1, 0x62, 0x4F, 0x6B, 0xF7, 0xFF, 0x00]
    input.length < UInt64.size ∧ Reader.Unchunked input ∧
      (∃ r, Request.decode input = .ok r ∧ Request.decode r.encode = .ok r) ∧
      ∃ r, Response.decode input = .ok r ∧ Response.decode r.encode = .ok r := by
  intro input
  have hl : input.length < UInt64.size := by decide +kernel
  have hc : Reader.Unchunked input := by
    unfold Reader.Unchunked
    decide +kernel
  have hrequest : (Request.decode input).isOk = true := by decide +kernel
  have hresponse : (Response.decode input).isOk = true := by decide +kernel
  refine ⟨hl, hc, ?_, ?_⟩
  · cases h : Request.decode input with
    | error e => simp [h, Except.isOk, Except.toBool] at hrequest
    | ok r => exact ⟨r, rfl, ((decode_encode_of_decode hl).1 r h).2.1 hc⟩
  · cases h : Response.decode input with
    | error e => simp [h, Except.isOk, Except.toBool] at hresponse
    | ok r => exact ⟨r, rfl, ((decode_encode_of_decode hl).2 r h).2.1 hc⟩

/-- The payload is 7 under tag 2, in one chunk: a tagged byte string when it is read first, and the integer
when it is read again. -/
theorem decode_encode_chunked_integer :
    let input : Bytes :=
      [0xA5, 0x62, 0x69, 0x64, 0x50] ++ List.replicate 16 1 ++
      [0x64] ++ Utf8.encode "meta" ++ [0xA0] ++
      [0x6F] ++ Utf8.encode "fire_and_forget" ++ [0xF4] ++
      [0x68] ++ Utf8.encode "endpoint" ++ [0x61, 0x78] ++
      [0x67] ++ Utf8.encode "payload" ++ [0xC2, 0x5F, 0x41, 0x07, 0xFF]
    ∃ r s, Request.decode input = .ok r ∧ Request.decode r.encode = .ok s ∧ r.equal s = false := by
  intro input
  have h : (match Request.decode input with
      | .ok r => (Request.decode r.encode).toOption.map r.equal
      | .error _ => none) = some false := by decide +kernel
  split at h
  · next r hr =>
    cases hs : Request.decode r.encode with
    | error e => simp [hs, Except.toOption] at h
    | ok s => exact ⟨r, s, hr, hs, by simpa [hs, Except.toOption] using h⟩
  · simp at h

end PluginRelay.Message
