import Mathlib
import PluginRelay.Command.Run
import PluginRelay.Proofs.Invocation
import PluginRelay.Proofs.PayloadTexts
import PluginRelay.Proofs.RequestRoundTrip
import PluginRelay.Proofs.ResponseRoundTrip

/-!
# A payload there and back

A payload that was JSON is nested less than a message may be, frames included, so it arrives both in a
request and in a response. A plugin that answers with the payload it received makes the command print the
value that the text holds.
-/
namespace PluginRelay

open Cbor (Value)

/-! ## Messages around a payload -/

namespace Message

theorem readable_uuid (limit : Nat) (id : Uuid) : (Value.bytes id.bytes).Readable limit :=
  ⟨by rintro _ _ ⟨⟩, sized_uuid id, Nat.zero_le _⟩

/-- The frame of a request adds one container to those of its payload. -/
theorem Request.decode_encode_of_payload {id : Uuid} {fireAndForget : Bool} {endpoint : String}
    {payload : Value} (he : (Value.text endpoint).Sized) (hp : payload.Readable 255) :
    let r : Request := ⟨id, [], fireAndForget, endpoint, payload⟩
    decode r.encode = .ok r := by
  intro r
  have hframe : (metaValue []).Readable 255 := Value.readable_map.mpr ⟨by decide, by simp⟩
  have hflag : (Value.bool fireAndForget).Readable 255 := ⟨by rintro _ _ ⟨⟩, trivial, Nat.zero_le _⟩
  have hr : r.toValue.Readable depthLimit := by
    rw [depthLimit, Request.toValue, Value.readable_map]
    simp +decide [r, Value.readable_text, readable_uuid, hframe, hflag, Value.sized_text.mp he, hp]
  rw [decode_encode_of_settled hr.sized Keyed.sorted_nil hr.untagged.settled, if_pos hr.depth_le]

/-- The frame of a response adds two, whatever other values travel with the payload. -/
theorem Response.decode_encode_of_payload {id : Uuid} {entries : Meta} {payload : Value}
    (hs : (metaValue entries).Sized) (hk : Keyed.Sorted entries) (ht : (metaValue entries).Settled)
    (hd : (metaValue entries).depth < depthLimit) (hp : payload.Readable 254) :
    let r : Response := ⟨id, entries, .ok payload⟩
    decode r.encode = .ok r := by
  intro r
  have hsized : r.toValue.Sized := by
    refine sized_toValue.mpr ⟨hs, ?_⟩
    simp +decide [r, resultValue, Value.sized_map, Value.sized_text, hp.sized]
  have htext (s : String) : (Value.text s).Settled := (Value.plain_text s).settled
  have hsettled : r.toValue.Settled := by
    simp [r, toValue, resultValue, Value.settled_map, htext, (plain_uuid id).settled, ht,
      hp.untagged.settled]
  have hdepth : r.toValue.depth ≤ depthLimit := by
    have hpayload := hp.depth_le
    simp only [r, toValue, resultValue, Value.depth, Value.depthEntries, depthLimit] at hd ⊢
    omega
  exact decode_encode_of_settled hsized hk hsettled hdepth

end Message

namespace Command

open Message (Request Response)

variable {l : Libraries} {o : InvokeOptions} {id : Uuid} {content : Except String Bytes} {text : String} {payload : Value}
  {p : Plugin}

theorem request_of_parse (htext : o.payload = some text) (hparse : Payload.parse text = .ok payload)
    (id : Uuid) : request l o id = .ok ⟨id, [], o.fireAndForget, o.endpoint, payload⟩ := by
  simp only [request, htext, hparse]
  rfl

/-- A response goes to the output, unless the request was only fired. -/
theorem invoke_of_response {r : Request} {response : Response} {output : Bytes} {json : String}
    (hload : loadPlugin l o content = .ok p) (hr : request l o id = .ok r)
    (hc : p.Completes r output) (hd : Response.decode output = .ok response)
    (hid : response.requestId = r.id) (hp : response.payload = .ok payload)
    (hjson : Payload.render payload = .ok json) :
    invoke l o id content = ⟨0, if r.fireAndForget then "" else json ++ "\n", ""⟩ := by
  unfold invoke
  rw [hload, hr]
  simp only [Cbor.ok_bind, Plugin.invoke_of_completes hc]
  cases hf : r.fireAndForget with
  | true => simp [Plugin.judge, hf, done]
  | false =>
    simp only [Plugin.judge_of_decode hf hd, if_pos hid, answerText, hp, hjson]
    rfl

/-- Every payload that was JSON arrives in a request and in a response, and once a plugin has answered with it,
the command prints the value that the text holds. -/
theorem invoke_echo (id : Uuid) (hload : loadPlugin l o content = .ok p) (htext : o.payload = some text)
    (hparse : Payload.parse text = .ok payload) (hs : (Value.text text).Sized)
    (he : (Value.text o.endpoint).Sized) :
    ∃ r j, request l o id = .ok r ∧ r.id = id ∧ r.payload = payload ∧ Request.decode r.encode = .ok r ∧
      Json.parse? text = some j ∧ Payload.render payload = .ok j.render ∧
      (∀ entries, (Message.metaValue entries).Sized → Keyed.Sorted entries →
        (Message.metaValue entries).Settled → (Message.metaValue entries).depth < Message.depthLimit →
          Response.decode (Response.encode ⟨id, entries, .ok payload⟩) = .ok ⟨id, entries, .ok payload⟩) ∧
      ∀ output response, p.Completes r output → Response.decode output = .ok response →
        response.requestId = id → response.payload = .ok payload →
          invoke l o id content = ⟨0, if o.fireAndForget then "" else j.render ++ "\n", ""⟩ := by
  have hpayload : payload.Readable Json.depthLimit := Payload.readable_of_parse hparse hs
  obtain ⟨j, hj, hjson⟩ := Payload.render_of_parse hparse
  refine ⟨_, j, request_of_parse htext hparse id, rfl, rfl, ?_, hj, hjson, ?_, ?_⟩
  · exact Request.decode_encode_of_payload he (hpayload.mono (by decide))
  · intro entries hsized hsorted hsettled hdepth
    exact Response.decode_encode_of_payload hsized hsorted hsettled hdepth (hpayload.mono (by decide))
  · intro output response hc hd hid hp
    exact invoke_of_response hload (request_of_parse htext hparse id) hc hd hid hp hjson

/-- A plugin that answers with what a text holds: escapes, members out of order, and the integers at both ends
of the range. -/
theorem invoke_echo_extremes :
    let text := "\x7b\"b\":[-9223372036854775808,18446744073709551615],\"a\":\"\\ud83d\\ude00\"\x7d"
    let payload : Value := .map [(.text "a", .text "😀"),
      (.text "b", .array [.integer (.negative 0x7FFFFFFFFFFFFFFF), .integer (.natural 0xFFFFFFFFFFFFFFFF)])]
    let answer : Response := ⟨.zero, [], .ok payload⟩
    let types : Bytes := [1, 12, 2, 0x60, 4, 0x7F, 0x7F, 0x7F, 0x7F, 1, 0x7F, 0x60, 0, 0]
    let imports : Bytes := [2, 26, 1, 13] ++ Utf8.encode "wasi_unstable" ++ [8] ++ Utf8.encode "fd_write" ++ [0, 0]
    let memory : Bytes := [3, 2, 1, 1, 5, 3, 1, 0, 1]
    let exports : Bytes := [7, 29, 2, 6] ++ Utf8.encode "memory" ++ [2, 0, 16] ++
      Utf8.encode "wl_bridge_handle" ++ [0, 1]
    let code : Bytes := [10, 15, 1, 13, 0, 0x41, 1, 0x41, 0, 0x41, 1, 0x41, 8, 0x10, 0, 0x1A, 0x0B]
    let span : Bytes := [16, 0, 0, 0, 76, 0, 0, 0, 0, 0, 0, 0, 0, 0, 0, 0]
    let data : Bytes := [11, 98, 1, 0, 0x41, 0, 0x0B, 92] ++ (span ++ answer.encode)
    let file := Wasm.Binary.magic ++ Wasm.Binary.version ++ types ++ imports ++ memory ++ exports ++ code ++ data
    let o : InvokeOptions := ⟨"echo.wasm", "echo", some text, false, none, none⟩
    ((∃ p, loadPlugin .plain o (.ok file) = .ok p) ∧ Payload.parse text = .ok payload ∧
      (Value.text text).Sized ∧ (Value.text o.endpoint).Sized) ∧
      invoke .plain o .zero (.ok file) =
        ⟨0, "\x7b\"a\":\"😀\",\"b\":[-9223372036854775808,18446744073709551615]\x7d\n", ""⟩ := by
  intro text payload answer types imports memory exports code span data file o
  let r : Request := ⟨.zero, [], false, "echo", payload⟩
  have hruns : (loadPlugin .plain o (.ok file)).toOption.any (fun p =>
      (p.call (p.streamsFor r)).2.isOk && (p.call (p.streamsFor r)).1.output == answer.encode) := by
    decide +kernel
  obtain ⟨p, hload, hcall, houtput⟩ : ∃ p, loadPlugin .plain o (.ok file) = .ok p ∧
      (p.call (p.streamsFor r)).2.isOk ∧ (p.call (p.streamsFor r)).1.output = answer.encode := by
    cases hload : loadPlugin .plain o (.ok file) with
    | error t => simp [hload, Except.toOption] at hruns
    | ok p => exact ⟨p, rfl, by simpa [hload, Except.toOption] using hruns⟩
  have hcompletes : p.Completes r answer.encode := houtput ▸ Plugin.completes_of_call hcall
  have hparse : Payload.parse text = .ok payload := by
    dsimp only [text, payload]
    cbv
  have hs : (Value.text text).Sized := Value.sized_text.mpr (by decide +kernel)
  have he : (Value.text o.endpoint).Sized := Value.sized_text.mpr (by decide +kernel)
  obtain ⟨r', j, hr, -, -, -, -, hrender, hanswer, hinvoke⟩ := invoke_echo .zero hload rfl hparse hs he
  obtain rfl : r = r' := Except.ok.inj ((request_of_parse rfl hparse .zero).symm.trans hr)
  have hprinted : Payload.render payload =
      .ok "\x7b\"a\":\"😀\",\"b\":[-9223372036854775808,18446744073709551615]\x7d" := by cbv
  have hdecode : Response.decode answer.encode = .ok answer :=
    hanswer [] (Message.sized_metaValue.mpr ⟨by decide, by simp⟩) Keyed.sorted_nil
      (Value.settled_map.mpr (by simp)) (by decide)
  refine ⟨⟨⟨p, hload⟩, hparse, hs, he⟩, ?_⟩
  rw [hinvoke answer.encode answer hcompletes hdecode rfl rfl,
    ← Except.ok.inj (hprinted.symm.trans hrender)]
  rfl

end Command

end PluginRelay
