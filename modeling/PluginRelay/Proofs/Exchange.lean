import PluginRelay.Plugin.Basic
import PluginRelay.Proofs.RequestRoundTrip
import PluginRelay.Proofs.ResponseRoundTrip
import PluginRelay.Router.Serve

/-!
# Calling over streams is calling in memory

A request is written, served from a stream, and the output is judged as that of a plugin. If nothing
breaks and both messages may travel, the caller has the response of the router, as it is received.
-/
namespace PluginRelay

open Cbor (Value)
open Message (Request Response Error depthLimit)

/-- A message that is read back on the other side: its lengths fit, its large integers are in the form that
integers are written in, and no more containers are nested than a reader opens. -/
structure Message.Travels (message : Value) : Prop where
  sized : message.Sized
  plain : message.Plain
  depth_le : message.depth ≤ depthLimit

theorem Message.Response.encode_ne_nil (r : Response) (hs : r.toValue.Sized) : r.encode ≠ [] := by
  have hread := Value.read_encode hs.self []
  rw [List.append_nil] at hread
  intro h
  rw [← Response.encode, h] at hread
  simp [Cbor.Header.read] at hread

theorem Sink.writeAll_eq {sink : Sink} {bytes : Bytes} (h : (sink.writeAll bytes).2 = .ok ()) :
    sink.writeAll bytes = (bytes, .ok ()) := by
  simp only [writeAll] at h ⊢
  cases hl : sink.limit with
  | none =>
    simp only [hl] at h ⊢
    rw [h]
  | some limit =>
    obtain ⟨n, reason⟩ := limit
    simp only [hl] at h ⊢
    split_ifs at h ⊢
    exact Prod.ext rfl h

namespace Router

variable {σ : Type} (router : Router σ) (state : σ)

/-- Whatever the handler does, only the flag decides whether there is a response. -/
theorem response_handle (request : Request) :
    (router.handle request state).response =
      if request.fireAndForget then none
      else some ⟨request.id, [], (router.dispatch request state).1⟩ := by
  unfold handle
  obtain ⟨result, next⟩ := router.dispatch request state
  cases request.fireAndForget with
  | false => rfl
  | true => cases result <;> rfl

/-- Serving writes the whole response, if there is one and nothing fails. -/
theorem serve_eq {source : Source} {sink : Sink} {input : Bytes}
    (hin : source.readToEnd = .ok input)
    (hout : ∀ response, (router.answer input state).response = some response →
      (sink.writeAll response.encode).2 = .ok ()) :
    router.serve source sink state =
      ⟨((router.answer input state).response.map Response.encode).getD [], .ok (),
        (router.answer input state).events, (router.answer input state).state⟩ := by
  simp only [serve, hin]
  cases h : (router.answer input state).response with
  | none => rfl
  | some response =>
    simp only [Sink.writeAll_eq (hout response h)]
    rfl

theorem answer_of_decode {input : Bytes} {request : Request} (h : Request.decode input = .ok request) :
    router.answer input state = router.handle request state := by
  rw [answer, h]

end Router

/-- A caller takes the response to its request as it was sent. -/
theorem Plugin.judge_encode {request : Request} {response : Response}
    (hf : request.fireAndForget = false) (hid : response.requestId = request.id)
    (hk : Keyed.Sorted response.entries) (ht : Message.Travels response.toValue) :
    judge request response.encode = .ok (some response.received) := by
  have hdecode := Response.decode_encode_of_settled ht.sized hk ht.plain.settled ht.depth_le
  have hne := Response.encode_ne_nil response ht.sized
  simp [judge, hf, hne, hdecode, Response.received, hid]

/-- Calling over streams that do not fail is calling in memory, up to what errors lose on the way. -/
theorem Router.judge_serve {σ : Type} (router : Router σ) (state : σ) {request : Request}
    {source : Source} {sink : Sink} (hin : source.readToEnd = .ok request.encode)
    (hout : ∀ response, (router.handle request state).response = some response →
      (sink.writeAll response.encode).2 = .ok ())
    (hk : Keyed.Sorted request.entries) (ht : Message.Travels request.toValue)
    (hresponse : ∀ response, (router.handle request state).response = some response →
      Message.Travels response.toValue) :
    let outcome := router.handle request state
    let served := router.serve source sink state
    served.result = .ok () ∧ served.events = outcome.events ∧ served.state = outcome.state ∧
      Plugin.judge request served.written = .ok (outcome.response.map Response.received) ∧
      (served.written = [] ↔ request.fireAndForget = true) ∧
      (outcome.response = none ↔ request.fireAndForget = true) := by
  intro outcome served
  have hdecode : Request.decode request.encode = .ok request := by
    rw [Request.decode_encode_of_settled ht.sized hk ht.plain.settled, if_pos ht.depth_le]
  have hanswer := router.answer_of_decode state hdecode
  have hserved : served = ⟨(outcome.response.map Response.encode).getD [], .ok (), outcome.events,
      outcome.state⟩ := by
    simp only [served, outcome, ← hanswer]
    exact router.serve_eq state hin (by rwa [hanswer])
  have hcase := router.response_handle state request
  rw [hserved]
  refine ⟨rfl, rfl, rfl, ?_⟩
  cases hf : request.fireAndForget with
  | true =>
    have hnone : outcome.response = none := by rw [hcase, hf, if_pos rfl]
    simp [hnone, Plugin.judge, hf]
  | false =>
    obtain ⟨response, hsome, hid, hentries⟩ : ∃ response, outcome.response = some response ∧
        response.requestId = request.id ∧ response.entries = [] := by
      exact ⟨_, by rw [hcase, hf]; rfl, rfl, rfl⟩
    have htravels := hresponse response hsome
    have hjudge := Plugin.judge_encode hf hid (hentries ▸ Keyed.sorted_nil) htravels
    simp [hsome, hjudge, Response.encode_ne_nil response htravels.sized]

/-- A handler that fails with everything that an error can lose, called through two chunks. -/
theorem Router.judge_serve_failing_handler :
    let failure (detail : Option Value) (source : Option Message.Source) : Error :=
      ⟨.other 404, "no such row", detail, source⟩
    let router : Router Unit :=
      Router.empty.route "rows" fun _ _ => (.error (failure (some .null) (some (.text "disk"))), ())
    let request : Request := .new .zero "rows"
    let source : Source := ⟨[request.encode.take 9, request.encode.drop 9], none⟩
    let served := router.serve source ⟨none, none⟩ ()
    (source.readToEnd = .ok request.encode ∧ Message.Travels request.toValue) ∧
      Plugin.judge request served.written = .ok (some ⟨.zero, [], .error (failure none none)⟩) := by
  intro failure router request source served
  have hin : source.readToEnd = .ok request.encode := by
    simp [source, Source.readToEnd]
  have ht : Message.Travels request.toValue := by
    constructor
    · simp +decide [request, Request.new, Request.sized_toValue, Message.sized_metaValue,
        Value.sized_text, Value.sized_null]
    · simp [request, Request.new, Request.plain_toValue, Value.plain_null]
    · decide +kernel
  have hresponse : (router.handle request ()).response =
      some ⟨.zero, [], .error (failure (some .null) (some (.text "disk")))⟩ := rfl
  have hsent : ∀ response, (router.handle request ()).response = some response →
      Message.Travels response.toValue := by
    intro response h
    obtain rfl := Option.some.inj (hresponse.symm.trans h)
    constructor
    · simp +decide [Response.sized_toValue, Message.sized_metaValue, Message.resultValue,
        Value.sized_map, Value.sized_text, Value.sized_null, Error.sized_toValue, failure]
    · simp [Response.plain_toValue, failure, Value.plain_null]
    · decide +kernel
  have hout : ∀ response, (router.handle request ()).response = some response →
      (Sink.writeAll ⟨none, none⟩ response.encode).2 = .ok () := fun _ _ => rfl
  have h := router.judge_serve () hin hout Keyed.sorted_nil ht hsent
  refine ⟨⟨hin, ht⟩, ?_⟩
  rw [h.2.2.2.1, hresponse]
  rfl

end PluginRelay
