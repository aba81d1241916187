import PluginRelay.Proofs.Exchange

/-!
# Serving over streams that break

Nothing that a broken source delivered is handled. A sink takes the front of the answer, and serving ends
well exactly if that front is all of it and the flush succeeds. Without a response the sink plays no part.
-/
namespace PluginRelay

open Message (Request Response Error)

namespace Sink

theorem written_prefix (sink : Sink) (bytes : Bytes) : (sink.writeAll bytes).1 <+: bytes := by
  unfold writeAll
  cases sink.limit with
  | none => exact List.prefix_refl bytes
  | some limit =>
    obtain ⟨n, reason⟩ := limit
    simp only
    split_ifs with h
    · exact List.prefix_refl bytes
    · exact List.take_prefix n bytes

/-- Writing ends well exactly if everything is taken and the flush succeeds. -/
theorem writeAll_eq_ok_iff (sink : Sink) (bytes : Bytes) :
    (sink.writeAll bytes).2 = .ok () ↔
      (sink.writeAll bytes).1 = bytes ∧ sink.flushFailure = none := by
  obtain ⟨limit, flushFailure⟩ := sink
  cases limit with
  | none => cases flushFailure <;> simp [writeAll]
  | some limit =>
    obtain ⟨n, reason⟩ := limit
    by_cases h : bytes.length ≤ n
    · cases flushFailure <;> simp [writeAll, h]
    · have hcut : ¬bytes.take n = bytes := by
        intro hall
        have hlength := congrArg List.length hall
        rw [List.length_take] at hlength
        omega
      simp [writeAll, h, hcut]

end Sink

namespace Router

variable {σ : Type} (router : Router σ) (state : σ)

/-! ## The answer to an input -/

theorem answer_of_undecodable {input : Bytes} {e : Error} (h : Request.decode input = .error e) :
    router.answer input state = ⟨some ⟨.zero, [], .error e⟩, [], state⟩ := by
  rw [answer, h]

theorem kind_of_undecodable {input : Bytes} {e : Error} (h : Request.decode input = .error e) :
    e.kind = .serializationError := by
  unfold Request.decode at h
  split at h
  · simp at h
  · obtain rfl := Except.error.inj h
    rfl

theorem response_handle_eq_none_iff (request : Request) :
    (router.handle request state).response = none ↔ request.fireAndForget = true := by
  rw [response_handle]
  cases request.fireAndForget with
  | false => simp
  | true => simp

/-! ## One run -/

/-- What was delivered before a source broke is not looked at. -/
theorem serve_of_failure {source : Source} {reason : String} (h : source.failure = some reason)
    (sink : Sink) :
    router.serve source sink state = ⟨[], .error (.streamFailed reason), [], state⟩ := by
  simp only [serve, Source.readToEnd, h]

theorem serve_of_silence {source : Source} (hf : source.failure = none)
    (hr : (router.answer source.chunks.flatten state).response = none) (sink : Sink) :
    router.serve source sink state =
      ⟨[], .ok (), (router.answer source.chunks.flatten state).events,
        (router.answer source.chunks.flatten state).state⟩ := by
  simp only [serve, Source.readToEnd, hf, hr]

theorem serve_of_response {source : Source} {response : Response} (hf : source.failure = none)
    (hr : (router.answer source.chunks.flatten state).response = some response) (sink : Sink) :
    router.serve source sink state =
      ⟨(sink.writeAll response.encode).1, (sink.writeAll response.encode).2.mapError .streamFailed,
        (router.answer source.chunks.flatten state).events,
        (router.answer source.chunks.flatten state).state⟩ := by
  simp only [serve, Source.readToEnd, hf, hr]
  obtain ⟨written, result⟩ := sink.writeAll response.encode
  cases result with
  | ok _ => rfl
  | error reason => rfl

/-- The handler's part is the same whatever becomes of the response. -/
theorem serve_effects {source : Source} (hf : source.failure = none) (sink : Sink) :
    (router.serve source sink state).events = (router.answer source.chunks.flatten state).events ∧
      (router.serve source sink state).state = (router.answer source.chunks.flatten state).state := by
  cases hr : (router.answer source.chunks.flatten state).response with
  | none =>
    rw [router.serve_of_silence state hf hr]
    exact ⟨rfl, rfl⟩
  | some response =>
    rw [router.serve_of_response state hf hr]
    exact ⟨rfl, rfl⟩

theorem serve_error {source : Source} {sink : Sink} {e : Error}
    (h : (router.serve source sink state).result = .error e) : ∃ reason, e = .streamFailed reason := by
  cases hf : source.failure with
  | some reason =>
    rw [router.serve_of_failure state hf] at h
    exact ⟨reason, (Except.error.inj h).symm⟩
  | none =>
    cases hr : (router.answer source.chunks.flatten state).response with
    | none =>
      rw [router.serve_of_silence state hf hr] at h
      simp at h
    | some response =>
      rw [router.serve_of_response state hf hr] at h
      obtain ⟨reason, -, he⟩ := Cbor.mapError_eq_error.mp h
      exact ⟨reason, he.symm⟩

/-- Serving over any streams: a broken source is not answered. Otherwise there is one answer, an error under
the zero identifier for what is no request and the response of the handler for what is one; the sink
gets the front of it, and all of it with a flush exactly if serving ends well. -/
theorem serve_front_of_answer (source : Source) (sink : Sink) :
    let served := router.serve source sink state
    let input := source.chunks.flatten
    (∀ e, served.result = .error e →
      e.kind = .internalError ∧ e.description = "bridge i/o failed") ∧
    (∀ reason, source.failure = some reason →
      served = ⟨[], .error (.streamFailed reason), [], state⟩) ∧
    (source.failure = none → ∃ answer : Option Response,
      (∀ e, Request.decode input = .error e →
        e.kind = .serializationError ∧ answer = some ⟨.zero, [], .error e⟩ ∧
        served.events = [] ∧ served.state = state) ∧
      (∀ request, Request.decode input = .ok request →
        answer = (router.handle request state).response ∧
        (answer = none ↔ request.fireAndForget = true) ∧
        served.events = (router.handle request state).events ∧
        served.state = (router.handle request state).state) ∧
      served.written <+: (answer.map Response.encode).getD [] ∧
      (served.result = .ok () ↔ served.written = (answer.map Response.encode).getD [] ∧
        (answer.isSome → sink.flushFailure = none)) ∧
      (answer = none → ∀ other : Sink, router.serve source other state = served)) := by
  intro served input
  refine ⟨?_, fun reason hf => router.serve_of_failure state hf sink, fun hf => ?_⟩
  · intro e he
    obtain ⟨reason, rfl⟩ := router.serve_error state he
    exact ⟨rfl, rfl⟩
  obtain ⟨hevents, hstate⟩ := router.serve_effects state hf sink
  refine ⟨(router.answer input state).response, ?_, ?_, ?_⟩
  · intro e he
    have hanswer : router.answer input state = _ := router.answer_of_undecodable state he
    exact ⟨kind_of_undecodable he, by rw [hanswer], by rw [hevents, hanswer], by rw [hstate, hanswer]⟩
  · intro request hrequest
    have hanswer : router.answer input state = _ := router.answer_of_decode state hrequest
    exact ⟨by rw [hanswer], by rw [hanswer, response_handle_eq_none_iff], by rw [hevents, hanswer],
      by rw [hstate, hanswer]⟩
  cases hr : (router.answer input state).response with
  | none =>
    have hserved := router.serve_of_silence state hf hr
    refine ⟨by simp [served, hserved], by simp [served, hserved], fun _ other => ?_⟩
    rw [hserved other, ← hserved sink]
  | some response =>
    have hserved := router.serve_of_response state hf hr sink
    refine ⟨?_, ?_, by simp⟩
    · simpa [served, hserved] using sink.written_prefix response.encode
    · simpa [served, hserved, Cbor.mapError_eq_ok] using sink.writeAll_eq_ok_iff response.encode

end Router

end PluginRelay
