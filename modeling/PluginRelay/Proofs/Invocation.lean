import PluginRelay.Plugin.Basic

/-!
# What becomes of an invocation

An invocation makes an instance, calls its initializer if there is one, and then its handler. The first
stage that fails decides; output counts only if none does. `Fails` has one rule for each way to fail, and
the premises of a rule say what came before.
-/
namespace PluginRelay.Plugin

open Message (Request Response Error)
open Wasm (Instance Stop)

/-! ## Stages -/

/-- How the call of an exported function goes. -/
inductive Course where
  /-- No function is exported under the name. -/
  | absent
  /-- The function has parameters or results, so that it is not called. -/
  | mistyped
  | returned
  | stopped (reason : Stop)

theorem finish_of_ne {α : Type} {reason : Stop} (h : reason ≠ .exited 0) :
    finish (.error reason : Except Stop α) = .error (.interrupted reason) := by
  unfold finish
  split
  · next heq => simp at heq
  · next heq => exact absurd (Except.error.inj heq) h
  · next heq => rw [Except.error.inj heq]

namespace Course

/-- The function was called and ended well: it returned, or it left with code zero. -/
def Finishes (c : Course) : Prop := c = returned ∨ c = stopped (.exited 0)

/-- The function is of another type, or it was called and ended in some other way. -/
inductive Breaks : Course → Stop → Prop
  | mistyped : Breaks .mistyped .refused
  | stopped {reason : Stop} (h : reason ≠ .exited 0) : Breaks (.stopped reason) reason

def ofResult {α : Type} : Except Stop α → Course
  | .ok _ => returned
  | .error reason => stopped reason

/-- The result of a stage, given the one for when there is no function. -/
def result (c : Course) (missing : Except Failure Unit) : Except Failure Unit :=
  match c with
  | absent => missing
  | mistyped => .error (.interrupted .refused)
  | returned => .ok ()
  | stopped reason => finish (.error reason : Except Stop Unit)

theorem result_ofResult {α : Type} (result : Except Stop α) (missing : Except Failure Unit) :
    (ofResult result).result missing = finish result := by
  cases result with
  | ok a => rfl
  | error reason =>
    by_cases h : reason = .exited 0
    · rw [h]
      rfl
    · rw [finish_of_ne h]
      exact finish_of_ne h

theorem cases_on (c : Course) : c = absent ∨ c.Finishes ∨ ∃ reason, c.Breaks reason := by
  cases c with
  | absent => exact .inl rfl
  | mistyped => exact .inr (.inr ⟨_, .mistyped⟩)
  | returned => exact .inr (.inl (.inl rfl))
  | stopped reason =>
    by_cases h : reason = .exited 0
    · exact .inr (.inl (.inr (by rw [h])))
    · exact .inr (.inr ⟨reason, .stopped h⟩)

theorem result_of_finishes {c : Course} (h : c.Finishes) (missing : Except Failure Unit) :
    c.result missing = .ok () := by
  obtain rfl | rfl := h
  · rfl
  · rfl

theorem result_of_breaks {c : Course} {reason : Stop} (h : c.Breaks reason)
    (missing : Except Failure Unit) : c.result missing = .error (.interrupted reason) := by
  cases h with
  | mistyped => rfl
  | stopped h => exact finish_of_ne h

end Course

/-- A new instance of the plugin with the world that its start leaves, or why there is none. -/
def instantiation (p : Plugin) (streams : Streams) : Except Stop (Instance Streams × State) :=
  match Instance.new? p.module (linker p.system) p.config.fuel streams with
  | none => .error .refused
  | some i =>
    match i.start with
    | (_, .error reason) => .error reason
    | (world, .ok ()) => .ok (i, world)

/-- Calls what is exported under a name. -/
def callNamed (i : Instance Streams) (world : State) (name : String) : State × Course :=
  match i.source.exportedFunction? name with
  | none => (world, .absent)
  | some index =>
    match i.environment.types[index]? with
    | some ⟨[], []⟩ =>
      let (world, result) := i.environment.invoke world index []
      (world, .ofResult result)
    | _ => (world, .mistyped)

/-- What a plugin finds when it is given a request. -/
def streamsFor (p : Plugin) (request : Request) : Streams :=
  ⟨request.encode, [], .empty p.config.logCapacity, 0⟩

theorem callPlain_eq {i : Instance Streams} {name : String} {index : Nat}
    (h : i.source.exportedFunction? name = some index) (world : State)
    (missing : Except Failure Unit) :
    callPlain i world index =
      ((callNamed i world name).1, (callNamed i world name).2.result missing) := by
  simp only [callPlain, callNamed, h]
  rcases i.environment.types[index]? with _ | ⟨_ | _, _ | _⟩
  · rfl
  · simp only [Course.result_ofResult]
  all_goals rfl

theorem prepare_eq (i : Instance Streams) (world : State) :
    prepare i world =
      ((callNamed i world initializer).1, (callNamed i world initializer).2.result (.ok ())) := by
  unfold prepare
  cases h : i.source.exportedFunction? initializer with
  | none => simp only [callNamed, h, Course.result]
  | some index => exact callPlain_eq h world _

theorem callHandler_eq (handler : String) (i : Instance Streams) (world : State) :
    callHandler handler i world =
      ((callNamed i world handler).1,
        (callNamed i world handler).2.result (.error (.missingExport handler))) := by
  unfold callHandler
  cases h : i.source.exportedFunction? handler with
  | none => simp only [callNamed, h, Course.result]
  | some index => exact callPlain_eq h world _

theorem call_of_unlinkable {p : Plugin} {streams : Streams} {reason : Stop}
    (h : p.instantiation streams = .error reason) :
    (p.call streams).2 = .error (.unlinkable reason) := by
  unfold instantiation at h
  unfold call
  cases hnew : Instance.new? p.module (linker p.system) p.config.fuel streams with
  | none =>
    obtain rfl := by simpa [hnew] using h
    rfl
  | some i =>
    simp only [hnew] at h ⊢
    cases hstart : i.start with
    | mk world result =>
      cases result with
      | ok _ => simp [hstart] at h
      | error reason' =>
        obtain rfl := by simpa [hstart] using h
        rfl

/-- Of an instance, the initializer is called first; if it fails the handler is left alone. -/
theorem call_of_instantiation {p : Plugin} {streams : Streams} {i : Instance Streams} {world : State}
    (h : p.instantiation streams = .ok (i, world)) :
    p.call streams =
      match prepare i world with
      | (world, .error failure) => (world.host, .error failure)
      | (world, .ok ()) =>
        ((callHandler p.config.handler i world).1.host, (callHandler p.config.handler i world).2) := by
  unfold instantiation at h
  unfold call
  cases hnew : Instance.new? p.module (linker p.system) p.config.fuel streams with
  | none => simp [hnew] at h
  | some i' =>
    simp only [hnew] at h ⊢
    cases hstart : i'.start with
    | mk world' result =>
      cases result with
      | error reason => simp [hstart] at h
      | ok _ =>
        obtain ⟨rfl, rfl⟩ := by simpa [hstart] using h
        rfl

/-! ## Invocations -/

/-- There is an instance whose initializer ended well, if it has one, and `world` is what it left. -/
def Ready (p : Plugin) (request : Request) (i : Instance Streams) (world : State) : Prop :=
  ∃ fresh course, p.instantiation (p.streamsFor request) = .ok (i, fresh) ∧
    callNamed i fresh initializer = (world, course) ∧ (course = .absent ∨ course.Finishes)

/-- Every call ended well, and `output` is what the plugin wrote. -/
def Completes (p : Plugin) (request : Request) (output : Bytes) : Prop :=
  ∃ i world last course, p.Ready request i world ∧
    callNamed i world p.config.handler = (last, course) ∧ course.Finishes ∧ last.host.output = output

/-- The ways to fail, in the order in which they come up. -/
inductive Fails (p : Plugin) (request : Request) : Failure → Prop
  | instantiation {reason : Stop} (h : p.instantiation (p.streamsFor request) = .error reason) :
      Fails p request (.unlinkable reason)
  | initializer {i : Instance Streams} {fresh : State} {reason : Stop}
      (hi : p.instantiation (p.streamsFor request) = .ok (i, fresh))
      (h : (callNamed i fresh initializer).2.Breaks reason) : Fails p request (.interrupted reason)
  | missing {i : Instance Streams} {world : State} (hr : p.Ready request i world)
      (h : (callNamed i world p.config.handler).2 = .absent) :
      Fails p request (.missingExport p.config.handler)
  | handler {i : Instance Streams} {world : State} {reason : Stop} (hr : p.Ready request i world)
      (h : (callNamed i world p.config.handler).2.Breaks reason) :
      Fails p request (.interrupted reason)
  | silent (hc : p.Completes request []) (hf : request.fireAndForget = false) :
      Fails p request (.protocol silent)
  | undecodable {output : Bytes} {e : Error} (hc : p.Completes request output)
      (hf : request.fireAndForget = false) (ho : output ≠ [])
      (h : Response.decode output = .error e) : Fails p request (.protocol e)
  | stray {output : Bytes} {response : Response} (hc : p.Completes request output)
      (hf : request.fireAndForget = false) (h : Response.decode output = .ok response)
      (hid : response.requestId ≠ request.id) : Fails p request (.protocol (strayResponse request response))

section

variable {p : Plugin} {request : Request}

theorem invoke_fst (p : Plugin) (request : Request) :
    (p.invoke request).1 =
      match (p.call (p.streamsFor request)).2 with
      | .error failure => .error failure
      | .ok () => judge request (p.call (p.streamsFor request)).1.output := by
  unfold invoke streamsFor
  obtain ⟨streams, result⟩ := p.call ⟨request.encode, [], .empty p.config.logCapacity, 0⟩
  cases result <;> rfl

theorem call_of_initializer {i : Instance Streams} {fresh : State} {reason : Stop}
    (hi : p.instantiation (p.streamsFor request) = .ok (i, fresh))
    (h : (callNamed i fresh initializer).2.Breaks reason) :
    p.call (p.streamsFor request) =
      ((callNamed i fresh initializer).1.host, .error (.interrupted reason)) := by
  rw [call_of_instantiation hi, prepare_eq, Course.result_of_breaks h]

theorem call_of_ready {i : Instance Streams} {world : State} (h : p.Ready request i world) :
    p.call (p.streamsFor request) =
      ((callNamed i world p.config.handler).1.host,
        (callNamed i world p.config.handler).2.result (.error (.missingExport p.config.handler))) := by
  obtain ⟨fresh, course, hi, hcall, hcourse⟩ := h
  have hresult : course.result (.ok ()) = .ok () := by
    obtain rfl | hcourse := hcourse
    · rfl
    · exact Course.result_of_finishes hcourse _
  rw [call_of_instantiation hi, prepare_eq, hcall]
  simp only [hresult, callHandler_eq]

theorem call_of_completes {output : Bytes} (h : p.Completes request output) :
    (p.call (p.streamsFor request)).2 = .ok () ∧ (p.call (p.streamsFor request)).1.output = output := by
  obtain ⟨i, world, last, course, hready, hcall, hcourse, rfl⟩ := h
  rw [call_of_ready hready, hcall]
  exact ⟨Course.result_of_finishes hcourse _, rfl⟩

theorem invoke_of_completes {output : Bytes} (h : p.Completes request output) :
    (p.invoke request).1 = judge request output := by
  obtain ⟨hok, houtput⟩ := call_of_completes h
  rw [invoke_fst, hok, houtput]

/-- Either every call ended well, or there is a rule for the first that did not. -/
theorem completes_or_fails (p : Plugin) (request : Request) :
    (∃ output, p.Completes request output) ∨
      ∃ failure, p.Fails request failure ∧ (p.call (p.streamsFor request)).2 = .error failure := by
  cases hi : p.instantiation (p.streamsFor request) with
  | error reason => exact .inr ⟨_, .instantiation hi, call_of_unlinkable hi⟩
  | ok start =>
    obtain ⟨i, fresh⟩ := start
    obtain hready | ⟨reason, hbreaks⟩ : p.Ready request i (callNamed i fresh initializer).1 ∨
        ∃ reason, (callNamed i fresh initializer).2.Breaks reason := by
      obtain habsent | hfinishes | hbreaks := (callNamed i fresh initializer).2.cases_on
      · exact .inl ⟨fresh, _, hi, rfl, .inl habsent⟩
      · exact .inl ⟨fresh, _, hi, rfl, .inr hfinishes⟩
      · exact .inr hbreaks
    · generalize (callNamed i fresh initializer).1 = world at hready
      obtain habsent | hfinishes | ⟨reason, hbreaks⟩ :=
        (callNamed i world p.config.handler).2.cases_on
      · exact .inr ⟨_, .missing hready habsent, by rw [call_of_ready hready, habsent, Course.result]⟩
      · exact .inl ⟨_, i, world, _, _, hready, rfl, hfinishes, rfl⟩
      · exact .inr ⟨_, .handler hready hbreaks, by rw [call_of_ready hready, Course.result_of_breaks hbreaks]⟩
    · exact .inr ⟨_, .initializer hi hbreaks, by rw [call_of_initializer hi hbreaks]⟩

/-- A call that gives no error completes with what stands in the output. -/
theorem completes_of_call (h : (p.call (p.streamsFor request)).2.isOk) :
    p.Completes request (p.call (p.streamsFor request)).1.output := by
  obtain ⟨output, hc⟩ | ⟨failure, -, hfailure⟩ := completes_or_fails p request
  · rwa [(call_of_completes hc).2]
  · rw [hfailure] at h
    simp [Except.isOk, Except.toBool] at h

/-! ## Output -/

theorem decode_nil : ∃ e, Response.decode [] = .error e := ⟨_, rfl⟩

theorem kind_of_undecodable {output : Bytes} {e : Error} (h : Response.decode output = .error e) :
    e.kind = .serializationError := by
  unfold Response.decode at h
  split at h
  · simp at h
  · obtain rfl := Except.error.inj h
    rfl

theorem judge_of_error {output : Bytes} {e : Error} (hf : request.fireAndForget = false)
    (ho : output ≠ []) (h : Response.decode output = .error e) :
    judge request output = .error (.protocol e) := by
  simp [judge, hf, ho, h]

theorem judge_of_decode {output : Bytes} {response : Response}
    (hf : request.fireAndForget = false) (h : Response.decode output = .ok response) :
    judge request output =
      if response.requestId = request.id then .ok (some response)
      else .error (.protocol (strayResponse request response)) := by
  have ho : output ≠ [] := by
    rintro rfl
    obtain ⟨e, he⟩ := decode_nil
    simp [he] at h
  simp [judge, hf, ho, h]

theorem judge_cases (request : Request) (output : Bytes) :
    (request.fireAndForget = true ∧ judge request output = .ok none) ∨
    (request.fireAndForget = false ∧
      ((output = [] ∧ judge request output = .error (.protocol silent)) ∨
      (∃ e, output ≠ [] ∧ Response.decode output = .error e ∧
        judge request output = .error (.protocol e)) ∨
      (∃ response, Response.decode output = .ok response ∧ response.requestId = request.id ∧
        judge request output = .ok (some response)) ∨
      (∃ response, Response.decode output = .ok response ∧ response.requestId ≠ request.id ∧
        judge request output = .error (.protocol (strayResponse request response))))) := by
  cases hf : request.fireAndForget with
  | true => exact .inl ⟨rfl, by simp [judge, hf]⟩
  | false =>
    refine .inr ⟨rfl, ?_⟩
    by_cases ho : output = []
    · exact .inl ⟨ho, by simp [judge, hf, ho]⟩
    · refine .inr ?_
      cases h : Response.decode output with
      | error e => exact .inl ⟨e, ho, rfl, judge_of_error hf ho h⟩
      | ok response =>
        refine .inr ?_
        rw [judge_of_decode hf h]
        by_cases hid : response.requestId = request.id
        · exact .inl ⟨response, rfl, hid, if_pos hid⟩
        · exact .inr ⟨response, rfl, hid, if_neg hid⟩

/-- A call that ended well still fails if its output is refused. -/
theorem fails_of_judge {output : Bytes} {failure : Failure} (hc : p.Completes request output)
    (h : judge request output = .error failure) : p.Fails request failure := by
  obtain ⟨-, hj⟩ | ⟨hf, ⟨rfl, hj⟩ | ⟨e, ho, hd, hj⟩ | ⟨response, -, -, hj⟩ | ⟨response, hd, hid, hj⟩⟩ :=
    judge_cases request output
  · simp [hj] at h
  · obtain rfl := Except.error.inj (hj.symm.trans h)
    exact .silent hc hf
  · obtain rfl := Except.error.inj (hj.symm.trans h)
    exact .undecodable hc hf ho hd
  · simp [hj] at h
  · obtain rfl := Except.error.inj (hj.symm.trans h)
    exact .stray hc hf hd hid

theorem Fails.invoke_eq {failure : Failure} (h : p.Fails request failure) :
    (p.invoke request).1 = .error failure := by
  cases h with
  | instantiation h => rw [invoke_fst, call_of_unlinkable h]
  | initializer hi h => rw [invoke_fst, call_of_initializer hi h]
  | missing hr h => rw [invoke_fst, call_of_ready hr, h, Course.result]
  | handler hr h => rw [invoke_fst, call_of_ready hr, Course.result_of_breaks h]
  | silent hc hf => simp [invoke_of_completes hc, judge, hf]
  | undecodable hc hf ho h => rw [invoke_of_completes hc, judge_of_error hf ho h]
  | stray hc hf h hid => rw [invoke_of_completes hc, judge_of_decode hf h, if_neg hid]

theorem invoke_eq_error_iff {failure : Failure} :
    (p.invoke request).1 = .error failure ↔ p.Fails request failure := by
  refine ⟨fun h => ?_, Fails.invoke_eq⟩
  obtain ⟨output, hc⟩ | ⟨other, hfails, -⟩ := completes_or_fails p request
  · rw [invoke_of_completes hc] at h
    exact fails_of_judge hc h
  · rw [hfails.invoke_eq] at h
    exact Except.error.inj h ▸ hfails

theorem exists_completes_of_invoke {answer : Option Response}
    (h : (p.invoke request).1 = .ok answer) :
    ∃ output, p.Completes request output ∧ judge request output = .ok answer := by
  obtain ⟨output, hc⟩ | ⟨failure, hfails, -⟩ := completes_or_fails p request
  · exact ⟨output, hc, by rw [← invoke_of_completes hc, h]⟩
  · rw [hfails.invoke_eq] at h
    simp at h

theorem invoke_eq_some_iff {response : Response} :
    (p.invoke request).1 = .ok (some response) ↔ request.fireAndForget = false ∧
      ∃ output, p.Completes request output ∧ Response.decode output = .ok response ∧
        response.requestId = request.id := by
  constructor
  · intro h
    obtain ⟨output, hc, h⟩ := exists_completes_of_invoke h
    obtain ⟨-, hj⟩ | ⟨hf, ⟨-, hj⟩ | ⟨e, -, -, hj⟩ | ⟨other, hd, hid, hj⟩ | ⟨other, -, -, hj⟩⟩ :=
      judge_cases request output
    · simp [hj] at h
    · simp [hj] at h
    · simp [hj] at h
    · obtain rfl := by simpa [hj] using h
      exact ⟨hf, output, hc, hd, hid⟩
    · simp [hj] at h
  · rintro ⟨hf, output, hc, hd, hid⟩
    rw [invoke_of_completes hc, judge_of_decode hf hd, if_pos hid]

theorem invoke_eq_none_iff :
    (p.invoke request).1 = .ok none ↔
      request.fireAndForget = true ∧ ∃ output, p.Completes request output := by
  constructor
  · intro h
    obtain ⟨output, hc, h⟩ := exists_completes_of_invoke h
    obtain ⟨hf, -⟩ | ⟨-, ⟨-, hj⟩ | ⟨e, -, -, hj⟩ | ⟨other, -, -, hj⟩ | ⟨other, -, -, hj⟩⟩ :=
      judge_cases request output
    · exact ⟨hf, output, hc⟩
    all_goals simp [hj] at h
  · rintro ⟨hf, output, hc⟩
    rw [invoke_of_completes hc]
    simp [judge, hf]

/-- A handler that is not reached does not matter, not even for what is logged. -/
theorem invoke_of_initializer {i : Instance Streams} {fresh : State} {reason : Stop}
    (hi : p.instantiation (p.streamsFor request) = .ok (i, fresh))
    (h : (callNamed i fresh initializer).2.Breaks reason) :
    p.invoke request =
      (.error (.interrupted reason),
        (callNamed i fresh initializer).1.host.logs.events request.endpoint) := by
  have hcall := call_of_initializer hi h
  unfold streamsFor at hcall
  simp only [invoke, hcall]

end

/-- What an invocation gives: the response that was read of the output if every call ended well, nothing
for requests that are only fired, and otherwise what the first rule of `Fails` says. -/
theorem invoke_outcome (p : Plugin) (request : Request) :
    (∀ response, (p.invoke request).1 = .ok (some response) ↔ request.fireAndForget = false ∧
      ∃ output, p.Completes request output ∧ Response.decode output = .ok response ∧
        response.requestId = request.id) ∧
    ((p.invoke request).1 = .ok none ↔
      request.fireAndForget = true ∧ ∃ output, p.Completes request output) ∧
    (∀ failure, (p.invoke request).1 = .error failure ↔ p.Fails request failure) ∧
    silent.kind = .internalError ∧
    (∀ output e, Response.decode output = .error e → e.kind = .serializationError) ∧
    (∀ response, (strayResponse request response).kind = .internalError) ∧
    ∀ i fresh reason, p.instantiation (p.streamsFor request) = .ok (i, fresh) →
      (callNamed i fresh initializer).2.Breaks reason → ∀ handler : String,
        (Plugin.mk { p.config with handler := handler } p.module p.system).invoke request = p.invoke request := by
  refine ⟨fun _ => invoke_eq_some_iff, invoke_eq_none_iff, fun _ => invoke_eq_error_iff, rfl, ?_,
    fun _ => rfl, ?_⟩
  · exact fun output e h => kind_of_undecodable h
  · intro i fresh reason hi h handler
    rw [invoke_of_initializer hi h]
    exact invoke_of_initializer (p := ⟨{ p.config with handler := handler }, p.module, p.system⟩) hi h

end PluginRelay.Plugin
