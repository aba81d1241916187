import PluginRelay.Command.Run
import PluginRelay.Proofs.Invocation

/-!
# What a command makes of a plugin

Loading, reading the payload, the plugin's run and the text of its answer come one after another. Something is
printed only after the last of them; what fails before is a trouble, of which the output shows nothing.
-/
namespace PluginRelay.Command

open Message (Request Response)

/-! ## The plugin's run as a step of its own -/

/-- The outcome once the plugin is through. -/
def conclude (l : Libraries) (p : Plugin) (r : Request) (result : Except Plugin.Failure (Option Response)) : Outcome :=
  match result with
  | .error f => failed (.ofPlugin (l.running p r) f) ""
  | .ok none => done "" ""
  | .ok (some response) =>
    match answerText l response.payload with
    | .ok text => done text ""
    | .error t => failed t ""

/-- The command around any way to run a plugin. -/
def invokeBy {m : Type → Type} [Monad m] (run : Plugin → Request → m (Except Plugin.Failure (Option Response)))
    (l : Libraries) (o : InvokeOptions) (id : Uuid) (content : Except String Bytes) : m Outcome :=
  match loadPlugin l o content with
  | .error t => pure (failed t "")
  | .ok p =>
    match request l o id with
    | .error t => pure (failed t "")
    | .ok r => do return conclude l p r (← run p r)

theorem invoke_eq_invokeBy (l : Libraries) (o : InvokeOptions) (id : Uuid) (content : Except String Bytes) :
    invoke l o id content = Id.run (invokeBy (fun p r => pure (p.invoke r).1) l o id content) := by
  unfold invoke invokeBy
  cases loadPlugin l o content with
  | error t => rfl
  | ok p =>
    cases request l o id with
    | error t => rfl
    | ok r =>
      change _ = conclude l p r (p.invoke r).1
      generalize hresult : (p.invoke r).1 = result
      rcases result with f | _ | response
      all_goals
        dsimp only [bind, Except.bind]
        rw [hresult]
        rfl

/-! ## How it ends -/

/-- The plugin is loaded, and gets a request. -/
structure Sends (l : Libraries) (o : InvokeOptions) (id : Uuid) (content : Except String Bytes) (p : Plugin) (r : Request) :
    Prop where
  load : loadPlugin l o content = .ok p
  request : request l o id = .ok r

/-- The plugin came to an end and answered a request that asks for it, under its identifier. -/
def Answers (p : Plugin) (r : Request) (response : Response) : Prop :=
  r.fireAndForget = false ∧ ∃ output, p.Completes r output ∧ Response.decode output = .ok response ∧
    response.requestId = r.id

/-- The answer is a payload, and this is its text. -/
def Prints (l : Libraries) (o : InvokeOptions) (id : Uuid) (content : Except String Bytes) (json : String) : Prop :=
  ∃ p r response v, Sends l o id content p r ∧ Answers p r response ∧ response.payload = .ok v ∧
    Payload.render v = .ok json

/-- The plugin came to an end with a request that asks for no answer. -/
def Delivers (l : Libraries) (o : InvokeOptions) (id : Uuid) (content : Except String Bytes) : Prop :=
  ∃ p r output, Sends l o id content p r ∧ r.fireAndForget = true ∧ p.Completes r output

/-- The ways to fail, in the order in which they come up. -/
inductive Fails (l : Libraries) (o : InvokeOptions) (id : Uuid) (content : Except String Bytes) : Trouble → Prop
  | unreadable {reason : String} (h : content = .error reason) :
      Fails l o id content (((Trouble.mk reason []).during Plugin.Failure.unloadable.message).during
        ("failed to load " ++ o.plugin))
  | unloadable {bytes : Bytes} {f : Plugin.Failure} (hc : content = .ok bytes)
      (h : Plugin.load l.system (pluginConfig o) bytes = .error f) :
      Fails l o id content ((Trouble.ofPlugin (l.loading bytes) f).during ("failed to load " ++ o.plugin))
  | rejected {p : Plugin} {text : String} {fault : Payload.Fault} (hl : loadPlugin l o content = .ok p)
      (ht : o.payload = some text) (h : Payload.parse text = .error fault) : Fails l o id content (.ofPayload (l.parsing text) fault)
  | plugin {p : Plugin} {r : Request} {f : Plugin.Failure} (hs : Sends l o id content p r) (h : p.Fails r f) :
      Fails l o id content (.ofPlugin (l.running p r) f)
  | answer {p : Plugin} {r : Request} {response : Response} {e : Message.Error} (hs : Sends l o id content p r)
      (ha : Answers p r response) (h : response.payload = .error e) : Fails l o id content (.ofError [] e)
  | formless {p : Plugin} {r : Request} {response : Response} {v : Cbor.Value} {fault : Payload.Fault}
      (hs : Sends l o id content p r) (ha : Answers p r response) (hp : response.payload = .ok v)
      (h : Payload.render v = .error fault) : Fails l o id content (.ofPayload (l.rendering v) fault)

section

variable {l : Libraries} {o : InvokeOptions} {id : Uuid} {content : Except String Bytes} {p : Plugin} {r : Request} {t : Trouble}

theorem loadPlugin_of_unreadable {reason : String} (h : content = .error reason) :
    loadPlugin l o content = .error (((Trouble.mk reason []).during Plugin.Failure.unloadable.message).during
      ("failed to load " ++ o.plugin)) := by
  rw [h]
  rfl

theorem loadPlugin_of_unloadable {bytes : Bytes} {f : Plugin.Failure} (hc : content = .ok bytes)
    (h : Plugin.load l.system (pluginConfig o) bytes = .error f) :
    loadPlugin l o content = .error ((Trouble.ofPlugin (l.loading bytes) f).during ("failed to load " ++ o.plugin)) := by
  simp only [loadPlugin, hc, h]

theorem request_of_rejected {text : String} {fault : Payload.Fault} (ht : o.payload = some text)
    (h : Payload.parse text = .error fault) (id : Uuid) : request l o id = .error (.ofPayload (l.parsing text) fault) := by
  simp only [request, ht, h]

/-- The payload is all that a request may fail for. -/
theorem request_cases (l : Libraries) (o : InvokeOptions) (id : Uuid) :
    (∃ text fault, o.payload = some text ∧ Payload.parse text = .error fault) ∨
      ∃ payload, request l o id = .ok ⟨id, [], o.fireAndForget, o.endpoint, payload⟩ := by
  cases ht : o.payload with
  | none => exact .inr ⟨.null, by simp only [request, ht]; rfl⟩
  | some text =>
    cases h : Payload.parse text with
    | error fault => exact .inl ⟨text, fault, rfl, h⟩
    | ok v => exact .inr ⟨v, by simp only [request, ht, h]; rfl⟩

theorem Sends.fields (h : Sends l o id content p r) :
    r.id = id ∧ r.fireAndForget = o.fireAndForget ∧ r.endpoint = o.endpoint := by
  obtain ⟨text, fault, ht, hparse⟩ | ⟨payload, hr⟩ := request_cases l o id
  · have := h.request
    rw [request_of_rejected ht hparse] at this
    nomatch this
  · obtain rfl := Except.ok.inj (hr.symm.trans h.request)
    exact ⟨rfl, rfl, rfl⟩

section

variable {m : Type → Type} [Monad m] (run : Plugin → Request → m (Except Plugin.Failure (Option Response)))

theorem invokeBy_of_load_error (h : loadPlugin l o content = .error t) :
    invokeBy run l o id content = pure (failed t "") := by
  rw [invokeBy, h]

theorem invokeBy_of_request_error (hl : loadPlugin l o content = .ok p) (h : request l o id = .error t) :
    invokeBy run l o id content = pure (failed t "") := by
  simp only [invokeBy, hl, h]

theorem invokeBy_of_sends (h : Sends l o id content p r) :
    invokeBy run l o id content = do return conclude l p r (← run p r) := by
  simp only [invokeBy, h.load, h.request]

/-- Nothing is run if the payload is rejected. -/
theorem invokeBy_of_rejected {text : String} {fault : Payload.Fault} (ht : o.payload = some text)
    (h : Payload.parse text = .error fault) : ∃ t, invokeBy run l o id content = pure (failed t "") := by
  cases hl : loadPlugin l o content with
  | error t => exact ⟨t, invokeBy_of_load_error run hl⟩
  | ok p => exact ⟨_, invokeBy_of_request_error run hl (request_of_rejected ht h id)⟩

end

theorem invoke_of_load_error (h : loadPlugin l o content = .error t) : invoke l o id content = failed t "" := by
  rw [invoke_eq_invokeBy, invokeBy_of_load_error _ h]
  rfl

theorem invoke_of_sends (h : Sends l o id content p r) : invoke l o id content = conclude l p r (p.invoke r).1 := by
  rw [invoke_eq_invokeBy, invokeBy_of_sends _ h]
  rfl

theorem invoke_of_answers {response : Response} (hs : Sends l o id content p r) (ha : Answers p r response) :
    invoke l o id content =
      match answerText l response.payload with
      | .ok text => done text ""
      | .error t => failed t "" := by
  rw [invoke_of_sends hs, Plugin.invoke_eq_some_iff.mpr ha]
  rfl

theorem Prints.invoke_eq {json : String} (h : Prints l o id content json) :
    invoke l o id content = ⟨0, json ++ "\n", ""⟩ := by
  obtain ⟨p, r, response, v, hs, ha, hp, hv⟩ := h
  rw [invoke_of_answers hs ha, hp]
  simp only [answerText, hv, done]

theorem Delivers.invoke_eq (h : Delivers l o id content) : invoke l o id content = ⟨0, "", ""⟩ := by
  obtain ⟨p, r, output, hs, hf, hc⟩ := h
  rw [invoke_of_sends hs, Plugin.invoke_eq_none_iff.mpr ⟨hf, output, hc⟩]
  rfl

theorem Fails.invoke_eq (h : Fails l o id content t) : invoke l o id content = ⟨1, "", t.render⟩ := by
  have hfailed : failed t "" = ⟨1, "", t.render⟩ := by rw [failed, String.empty_append]
  rw [← hfailed]
  cases h with
  | unreadable h => exact invoke_of_load_error (loadPlugin_of_unreadable h)
  | unloadable hc h => exact invoke_of_load_error (loadPlugin_of_unloadable hc h)
  | rejected hl ht h =>
    rw [invoke_eq_invokeBy, invokeBy_of_request_error _ hl (request_of_rejected ht h id)]
    rfl
  | plugin hs h =>
    rw [invoke_of_sends hs, h.invoke_eq]
    rfl
  | answer hs ha h => rw [invoke_of_answers hs ha, h, answerText]
  | formless hs ha hp h =>
    rw [invoke_of_answers hs ha, hp]
    simp only [answerText, h]

/-- A request that the plugin got is answered, delivered or failed for. -/
theorem Sends.ends (h : Sends l o id content p r) :
    (∃ json, Prints l o id content json) ∨ Delivers l o id content ∨ ∃ t, Fails l o id content t := by
  match hinvoke : (p.invoke r).1 with
  | .error f => exact .inr (.inr ⟨_, .plugin h (Plugin.invoke_eq_error_iff.mp hinvoke)⟩)
  | .ok none =>
    obtain ⟨hf, output, hc⟩ := Plugin.invoke_eq_none_iff.mp hinvoke
    exact .inr (.inl ⟨p, r, output, h, hf, hc⟩)
  | .ok (some response) =>
    have ha : Answers p r response := Plugin.invoke_eq_some_iff.mp hinvoke
    cases hp : response.payload with
    | error e => exact .inr (.inr ⟨_, .answer h ha hp⟩)
    | ok v =>
      cases hv : Payload.render v with
      | ok json => exact .inl ⟨json, p, r, response, v, h, ha, hp, hv⟩
      | error fault => exact .inr (.inr ⟨_, .formless h ha hp hv⟩)

theorem invoke_ends (l : Libraries) (o : InvokeOptions) (id : Uuid) (content : Except String Bytes) :
    (∃ json, Prints l o id content json) ∨ Delivers l o id content ∨ ∃ t, Fails l o id content t := by
  cases hc : content with
  | error reason => exact .inr (.inr ⟨_, .unreadable rfl⟩)
  | ok bytes =>
    cases hload : Plugin.load l.system (pluginConfig o) bytes with
    | error f => exact .inr (.inr ⟨_, .unloadable rfl hload⟩)
    | ok p =>
      have hl : loadPlugin l o (.ok bytes) = .ok p := by simp only [loadPlugin, hload]
      obtain ⟨text, fault, ht, hparse⟩ | ⟨payload, hr⟩ := request_cases l o id
      · exact .inr (.inr ⟨_, .rejected hl ht hparse⟩)
      · exact Sends.ends ⟨hl, hr⟩

end

/-- An invocation prints the text of the answer, or it delivers a request that asks for none, or it fails: with exit
code 1 and nothing on the output. One of the three is always the case. Whoever sees something on the output sees the
text of the answer that the plugin gave to this request. A payload that is rejected keeps the plugin from being run,
however plugins are run. -/
theorem invocation_outcomes (l : Libraries) (o : InvokeOptions) (id : Uuid) (content : Except String Bytes) :
    let outcome := (Task.invoke o).run l id content
    (∀ json, Prints l o id content json → outcome = ⟨0, json ++ "\n", ""⟩) ∧
    (Delivers l o id content → outcome = ⟨0, "", ""⟩) ∧
    (∀ t, Fails l o id content t → outcome = ⟨1, "", t.render⟩) ∧
    ((∃ json, Prints l o id content json) ∨ Delivers l o id content ∨ ∃ t, Fails l o id content t) ∧
    (outcome.output ≠ "" → ∃ json, o.fireAndForget = false ∧ Prints l o id content json ∧
      outcome.output = json ++ "\n" ∧ outcome.exit = 0) ∧
    (∀ p r, Sends l o id content p r →
      r.id = id ∧ r.fireAndForget = o.fireAndForget ∧ r.endpoint = o.endpoint) ∧
    outcome = Id.run (invokeBy (fun p r => pure (p.invoke r).1) l o id content) ∧
    ∀ text fault, o.payload = some text → Payload.parse text = .error fault →
      outcome.exit = 1 ∧ outcome.output = "" ∧
      ∀ (m : Type → Type) [Monad m] (run : Plugin → Request → m (Except Plugin.Failure (Option Response))),
        ∃ t, invokeBy run l o id content = pure (failed t "") := by
  intro outcome
  refine ⟨fun _ => Prints.invoke_eq, Delivers.invoke_eq, fun _ => Fails.invoke_eq, invoke_ends l o id content, ?_,
    fun _ _ => Sends.fields, invoke_eq_invokeBy l o id content, ?_⟩
  · intro houtput
    obtain ⟨json, h⟩ | h | ⟨t, h⟩ := invoke_ends l o id content
    · have heq : outcome = _ := h.invoke_eq
      have ⟨p, r, response, v, hs, ha, _⟩ := h
      exact ⟨json, hs.fields.2.1 ▸ ha.1, h, by rw [heq], by rw [heq]⟩
    · have heq : outcome = _ := h.invoke_eq
      exact absurd (by rw [heq]) houtput
    · have heq : outcome = _ := h.invoke_eq
      exact absurd (by rw [heq]) houtput
  · intro text fault ht hparse
    obtain ⟨t, h⟩ : ∃ t, invokeBy (fun p r => (pure (p.invoke r).1 : Id _)) l o id content = pure (failed t "") :=
      invokeBy_of_rejected _ ht hparse
    have heq : outcome = failed t "" := (invoke_eq_invokeBy l o id content).trans (congrArg Id.run h)
    exact ⟨by rw [heq]; rfl, by rw [heq]; rfl, fun m _ run => invokeBy_of_rejected run ht hparse⟩

end PluginRelay.Command
