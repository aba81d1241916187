import PluginRelay.Script.Heap

/-!
# Errors that the engine makes

Whatever a function is doing, an error with a message is a new object: it has the prototype of its kind, and
the message. A trace comes on top of that, and it can always be had.
-/
namespace PluginRelay.Script

variable {σ : Type} {α : Type}

/-- The prototype of new errors. -/
def Machine.errorPrototype (m : Machine σ) (kind : ErrorKind) : ObjectId :=
  (((m.realms[m.realm]?).getD default).intrinsics[Intrinsic.errorPrototype kind]?).getD 0

/-- An error as a machine makes it, whatever trace it has. -/
structure Object.IsError (o : Object) (m : Machine σ) (kind : ErrorKind) (message : Units) : Prop where
  payload : o.payload = .error
  prototype : o.prototype = some (m.errorPrototype kind)
  message : o.find? Action.messageKey = some (.hidden (.text message))

theorem Object.IsError.putStack {o : Object} {m : Machine σ} {kind : ErrorKind} {message : Units}
    (h : o.IsError m kind message) (p : Property) : (o.put Action.stackKey p).IsError m kind message := by
  constructor
  · rw [Object.payload_put, h.payload]
  · rw [Object.prototype_put, h.prototype]
  · rw [Object.find?_put_other (by decide), h.message]

namespace Action

variable [Evolving σ]

theorem shownName_spec (function : Value) (m : Machine σ) :
    ∃ name, (shownName function : Action σ Units) m = .ok name m := by
  cases function with
  | object id =>
    simp only [shownName]
    rw [Evolution.run_bind_ok (show object id m = .ok _ m from rfl)]
    split
    · split
      · exact ⟨_, rfl⟩
      · exact ⟨_, rfl⟩
    · exact ⟨_, rfl⟩
  | _ => exact ⟨_, rfl⟩

theorem traceLines_spec (running : List Activation) (m : Machine σ) :
    ∃ lines, (traceLines running : Action σ Units) m = .ok lines m := by
  induction running with
  | nil => exact ⟨_, rfl⟩
  | cons a rest ih =>
    obtain ⟨name, hname⟩ := shownName_spec a.function m
    obtain ⟨lines, hlines⟩ := ih
    rw [traceLines, Evolution.run_bind_ok hname]
    dsimp only
    rw [Evolution.run_bind_ok hlines]
    exact ⟨_, rfl⟩

theorem addTrace_spec (id : ObjectId) (first : String) (skipped : Nat) (m : Machine σ) :
    ∃ p, (addTrace id first skipped : Action σ Unit) m =
      .ok () { m with objects := m.objects.modify id fun o => o.map fun o => o.put stackKey p } := by
  obtain ⟨lines, hlines⟩ := traceLines_spec (m.trace.drop skipped) m
  refine ⟨.hidden (.text (Units.ofString first ++ lines)), ?_⟩
  unfold addTrace
  rw [Evolution.run_bind_ok (show (read : Action σ (Machine σ)) m = .ok m m from rfl)]
  rw [Evolution.run_bind_ok hlines]
  rfl

theorem inScript_spec (m : Machine σ) : ∃ b, (inScript : Action σ Bool) m = .ok b m := by
  unfold inScript
  rw [Evolution.run_bind_ok (show (read : Action σ (Machine σ)) m = .ok m m from rfl)]
  split
  · exact ⟨_, rfl⟩
  · exact ⟨_, rfl⟩

theorem newError_spec (kind : ErrorKind) (message : Units) (m : Machine σ) :
    ∃ o m', (newError kind message : Action σ ObjectId) m = .ok m.objects.size m' ∧
      m'.objects[m.objects.size]? = some (some o) ∧ o.IsError m kind message := by
  refine ⟨(Object.new (some (m.errorPrototype kind)) .error).put messageKey (.hidden (.text message)), _,
    rfl, ?_, ?_⟩
  · rw [Array.getElem?_modify, if_pos rfl, Array.getElem?_push_size]
    rfl
  · constructor
    · exact Object.payload_put _ _ _
    · exact Object.prototype_put _ _ _
    · exact Object.find?_put_self _ _ _

theorem newError_spares (kind : ErrorKind) (message : Units) (m : Machine σ) :
    ∃ m', (newError kind message : Action σ ObjectId) m = .ok m.objects.size m' ∧
      ∀ id < m.objects.size, m'.objects[id]? = m.objects[id]? := by
  refine ⟨_, rfl, fun id hid => ?_⟩
  simp [Array.getElem?_modify, Array.getElem?_push, Nat.ne_of_gt hid, Nat.ne_of_lt hid]

/-- The new error is thrown, with a trace or without one. -/
theorem throwUnits_run {kind : ErrorKind} {message : Units} {m m₁ : Machine σ} {id : ObjectId}
    (hnew : (newError kind message : Action σ ObjectId) m = .ok id m₁) :
    ∃ m', (throwUnits kind message : Action σ α) m = .error (.object id) m' ∧
      (m' = m₁ ∨ ∃ p, m' = { m₁ with objects := m₁.objects.modify id fun o => o.map fun o => o.put stackKey p }) := by
  unfold throwUnits
  rw [Evolution.run_bind_ok hnew]
  obtain ⟨scripted, hscripted⟩ := inScript_spec m₁
  dsimp only
  rw [Evolution.run_bind_ok hscripted]
  cases scripted with
  | true => exact ⟨m₁, rfl, .inl rfl⟩
  | false =>
    obtain ⟨p, hp⟩ := addTrace_spec id "" 0 m₁
    exact ⟨_, Evolution.run_bind_ok hp _, .inr ⟨p, rfl⟩⟩

/-- The objects that there are stay as they are. -/
theorem throwUnits_spares (kind : ErrorKind) (message : Units) (m : Machine σ) :
    ∃ m', (throwUnits kind message : Action σ α) m = .error (.object m.objects.size) m' ∧
      ∀ id < m.objects.size, m'.objects[id]? = m.objects[id]? := by
  obtain ⟨m₁, hnew, hspared⟩ := newError_spares kind message m
  obtain ⟨m', hthrow, rfl | ⟨p, rfl⟩⟩ := throwUnits_run (α := α) hnew
  · exact ⟨_, hthrow, hspared⟩
  · refine ⟨_, hthrow, fun id hid => ?_⟩
    rw [Array.getElem?_modify, if_neg (Nat.ne_of_gt hid), hspared id hid]

/-- The exception is a new object. -/
theorem throwUnits_spec (kind : ErrorKind) (message : Units) (m : Machine σ) :
    ∃ o m', (throwUnits kind message : Action σ α) m = .error (.object m.objects.size) m' ∧
      m'.objects[m.objects.size]? = some (some o) ∧ o.IsError m kind message := by
  obtain ⟨o, m₁, hnew, hget, ho⟩ := newError_spec kind message m
  obtain ⟨m', hthrow, rfl | ⟨p, rfl⟩⟩ := throwUnits_run (α := α) hnew
  · exact ⟨o, _, hthrow, hget, ho⟩
  · refine ⟨o.put stackKey p, _, hthrow, ?_, ho.putStack p⟩
    rw [Array.getElem?_modify, if_pos rfl, hget]
    rfl

/-- Nothing happens outside of the engine. -/
theorem host_throwUnits (kind : ErrorKind) (message : Units) (m : Machine σ) :
    ((throwUnits kind message : Action σ α) m).machine.host = m.host := by
  obtain ⟨m₁, hnew, hhost⟩ : ∃ m₁, (newError kind message : Action σ ObjectId) m = .ok m.objects.size m₁ ∧
      m₁.host = m.host := ⟨_, rfl, rfl⟩
  obtain ⟨m', hthrow, rfl | ⟨p, rfl⟩⟩ := throwUnits_run (α := α) hnew
  · rw [hthrow]
    exact hhost
  · rw [hthrow]
    exact hhost

end Action

end PluginRelay.Script
