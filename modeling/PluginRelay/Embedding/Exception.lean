import PluginRelay.Embedding.Operation

/-!
# Exceptions

An exception that leaves the engine is taken: it is described for the program, and the context keeps the
value itself until the next one is taken. Numbers tell exceptions apart, so the program can hand one back
and never gets another.
-/
namespace PluginRelay.Embedding

open Script

variable {κ τ ε : Type} [Holding τ]

namespace Operation

/-- What the engine does, as something that the program does. -/
def acting {α : Type} (a : Action (World κ τ) α) : Evolution (World.operating κ τ) Value α :=
  ⟨a.run, fun m => (a.evolves m).toEvolves⟩

/-- Runs something in a context. -/
def within {α : Type} (id : ContextId) (a : Env (World κ τ) → Action (World κ τ) α) :
    Task ε κ τ (Except Value α) := fun env => (acting (Action.inRealm id (a env))).attempt

/-- Scripts do not touch the program's values. -/
theorem within_sure {α : Type} (id : ContextId) (a : Env (World κ τ) → Action (World κ τ) α) :
    (within id a : Task ε κ τ (Except Value α)).Sure [] fun _ => [] := by
  intro env m others htidy
  have htidy' := ((Action.inRealm id (a env)).evolves m).tidy others htidy
  unfold within Evolution.attempt acting
  dsimp only
  split <;> rename_i heq <;> rw [heq] at htidy'
  · exact ⟨_, _, rfl, htidy'⟩
  · exact ⟨_, _, rfl, htidy'⟩

def isErrorObject (v : Value) : Task ε κ τ Bool := do
  let m ← machine
  match v with
  | .object id =>
    match (m.objects[id]?).join with
    | some o =>
      match o.payload with
      | .error => return true
      | _ => return false
    | none => return false
  | _ => return false

theorem isErrorObject_sure (v : Value) : (isErrorObject v : Task ε κ τ Bool).Sure [] fun _ => [] := by
  unfold isErrorObject
  refine Task.Sure.bind machine_sure fun m => ?_
  split
  · split
    · split
      · exact .pure rfl
      · exact .pure rfl
    · exact .pure rfl
  · exact .pure rfl

/-! ### Taking -/

/-- Has a value of the program described as an exception, under a number of its own; then its context keeps
it. -/
def taking (h : Handle) (describe : Task Empty κ τ (String × Option String)) : Task ε κ τ Thrown := fun env =>
  { run := fun m =>
      let serial := m.host.exceptions.next
      match describe env { m with host := m.host.number } with
      | .ok (message, trace) m => .ok ⟨message, trace, serial⟩ { m with host := m.host.keep serial h }
    evolves := fun m => by
      have hdescribe := (describe env).evolves { m with host := m.host.number }
      dsimp only
      split
      next message trace m' heq =>
      rw [heq] at hdescribe
      have hprints : World.Prints m.host m.host.number := World.prints_of_eq rfl rfl
      refine ⟨⟨fun used pending record hw => ?_, fun transit hb => ?_⟩,
        hprints.trans (hdescribe.toPrints.trans (World.prints_keep _ _ h)), fun id => ?_⟩
      · obtain ⟨inner, used', hw⟩ := World.follows_keep h (e := ⟨message, trace, _⟩) rfl hdescribe hw
        exact ⟨_, used', hw⟩
      · exact World.balanced_keep (hdescribe.balanced transit hb) _ h
      · exact (World.calls_keep _ _ h id).trans (hdescribe.calls id) }

theorem taking_sure {h : Handle} {describe : Task Empty κ τ (String × Option String)}
    (hdescribe : describe.Sure [] fun _ => []) : (taking h describe : Task ε κ τ Thrown).Sure [h] fun _ => [] := by
  intro env m others htidy
  obtain ⟨⟨message, trace⟩, m', hrun, htidy'⟩ := hdescribe env { m with host := m.host.number } _ htidy
  refine ⟨⟨message, trace, m.host.exceptions.next⟩,
    { m' with host := m'.host.keep m.host.exceptions.next h }, ?_, htidy'.keep _⟩
  simp only [taking]
  rw [hrun]

/-- The text of a value. If making it fails, that exception is taken, and there is no text. -/
def describedText (takeInner : Value → Task Empty κ τ Thrown) (h : Handle) : Task Empty κ τ String := do
  match ← within h.context fun env => Convert.toUnits env h.value with
  | .ok units => return units.toStringLossy
  | .error e =>
    let _ ← takeInner e
    return ""

theorem describedText_sure {takeInner : Value → Task Empty κ τ Thrown} (h : Handle)
    (hinner : ∀ e, (takeInner e).Sure [] fun _ => []) :
    (describedText takeInner h).Sure [] fun _ => [] := by
  unfold describedText
  refine Task.Sure.bind (within_sure _ _) fun result => ?_
  cases result with
  | ok units => exact .pure rfl
  | error e => exact Task.Sure.bind (hinner e) fun _ => .pure rfl

/-- The trace of an error; other exceptions have none. -/
def describedTrace (takeInner : Value → Task Empty κ τ Thrown) (h : Handle) :
    Task Empty κ τ (Option String) := do
  if !(← isErrorObject h.value) then return none
  match ← within h.context fun env => Convert.getMember env h.value Action.stackKey with
  | .ok v =>
    let trace ← receive h.context v
    thenDrop trace do
      if trace.value.isUndefined then return none
      else return some (← describedText takeInner trace)
  | .error e =>
    let _ ← takeInner e
    return none

theorem describedTrace_sure {takeInner : Value → Task Empty κ τ Thrown} (h : Handle)
    (hinner : ∀ e, (takeInner e).Sure [] fun _ => []) :
    (describedTrace takeInner h).Sure [] fun _ => [] := by
  unfold describedTrace
  refine Task.Sure.bind (isErrorObject_sure _) fun isError => ?_
  split
  · exact .pure rfl
  · refine Task.Sure.bind (within_sure _ _) fun result => ?_
    cases result with
    | ok v =>
      refine Task.Sure.bind (receive_sure _ _) fun trace => thenDrop_sure ?_
      split
      · exact .pure rfl
      · exact Task.Sure.bind (describedText_sure trace hinner) fun _ => .pure rfl
    | error e => exact Task.Sure.bind (hinner e) fun _ => .pure rfl

/-- Takes an exception, which the engine hands over. Describing it can run scripts, which may fail in turn; these exceptions are taken
too, and `depth` bounds how far that goes. -/
def takeWithin (id : ContextId) : (depth : Nat) → {ε : Type} → Value → Task ε κ τ Thrown
  | 0, _, v => do
    let h ← receive id v
    taking h (return ("", none))
  | depth + 1, _, v => do
    let h ← receive id v
    taking h do
      let message ← describedText (fun e => takeWithin id depth e) h
      return (message, ← describedTrace (fun e => takeWithin id depth e) h)

theorem takeWithin_sure (id : ContextId) (depth : Nat) (v : Value) :
    (takeWithin id depth v : Task ε κ τ Thrown).Sure [] fun _ => [] := by
  induction depth generalizing ε v with
  | zero =>
    unfold takeWithin
    exact Task.Sure.bind (receive_sure id v) fun h => taking_sure (.pure rfl)
  | succ depth ih =>
    unfold takeWithin
    refine Task.Sure.bind (receive_sure id v) fun h => taking_sure ?_
    refine Task.Sure.bind (describedText_sure h fun e => ih e) fun message => ?_
    exact Task.Sure.bind (describedTrace_sure h fun e => ih e) fun trace => .pure rfl

/-- No exception is described by more exceptions in a row. -/
def takeDepth : Nat := 1 <<< 60

def take (id : ContextId) (v : Value) : Task ε κ τ Thrown := takeWithin id takeDepth v

theorem take_sure (id : ContextId) (v : Value) : (take id v : Task ε κ τ Thrown).Sure [] fun _ => [] :=
  takeWithin_sure id takeDepth v

/-- The value behind a description, if the context still keeps it; then it does no longer. -/
def takeThrown (id : ContextId) (e : Thrown) : Task ε κ τ (Option Handle) := fun _ =>
  Evolution.updateGet (fun m =>
    let (h, w) := m.host.takeThrown id e
    (h, { m with host := w })) fun m => m.host.evolves_takeThrown id e

theorem takeThrown_sure (id : ContextId) (e : Thrown) :
    (takeThrown id e : Task ε κ τ (Option Handle)).Sure [] Option.toList :=
  fun _ _ _ htidy => ⟨_, _, rfl, htidy.takeThrown id e⟩

/-- Runs something in a context; an exception is taken and becomes the failure. -/
def perform {α : Type} (id : ContextId) (a : Env (World κ τ) → Action (World κ τ) α) :
    Operation κ τ α := do
  settle
  match ← within id a with
  | .ok x => return x
  | .error e => throw (.thrown (← take id e))

theorem perform_keeps {α : Type} (id : ContextId) (a : Env (World κ τ) → Action (World κ τ) α) :
    (perform id a).Keeps [] fun _ => [] := by
  unfold perform
  refine Task.Keeps.bind settle_sure.keeps fun _ => ?_
  refine Task.Keeps.bind (within_sure _ _).keeps fun result => ?_
  cases result with
  | ok x => exact .pure rfl
  | error e => exact Task.Keeps.bind (take_sure id e).keeps fun _ => .throw _

/-- Runs something that gives the program a value. -/
def performValue (id : ContextId) (a : Env (World κ τ) → Action (World κ τ) Value) :
    Operation κ τ Handle := do
  receive id (← perform id a)

theorem performValue_keeps (id : ContextId) (a : Env (World κ τ) → Action (World κ τ) Value) :
    (performValue id a).Keeps [] fun h => [h] :=
  Task.Keeps.bind (perform_keeps id a) fun _ => (receive_sure _ _).keeps

end Operation

end PluginRelay.Embedding
