import PluginRelay.Embedding.Function
import PluginRelay.Proofs.ExceptionTurns
import PluginRelay.Proofs.NewErrors

/-!
# Exceptions that go on unchanged

A function of the program that fails with an exception throws the value on that was taken for it, as long as
the context still keeps that value. Describing an exception can run scripts, which take exceptions in turn, and
descriptions may be kept, copied, and handed to functions of other contexts, also those of another engine: the records
of all that has happened in the process decide which value is thrown, and it is never the value of another exception.
-/
namespace PluginRelay.Embedding

open Script

variable {κ τ ε : Type} [Holding τ]

/-! ### Taking -/

namespace Operation

/-- Describing an exception may do all kinds of things, but it comes to an end; right after it the context keeps
the value. -/
theorem taking_spec {m : Engine κ τ} {used : ℕ} {pending : List ℕ} {record : List Occurrence}
    (hm : m.host.Reached used pending record) (h : Handle) (describe : Task Empty κ τ (String × Option String))
    (env : Env (World κ τ)) :
    ∃ e inner used' m', (taking h describe : Task ε κ τ Thrown) env m = .ok e m' ∧
      m'.host.Follows used pending record (.taken h.context used e h.value :: inner) used' := by
  have hdescribe := (describe env).evolves { m with host := m.host.number }
  cases hrun : describe env { m with host := m.host.number } with
  | error e => nomatch e
  | ok description m₁ =>
    obtain ⟨message, trace⟩ := description
    rw [hrun] at hdescribe
    obtain ⟨inner, used', hfollows⟩ := World.follows_keep h (e := ⟨message, trace, m.host.exceptions.next⟩) rfl
      hdescribe hm
    refine ⟨⟨message, trace, m.host.exceptions.next⟩, inner, used',
      { m₁ with host := m₁.host.keep m.host.exceptions.next h }, ?_, hfollows⟩
    simp only [taking]
    rw [hrun]

theorem takeWithin_spec {m : Engine κ τ} {used : ℕ} {pending : List ℕ} {record : List Occurrence}
    (hm : m.host.Reached used pending record) (id : ContextId) (depth : ℕ) (v : Value) (env : Env (World κ τ)) :
    ∃ e turn value inner used' m', (takeWithin id depth v : Task ε κ τ Thrown) env m = .ok e m' ∧
      value.unnumbered = v.unnumbered ∧
      m'.host.Follows used pending record (.taken id turn e value :: inner) used' := by
  obtain ⟨h, m₁, hreceive, hcontext, hvalue⟩ : ∃ h m₁, (receive id v : Task ε κ τ Handle) env m = .ok h m₁ ∧
      h.context = id ∧ h.value.unnumbered = v.unnumbered :=
    ⟨⟨id, (m.numbered env.place v).1⟩, _, rfl, rfl, m.unnumbered_numbered env.place v⟩
  have hheld := ((receive id v : Task ε κ τ Handle) env).evolves m
  rw [hreceive] at hheld
  obtain ⟨held, used₁, hfollows⟩ := hheld.reached used pending record hm
  have htaking : ∀ describe : Task Empty κ τ (String × Option String),
      ∃ e turn value inner used' m', (taking h describe : Task ε κ τ Thrown) env m₁ = .ok e m' ∧
        value.unnumbered = v.unnumbered ∧
        m'.host.Follows used pending record (.taken id turn e value :: inner) used' := by
    intro describe
    obtain ⟨e, inner, used₂, m', hrun, hkept⟩ := taking_spec (ε := ε) hfollows.reached h describe env
    rw [hcontext] at hkept
    exact ⟨e, used₁, h.value, inner ++ held, used₂, m', hrun, hvalue, .append hfollows.le hfollows.later hkept⟩
  unfold takeWithin
  split
  · rw [Task.run_bind_ok hreceive]
    exact htaking _
  · rw [Task.run_bind_ok hreceive]
    exact htaking _

/-- Each of some values goes. -/
theorem forM_drop (hs : List Handle) (env : Env (World κ τ)) (m : Engine κ τ) :
    (hs.forM drop : Task ε κ τ Unit) env m = .ok () { m with host := hs.foldl World.drop m.host } := by
  induction hs generalizing m with
  | nil => rfl
  | cons h rest ih => exact ih { m with host := m.host.drop h }

end Operation

/-! ### Throwing again -/

/-- What a script gets from a function that fails with an exception. -/
theorem conclude_thrown (id : ContextId) (e : Thrown) (env : Env (World κ τ)) (m : Engine κ τ) :
    ∃ w, (conclude id (.error (.thrown e)) : Task ε κ τ Conclusion) env m =
      .ok (match (m.host.takeThrown id e).1 with
        | some h => .exception h.value
        | none => .error e.message) { m with host := w } := by
  have htake : (Operation.takeThrown id e : Task ε κ τ (Option Handle)) env m =
      .ok (m.host.takeThrown id e).1 { m with host := (m.host.takeThrown id e).2 } := rfl
  simp only [conclude]
  rw [Task.run_bind_ok htake]
  cases (m.host.takeThrown id e).1 with
  | none => exact ⟨_, rfl⟩
  | some h => exact ⟨_, rfl⟩

/-- A call goes as its function goes, and what the function has had goes behind it. -/
theorem invoke_run {respond : Respond κ τ} {code : HostCode κ} {i : Invocation} {env : Env (World κ τ)}
    {m m' : Engine κ τ} {outcome : Except Failure Answer} {conclusion : Conclusion} {w : World κ τ}
    (hrun : (runHolding respond code i : Task ε κ τ _) env { m with host := m.host.enterContext i.context } =
      .ok outcome m')
    (hconclude : (conclude i.context outcome : Task ε κ τ Conclusion) env m' =
      .ok conclusion { m' with host := w }) :
    (invoke respond code i : Task ε κ τ Conclusion) env m =
      .ok conclusion { m' with host := (i.handles.foldl World.drop w).leaveContext i.context } := by
  have hbody : (do
      let conclusion ← conclude i.context (← runHolding respond code i)
      i.handles.forM Operation.drop
      return conclusion : Task ε κ τ Conclusion) env { m with host := m.host.enterContext i.context } =
      .ok conclusion { m' with host := i.handles.foldl World.drop w } := by
    rw [Task.run_bind_ok hrun, Task.run_bind_ok hconclude,
      Task.run_bind_ok (Operation.forM_drop i.handles env { m' with host := w })]
    rfl
  simp only [invoke, calling]
  rw [hbody]

theorem invoke_spec {respond : Respond κ τ} {code : HostCode κ} {i : Invocation} {env : Env (World κ τ)}
    {m m' : Engine κ τ} {outcome : Except Failure Answer} {conclusion : Conclusion} {w : World κ τ}
    (hrun : (runHolding respond code i : Task ε κ τ _) env { m with host := m.host.enterContext i.context } =
      .ok outcome m')
    (hconclude : (conclude i.context outcome : Task ε κ τ Conclusion) env m' =
      .ok conclusion { m' with host := w }) :
    ∃ w', (invoke respond code i : Task ε κ τ Conclusion) env m = .ok conclusion { m' with host := w' } :=
  ⟨_, invoke_run hrun hconclude⟩

/-- How a call ends, from what its function came to. -/
theorem answer_spec {respond : Respond κ τ} {env : Env (World κ τ)} {function : FunctionId} {call : Call}
    {code : HostCode κ} {m m' : Engine κ τ} {conclusion : Conclusion} (hmanages : m.host.manages m.realm = true)
    (hcode : m.host.functions[function]? = some code)
    (hinvoke : (invoke respond code (.ofCall m.realm function call) : Task Value κ τ Conclusion) env m =
      .ok conclusion m') :
    answer respond env function call m = conclusion.act m' := by
  have hserve : serving (invoke_sure respond code (.ofCall m.realm function call)) env m = .ok conclusion m' :=
    hinvoke
  unfold answer
  rw [Evolution.run_bind_ok (show (read : Action (World κ τ) (Engine κ τ)) m = .ok m m from rfl)]
  simp only [hmanages, if_true, hcode]
  exact Evolution.run_bind_ok hserve _

/-- The context of a call is there until the call is over. -/
theorem manages_of_call {α : Type} {t : Task ε κ τ α} {env : Env (World κ τ)} {m m' : Engine κ τ} {x : α}
    {id : ContextId} (hmanages : m.host.manages id = true)
    (hrun : t env { m with host := m.host.enterContext id } = .ok x m') : m'.host.manages id = true := by
  have hcalls := ((t env).evolves { m with host := m.host.enterContext id }).calls id
  rw [hrun] at hcalls
  rw [World.calls_enterContext, if_pos ⟨rfl, hmanages⟩] at hcalls
  cases hm' : m'.host.manages id with
  | true => rfl
  | false =>
    have hzero : m'.host.calls id = m.host.calls id + 1 := hcalls
    rw [World.calls_of_not_manages hm'] at hzero
    omega

/-- What is thrown is an `InternalError` of its own with a message. -/
def IsNewError (thrown : Value) (m m' : Engine κ τ) (message : String) : Prop :=
  thrown = .object m.objects.size ∧ ∃ o, m'.objects[m.objects.size]? = some (some o) ∧
    o.IsError m .internalError (HostError.shown message)

/-- A function that fails with an exception throws the value that its context still keeps for it, and a new error with
the message if there is none. -/
theorem answer_thrown {respond : Respond κ τ} {env : Env (World κ τ)} {function : FunctionId} {call : Call}
    {code : HostCode κ} {m m' : Engine κ τ} {e : Thrown} (hmanages : m.host.manages m.realm = true)
    (hcode : m.host.functions[function]? = some code)
    (hfails : (runHolding respond code (.ofCall m.realm function call) : Task Value κ τ _) env
      { m with host := m.host.enterContext m.realm } = .ok (.error (.thrown e)) m') :
    ∃ thrown m'', answer respond env function call m = .error thrown m'' ∧
      (∀ h, (m'.host.takeThrown m.realm e).1 = some h → thrown = h.value) ∧
      ((m'.host.takeThrown m.realm e).1 = none → IsNewError thrown m' m'' e.message) := by
  obtain ⟨w, hconclude⟩ := conclude_thrown (ε := Value) m.realm e env m'
  obtain ⟨w', hinvoke⟩ := invoke_spec hfails hconclude
  rw [answer_spec hmanages hcode hinvoke]
  cases (m'.host.takeThrown m.realm e).1 with
  | some h => exact ⟨h.value, _, rfl, fun _ heq => congrArg Handle.value (Option.some.inj heq), nofun⟩
  | none =>
    obtain ⟨o, m'', hthrow, hget, ho⟩ := Action.throwUnits_spec (α := Value) .internalError
      (HostError.shown e.message) { m' with host := w' }
    exact ⟨_, m'', hthrow, nofun, fun _ => ⟨rfl, o, hget, ho.payload, ho.prototype, ho.message⟩⟩

/-- Every run of a process leads from the start to states that are `Reached`, with any number of engines, whichever of
them goes on next, be it in the middle of describing an exception. In all of these states what a context keeps was taken
in this context, under the number that it has, and until the counter of 64 bits is through no two exceptions of the
process have the same number. Taking an exception always succeeds, however deep its description goes, and right after it
the context keeps its value. Whoever then has the description, a function that fails with it throws the very value it
was made from if that was in the same context of the same engine and nothing has happened to it there. Otherwise, until
the counter is through, it throws a new `InternalError` with the message. However far the counter has come, a value that
is not a new error was taken in this context, under the number of the exception. -/
theorem rethrows_what_was_taken (respond : Respond κ τ) :
    (Engines.start : Engines κ τ).Reached 0 (fun _ => []) (fun _ => []) ∧
    ∀ (p : Engines κ τ) (used : ℕ) (pending : ℕ → List ℕ) (record : ℕ → List Occurrence),
      p.Reached used pending record →
      (∀ (config : Config) (own : τ), (p.add config own).Reached used pending record) ∧
      (used ≤ UInt64.size → (∀ i, (serialsOf (record i)).Nodup) ∧
        ∀ i j, i ≠ j → (serialsOf (record i)).Disjoint (serialsOf (record j))) ∧
      ∀ (i : ℕ) (m : Engine κ τ), p.engine? i = some m →
        (∀ (ε α : Type) (t : Task ε κ τ α) (env : Env (World κ τ)),
          ∃ result p', p.run i env t = some (result, p') ∧ p'.GoesOn i pending record) ∧
        (∀ (α : Type) (a : Action (World κ τ) α), (p.put i (a m).machine).GoesOn i pending record) ∧
        -- An exception gets its number, and after all that its description does the context keeps it.
        (p.put i { m with host := m.host.number }).Reached (used + 1)
          (Function.update pending i (used :: pending i)) record ∧
        (∀ (turn : ℕ) (left : List ℕ) (e : Thrown) (h : Handle), pending i = turn :: left →
          e.serial = serialOf turn → ∃ since used',
            (p.put i { m with host := m.host.keep e.serial h }).Reached used' (Function.update pending i left)
              (Function.update record i (.taken h.context turn e h.value :: (since ++ record i)))) ∧
        (∀ (ε : Type) (env : Env (World κ τ)) (id : ContextId) (depth : ℕ) (v : Value),
          ∃ e turn value inner used' m', (Operation.takeWithin id depth v : Task ε κ τ Thrown) env m = .ok e m' ∧
            value.unnumbered = v.unnumbered ∧
            (p.put i m').Reached used' pending
              (Function.update record i (.taken id turn e value :: (inner ++ record i))) ∧
            m'.host.exceptions.kept[id]? = some (e.serial, value)) ∧
        (∀ (id : ContextId) (serial : UInt64) (v : Value), m.host.exceptions.kept[id]? = some (serial, v) →
          ∃ turn e, .taken id turn e v ∈ record i ∧ e.serial = serial) ∧
        -- A function of this engine fails with an exception that was taken in some engine.
        (∀ (env : Env (World κ τ)) (function : FunctionId) (call : Call) (code : HostCode κ) (m' : Engine κ τ)
            (used : ℕ) (pending : ℕ → List ℕ) (record : ℕ → List Occurrence) (j : ℕ)
            (since before : List Occurrence) (id : ContextId) (turn : ℕ) (e : Thrown) (v : Value),
          m.host.manages m.realm = true → m.host.functions[function]? = some code →
          (runHolding respond code (.ofCall m.realm function call) : Task Value κ τ _) env
            { m with host := m.host.enterContext m.realm } = .ok (.error (.thrown e)) m' →
          (p.put i m').Reached used pending record → record j = since ++ .taken id turn e v :: before →
          ∃ thrown m'', answer respond env function call m = .error thrown m'' ∧
            (i = j ∧ m.realm = id ∧ Untouched id turn since → thrown = v) ∧
            (used ≤ UInt64.size → ¬(i = j ∧ m.realm = id ∧ Untouched id turn since) →
              IsNewError thrown m' m'' e.message) ∧
            (IsNewError thrown m' m'' e.message ∨
              ∃ turn f, .taken m.realm turn f thrown ∈ record i ∧ f.serial = e.serial)) := by
  refine ⟨Engines.reached_start, fun p used pending record h => ⟨fun config own => h.add config own,
    fun hused => ⟨fun i => h.nodup_serials hused i, fun i j hij => h.disjoint_serials hused hij⟩,
    fun i m hm => ⟨fun ε α t env => ?_, fun α a => ?_, h.number hm, fun turn left e held hpending he => ?_,
      fun ε env id depth v => ?_, fun id serial v hkept => ?_, ?_⟩⟩⟩
  · obtain ⟨result, hrun⟩ := Engines.run_eq hm env t
    exact ⟨result, _, hrun, h.goesOn hm ((t env).evolves m)⟩
  · exact h.goesOn hm (a.evolves m).toEvolves
  · exact h.keep hm hpending held he
  · have hreached := h.engine i m hm
    obtain ⟨e, turn, value, inner, used', m', hrun, hvalue, hfollows⟩ :=
      Operation.takeWithin_spec (ε := ε) hreached id depth v env
    refine ⟨e, turn, value, inner, used', m', hrun, hvalue, h.follows hm hfollows, ?_⟩
    have hfits := hfollows.reached.exceptions.fits
    rw [hfits.kept, List.cons_append, keptAfter_cons, Occurrence.context, if_pos rfl,
      hfits.described id turn e value List.mem_cons_self]
    rfl
  · exact (h.engine i m hm).exceptions.fits.taken_of_kept hkept
  · intro env function call code m' used pending record j since before id turn e v hmanages hcode hfails hreached
      hrecord
    have halive : m'.host.manages m.realm = true := manages_of_call hmanages hfails
    obtain ⟨hsame, hother⟩ := hreached.takeThrown (Engines.engine?_put_self hm m') halive hrecord
    obtain ⟨thrown, m'', hanswer, hkept, hnew⟩ := answer_thrown hmanages hcode hfails
    refine ⟨thrown, m'', hanswer, fun huntouched => hkept _ (hsame huntouched),
      fun hused htouched => hnew (hother hused htouched), ?_⟩
    cases htake : (m'.host.takeThrown m.realm e).1 with
    | none => exact .inl (hnew htake)
    | some held =>
      obtain rfl := hkept held htake
      exact .inr ((hreached.engine i m' (Engines.engine?_put_self hm m')).exceptions.fits.taken_of_kept
        (World.kept_of_takeThrown htake))

/-- Functions that fail with the exceptions that they stand for. -/
def failing : Respond Thrown Unit := ⟨fun e _ => throw (.thrown e), fun _ _ => .throw _⟩

def sevenThrown : Thrown := ⟨"7", none, 1⟩

def eightThrown : Thrown := ⟨"8", none, 2⟩

/-- An engine whose only context keeps a number that was thrown. It has a function for each of the two exceptions. -/
def keeping (e : Thrown) (n : Int) : Engine Thrown Unit :=
  .start { (World.new .default () : World Thrown Unit) with
    contexts := #[⟨1, 0⟩]
    functions := #[.custom sevenThrown, .custom eightThrown]
    exceptions := ⟨3, Exceptions.none.kept.insert 0 (e.serial, .int n)⟩ }

/-- Two engines of one process. In one `7` was thrown first, and then `8` in the other. -/
def sevenAndEight : Engines Thrown Unit := ⟨3, #[keeping sevenThrown 7, keeping eightThrown 8]⟩

def sevenAndEightRecord : ℕ → List Occurrence
  | 0 => [.taken 0 0 sevenThrown (.int 7)]
  | 1 => [.taken 0 1 eightThrown (.int 8)]
  | _ => []

theorem reached_keeping_seven :
    Exceptions.Reached 2 [] (sevenAndEightRecord 0) (keeping sevenThrown 7).host.exceptions :=
  .elsewhere (.keep 0 sevenThrown (.int 7) rfl (.number .start))

theorem reached_keeping_eight :
    Exceptions.Reached 2 [] (sevenAndEightRecord 1) (keeping eightThrown 8).host.exceptions :=
  .keep 0 eightThrown (.int 8) rfl (.number (.elsewhere .start))

/-- The first exception of the process was taken in the first engine, and the second one in the second. -/
theorem turn_of_sevenAndEight {i turn : ℕ} (h : turn ∈ [] ++ turnsOf (sevenAndEightRecord i)) : turn = i := by
  obtain _ | _ | n := i
  · simpa [sevenAndEightRecord, Occurrence.turns, turnsOf] using h
  · simpa [sevenAndEightRecord, Occurrence.turns, turnsOf] using h
  · cases h

theorem reached_sevenAndEight : sevenAndEight.Reached 2 (fun _ => []) sevenAndEightRecord := by
  refine ⟨rfl, fun i m hm => ?_, fun i hi => ?_, fun i j turn hi hj => ?_⟩
  · obtain _ | _ | n := i
    · obtain rfl := Option.some.inj hm
      exact ⟨reached_keeping_seven, by simp [sevenAndEightRecord]⟩
    · obtain rfl := Option.some.inj hm
      exact ⟨reached_keeping_eight, by simp [sevenAndEightRecord]⟩
    · cases hm
  · obtain _ | _ | n := i
    · cases hi
    · cases hi
    · exact ⟨rfl, rfl⟩
  · exact (turn_of_sevenAndEight hi).symm.trans (turn_of_sevenAndEight hj)

/-- The first engine is in the middle of a call, in which no exceptions are taken. -/
theorem reached_during_call {m : Engine Thrown Unit}
    (hexceptions : m.host.exceptions = (keeping sevenThrown 7).host.exceptions) :
    (sevenAndEight.put 0 m).Reached 2 (fun _ => []) sevenAndEightRecord := by
  have hm : m.host.Reached 2 [] (sevenAndEightRecord 0) :=
    ⟨hexceptions ▸ reached_keeping_seven, by simp [sevenAndEightRecord]⟩
  have h := reached_sevenAndEight.follows (i := 0) rfl hm.follows
  rwa [List.nil_append, Function.update_eq_self] at h

/-- A function of the first engine throws `7` again. With the exception of the other engine it throws a new error, though
the context there still keeps `8`. -/
theorem seven_is_rethrown :
    (∃ m, answer failing (environment failing .default) 0 default (keeping sevenThrown 7) = .error (.int 7) m) ∧
    ∃ id m o, answer failing (environment failing .default) 1 default (keeping sevenThrown 7) = .error (.object id) m ∧
      m.objects[id]? = some (some o) ∧ o.IsError (keeping sevenThrown 7) .internalError (HostError.shown "8") := by
  obtain ⟨-, h⟩ := rethrows_what_was_taken failing
  obtain ⟨-, -, h⟩ := h sevenAndEight 2 _ _ reached_sevenAndEight
  obtain ⟨-, -, -, -, -, -, h⟩ := h 0 (keeping sevenThrown 7) rfl
  constructor
  · obtain ⟨thrown, m, hanswer, hsame, -, -⟩ := h (environment failing .default) 0 default (.custom sevenThrown) _ 2 _ _ 0
      [] [] 0 0 sevenThrown (.int 7) rfl rfl rfl (reached_during_call rfl) rfl
    obtain rfl := hsame ⟨rfl, rfl, by simp [Untouched]⟩
    exact ⟨m, hanswer⟩
  · obtain ⟨thrown, m, hanswer, -, hother, -⟩ := h (environment failing .default) 1 default (.custom eightThrown) _ 2 _ _ 1
      [] [] 0 1 eightThrown (.int 8) rfl rfl rfl (reached_during_call rfl) rfl
    obtain ⟨rfl, o, hget, ho⟩ := hother (by decide) (by simp)
    exact ⟨_, m, o, hanswer, hget, ho.payload, ho.prototype, ho.message⟩

end PluginRelay.Embedding
