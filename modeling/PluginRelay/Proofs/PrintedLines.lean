import PluginRelay.Proofs.CutMessages
import PluginRelay.Proofs.PassedTexts

/-!
# Lines that functions write

A function that writes makes a text of each of its arguments. That may run scripts, and these may write in turn: what
they write to the same stream comes before the text of that argument. Nothing that was written is lost. But a function
is in the middle of writing meanwhile, and cannot be called again before it is done: such a call throws a new error, and
writes nothing.
-/
namespace PluginRelay.Embedding

open Script

variable {κ τ ε : Type}

/-! ### Streams -/

namespace World

theorem print_nothing (w : World κ τ) (id : StreamId) : w.print id "" = w := by
  have hsame : w.streams.modify id (·.print "") = w.streams := by
    refine Array.ext_getElem? fun i => ?_
    rw [Array.getElem?_modify]
    split
    · simp
    · rfl
  rw [print, hsame]

@[simp]
theorem streams_freeKept (w : World κ τ) (id : ContextId) : (w.freeKept id).streams = w.streams := by
  unfold freeKept
  split
  · rfl
  · rfl

@[simp]
theorem streams_lessen (w : World κ τ) (id : ContextId) (f : Context → Context) :
    (w.lessen id f).streams = w.streams := by
  unfold lessen
  dsimp only
  split
  · exact streams_freeKept _ id
  · rfl

@[simp]
theorem streams_leaveContext (w : World κ τ) (id : ContextId) : (w.leaveContext id).streams = w.streams :=
  streams_lessen w id _

@[simp]
theorem streams_drop (w : World κ τ) (h : Handle) : (w.drop h).streams = w.streams :=
  streams_lessen _ h.context _

@[simp]
theorem streams_handOver (w : World κ τ) (h : Handle) : (w.handOver h).streams = w.streams := streams_drop _ h

@[simp]
theorem streams_foldl_drop (hs : List Handle) (w : World κ τ) : (hs.foldl drop w).streams = w.streams := by
  induction hs generalizing w with
  | nil => rfl
  | cons h rest ih => rw [List.foldl_cons, ih, streams_drop]

@[simp]
theorem streams_foldl_hold (hs : List Handle) (w : World κ τ) : (hs.foldl hold w).streams = w.streams := by
  induction hs generalizing w with
  | nil => rfl
  | cons h rest ih => exact ih (w.hold h)

@[simp]
theorem writing_foldl_hold (hs : List Handle) (w : World κ τ) : (hs.foldl hold w).writing = w.writing := by
  induction hs generalizing w with
  | nil => rfl
  | cons h rest ih => exact ih (w.hold h)

end World

/-! ### What a call begins with -/

/-- The engine while a function runs that has been called. -/
def entered (m : Engine κ τ) (i : Invocation) : Engine κ τ :=
  let w := i.handles.foldl World.hold (m.host.enterContext i.context)
  { m with host := { w with depth := w.depth + 1 } }

/-- The engine where the function starts to write. -/
def begun (m : Engine κ τ) (i : Invocation) : Engine κ τ :=
  { entered m i with host := (entered m i).host.mark i.function }

@[simp]
theorem streams_entered (m : Engine κ τ) (i : Invocation) : (entered m i).host.streams = m.host.streams :=
  World.streams_foldl_hold i.handles _

@[simp]
theorem writing_entered (m : Engine κ τ) (i : Invocation) : (entered m i).host.writing = m.host.writing :=
  World.writing_foldl_hold i.handles _

theorem streams_begun (m : Engine κ τ) (i : Invocation) : (begun m i).host.streams = m.host.streams :=
  streams_entered m i

theorem writing_begun (m : Engine κ τ) (i : Invocation) :
    (begun m i).host.writing = i.function :: m.host.writing := by
  rw [begun, World.mark, writing_entered]

variable [Holding τ]

/-! ### Words and lines -/

/-- What comes to a stream where a value is written. -/
structure Word where
  /-- What is written while the value is made into a text. -/
  nested : String
  text : String

def Word.whole (w : Word) : String := w.nested ++ w.text

/-- Makes a text of a value. A value that cannot be converted has an empty one. -/
structure Spelled (env : Env (World κ τ)) (id : StreamId) (h : Handle) (w : Word) (m m' : Engine κ τ) : Prop where
  stream : ∃ s, m.host.streams[id]? = some s ∧ m'.host.streams[id]? = some (s.print w.nested)
  text : (∃ u, (Operation.units h) env m = .ok u m' ∧ w.text = u.toStringLossy) ∨
    ∃ f, (Operation.units h) env m = .error f m' ∧ w.text = ""

/-- Writes values with blanks between them. Each is made into a text where the one before has been written. -/
inductive Line (env : Env (World κ τ)) (id : StreamId) :
    List Handle → List Word → Engine κ τ → Engine κ τ → Prop where
  | empty (m : Engine κ τ) : Line env id [] [] m m
  | last {h : Handle} {w : Word} {m m₁ : Engine κ τ} : Spelled env id h w m m₁ →
    Line env id [h] [w] m { m₁ with host := m₁.host.print id w.text }
  | more {h : Handle} {w : Word} {rest : List Handle} {words : List Word} {m m₁ m₂ : Engine κ τ} :
    Spelled env id h w m m₁ → rest ≠ [] →
    Line env id rest words { m₁ with host := (m₁.host.print id w.text).print id " " } m₂ →
    Line env id (h :: rest) (w :: words) m m₂

/-- The text of a line, without a line break. -/
def lineText (words : List Word) : String := " ".intercalate (words.map Word.whole)

@[simp]
theorem lineText_nil : lineText [] = "" := String.intercalate_nil

@[simp]
theorem lineText_singleton (w : Word) : lineText [w] = w.whole := String.intercalate_singleton

theorem lineText_cons (w : Word) {words : List Word} (hne : words ≠ []) :
    lineText (w :: words) = w.whole ++ (" " ++ lineText words) := by
  obtain ⟨next, rest, rfl⟩ := List.exists_cons_of_ne_nil hne
  rw [lineText, List.map_cons, List.map_cons, String.intercalate_cons_cons, String.append_assoc]
  rfl

variable {env : Env (World κ τ)} {id : StreamId} {h : Handle} {w : Word} {handles : List Handle} {words : List Word}
  {m m' : Engine κ τ} {s : Stream}

theorem Spelled.stream_eq (hspelled : Spelled env id h w m m') (hs : m.host.streams[id]? = some s) :
    m'.host.streams[id]? = some (s.print w.nested) := by
  obtain ⟨s', hs', hstream⟩ := hspelled.stream
  obtain rfl := Option.some.inj (hs.symm.trans hs')
  exact hstream

theorem Spelled.printed (hspelled : Spelled env id h w m m') (hs : m.host.streams[id]? = some s) :
    (m'.host.print id w.text).streams[id]? = some (s.print w.whole) := by
  rw [World.streams_print _ (hspelled.stream_eq hs), Stream.print_print]
  rfl

/-- A conversion that changes nothing. -/
theorem Spelled.of_units {u : Units} (hspelled : Spelled env id h w m m')
    (hunits : (Operation.units h) env m = .ok u m) : w = ⟨"", u.toStringLossy⟩ ∧ m' = m := by
  obtain ⟨⟨s, hs, hstream⟩, ⟨u', hok, htext⟩ | ⟨f, herror, -⟩⟩ := hspelled
  · rw [hunits] at hok
    cases hok
    have hsame : s = s.print w.nested := Option.some.inj (hs.symm.trans hstream)
    have hchars : s.text.toList = s.text.toList ++ w.nested.toList := by
      rw [← String.toList_append]
      exact congrArg (fun s => s.text.toList) hsame
    have hnested : w.nested = "" := String.toList_eq_nil_iff.mp (List.self_eq_append_right.mp hchars)
    exact ⟨congrArg₂ Word.mk hnested htext, rfl⟩
  · rw [hunits] at herror
    cases herror

theorem Line.words_ne_nil (hline : Line env id handles words m m') (hne : handles ≠ []) : words ≠ [] := by
  cases hline with
  | empty => exact absurd rfl hne
  | last _ => exact List.cons_ne_nil _ _
  | more _ _ _ => exact List.cons_ne_nil _ _

/-- Nothing else comes to the stream. -/
theorem Line.printed (hline : Line env id handles words m m') (hs : m.host.streams[id]? = some s) :
    m'.host.streams[id]? = some (s.print (lineText words)) := by
  induction hline generalizing s with
  | empty m => rw [lineText_nil, Stream.print_empty, hs]
  | @last h w m m₁ hspelled =>
    rw [lineText_singleton]
    exact hspelled.printed hs
  | @more h w rest words m m₁ m₂ hspelled hrest hline ih =>
    rw [ih (World.streams_print _ (hspelled.printed hs) " "), Stream.print_print, Stream.print_print,
      lineText_cons w (hline.words_ne_nil hrest)]

namespace Operation

/-! ### Writing -/

theorem write_run (hs : m.host.streams[id]? = some s) (hopen : s.fault = none) (text : String)
    (env : Env (World κ τ)) :
    (write id text : Operation κ τ Unit) env m = .ok () { m with host := m.host.print id text } := by
  unfold write
  split
  · next hempty =>
    rw [String.isEmpty_iff.mp hempty, World.print_nothing]
    rfl
  · have hstream : (stream id : Operation κ τ Stream) env m = .ok s m := by
      change EStateM.Result.ok ((m.host.streams[id]?).getD _) m = _
      rw [hs, Option.getD_some]
    rw [Task.run_bind_ok hstream, hopen]
    rfl

/-- Any value is made into a text, whatever that runs. -/
theorem lossyText_spec (hs : m.host.streams[id]? = some s) (h : Handle) (env : Env (World κ τ)) :
    ∃ w m', (lossyText h : Task ε κ τ String) env m = .ok w.text m' ∧ Spelled env id h w m m' := by
  obtain ⟨nested, hnested⟩ := ((units h env).evolves m).streams id s hs
  unfold lossyText
  cases hunits : (units h) env m with
  | ok u m' =>
    rw [hunits] at hnested
    rw [Task.run_bind_ok (attempt_ok hunits)]
    exact ⟨⟨nested, u.toStringLossy⟩, m', rfl, ⟨s, hs, hnested⟩, .inl ⟨u, hunits, rfl⟩⟩
  | error f m' =>
    rw [hunits] at hnested
    rw [Task.run_bind_ok (attempt_error hunits)]
    exact ⟨⟨nested, ""⟩, m', rfl, ⟨s, hs, hnested⟩, .inr ⟨f, hunits, rfl⟩⟩

/-- Values can always be written to a stream that takes everything. -/
theorem writeWords_spec (hs : m.host.streams[id]? = some s) (hopen : s.fault = none) (handles : List Handle)
    (env : Env (World κ τ)) :
    ∃ words m', (writeWords id handles : Operation κ τ Unit) env m = .ok () m' ∧
      Line env id handles words m m' := by
  induction handles using writeWords.induct generalizing m s with
  | case1 => exact ⟨[], m, rfl, .empty m⟩
  | case2 h =>
    obtain ⟨w, m₁, hrun, hspelled⟩ := lossyText_spec (ε := Failure) hs h env
    refine ⟨[w], _, ?_, .last hspelled⟩
    rw [writeWords, Task.run_bind_ok hrun, write_run (hspelled.stream_eq hs) hopen]
  | case3 h rest hrest ih =>
    obtain ⟨w, m₁, hrun, hspelled⟩ := lossyText_spec (ε := Failure) hs h env
    have hprinted := hspelled.printed hs
    obtain ⟨words, m', hwords, hline⟩ := ih
      (m := { m₁ with host := (m₁.host.print id w.text).print id " " }) (World.streams_print _ hprinted " ") hopen
    refine ⟨w :: words, m', ?_, .more hspelled hrest hline⟩
    rw [writeWords.eq_3 id h rest hrest, Task.run_bind_ok hrun,
      Task.run_bind_ok (write_run (hspelled.stream_eq hs) hopen _ env),
      Task.run_bind_ok (write_run (m := { m₁ with host := m₁.host.print id w.text }) hprinted hopen " " env)]
    exact hwords

theorem writeLine_spec (hs : m.host.streams[id]? = some s) (hopen : s.fault = none) (handles : List Handle)
    (env : Env (World κ τ)) :
    ∃ words m', (writeLine id handles : Operation κ τ Unit) env m =
        .ok () { m' with host := m'.host.print id "\n" } ∧
      Line env id handles words m m' := by
  obtain ⟨words, m', hwords, hline⟩ := writeWords_spec hs hopen handles env
  refine ⟨words, m', ?_, hline⟩
  unfold writeLine
  rw [Task.run_bind_ok hwords, write_run (hline.printed hs) hopen]

/-- Each of some values is held. -/
theorem forM_hold (hs : List Handle) (env : Env (World κ τ)) (m : Engine κ τ) :
    (hs.forM hold : Task ε κ τ Unit) env m = .ok () { m with host := hs.foldl World.hold m.host } := by
  induction hs generalizing m with
  | nil => rfl
  | cons h rest ih => exact ih { m with host := m.host.hold h }

end Operation

/-! ### Calls -/

variable {respond : Respond κ τ} {code : HostCode κ} {i : Invocation} {function : FunctionId}

/-- What has been called comes to an end, and is not counted any more. -/
theorem runHolding_run {answer : Answer} (hrun : (Operation.runCode respond code i) env (entered m i) = .ok answer m') :
    (runHolding respond code i : Task ε κ τ _) env { m with host := m.host.enterContext i.context } =
      .ok (.ok answer) { m' with host := { m'.host with depth := m'.host.depth - 1 } } := by
  unfold runHolding
  rw [Task.run_bind_ok (Operation.forM_hold i.handles env _)]
  unfold Operation.runCounted
  have hcount : (Operation.modifyWorld fun w => { w with depth := w.depth + 1 } : Task ε κ τ Unit) env
      { m with host := i.handles.foldl World.hold (m.host.enterContext i.context) } = .ok () (entered m i) := rfl
  rw [Task.run_bind_ok hcount, Task.run_bind_ok (Operation.attempt_ok hrun)]
  rfl

/-- A function that has broken off leaves an event. -/
theorem conclude_panic (context : ContextId) (message : Option String) (env : Env (World κ τ)) (m : Engine κ τ) :
    (conclude context (.ok (.panic message)) : Task ε κ τ Conclusion) env m =
      .ok (.error (HostError.panicMessage message)) { m with host := { m.host with
        events := m.host.events ++ [HostError.panicEvent (HostError.panicMessage message)] } } := rfl

/-- A function that is in the middle of writing panics. -/
theorem writeCall_busy (hbusy : i.function ∈ m.host.writing) :
    (Operation.writeCall id i) env m = .ok (.panic (some "RefCell already borrowed")) m := by
  unfold Operation.writeCall
  rw [Task.run_bind_ok (show (Operation.world : Operation κ τ (World κ τ)) env m = .ok m.host m from rfl),
    if_pos (List.contains_iff_mem.mpr hbusy)]
  rfl

/-- Any other writes its line. -/
theorem writeCall_free (hfree : i.function ∉ m.host.writing)
    (hline : (Operation.writeLine id i.arguments) env { m with host := m.host.mark i.function } = .ok () m') :
    (Operation.writeCall id i) env m = .ok (.value ⟨i.context, .undefined⟩)
      { m' with host := (m'.host.unmark i.function).hold ⟨i.context, .undefined⟩ } := by
  have hmarking : (Operation.marking i.function (Operation.writeLine id i.arguments) : Operation κ τ Unit) env m =
      .ok () { m' with host := m'.host.unmark i.function } := by
    simp only [Operation.marking]
    rw [hline]
  unfold Operation.writeCall
  rw [Task.run_bind_ok (show (Operation.world : Operation κ τ (World κ τ)) env m = .ok m.host m from rfl),
    if_neg fun hbusy => hfree (List.contains_iff_mem.mp hbusy)]
  exact Task.run_bind_ok hmarking _

/-- A function that is in the middle of writing throws a new error, and writes nothing. -/
theorem answer_busy (respond : Respond κ τ) (env : Env (World κ τ)) (call : Call)
    (hmanages : m.host.manages m.realm = true) (hcode : m.host.functions[function]? = some (.write id))
    (hbusy : function ∈ m.host.writing) :
    ∃ o m', answer respond env function call m = .error (.object m.objects.size) m' ∧
      m'.objects[m.objects.size]? = some (some o) ∧
      o.IsError m .internalError (Units.ofString "panic in callback: RefCell already borrowed") ∧
      m'.host.streams = m.host.streams := by
  have hcalled : (Operation.runCode respond (.write id) (.ofCall m.realm function call)) env
      (entered m (.ofCall m.realm function call)) =
        .ok (.panic (some "RefCell already borrowed")) (entered m (.ofCall m.realm function call)) := by
    refine writeCall_busy ?_
    rw [writing_entered]
    exact hbusy
  rw [answer_spec hmanages hcode (invoke_run (runHolding_run hcalled) (conclude_panic _ _ env _))]
  have hshown : HostError.shown "panic in callback: RefCell already borrowed" =
      Units.ofString "panic in callback: RefCell already borrowed" :=
    HostError.shown_of_fits (by decide) (by decide)
  generalize hw : World.leaveContext _ _ = w
  have hstreams : w.streams = m.host.streams := by
    rw [← hw, World.streams_leaveContext, World.streams_foldl_drop]
    exact streams_entered m (.ofCall m.realm function call)
  obtain ⟨o, m', hthrow, hget, ho⟩ := Action.throwUnits_spec (α := Value) .internalError
    (Units.ofString "panic in callback: RefCell already borrowed") { m with host := w }
  have hhost := Action.host_throwUnits (α := Value) .internalError
    (Units.ofString "panic in callback: RefCell already borrowed") { m with host := w }
  rw [hthrow] at hhost
  refine ⟨o, m', ?_, hget, ⟨ho.payload, ho.prototype, ho.message⟩, ?_⟩
  · rw [← hthrow, ← hshown]
    rfl
  · exact (congrArg World.streams hhost).trans hstreams

/-- Any other function writes the line of its arguments. -/
theorem answer_free (respond : Respond κ τ) (env : Env (World κ τ)) (call : Call)
    (hmanages : m.host.manages m.realm = true) (hcode : m.host.functions[function]? = some (.write id))
    (hfree : function ∉ m.host.writing) (hs : m.host.streams[id]? = some s) (hopen : s.fault = none) :
    ∃ words m₁ m', Line env id (Invocation.ofCall m.realm function call).arguments words
        (begun m (.ofCall m.realm function call)) m₁ ∧
      answer respond env function call m = .ok .undefined m' ∧
      m'.host.streams[id]? = some (s.print (lineText words ++ "\n")) := by
  have hbegun : (begun m (.ofCall m.realm function call)).host.streams[id]? = some s := by
    rw [streams_begun, hs]
  obtain ⟨words, m₁, hwrite, hline⟩ := Operation.writeLine_spec hbegun hopen
    (Invocation.ofCall m.realm function call).arguments env
  have hcalled := writeCall_free (m := entered m (.ofCall m.realm function call)) (i := .ofCall m.realm function call)
    (by rw [writing_entered]; exact hfree) hwrite
  refine ⟨words, m₁, _, hline, answer_spec hmanages hcode (invoke_run (runHolding_run hcalled) rfl), ?_⟩
  rw [World.streams_leaveContext, World.streams_foldl_drop, World.streams_handOver, ← Stream.print_print]
  exact World.streams_print m₁.host (hline.printed hbegun) "\n"

/-- What is written stays, whatever happens, and functions that are in the middle of writing still are; at first there
are none. Such a function cannot be called: it throws a new error, and writes nothing. Any other function that writes to
a stream which takes everything gives `undefined` and writes its arguments, with blanks between them, and a line break;
it is in the middle of writing while it makes texts of the arguments. What the scripts that run then write to the same
stream comes before the text of the argument that they run for. -/
theorem printed_lines (respond : Respond κ τ) :
    (∀ (config : Config) (own : τ), (World.new config own : World κ τ).writing = []) ∧
    ∀ m : Engine κ τ,
      (∀ (ε α : Type) (t : Task ε κ τ α) (env : Env (World κ τ)), m.host.Prints (t env m).machine.host) ∧
      (∀ (α : Type) (a : Action (World κ τ) α), m.host.Prints (a m).machine.host) ∧
      ∀ (env : Env (World κ τ)) (function : FunctionId) (call : Call) (id : StreamId),
        m.host.manages m.realm = true → m.host.functions[function]? = some (.write id) →
        (function ∈ m.host.writing →
          ∃ o m', answer respond env function call m = .error (.object m.objects.size) m' ∧
            m'.objects[m.objects.size]? = some (some o) ∧
            o.IsError m .internalError (Units.ofString "panic in callback: RefCell already borrowed") ∧
            m'.host.streams = m.host.streams) ∧
        (function ∉ m.host.writing →
          (begun m (.ofCall m.realm function call)).host.writing = function :: m.host.writing ∧
          ∀ s, m.host.streams[id]? = some s → s.fault = none →
            ∃ words m₁ m', Line env id (Invocation.ofCall m.realm function call).arguments words
                (begun m (.ofCall m.realm function call)) m₁ ∧
              answer respond env function call m = .ok .undefined m' ∧
              m'.host.streams[id]? = some (s.print (lineText words ++ "\n"))) := by
  refine ⟨fun config own => rfl, fun m => ⟨fun ε α t env => ((t env).evolves m).toPrints,
    fun α a => (a.evolves m).toPrints, fun env function call id hmanages hcode => ⟨?_, ?_⟩⟩⟩
  · intro hbusy
    exact answer_busy respond env call hmanages hcode hbusy
  · intro hfree
    exact ⟨writing_begun m _, fun s hs hopen => answer_free respond env call hmanages hcode hfree hs hopen⟩

/-- No functions but those of the library. -/
def unanswered : Respond Empty Unit := ⟨nofun, nofun⟩

/-- A program whose only function writes to a stream. -/
def printing : Engine Empty Unit :=
  .start { (World.new .default () : World Empty Unit) with
    contexts := #[⟨1, 0⟩]
    functions := #[.write 0]
    streams := #[⟨"", none⟩] }

/-- A call with a text and a number. -/
def storedCall : Call := ⟨0, .undefined, #[.ofString "stored", .int 7], .undefined, #[]⟩

/-- The arguments are written, but not where the function is called again before it is done. -/
theorem arguments_are_printed : ∃ (m m' : Engine Empty Unit) (o : Object),
    answer unanswered (environment unanswered .default) 0 storedCall printing = .ok .undefined m ∧
    m.host.streams[0]? = some ⟨"stored 7\n", none⟩ ∧
    answer unanswered (environment unanswered .default) 0 storedCall (begun printing (.ofCall 0 0 storedCall)) =
      .error (.object 0) m' ∧
    m'.objects[0]? = some (some o) ∧
    o.IsError (begun printing (.ofCall 0 0 storedCall)) .internalError
      (Units.ofString "panic in callback: RefCell already borrowed") ∧
    m'.host.streams[0]? = some ⟨"", none⟩ := by
  let env := environment unanswered .default
  obtain ⟨hwriting, h⟩ := printed_lines unanswered
  have hcode : printing.host.functions[0]? = some (.write 0) := rfl
  have hfree : 0 ∉ printing.host.writing := by
    rw [show printing.host.writing = [] from hwriting .default ()]
    exact List.not_mem_nil
  obtain ⟨-, -, hcalls⟩ := h printing
  obtain ⟨hmarked, hprints⟩ := (hcalls env 0 storedCall 0 rfl hcode).2 hfree
  obtain ⟨words, m₁, m, hline, hanswer, hprinted⟩ := hprints ⟨"", none⟩ rfl rfl
  have hbusy : 0 ∈ (begun printing (.ofCall 0 0 storedCall)).host.writing := by
    rw [show (begun printing (.ofCall 0 0 storedCall)).host.writing = _ from hmarked]
    exact List.mem_cons_self
  obtain ⟨-, -, hnested⟩ := h (begun printing (.ofCall 0 0 storedCall))
  obtain ⟨o, m', hthrown, hget, ho, hstreams⟩ := (hnested env 0 storedCall 0 rfl hcode).1 hbusy
  refine ⟨m, m', o, hanswer, ?_, hthrown, hget, ho, ?_⟩
  · cases hline with
    | more hfirst _ hline =>
      obtain ⟨rfl, rfl⟩ := hfirst.of_units (u := Units.ofString "stored") rfl
      cases hline with
      | more _ hrest _ => exact absurd rfl hrest
      | last hlast =>
        obtain ⟨rfl, rfl⟩ := hlast.of_units (u := Units.ofString "7") rfl
        rw [hprinted]
        decide
  · rw [hstreams, streams_begun]
    rfl

/-- A function that is its own conversion to a simple value. -/
def selfSpelling : Object := (Object.new none (.host 0)).put WellKnown.toPrimitive.key (.plain (.object 0))

theorem payload_selfSpelling : selfSpelling.payload = .host 0 := Object.payload_put _ _ _

/-- Converting the function calls it. -/
theorem toUnits_selfSpelling {env env' : Env (World Empty Unit)} {m m' : Engine Empty Unit} {e : Value}
    (hcall : env.call = Level.call ⟨Builtin.table, answer unanswered⟩ env')
    (hobject : m.objects[0]? = some (some selfSpelling))
    (hanswer : answer unanswered env' 0
      ⟨0, .object 0, #[(m.numbered env'.place (.ofString "string")).1], .undefined, #[]⟩
      (m.numbered env'.place (.ofString "string")).2 = .error e m') :
    (Convert.toUnits env (.object 0) : Action (World Empty Unit) Units) m = .error e m' := by
  have hown : (Access.plainOwn 0 WellKnown.toPrimitive.key : Action (World Empty Unit) _) m =
      .ok (some (.plain (.object 0))) m := by
    have hfind : selfSpelling.find? WellKnown.toPrimitive.key = some (.plain (.object 0)) := Object.find?_put_self _ _ _
    unfold Access.plainOwn
    rw [Evolution.run_bind_ok (Action.object_run hobject), payload_selfSpelling, ← hfind]
    rfl
  have hget : (Access.get env 0 WellKnown.toPrimitive.key (.object 0)) m = .ok (.object 0) m := by
    change (Access.getFrom env _ _ (m.objects.size + 1) (some 0)) m = _
    unfold Access.getFrom
    rw [Evolution.run_bind_ok (Action.object_run hobject), payload_selfSpelling]
    dsimp only
    rw [Evolution.run_bind_ok hown]
    rfl
  have hcallable : (Access.isCallable (.object 0) : Action (World Empty Unit) Bool) m = .ok true m := by
    unfold Access.isCallable
    rw [Evolution.run_bind_ok (Action.object_run hobject), Object.isCallable, payload_selfSpelling]
    rfl
  have hmethod : (Convert.getMethod env (.object 0) WellKnown.toPrimitive.key) m = .ok (some (.object 0)) m := by
    unfold Convert.getMethod
    rw [Evolution.run_bind_ok (show (Convert.getMember env (.object 0) _) m = .ok (.object 0) m from hget)]
    change (_ >>= _ : Action (World Empty Unit) _) m = _
    rw [Evolution.run_bind_ok hcallable]
    rfl
  have hcalled : (env.call (.object 0) (.object 0) #[.ofString "string"]) m = .error e m' := by
    rw [hcall]
    unfold Level.call
    dsimp only
    rw [Evolution.run_bind_ok (Action.payload_run hobject), payload_selfSpelling]
    exact hanswer
  have hprimitive : (Convert.toPrimitive env (.object 0) .string) m = .error e m' := by
    unfold Convert.toPrimitive
    dsimp only
    rw [Evolution.run_bind_ok hmethod]
    exact Evolution.run_bind_error hcalled _
  unfold Convert.toUnits
  exact Evolution.run_bind_error hprimitive _

/-- A program whose only function writes to a stream, and is its own conversion to a simple value. -/
def selfPrinting : Engine Empty Unit := { printing with objects := #[some selfSpelling] }

/-- A call of the function with itself. -/
def selfCall : Call := ⟨0, .undefined, #[.object 0], .undefined, #[]⟩

/-- The function gives `undefined`, but what it runs to make a text of its argument is another call, and that throws. -/
theorem nested_call_throws : ∃ (m m' : Engine Empty Unit) (e : Object),
    answer unanswered (environment unanswered .default) 0 selfCall selfPrinting = .ok .undefined m ∧
    (Convert.toUnits (environment unanswered .default) (.object 0) : Action (World Empty Unit) Units)
      (begun selfPrinting (.ofCall 0 0 selfCall)) = .error (.object 1) m' ∧
    m'.objects[1]? = some (some e) ∧
    e.IsError selfPrinting .internalError (Units.ofString "panic in callback: RefCell already borrowed") ∧
    m'.host.streams[0]? = some ⟨"", none⟩ := by
  let env := environment unanswered .default
  have hstream : selfPrinting.host.streams[0]? = some ⟨"", none⟩ := rfl
  have hcode : selfPrinting.host.functions[0]? = some (.write 0) := rfl
  obtain ⟨-, -, m, -, houter, -⟩ := answer_free unanswered env selfCall rfl hcode List.not_mem_nil hstream rfl
  obtain ⟨depth, hdepth⟩ : ∃ depth,
      Engine.levelsFor (Config.default.stackSize.getD Engine.defaultStackSize) = depth + 1 := ⟨408, rfl⟩
  have hcall : (environment unanswered .default).call = Level.call ⟨Builtin.table, answer unanswered⟩
      (Level.operations ⟨Builtin.table, answer unanswered⟩ depth) := by
    rw [environment, hdepth]
    rfl
  let nestedEnv := Level.operations ⟨Builtin.table, answer unanswered⟩ depth
  -- The hint that the engine gives with the conversion gets a number on its way to the function.
  let hint := (begun selfPrinting (.ofCall 0 0 selfCall)).numbered nestedEnv.place (.ofString "string")
  let nested : Call := ⟨0, .object 0, #[hint.1], .undefined, #[]⟩
  have hmanages : hint.2.host.manages 0 = true := rfl
  have hbusy : 0 ∈ hint.2.host.writing := by
    change 0 ∈ (begun selfPrinting (.ofCall 0 0 selfCall)).host.writing
    rw [writing_begun]
    exact List.mem_cons_self
  obtain ⟨e, m', hnested, hget, he, hstreams⟩ := answer_busy unanswered nestedEnv nested hmanages hcode hbusy
  have hconverts := toUnits_selfSpelling hcall rfl hnested
  refine ⟨m, m', e, houter, hconverts, hget, ⟨he.payload, he.prototype, he.message⟩, ?_⟩
  rw [hstreams]
  change (begun selfPrinting (.ofCall 0 0 selfCall)).host.streams[0]? = _
  rw [streams_begun]
  exact hstream

end PluginRelay.Embedding
