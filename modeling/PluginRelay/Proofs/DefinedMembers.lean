import PluginRelay.Proofs.DefinedProperties
import PluginRelay.Proofs.HeldObjects

/-!
# Members that a program sets

To set a member is to define a plain property. The engine tells by an exception that something went wrong, and by its
answer that the object refused; the program looks for exceptions only. So an object that takes the property has it
afterwards, one that refuses stays as it is, and in both cases the program is told that the member is set.
-/
namespace PluginRelay.Embedding

open Script Access

variable {κ τ ε : Type} [Holding τ]

namespace Operation

/-! ### Runs of a definition -/

/-- A definition up to the point where its value is what the object stores: the engine has done what was put off,
taken the value over, and converted it in the context of the object. -/
def convert (target : Handle) (id : ObjectId) (key : PropertyKey) (h : Handle) : Task Value κ τ Value := do
  settle
  let v ← handOver h
  settle
  fun env => acting (Action.inRealm target.context (Convert.toDefined env id key v))

/-- The program takes an exception, and the operation fails with it. -/
def raise (id : ContextId) (e : Value) : Operation κ τ Unit := do throw (.thrown (← take id e))

theorem raise_fails (id : ContextId) (e : Value) (env : Env (World κ τ)) (m : Engine κ τ) :
    ∃ f m', (raise id e) env m = .error f m' := by
  unfold raise
  cases htake : (take id e : Operation κ τ Thrown) env m with
  | ok t m' =>
    rw [Task.run_bind_ok htake]
    exact ⟨_, _, rfl⟩
  | error f m' =>
    rw [Task.run_bind_error htake]
    exact ⟨_, _, rfl⟩

variable {m m₁ m₂ : Engine κ τ} {hands : List Handle} {target h : Handle} {id : ObjectId} {key : PropertyKey}
  {env : Env (World κ τ)}

theorem convert_run (hfirst : (settle : Task Value κ τ Unit) env m = .ok () m₁)
    (hsecond : (settle : Task Value κ τ Unit) env { m₁ with host := m₁.host.handOver h } = .ok () m₂) :
    ((convert target id key h) env m).machine.objects =
      ((Convert.toDefined env id key h.value) { m₂ with realm := target.context }).machine.objects := by
  unfold convert
  rw [Task.run_bind_ok hfirst, Task.run_bind_ok (show (handOver h : Task Value κ τ Value) env m₁ =
    .ok h.value { m₁ with host := m₁.host.handOver h } from rfl), Task.run_bind_ok hsecond]
  unfold Action.inRealm acting
  dsimp only
  cases (Convert.toDefined env id key h.value).run { m₂ with realm := target.context } <;> rfl

/-- The answer of the engine is dropped. -/
theorem define_run (hvalue : target.value = .object id)
    (hfirst : (settle : Operation κ τ Unit) env m = .ok () m₁)
    (hsecond : (settle : Operation κ τ Unit) env { m₁ with host := m₁.host.handOver h } = .ok () m₂) :
    (define target key h) env m =
      match (Convert.define env id key (.ofProperty (.plain h.value))) { m₂ with realm := target.context } with
      | .ok _ m' => .ok () { m' with realm := m₂.realm }
      | .error e m' => (raise target.context e) env { m' with realm := m₂.realm } := by
  unfold define
  rw [Task.run_bind_ok hfirst, Task.run_bind_ok (show (handOver h : Operation κ τ Value) env m₁ =
    .ok h.value { m₁ with host := m₁.host.handOver h } from rfl)]
  unfold perform
  rw [Task.run_bind_ok hsecond, hvalue]
  cases hrun : (Convert.define env id key (.ofProperty (.plain h.value))) { m₂ with realm := target.context } with
  | ok answer m' =>
    rw [Task.run_bind_ok (within_ok (Evolution.run_bind_ok hrun _))]
    rfl
  | error e m' =>
    rw [Task.run_bind_ok (within_error (Evolution.run_bind_error hrun _))]
    rfl

/-- What comes before the definition leaves the object alone. -/
theorem define_spec (hheld : m.host.Holds (h :: hands) target) (hmem : target ∈ Holding.values m.host.own ++ hands)
    (hvalue : target.value = .object id) (key : PropertyKey) (env : Env (World κ τ)) :
    ∃ m₀ : Engine κ τ, m₀.objects[id]? = m.objects[id]? ∧ m₀.objects.size = m.objects.size ∧
      m₀.host.own = m.host.own ∧
      ((convert target id key h) env m).machine.objects =
        ((Convert.toDefined env id key h.value) m₀).machine.objects ∧
      ∃ realm, (define target key h) env m =
        match (Convert.define env id key (.ofProperty (.plain h.value))) m₀ with
        | .ok _ m' => .ok () { m' with realm := realm }
        | .error e m' => (raise target.context e) env { m' with realm := realm } := by
  obtain ⟨m₁, hfirst, hget₁, hsize₁, hown₁, hheld₁⟩ := settle_holds (ε := Failure) hheld hvalue env
  have hheld₁ : (m₁.host.handOver h).Holds hands target := hheld₁.handOver (hown₁ ▸ hmem)
  obtain ⟨m₂, hsecond, hget₂, hsize₂, hown₂, -⟩ := settle_holds (ε := Failure)
    (m := { m₁ with host := m₁.host.handOver h }) hheld₁ hvalue env
  refine ⟨{ m₂ with realm := target.context }, hget₂.trans hget₁, hsize₂.trans hsize₁, ?_,
    convert_run (settle_ok hfirst) (settle_ok hsecond), m₂.realm, define_run hvalue hfirst hsecond⟩
  exact hown₂.trans ((World.own_handOver m₁.host h).trans hown₁)

/-- A member is set without calls of methods. -/
theorem define_plain {o : Object} (hheld : m.host.Holds (h :: hands) target)
    (hmem : target ∈ Holding.values m.host.own ++ hands) (hvalue : target.value = .object id)
    (hobject : m.objects[id]? = some (some o)) (ho : o.IsPlain) (hasks : ¬o.Asks key h.value)
    (env : Env (World κ τ)) :
    match (define target key h) env m with
    | .ok _ m' => m'.host.own = m.host.own ∧ ∃ o', m'.objects[id]? = some (some o') ∧
        o.Defined o' m.objects.size m'.objects.size key (.plain h.value)
    | .error f m' => ∃ length isFixed, o.payload = .array length isFixed ∧ key = lengthKey ∧
        ∃ e m₁, m₁.objects[id]? = m.objects[id]? ∧ (raise target.context e) env m₁ = .error f m' := by
  obtain ⟨m₀, hget, hsize, hown, -, realm, hrun⟩ := define_spec hheld hmem hvalue key env
  rw [hrun]
  obtain ⟨answer, m', o', hdefine, hhost, hget', hdefined⟩ | ⟨length, isFixed, e, m', hp, hk, hdefine, hsame⟩ :=
    convertDefine_spec env (hget.trans hobject) ho hasks
  · rw [hdefine]
    rw [hsize] at hdefined
    exact ⟨(congrArg World.own hhost).trans hown, o', hget', hdefined⟩
  · obtain ⟨f, m'', hraise⟩ := raise_fails target.context e env { m' with realm := realm }
    rw [hdefine]
    dsimp only
    rw [hraise]
    exact ⟨length, isFixed, hp, hk, e, { m' with realm := realm }, hsame.trans hget, hraise⟩

/-- Where the methods of a value leave an array, its length stays what it is then. -/
theorem define_asking {o : Object} {length : Nat} {isFixed : Bool} (hheld : m.host.Holds (h :: hands) target)
    (hmem : target ∈ Holding.values m.host.own ++ hands) (hvalue : target.value = .object id)
    (hobject : ((convert target id lengthKey h) env m).machine.objects[id]? = some (some o))
    (hp : o.payload = .array length isFixed) :
    match (define target lengthKey h) env m with
    | .ok _ m' => m'.objects[id]? = some (some o)
    | .error f m' => ∃ e m₁, m₁.objects[id]? = some (some o) ∧ (raise target.context e) env m₁ = .error f m' := by
  obtain ⟨m₀, -, -, -, hconvert, realm, hrun⟩ := define_spec hheld hmem hvalue lengthKey env
  have hfails (e : Value) {m₁ : Engine κ τ} (hsame : m₁.objects[id]? = some (some o)) :
      match (raise target.context e) env { m₁ with realm := realm } with
      | .ok _ m' => m'.objects[id]? = some (some o)
      | .error f m' => ∃ e m₁, m₁.objects[id]? = some (some o) ∧ (raise target.context e) env m₁ = .error f m' := by
    obtain ⟨f, m', hraise⟩ := raise_fails target.context e env { m₁ with realm := realm }
    rw [hraise]
    exact ⟨e, { m₁ with realm := realm }, hsame, hraise⟩
  rw [hrun]
  rw [hconvert] at hobject
  cases hconverted : (Convert.toDefined env id lengthKey h.value) m₀ with
  | error e m₁ =>
    rw [hconverted] at hobject
    rw [show (Convert.define env id lengthKey (.ofProperty (.plain h.value))) m₀ = .error e m₁ from
      Evolution.run_bind_error hconverted _]
    exact hfails e hobject
  | ok w m₁ =>
    rw [hconverted] at hobject
    have hobject : m₁.objects[id]? = some (some o) := hobject
    rw [show (Convert.define env id lengthKey (.ofProperty (.plain h.value))) m₀ =
      (Access.define env id lengthKey (.ofProperty (.plain w))) m₁ from Evolution.run_bind_ok hconverted _]
    obtain ⟨message, hdefine⟩ | ⟨e, m', hdefine, hsame⟩ := defineLength_spec env hobject hp w
    · rw [hdefine]
      exact hobject
    · rw [hdefine]
      exact hfails e (hsame.trans hobject)

/-! ### Setting members -/

/-- A value is made for the program, or there is none. -/
theorem intoValue_run (context : ContextId) (g : Given) (env : Env (World κ τ)) (m : Engine κ τ) :
    (∃ h m', (intoValue context g) env m = .ok h m' ∧ m'.objects = m.objects ∧ m'.host.own = m.host.own) ∨
    ∃ f, (intoValue context g) env m = .error f m := by
  cases g with
  | moved h | lent h => exact .inl ⟨_, _, rfl, rfl, rfl⟩
  | primitive p =>
    unfold intoValue ofPrimitive
    dsimp only
    split
    case h_8 => exact .inr ⟨_, rfl⟩
    all_goals
      obtain ⟨h, m', hrun, -, hobjects, hown⟩ := receive_spec (ε := Failure) context _ env m
      exact .inl ⟨h, m', hrun, hobjects, hown⟩

theorem intoValue_spec {context : ContextId} {g : Given} (hinto : (intoValue context g) env m = .ok h m₁) :
    m₁.objects = m.objects ∧ m₁.host.own = m.host.own := by
  obtain ⟨h', m', hrun, hkept⟩ | ⟨f, hrun⟩ := intoValue_run context g env m
  · obtain ⟨rfl, rfl⟩ := EStateM.Result.ok.inj (hinto.symm.trans hrun)
    exact hkept
  · nomatch hinto.symm.trans hrun

theorem intoValue_fails {context : ContextId} {g : Given} {f : Failure}
    (hinto : (intoValue context g) env m = .error f m₁) : m₁ = m := by
  obtain ⟨h', m', hrun, -⟩ | ⟨f', hrun⟩ := intoValue_run context g env m
  · nomatch hinto.symm.trans hrun
  · exact (EStateM.Result.error.inj (hinto.symm.trans hrun)).2

theorem setProperty_run {name : String} {g : Given} (hname : nulPosition? name = none)
    (hinto : (intoValue target.context g) env m = .ok h m₁) :
    (setProperty target name g) env m = (define target (.ofString name) h) env m₁ := by
  unfold setProperty
  rw [hname]
  exact Task.run_bind_ok hinto _

/-- A member of a plain object, where no methods are called. -/
theorem setProperty_spec {o : Object} {name : String} {g : Given} (hrun : Run m (g.handles ++ hands))
    (htarget : target ∈ Holding.values m.host.own ++ hands) (hvalue : target.value = .object id)
    (hobject : m.objects[id]? = some (some o)) (ho : o.IsPlain) (hname : nulPosition? name = none)
    (env : Env (World κ τ)) (hinto : (intoValue target.context g) env m = .ok h m₁)
    (hasks : ¬o.Asks (.ofString name) h.value) :
    match (setProperty target name g) env m with
    | .ok _ m' => m'.host.Holds hands target ∧ ∃ o', m'.objects[id]? = some (some o') ∧
        o.Defined o' m.objects.size m'.objects.size (.ofString name) (.plain h.value)
    | .error f m' => ∃ length isFixed, o.payload = .array length isFixed ∧ .ofString name = lengthKey ∧
        ∃ e m₂, m₂.objects[id]? = some (some o) ∧ (raise target.context e) env m₂ = .error f m' := by
  obtain ⟨hobjects, hown⟩ := intoValue_spec hinto
  have hmem : target ∈ Holding.values m₁.host.own ++ hands := hown ▸ htarget
  have hplain := define_plain ((hrun.made hinto).holds (Handle.mem_behind h hmem)) hmem hvalue
    (hobjects ▸ hobject) ho hasks env
  rw [hobjects, hobject] at hplain
  cases hset : (setProperty target name g) env m with
  | ok _ m' =>
    rw [← setProperty_run hname hinto, hset] at hplain
    obtain ⟨hown', hdefined⟩ := hplain
    have hrun' : Run m' ([] ++ hands) := .done (.setProperty target name g) env hrun (Task.run_bind_ok hset _)
    exact ⟨hrun'.holds (hown' ▸ hmem), hdefined⟩
  | error f m' =>
    rw [← setProperty_run hname hinto, hset] at hplain
    exact hplain

end Operation

/-- To set a member of a plain object fails if there is no value to set it to, and then nothing changes. Otherwise the
own properties of the object under other keys stay as they are, except that an array gets longer where the key is
an index behind it. If the object takes the property, the program finds the value under the key right afterwards. If it
does not, the property there stays what it was, and the program is told nothing: the operation succeeds. It fails
only for a value that is no length of an array, and again nothing changes until the exception is described. Where
methods of the value are called for the length of an array, this holds from where they are done. -/
theorem members_that_are_set {m : Engine κ τ} {hands : List Handle} {g : Given} {target : Handle} {id : ObjectId}
    {o : Object} (hrun : Run m (g.handles ++ hands)) (htarget : target ∈ Holding.values m.host.own ++ hands)
    (hvalue : target.value = .object id) (hobject : m.objects[id]? = some (some o)) (ho : o.IsPlain) {key : String}
    (hkey : Operation.nulPosition? key = none) (env : Env (World κ τ)) :
    match (Operation.intoValue target.context g) env m with
    | .error f m' => (Operation.setProperty target key g) env m = .error f m' ∧ ∀ k, m'.own? id k = m.own? id k
    | .ok h m₁ =>
      (¬o.Asks (.ofString key) h.value →
        match (Operation.setProperty target key g) env m with
        | .ok _ m' =>
          (∀ k, k ≠ .ofString key → k ≠ lengthKey → m'.own? id k = m.own? id k) ∧
          (.ofString key ≠ lengthKey → m'.own? id lengthKey = m.own? id lengthKey ∨
            ∃ length i, o.payload = .array length false ∧ .ofString key = PropertyKey.index i ∧ length ≤ i ∧
              m'.own? id lengthKey = some ⟨.data (.ofNat (i + 1)), true, false, false⟩) ∧
          if o.takes m.objects.size (.ofString key) then
            ∃ found m'', (Operation.getProperty target key) env m' = .ok found m'' ∧
              found.value.unnumbered = h.value.unnumbered
          else m'.own? id (.ofString key) = m.own? id (.ofString key)
        | .error f m' =>
          (∃ length isFixed, o.payload = .array length isFixed) ∧ .ofString key = lengthKey ∧
          ∃ e m₂, (∀ k, m₂.own? id k = m.own? id k) ∧ (Operation.raise target.context e) env m₂ = .error f m') ∧
      (o.Asks (.ofString key) h.value →
        let m₀ := ((Operation.convert target id lengthKey h) env m₁).machine
        ∀ o₀ length isFixed, m₀.objects[id]? = some (some o₀) → o₀.payload = .array length isFixed →
        match (Operation.setProperty target key g) env m with
        | .ok _ m' => ∀ k, m'.own? id k = m₀.own? id k
        | .error f m' => ∃ e m₂, (∀ k, m₂.own? id k = m₀.own? id k) ∧
            (Operation.raise target.context e) env m₂ = .error f m') := by
  cases hinto : (Operation.intoValue target.context g) env m with
  | error f m' =>
    obtain rfl := Operation.intoValue_fails hinto
    refine ⟨?_, fun _ => rfl⟩
    unfold Operation.setProperty
    rw [hkey]
    exact Task.run_bind_error hinto _
  | ok h m₁ =>
    refine ⟨fun hasks => ?_, fun hasks o₀ length isFixed hobject₀ hp => ?_⟩
    · have hspec := Operation.setProperty_spec hrun htarget hvalue hobject ho hkey env hinto hasks
      cases hset : (Operation.setProperty target key g) env m with
      | ok _ m' =>
        rw [hset] at hspec
        obtain ⟨hheld, o', hobject', hdefined⟩ := hspec
        simp only [Machine.own?_eq hobject ho, Machine.own?_eq hobject' hdefined.plain]
        refine ⟨hdefined.others, hdefined.length, ?_⟩
        have hfound := hdefined.found
        split
        · next htakes =>
          rw [if_pos htakes] at hfound
          obtain ⟨found, m'', hget, hsame, -⟩ := Operation.getProperty_holds hheld hvalue
            ⟨o', hobject', hdefined.plain, fun _ => rfl⟩ hkey hfound rfl env
          exact ⟨found, m'', hget, hsame⟩
        · next hrefuses => rwa [if_neg hrefuses] at hfound
      | error f m' =>
        rw [hset] at hspec
        obtain ⟨length, isFixed, hp, hlength, e, m₂, hobject₂, hraise⟩ := hspec
        refine ⟨⟨length, isFixed, hp⟩, hlength, e, m₂, fun k => ?_, hraise⟩
        rw [Machine.own?_of_array hobject₂ hp, Machine.own?_of_array hobject hp]
    · -- The methods may have changed anything, so the object is what it is after them: an array, as is assumed.
      obtain ⟨-, hown⟩ := Operation.intoValue_spec hinto
      have hmem : target ∈ Holding.values m₁.host.own ++ hands := hown ▸ htarget
      have hasked := Operation.define_asking ((hrun.made hinto).holds (Handle.mem_behind h hmem)) hmem hvalue
        hobject₀ hp
      rw [← hasks.2.1, ← Operation.setProperty_run hkey hinto] at hasked
      have hsame {m' : Engine κ τ} (hobject' : m'.objects[id]? = some (some o₀)) (k : PropertyKey) :
          m'.own? id k = ((Operation.convert target id lengthKey h) env m₁).machine.own? id k := by
        rw [Machine.own?_of_array hobject' hp, Machine.own?_of_array hobject₀ hp]
      cases hset : (Operation.setProperty target key g) env m with
      | ok _ m' =>
        rw [hset] at hasked
        exact hsame hasked
      | error f m' =>
        rw [hset] at hasked
        obtain ⟨e, m₂, hobject₂, hraise⟩ := hasked
        exact ⟨e, m₂, hsame hobject₂, hraise⟩

theorem not_asks_of_ordinary {o : Object} (hp : o.payload = .ordinary) (key : PropertyKey) (v : Value) :
    ¬o.Asks key v := by
  rintro ⟨⟨length, isFixed, harray⟩, -⟩
  rw [hp] at harray
  cases harray

/-- A member that may be replaced. -/
theorem member_is_replaced : ∃ (m m' m'' : Engine Empty Unit) (target found : Handle) (env : Env (World Empty Unit)),
    Run m [target] ∧ (Operation.setProperty target "a" (.primitive (.i32 2))) env m = .ok () m' ∧
    (Operation.getProperty target "a") env m' = .ok found m'' ∧ found.value.unnumbered = .int 2 := by
  let env := environment (⟨fun k _ => k.elim, fun k _ => k.elim⟩ : Respond Empty Unit) .default
  obtain ⟨m, target, hrun, hvalue, hobject⟩ := exists_object (Object.single (.ofString "a") (.plain (.int 1)))
  have hp := Object.payload_single (.ofString "a") (.plain (.int 1))
  have hset := (members_that_are_set (g := .primitive (.i32 2)) hrun List.mem_cons_self hvalue hobject
    (Object.isPlain_of_ordinary hp) (show Operation.nulPosition? "a" = none by decide) env).1 (not_asks_of_ordinary hp _ _)
  have htakes : (Object.single (.ofString "a") (.plain (.int 1))).takes m.objects.size (.ofString "a") = true := by
    simp only [Object.takes, Object.own?_single, hp]
    rfl
  cases hresult : (Operation.setProperty target "a" (.primitive (.i32 2))) env m with
  | ok _ m' =>
    rw [hresult] at hset
    obtain ⟨-, -, hset⟩ := hset
    rw [if_pos htakes] at hset
    obtain ⟨found, m'', hget, hsame⟩ := hset
    exact ⟨m, m', m'', target, found, env, hrun, hresult, hget, hsame⟩
  | error f m' =>
    rw [hresult] at hset
    obtain ⟨⟨length, isFixed, harray⟩, -⟩ := hset
    rw [hp] at harray
    cases harray

/-- A member that is fixed: to set it succeeds, and it is what it was. -/
theorem fixed_member_is_kept : ∃ (m m' m'' : Engine Empty Unit) (target found : Handle) (env : Env (World Empty Unit)),
    Run m [target] ∧ target.value = .object 0 ∧
    m.objects[0]? = some (some (Object.single (.ofString "a") (.fixed (.int 1)))) ∧
    (Object.single (.ofString "a") (.fixed (.int 1))).IsPlain ∧ Operation.nulPosition? "a" = none ∧
    (Operation.setProperty target "a" (.primitive (.i32 2))) env m = .ok () m' ∧
    (Operation.getProperty target "a") env m' = .ok found m'' ∧ found.value.unnumbered = .int 1 := by
  let env := environment (⟨fun k _ => k.elim, fun k _ => k.elim⟩ : Respond Empty Unit) .default
  obtain ⟨m, target, hrun, hvalue, hobject⟩ := exists_object (Object.single (.ofString "a") (.fixed (.int 1)))
  have hp := Object.payload_single (.ofString "a") (.fixed (.int 1))
  have ho := Object.isPlain_of_ordinary hp
  have hspec := Operation.setProperty_spec (g := .primitive (.i32 2)) hrun
    List.mem_cons_self hvalue hobject ho (show Operation.nulPosition? "a" = none by decide) env rfl
    (not_asks_of_ordinary hp _ _)
  have htakes : (Object.single (.ofString "a") (.fixed (.int 1))).takes m.objects.size (.ofString "a") = false := by
    simp only [Object.takes, Object.own?_single, hp]
    rfl
  cases hset : (Operation.setProperty target "a" (.primitive (.i32 2))) env m with
  | ok _ m' =>
    rw [hset] at hspec
    obtain ⟨hheld, o', hobject', hdefined⟩ := hspec
    have hfound := hdefined.found
    rw [if_neg (Bool.eq_false_iff.mp htakes), Object.own?_single] at hfound
    obtain ⟨found, m'', hget, hsame, -⟩ := Operation.getProperty_holds hheld hvalue
      ⟨o', hobject', hdefined.plain, fun _ => rfl⟩ (by decide) hfound rfl env
    exact ⟨m, m', m'', target, found, env, hrun, hvalue, hobject, ho, by decide, hset, hget, hsame⟩
  | error f m' =>
    rw [hset] at hspec
    obtain ⟨length, isFixed, harray, -⟩ := hspec
    rw [hp] at harray
    cases harray

end PluginRelay.Embedding
