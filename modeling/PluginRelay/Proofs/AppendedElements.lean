import PluginRelay.Proofs.DefinedMembers
import PluginRelay.Proofs.ExactNumbers
import PluginRelay.Proofs.ListedMembers

/-!
# Elements that a program appends

To append is to read the length and to define the element under it. The length of an array may be one more than its last
index, and that number is no index any more. A full array therefore gets a property with a number for its name, its
length stays, and the program is told that the element is there.
-/
namespace PluginRelay

open Script Access

/-! ### Lengths as values -/

theorem Embedding.asLength?_length {n : ℕ} (h : n < 2 ^ 53) : Embedding.asLength? (.ofNat n) = some n := by
  have hlow : Embedding.Exact.low ≤ (n : ℤ) := by
    unfold Embedding.Exact.low
    omega
  have hhigh : (n : ℤ) ≤ Embedding.Exact.high := by
    unfold Embedding.Exact.high
    omega
  have hexact : Binary64.nearestInt n = n := (Binary64.nearestInt_eq_self_iff n).mpr (Binary64.nearest_of_lt (by omega))
  have hlong : Embedding.asLong? (.ofNat n) = some (n : ℤ) :=
    (Embedding.asLong?_ofInt hlow hhigh).mpr ((Embedding.Exact.exists_represents_iff hlow hhigh).mpr hexact)
  rw [Embedding.asLength?, hlong, Option.filter_some, if_pos (by simp)]
  rfl

namespace Script

variable {σ : Type} [Evolving σ] {m : Machine σ} {id : ObjectId} {o : Object} {length : ℕ}

/-- The length of an array is read, and nothing else happens. -/
theorem getMember_length (env : Env σ) {isFixed : Bool} (h : m.objects[id]? = some (some o))
    (hp : o.payload = .array length isFixed) :
    (Convert.getMember env (.object id) lengthKey) m = .ok (.ofNat length) m := by
  have hown : (plainOwn id lengthKey : Action σ (Option Property)) m =
      .ok (some ⟨.data (.ofNat length), !isFixed, false, false⟩) m := by
    unfold plainOwn
    rw [Evolution.run_bind_ok (Action.object_run h), hp]
    rfl
  change (getFrom env lengthKey (.object id) (m.objects.size + 1) (some id)) m = _
  unfold getFrom
  rw [Evolution.run_bind_ok (Action.object_run h), hp]
  dsimp only
  rw [Evolution.run_bind_ok hown]
  rfl

/-- An array without elements, whatever its length. -/
def Object.holes (length : ℕ) : Object := Object.new none (.array length false)

theorem Object.isPlain_holes (length : ℕ) : (holes length).IsPlain :=
  ⟨trivial, fun _ _ _ i _ => by simp [holes, new, find?]⟩

/-! ### Elements behind an array -/

/-- The array with an element behind its last one. -/
def Object.appended (o : Object) (length : ℕ) (v : Value) : Object :=
  (o.ofLength (length + 1)).put (.index length) (.plain v)

theorem Object.own?_of_array {isFixed : Bool} (hp : o.payload = .array length isFixed) (fresh fresh' : ObjectId)
    (key : PropertyKey) : o.own? fresh key = o.own? fresh' key := by
  cases key <;> simp only [own?, hp]

/-- Behind an array there is nothing. -/
theorem Object.own?_next {isFixed : Bool} (ho : o.IsPlain) (hp : o.payload = .array length isFixed)
    (fresh : ObjectId) : o.own? fresh (.index length) = none := by
  simp only [own?, hp]
  exact ho.elements length isFixed hp length (Nat.le_refl length)

/-- An array that can grow takes the element behind its last one. -/
theorem defineElement_next (h : m.objects[id]? = some (some o)) (ho : o.IsPlain)
    (hp : o.payload = .array length false) (hextensible : o.isExtensible = true) (v : Value) :
    ∃ m', (defineElement id length false length (.ofProperty (.plain v)) : Action σ (Option String)) m = .ok none m' ∧
      m'.host = m.host ∧ m'.objects[id]? = some (some (o.appended length v)) := by
  let longer : Machine σ := { m with objects := m.objects.modify id fun o => o.map (·.ofLength (length + 1)) }
  have hget : longer.objects[id]? = some (some (o.ofLength (length + 1))) := by
    change (m.objects.modify id _)[id]? = _
    rw [Array.getElem?_modify, if_pos rfl, h]
    rfl
  have hfree : (o.ofLength (length + 1)).own? longer.objects.size (.index length) = none := by
    rw [Object.own?_ofLength hp _ (index_ne_lengthKey length), Object.own?_next ho hp]
  have hroom : hasRoom (o.ofLength (length + 1)).isExtensible
      ((o.ofLength (length + 1)).own? longer.objects.size (.index length)) = true := by
    rw [hfree]
    exact hextensible
  obtain ⟨m', hrun, hhost, -, hget'⟩ := plainDefine_of_room hget (ho.ofLength hp (Nat.le_succ length)) hroom v
  refine ⟨m', ?_, hhost, hget'⟩
  unfold defineElement
  rw [Evolution.run_bind_ok (Action.object_run h), hextensible]
  exact hrun

/-- Only the length of an array is not stored as it is. -/
theorem define_run_of_array (env : Env σ) {isFixed : Bool} {key : PropertyKey} (h : m.objects[id]? = some (some o))
    (ho : o.IsPlain) (hp : o.payload = .array length isFixed) (hkey : key ≠ lengthKey) (v : Value) :
    (Convert.define env id key (.ofProperty (.plain v))) m =
      (ownDefine id key (.ofProperty (.plain v)) : Action σ (Option String)) m := by
  obtain hsame | ⟨-, hlength, -⟩ := toDefined_run env h ho key v
  · rw [show (Convert.define env id key (.ofProperty (.plain v))) m =
      (Access.define env id key (.ofProperty (.plain v))) m from Evolution.run_bind_ok hsame _]
    unfold Access.define
    rw [Evolution.run_bind_ok (Action.payload_run h), hp]
  · exact absurd hlength hkey

theorem define_next (env : Env σ) (h : m.objects[id]? = some (some o)) (ho : o.IsPlain)
    (hp : o.payload = .array length false) (hextensible : o.isExtensible = true) (v : Value) :
    ∃ m', (Convert.define env id (.index length) (.ofProperty (.plain v))) m = .ok none m' ∧ m'.host = m.host ∧
      m'.objects[id]? = some (some (o.appended length v)) := by
  obtain ⟨m', hrun, hrest⟩ := defineElement_next h ho hp hextensible v
  refine ⟨m', ?_, hrest⟩
  rw [define_run_of_array env h ho hp (index_ne_lengthKey length)]
  unfold ownDefine
  rw [Evolution.run_bind_ok (Action.object_run h), hp]
  dsimp only
  rw [if_neg (Nat.lt_irrefl length)]
  exact hrun

end Script

namespace Embedding

variable {κ τ : Type} [Holding τ] {m m₁ : Engine κ τ} {hands : List Handle} {target h : Handle} {id : ObjectId}
  {o : Object} {length : ℕ} {g : Given} {env : Env (World κ τ)}

namespace Operation

/-! ### Runs -/

theorem intoValue_holds {context : ContextId} (hheld : m.host.Holds (g.handles ++ hands) target)
    (hmem : target ∈ Holding.values m.host.own ++ hands) (hinto : (intoValue context g) env m = .ok h m₁) :
    m₁.host.Holds (h :: hands) target := by
  obtain ⟨-, hown⟩ := intoValue_spec hinto
  have htidy := (intoValue_keeps context g).run env m hands hheld.tidy
  rw [hinto] at htidy
  exact ⟨Run.balanced_of_run hheld.balanced hinto, htidy, Handle.mem_behind h (hown ▸ hmem)⟩

/-- In all states the same value is made, or none. -/
theorem intoValue_same (context : ContextId) (g : Given) (env : Env (World κ τ)) (m m' : Engine κ τ) :
    (∃ h m₁ h' m₂, (intoValue context g) env m = .ok h m₁ ∧ (intoValue context g) env m' = .ok h' m₂ ∧
      h'.value.unnumbered = h.value.unnumbered) ∨
    ∃ f, (intoValue context g) env m = .error f m ∧ (intoValue context g) env m' = .error f m' := by
  cases g with
  | moved h | lent h => exact .inl ⟨_, _, _, _, rfl, rfl, rfl⟩
  | primitive p =>
    unfold intoValue ofPrimitive
    dsimp only
    split
    case h_8 => exact .inr ⟨_, rfl, rfl⟩
    all_goals
      obtain ⟨h, m₁, hrun, hvalue, -⟩ := receive_spec (ε := Failure) context _ env m
      obtain ⟨h', m₂, hrun', hvalue', -⟩ := receive_spec (ε := Failure) context _ env m'
      exact .inl ⟨h, m₁, h', m₂, hrun, hrun', hvalue'.trans hvalue.symm⟩

/-- To append is to define an element under the length. What is done before leaves the array alone. -/
theorem append_run (hheld : m.host.Holds (g.handles ++ hands) target)
    (hvalue : target.value = .object id) (hobject : m.objects[id]? = some (some o))
    (hp : o.payload = .array length false) (hlength : length ≤ PropertyKey.indexLimit) (env : Env (World κ τ)) :
    ∃ m₀ : Engine κ τ, m₀.objects[id]? = m.objects[id]? ∧ m₀.host.own = m.host.own ∧
      m₀.host.Holds (g.handles ++ hands) target ∧
      (append target g) env m = (do define target (.ofNat length) (← intoValue target.context g)) env m₀ := by
  have hkey : PropertyKey.ofString "length" = lengthKey := by decide
  obtain ⟨m₁, hget, -, hrun⟩ := getProperty_run hheld hvalue
    (show nulPosition? "length" = none by decide) env
  obtain ⟨h, m₂, hgot, hsame, hobjects, hown, hheld'⟩ := hrun (.ofNat length) m₁ (by
    rw [hvalue, hkey]
    exact getMember_length env (hget.trans hobject) hp) rfl
  have hread : asLength? h.value = some length := by
    rw [Embedding.eq_ofInt hsame]
    unfold PropertyKey.indexLimit at hlength
    exact asLength?_length (by omega)
  have hdropped : (thenDrop h (return asLength? h.value) : Operation κ τ (Option ℕ)) env m₂ =
      .ok (some length) { m₂ with host := m₂.host.drop h } := by
    rw [hread]
    exact thenDrop_ok rfl
  refine ⟨{ m₂ with host := m₂.host.drop h }, ?_, (World.own_drop _ _).trans hown, hheld'.drop ?_, ?_⟩
  · exact (congrArg (·[id]?) hobjects).trans hget
  · rw [hown]
    exact hheld.mem
  · unfold append
    rw [Task.run_bind_ok (attempt_ok hgot)]
    dsimp only
    rw [Task.run_bind_ok hdropped]
    dsimp only
    unfold setIndex
    rw [if_neg]
    unfold PropertyKey.indexLimit at hlength
    unfold indexLimit
    exact Nat.not_le.mpr (lt_of_le_of_lt hlength (by decide))

/-- What has become of an array to which a value was appended, among `fresh` objects. -/
structure Appended (o o' : Object) (length fresh : ℕ) (v : Value) : Prop where
  plain : o'.IsPlain
  others : ∀ k, k ≠ lengthKey → k ≠ .ofNat length → o'.own? fresh k = o.own? 0 k
  grown : length < PropertyKey.indexLimit →
    o'.own? fresh lengthKey = some ⟨.data (.ofNat (length + 1)), true, false, false⟩ ∧
    o'.own? fresh (.index length) = some (.plain v)
  full : length = PropertyKey.indexLimit → o'.own? fresh lengthKey = o.own? 0 lengthKey ∧
    o'.own? fresh (.ofNat length) =
      if hasRoom true (o.own? 0 (.ofNat length)) then some (.plain v) else o.own? 0 (.ofNat length)

theorem appended_of_room (ho : o.IsPlain) (hp : o.payload = .array length false)
    (hroom : length < PropertyKey.indexLimit) (fresh : ℕ) (v : Value) :
    Appended o (o.appended length v) length fresh v := by
  have hkey : PropertyKey.ofNat length = .index length := if_pos hroom
  have hother {k : PropertyKey} (hk : k ≠ .index length) :
      (o.appended length v).own? fresh k = (o.ofLength (length + 1)).own? fresh k :=
    Object.own?_put_other (Ne.symm hk) _ _ _
  refine ⟨?_, fun k hlength hk => ?_, fun _ => ⟨?_, ?_⟩, fun hfull => absurd hfull hroom.ne⟩
  · refine (ho.ofLength hp (Nat.le_succ length)).put (fun n isFixed i harray hindex => ?_) _
    obtain ⟨rfl, -⟩ := Payload.array.inj harray
    obtain rfl := PropertyKey.index.inj hindex
    exact Nat.lt_succ_self _
  · rw [hother (hkey ▸ hk), Object.own?_ofLength hp _ hlength, Object.own?_of_array hp fresh 0]
  · rw [hother (Ne.symm (index_ne_lengthKey length))]
    rfl
  · refine Object.own?_put_self ?_ _
    rw [Object.own?_ofLength hp _ (index_ne_lengthKey length), Object.own?_next ho hp]
    rfl

/-- The number behind the last index is a name like any other. -/
theorem ofNat_indexLimit_ne_lengthKey : PropertyKey.ofNat PropertyKey.indexLimit ≠ lengthKey := by decide

/-- A full array gets a property, as any object does. -/
theorem appended_of_full {o' : Object} {fresh fresh' : ℕ} {v : Value} (hp : o.payload = .array length false)
    (hextensible : o.isExtensible = true) (hfull : length = PropertyKey.indexLimit)
    (hdefined : o.Defined o' fresh fresh' (.ofNat length) (.plain v)) : Appended o o' length fresh' v := by
  have hname : PropertyKey.ofNat length = .name (PropertyKey.natUnits length) := if_neg (by omega)
  have hkey : PropertyKey.ofNat length ≠ lengthKey := hfull ▸ ofNat_indexLimit_ne_lengthKey
  refine ⟨hdefined.plain, fun k hlength hk => ?_, fun hroom => by omega, fun _ => ⟨?_, ?_⟩⟩
  · rw [hdefined.others k hk hlength, Object.own?_of_array hp fresh 0]
  · obtain hsame | ⟨-, i, -, hindex, -⟩ := hdefined.length hkey
    · rw [hsame, Object.own?_of_array hp fresh 0]
    · rw [hname] at hindex
      nomatch hindex
  · have htakes : o.takes fresh (.ofNat length) = hasRoom true (o.own? 0 (.ofNat length)) := by
      rw [Object.takes, Object.own?_of_array hp fresh 0, hextensible, Bool.and_true]
      intro _ i _ hindex
      rw [hname] at hindex
      nomatch hindex
    rw [hdefined.found, htakes, Object.own?_of_array hp fresh 0]

theorem append_spec (hrun : Run m (g.handles ++ hands)) (htarget : target ∈ Holding.values m.host.own ++ hands)
    (hvalue : target.value = .object id) (hobject : m.objects[id]? = some (some o)) (ho : o.IsPlain)
    (hp : o.payload = .array length false) (hextensible : o.isExtensible = true)
    (hlength : length ≤ PropertyKey.indexLimit) (env : Env (World κ τ)) :
    match (intoValue target.context g) env m with
    | .error f _ => ∃ m', (append target g) env m = .error f m' ∧ m'.objects[id]? = m.objects[id]?
    | .ok h _ => ∃ m' v o', (append target g) env m = .ok () m' ∧ v.unnumbered = h.value.unnumbered ∧
        m'.objects[id]? = some (some o') ∧ Appended o o' length m'.objects.size v := by
  have hheld : m.host.Holds (g.handles ++ hands) target := hrun.holds (by
    simp only [List.mem_append] at htarget ⊢
    tauto)
  obtain ⟨m₀, hget₀, hown₀, hheld₀, happend⟩ := append_run hheld hvalue hobject hp hlength env
  have hmem₀ : target ∈ Holding.values m₀.host.own ++ hands := hown₀ ▸ htarget
  obtain ⟨h, m₁, h', m₂, hinto, hinto₀, hsame⟩ | ⟨f, hinto, hinto₀⟩ := intoValue_same target.context g env m m₀
  · rw [hinto, happend, Task.run_bind_ok hinto₀]
    obtain ⟨hobjects, hown⟩ := intoValue_spec hinto₀
    have hobject₂ : m₂.objects[id]? = some (some o) := (congrArg (·[id]?) hobjects).trans (hget₀.trans hobject)
    have hheld₂ := intoValue_holds hheld₀ hmem₀ hinto₀
    have hmem₂ : target ∈ Holding.values m₂.host.own ++ hands := hown ▸ hmem₀
    obtain hroom | hfull := hlength.lt_or_eq
    · obtain ⟨m₃, hget₃, -, -, -, realm, hdefine⟩ := define_spec hheld₂ hmem₂ hvalue (.ofNat length) env
      obtain ⟨m', hrun', -, hobject'⟩ := define_next env (hget₃.trans hobject₂) ho hp hextensible h'.value
      rw [PropertyKey.ofNat, if_pos hroom] at hdefine ⊢
      rw [hrun'] at hdefine
      exact ⟨_, h'.value, _, hdefine, hsame, hobject', appended_of_room ho hp hroom _ _⟩
    · have hkey : PropertyKey.ofNat length ≠ lengthKey := hfull ▸ ofNat_indexLimit_ne_lengthKey
      have hdefine := define_plain hheld₂ hmem₂ hvalue hobject₂ ho
        (show ¬o.Asks (.ofNat length) h'.value from fun hasks => hkey hasks.2.1) env
      cases hset : (define target (.ofNat length) h') env m₂ with
      | ok _ m' =>
        rw [hset] at hdefine
        obtain ⟨-, o', hobject', hdefined⟩ := hdefine
        exact ⟨m', h'.value, o', rfl, hsame, hobject', appended_of_full hp hextensible hfull hdefined⟩
      | error f m' =>
        rw [hset] at hdefine
        obtain ⟨-, -, -, hlength, -⟩ := hdefine
        exact absurd hlength hkey
  · rw [hinto, happend, Task.run_bind_error hinto₀]
    exact ⟨m₀, rfl, hget₀⟩

end Operation

/-- To append to an array that can grow fails if there is no value to append, and then nothing changes. Otherwise the
program is told that the element is there. It is if the array is not full: the length has grown by one, the value stands
behind the elements there were, and all others are as before. A full array keeps its length and its elements. The value
goes under a name that is the number behind the last index, unless a property there is not configurable. -/
theorem appended_elements {m : Engine κ τ} {hands : List Handle} {g : Given} {target : Handle} {id : ObjectId}
    {o : Object} {length : ℕ} (hrun : Run m (g.handles ++ hands))
    (htarget : target ∈ Holding.values m.host.own ++ hands) (hvalue : target.value = .object id)
    (hobject : m.objects[id]? = some (some o)) (ho : o.IsPlain) (hp : o.payload = .array length false)
    (hextensible : o.isExtensible = true) (hlength : length ≤ PropertyKey.indexLimit) (env : Env (World κ τ)) :
    match (Operation.intoValue target.context g) env m with
    | .error f _ => ∃ m', (Operation.append target g) env m = .error f m' ∧ ∀ k, m'.own? id k = m.own? id k
    | .ok h _ => ∃ m' v, (Operation.append target g) env m = .ok () m' ∧ v.unnumbered = h.value.unnumbered ∧
        (∀ k, k ≠ lengthKey → k ≠ .ofNat length → m'.own? id k = m.own? id k) ∧
        if length < PropertyKey.indexLimit then
          m'.own? id lengthKey = some ⟨.data (.ofNat (length + 1)), true, false, false⟩ ∧
          m'.own? id (.index length) = some (.plain v)
        else
          m'.own? id lengthKey = m.own? id lengthKey ∧
          m'.own? id (.ofNat length) =
            if hasRoom true (m.own? id (.ofNat length)) then some (.plain v) else m.own? id (.ofNat length) := by
  have hspec := Operation.append_spec hrun htarget hvalue hobject ho hp hextensible hlength env
  have hown := Machine.own?_of_array hobject hp
  cases hinto : (Operation.intoValue target.context g) env m with
  | error f _ =>
    rw [hinto] at hspec
    obtain ⟨m', happend, hsame⟩ := hspec
    refine ⟨m', happend, fun k => ?_⟩
    rw [hown, Machine.own?_of_array (hsame.trans hobject) hp]
  | ok h _ =>
    rw [hinto] at hspec
    obtain ⟨m', v, o', happend, hsame, hobject', happended⟩ := hspec
    refine ⟨m', v, happend, hsame, ?_⟩
    simp only [Machine.own?_eq hobject' happended.plain, hown]
    refine ⟨happended.others, ?_⟩
    split
    · next hroom => exact happended.grown hroom
    · next hfull => exact happended.full (by omega)

/-- An array of length 3 whose middle element is missing. -/
def withHole : Object := .ofEntries (.array 3 false) [(.index 0, .plain (.int 5)), (.index 2, .plain (.int 6))]

theorem find?_withHole (key : PropertyKey) : withHole.find? key =
    [(PropertyKey.index 2, Property.plain (.int 6)), (.index 0, .plain (.int 5))].lookup key :=
  Object.find?_ofEntries _ _ _

theorem own?_withHole (i : ℕ) : withHole.own? 0 (.index i) = withHole.find? (.index i) := by
  simp only [Object.own?, withHole, Object.payload_ofEntries]

theorem isPlain_withHole : withHole.IsPlain := by
  have hp : withHole.payload = .array 3 false := Object.payload_ofEntries _ _
  refine ⟨by rw [hp]; trivial, fun length isFixed harray i hi => ?_⟩
  rw [hp] at harray
  obtain ⟨rfl, -⟩ := Payload.array.inj harray
  refine Option.eq_none_iff_forall_ne_some.mpr fun p hfound => ?_
  have hmem := Object.mem_of_find?_ofEntries hfound
  simp only [List.mem_pair, Prod.mk.injEq, PropertyKey.index.injEq] at hmem
  omega

/-- Behind two elements and a hole: the length grows, and the elements and the hole are what they were. -/
theorem element_is_appended : ∃ (m m' : Engine Empty Unit) (target : Handle) (env : Env (World Empty Unit)),
    Run m [target] ∧ target.value = .object 0 ∧ m.objects[0]? = some (some withHole) ∧
    (Operation.append target (.primitive (.i32 7))) env m = .ok () m' ∧
    m'.own? 0 lengthKey = some ⟨.data (.ofNat 4), true, false, false⟩ ∧
    m'.own? 0 (.index 0) = some (.plain (.int 5)) ∧ m'.own? 0 (.index 1) = none ∧
    m'.own? 0 (.index 2) = some (.plain (.int 6)) ∧ m'.own? 0 (.index 3) = some (.plain (.int 7)) := by
  let env := environment (⟨fun k _ => k.elim, fun k _ => k.elim⟩ : Respond Empty Unit) .default
  obtain ⟨m, target, hrun, hvalue, hobject⟩ := exists_object withHole
  have hp : withHole.payload = .array 3 false := Object.payload_ofEntries _ _
  obtain ⟨m', v, happend, hsame, hothers, hgrown⟩ := appended_elements (g := .primitive (.i32 7)) hrun
    List.mem_cons_self hvalue hobject isPlain_withHole hp (Object.isExtensible_ofEntries _ _) (by decide) env
  rw [if_pos (by decide)] at hgrown
  obtain rfl : v = .ofNat 7 := Embedding.eq_ofInt hsame
  have hkept (i : ℕ) (hi : i < 3) : m'.own? 0 (.index i) = withHole.find? (.index i) := by
    have hindex : PropertyKey.ofNat 3 = .index 3 := rfl
    rw [hothers _ (index_ne_lengthKey i) (by simp [hindex]; omega), Machine.own?_of_array hobject hp, own?_withHole]
  refine ⟨m, m', target, env, hrun, hvalue, hobject, happend, hgrown.1, ?_, ?_, ?_, hgrown.2⟩
  · rw [hkept 0 (by decide), find?_withHole]
    rfl
  · rw [hkept 1 (by decide), find?_withHole]
    rfl
  · rw [hkept 2 (by decide), find?_withHole]
    rfl

/-- A full array: the program is told that the element is there, and the length is what it was. -/
theorem full_array_is_kept : ∃ (m m' : Engine Empty Unit) (target : Handle) (env : Env (World Empty Unit)),
    Run m [target] ∧ target.value = .object 0 ∧ m.objects[0]? = some (some (.holes PropertyKey.indexLimit)) ∧
    (Object.holes PropertyKey.indexLimit).isExtensible = true ∧
    (Operation.append target (.primitive (.i32 7))) env m = .ok () m' ∧
    m.own? 0 lengthKey = some ⟨.data (.ofNat 4294967295), true, false, false⟩ ∧
    m'.own? 0 lengthKey = some ⟨.data (.ofNat 4294967295), true, false, false⟩ := by
  let env := environment (⟨fun k _ => k.elim, fun k _ => k.elim⟩ : Respond Empty Unit) .default
  obtain ⟨m, target, hrun, hvalue, hobject⟩ := exists_object (.holes PropertyKey.indexLimit)
  obtain ⟨m', v, o', happend, -, hobject', happended⟩ := Operation.append_spec (g := .primitive (.i32 7)) hrun
    List.mem_cons_self hvalue hobject (Object.isPlain_holes _) rfl rfl (Nat.le_refl _) env
  have hlength : (Object.holes PropertyKey.indexLimit).own? 0 lengthKey =
      some ⟨.data (.ofNat 4294967295), true, false, false⟩ := rfl
  refine ⟨m, m', target, env, hrun, hvalue, hobject, rfl, happend, ?_, ?_⟩
  · rw [Machine.own?_of_array hobject rfl, hlength]
  · rw [Machine.own?_eq hobject' happended.plain, (happended.full rfl).1, hlength]

end Embedding

end PluginRelay
