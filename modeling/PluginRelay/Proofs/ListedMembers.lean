import Mathlib.Data.List.Forall2
import PluginRelay.Proofs.HeldObjects
import PluginRelay.Proofs.ListedKeys
import PluginRelay.Proofs.UnitsRoundTrip

/-!
# Members that a program lists

The names of the members are taken first, and then each member is looked up by its name. A name is a text, and not all
keys are: what is a surrogate that stands alone in the key, is something else in the name, and so the member is not
found. Nor is one whose name has a NUL in it. All others are found with the values that they have.
-/
namespace PluginRelay.Embedding

open Script

variable {κ τ ε : Type} [Holding τ]

/-! ### Names -/

namespace Operation

variable {m : Engine κ τ} {hands : List Handle} {target : Handle} {id : ObjectId} {o : Object}
  {own : PropertyKey → Option Property}

/-- The name under which the program looks for a member. -/
def memberName (key : PropertyKey) : String := (key.units?.getD #[]).toStringLossy

theorem memberName_eq {key : PropertyKey} {units : Units} (h : key.units? = some units) :
    memberName key = units.toStringLossy := by
  rw [memberName, h, Option.getD_some]

theorem names_of_members (own : PropertyKey → Option Property) (keys : List PropertyKey) :
    (keys.filterMap (memberText? own)).map Units.toStringLossy = (keys.filter (isMember own)).map memberName := by
  induction keys with
  | nil => rfl
  | cons key keys ih =>
    rw [List.filterMap_cons, List.filter_cons, memberText?]
    cases hmember : isMember own key with
    | false => exact ih
    | true =>
      cases key with
      | symbol s => cases hmember
      | index i | name t => exact congrArg _ ih

/-- The loop over the keys, by its step. -/
theorem ownKeys_eq (env : Env (World κ τ)) (id : ObjectId) : ownKeys env (.object id) = do
    let keys ← Access.ownKeys env id
    let texts ← forIn keys #[] (listKey env id)
    return texts.toList := by
  unfold listKey
  rfl

/-- The program gets the names of all members, and the object stays as it is. -/
theorem propertyNames_run (hheld : m.host.Holds hands target) (hvalue : target.value = .object id)
    (hobject : m.objects[id]? = some (some o)) (ho : o.IsPlain) (env : Env (World κ τ)) :
    ∃ m', (propertyNames target) env m = .ok ((o.memberKeys m.objects.size).map memberName) m' ∧
      m'.Shows id (o.own? m.objects.size) ∧ m'.host.Holds hands target := by
  obtain ⟨m₁, hsettle, hget, hsize, -, hheld₁⟩ := settle_holds (ε := Failure) hheld hvalue env
  let inside : Engine κ τ := { m₁ with realm := target.context }
  have hobject₁ : inside.objects[id]? = some (some o) := hget.trans hobject
  obtain ⟨listed, hlisted, hmembers⟩ := ownKeys_run env hobject₁ ho
  obtain ⟨m₂, hloop, hhost, hshows⟩ := listKeys_run env (m := inside) (show inside.Shows id (o.own? m.objects.size)
    from ⟨o, hobject₁, ho, fun _ => by rw [show inside.objects.size = m.objects.size from hsize]⟩) listed #[]
  rw [hsize] at hmembers
  have hkeys : (ownKeys env target.value) inside =
      .ok (listed.filterMap (memberText? (o.own? m.objects.size))) m₂ := by
    rw [hvalue, ownKeys_eq, Evolution.run_bind_ok hlisted, Evolution.run_bind_ok hloop, Array.empty_append]
    rfl
  refine ⟨{ m₂ with realm := m₁.realm }, ?_, hshows.congr rfl rfl, ?_⟩
  · have hperform : (perform target.context fun env => ownKeys env target.value) env m =
        .ok (listed.filterMap (memberText? (o.own? m.objects.size))) { m₂ with realm := m₁.realm } := by
      unfold perform
      rw [Task.run_bind_ok hsettle, Task.run_bind_ok (within_ok hkeys)]
      rfl
    unfold propertyNames
    rw [Task.run_bind_ok hperform, names_of_members, hmembers]
    rfl
  · change m₂.host.Holds hands target
    rw [hhost]
    exact hheld₁

/-! ### Looking up -/

theorem attempt_ok {δ α : Type} {t : Task ε κ τ α} {env : Env (World κ τ)} {m m' : Engine κ τ} {x : α}
    (h : t env m = .ok x m') : (attempt t : Task δ κ τ (Except ε α)) env m = .ok (.ok x) m' := by
  unfold attempt Evolution.attempt
  dsimp only
  rw [h]

theorem attempt_error {δ α : Type} {t : Task ε κ τ α} {env : Env (World κ τ)} {m m' : Engine κ τ} {e : ε}
    (h : t env m = .error e m') : (attempt t : Task δ κ τ (Except ε α)) env m = .ok (.error e) m' := by
  unfold attempt Evolution.attempt
  dsimp only
  rw [h]

theorem getProperty_of_nul {name : String} {position : Nat} (h : nulPosition? name = some position)
    (target : Handle) (env : Env (World κ τ)) (m : Engine κ τ) :
    (getProperty target name) env m = .error (.nul position) m := by
  unfold getProperty checkNul
  rw [h]
  rfl

/-- A text has a NUL where its units have one. -/
theorem nulPosition?_eq_none_iff (text : String) : nulPosition? text = none ↔ 0 ∉ Units.ofString text := by
  rw [nulPosition?, List.findIdx?_eq_none_iff, ← Units.zero_mem_toBytes, Units.toBytes_ofString]
  simp only [decide_eq_false_iff_not]
  exact ⟨fun hall hmem => hall 0 hmem rfl, fun hnot b hb hzero => hnot (hzero ▸ hb)⟩

/-- What the program gets for a name in any case: the name comes back with what was found, and a name with a NUL is not
looked up. -/
def Named (name : String) (item : Except Failure (String × Handle)) : Prop :=
  match nulPosition? name with
  | some position => item = .error (.nul position)
  | none => ∀ found h, item = .ok (found, h) → found = name

/-- Every name is looked up, and none of them can stop the others. -/
theorem lookUp_names (target : Handle) (names : List String) (env : Env (World κ τ)) (m : Engine κ τ) :
    ∃ members m', (lookUp target names : Task ε κ τ (List (Except Failure (String × Handle)))) env m =
      .ok members m' ∧ List.Forall₂ Named names members := by
  induction names generalizing m with
  | nil => exact ⟨[], m, rfl, .nil⟩
  | cons name names ih =>
    obtain ⟨found, m₁, hfound, hnamed⟩ : ∃ found m₁,
        (attempt (getProperty target name) : Task ε κ τ (Except Failure Handle)) env m = .ok found m₁ ∧
        Named name (found.map (name, ·)) := by
      unfold Named
      cases hnul : nulPosition? name with
      | some position => exact ⟨_, m, attempt_error (getProperty_of_nul hnul target env m), rfl⟩
      | none =>
        cases hget : (getProperty target name) env m with
        | ok h m₁ => exact ⟨_, m₁, attempt_ok hget, by rintro _ _ ⟨⟩; rfl⟩
        | error f m₁ => exact ⟨_, m₁, attempt_error hget, nofun⟩
    obtain ⟨members, m', hrest, hothers⟩ := ih m₁
    refine ⟨found.map (name, ·) :: members, m', ?_, .cons hnamed hothers⟩
    unfold lookUp
    rw [Task.run_bind_ok hfound, Task.run_bind_ok hrest]
    rfl

/-- What the program gets for a name under which the object has a value, unless there is a NUL in it. -/
def Answered (own : PropertyKey → Option Property) (name : String) (item : Except Failure (String × Handle)) : Prop :=
  match nulPosition? name with
  | some position => item = .error (.nul position)
  | none => ∃ h p v, item = .ok (name, h) ∧ own (.ofString name) = some p ∧ p.content = .data v ∧
      h.value.unnumbered = v.unnumbered

theorem Answered.of_named {name : String} {item : Except Failure (String × Handle)} (h : Answered own name item)
    (hnul : nulPosition? name = none) : ∃ h p v, item = .ok (name, h) ∧ own (.ofString name) = some p ∧
      p.content = .data v ∧ h.value.unnumbered = v.unnumbered := by
  unfold Answered at h
  rwa [hnul] at h

/-- One of these names is looked up, and nothing changes. -/
theorem lookUp_answered_one (hheld : m.host.Holds hands target) (hvalue : target.value = .object id)
    (hshows : m.Shows id own) {name : String}
    (hname : nulPosition? name = none → ∃ p v, own (.ofString name) = some p ∧ p.content = .data v)
    (env : Env (World κ τ)) :
    ∃ found m' more, (attempt (getProperty target name) : Task ε κ τ (Except Failure Handle)) env m = .ok found m' ∧
      Answered own name (found.map (name, ·)) ∧ m'.Shows id own ∧ m'.host.Holds (more ++ hands) target := by
  unfold Answered
  cases hnul : nulPosition? name with
  | some position =>
    exact ⟨_, m, [], attempt_error (getProperty_of_nul hnul target env m), rfl, hshows, hheld⟩
  | none =>
    obtain ⟨p, v, hp, hv⟩ := hname hnul
    obtain ⟨h, m', hget, hsame, hshows', hheld'⟩ := getProperty_holds hheld hvalue hshows hnul hp hv env
    exact ⟨_, m', [h], attempt_ok hget, ⟨h, p, v, rfl, hp, hv, hsame⟩, hshows', hheld'⟩

/-- Values are found under these names as long as no other is looked up. -/
theorem lookUp_answered {names : List String} (hheld : m.host.Holds hands target) (hvalue : target.value = .object id)
    (hshows : m.Shows id own)
    (hnames : ∀ name ∈ names, nulPosition? name = none → ∃ p v, own (.ofString name) = some p ∧ p.content = .data v)
    (rest : List String) (env : Env (World κ τ)) :
    ∃ found others m', (lookUp target (names ++ rest) : Task ε κ τ (List (Except Failure (String × Handle)))) env m =
      .ok (found ++ others) m' ∧ List.Forall₂ (Answered own) names found := by
  -- Each look-up gives the program one more value to hold; what the object shows carries the induction.
  induction names generalizing m hands with
  | nil =>
    obtain ⟨members, m', hrun, -⟩ := lookUp_names (ε := ε) target rest env m
    exact ⟨[], members, m', hrun, .nil⟩
  | cons name names ih =>
    obtain ⟨hname, hnames⟩ := List.forall_mem_cons.mp hnames
    obtain ⟨item, m₁, more, hitem, hanswered, hshows₁, hheld₁⟩ :=
      lookUp_answered_one (ε := ε) hheld hvalue hshows hname env
    obtain ⟨found, others, m', hrest, hothers⟩ := ih hheld₁ hshows₁ hnames
    refine ⟨item.map (name, ·) :: found, others, m', ?_, .cons hanswered hothers⟩
    rw [List.cons_append]
    unfold lookUp
    rw [Task.run_bind_ok hitem, Task.run_bind_ok hrest]
    rfl

/-! ### Members by their keys -/

/-- What the program gets for a key: a failure if there is a NUL in it, and else the key as a text, with the value of
its property. -/
def Found (own : PropertyKey → Option Property) (key : PropertyKey) (item : Except Failure (String × Handle)) : Prop :=
  ∃ units, key.units? = some units ∧
    if 0 ∈ units then ∃ position, item = .error (.nul position)
    else ∃ name h p v, item = .ok (name, h) ∧ Units.ofString name = units ∧ own key = some p ∧
      p.content = .data v ∧ h.value.unnumbered = v.unnumbered

/-- A key that comes back from its name. -/
structure HasName (key : PropertyKey) (units : Units) : Prop where
  text : key.units? = some units
  canonical : key = .ofUnits units
  wellFormed : units.isWellFormed

variable {key : PropertyKey} {units : Units}

theorem HasName.units_eq (h : HasName key units) : Units.ofString (memberName key) = units := by
  rw [memberName_eq h.text, Units.ofString_toStringLossy h.wellFormed]

theorem HasName.key_eq (h : HasName key units) : .ofString (memberName key) = key := by
  rw [PropertyKey.ofString, h.units_eq, ← h.canonical]

theorem HasName.found (h : HasName key units) {item : Except Failure (String × Handle)}
    (hitem : Answered own (memberName key) item) : Found own key item := by
  refine ⟨units, h.text, ?_⟩
  cases hnul : nulPosition? (memberName key) with
  | some position =>
    unfold Answered at hitem
    have hzero : 0 ∈ units := by
      have hsome : nulPosition? (memberName key) ≠ none := by simp [hnul]
      rwa [ne_eq, nulPosition?_eq_none_iff, h.units_eq, not_not] at hsome
    rw [hnul] at hitem
    rw [if_pos hzero]
    exact ⟨position, hitem⟩
  | none =>
    obtain ⟨found, p, v, hok, hp, hv, hsame⟩ := hitem.of_named hnul
    rw [nulPosition?_eq_none_iff, h.units_eq] at hnul
    rw [if_neg hnul]
    exact ⟨memberName key, found, p, v, hok, h.units_eq, h.key_eq ▸ hp, hv, hsame⟩

/-- Each member is looked up by its name, and the names that lead to values are answered with them. -/
theorem properties_run (hheld : m.host.Holds hands target) (hvalue : target.value = .object id)
    (hobject : m.objects[id]? = some (some o)) (ho : o.IsPlain) (env : Env (World κ τ)) :
    ∃ members m', (properties target) env m = .ok members m' ∧
      List.Forall₂ (fun key => Named (memberName key)) (o.memberKeys m.objects.size) members ∧
      ∀ names rest, (o.memberKeys m.objects.size).map memberName = names ++ rest →
        (∀ name ∈ names, nulPosition? name = none →
          ∃ p v, o.own? m.objects.size (.ofString name) = some p ∧ p.content = .data v) →
        ∃ found others, members = found ++ others ∧ List.Forall₂ (Answered (o.own? m.objects.size)) names found := by
  obtain ⟨m₁, hnames, hshows, hheld₁⟩ := propertyNames_run hheld hvalue hobject ho env
  let m₂ : Engine κ τ := { m₁ with host := m₁.host.hold target }
  have hshows₂ : m₂.Shows id (o.own? m.objects.size) := hshows.congr rfl rfl
  have hheld₂ : m₂.host.Holds (target :: hands) target := hheld₁.hold target
  obtain ⟨members, m', hlookUp, hnamed⟩ := lookUp_names (ε := Failure) target
    ((o.memberKeys m.objects.size).map memberName) env m₂
  have hmembers : (properties target) env m = .ok members { m' with host := m'.host.drop target } := by
    unfold properties
    rw [Task.run_bind_ok hnames, Task.run_bind_ok (show (clone target : Operation κ τ Handle) env m₁ =
      .ok target m₂ from rfl)]
    exact thenDrop_ok hlookUp
  refine ⟨members, _, hmembers, List.forall₂_map_left_iff.mp hnamed, fun names rest hkeys hvalues => ?_⟩
  obtain ⟨found, others, m'', hfound, hall⟩ :=
    lookUp_answered (ε := Failure) hheld₂ hvalue hshows₂ hvalues rest env
  rw [hkeys, hfound] at hlookUp
  obtain ⟨rfl, -⟩ := EStateM.Result.ok.inj hlookUp
  exact ⟨found, others, rfl, hall⟩

end Operation

/-- The program gets one item for each own enumerable property with a text for a key, in the order of the engine, and
none for symbols or for what is not enumerable. Each item has the name of its key, or it is a failure, as it always is
if there is a NUL in the name. As long as no surrogate stands alone in a key, the key and the value of its property come
back unchanged in all other items. -/
theorem members_that_are_listed {m : Engine κ τ} {hands : List Handle} {target : Handle} {id : ObjectId} {o : Object}
    (hrun : Run m hands) (htarget : target ∈ Holding.values m.host.own ++ hands) (hvalue : target.value = .object id)
    (hobject : m.objects[id]? = some (some o)) (ho : o.IsPlain) (hcanonical : o.IsCanonical)
    (hdata : ∀ key p, m.own? id key = some p → p.isData) (env : Env (World κ τ)) :
    let keys := o.memberKeys m.objects.size
    keys.Nodup ∧ keys.Sublist o.ownKeys ∧
    (∀ key, key ∈ keys ↔ key.isSymbol = false ∧ ∃ p, m.own? id key = some p ∧ p.enumerable = true) ∧
    ∃ members m', (Operation.properties target) env m = .ok members m' ∧
      List.Forall₂ (fun key => Operation.Named (Operation.memberName key)) keys members ∧
      ∀ goods rest, keys = goods ++ rest →
        (∀ key ∈ goods, ∀ units, key.units? = some units → units.isWellFormed) →
        ∃ found others, members = found ++ others ∧ List.Forall₂ (Operation.Found (m.own? id)) goods found := by
  have hown : m.own? id = o.own? m.objects.size := funext (Machine.own?_eq hobject ho)
  rw [hown] at hdata ⊢
  refine ⟨o.nodup_memberKeys _, List.filter_sublist, fun key => Object.mem_memberKeys, ?_⟩
  obtain ⟨members, m', hmembers, hnamed, hanswered⟩ :=
    Operation.properties_run (hrun.holds htarget) hvalue hobject ho env
  refine ⟨members, m', hmembers, hnamed, fun goods rest hkeys hwellFormed => ?_⟩
  have hgoods : ∀ key ∈ goods, ∃ units p v, Operation.HasName key units ∧ o.own? m.objects.size key = some p ∧
      p.content = .data v := by
    intro key hmem
    have hkey : key ∈ o.memberKeys m.objects.size := hkeys ▸ List.mem_append_left rest hmem
    obtain ⟨hsymbol, p, hp, -⟩ := Object.mem_memberKeys.mp hkey
    obtain ⟨units, hunits⟩ := PropertyKey.exists_units hsymbol
    obtain ⟨v, hv⟩ := Property.exists_value (hdata key p hp)
    have hstored : key ∈ o.ownKeys := List.mem_of_mem_filter hkey
    exact ⟨units, p, v, ⟨hunits, hcanonical key hstored units hunits, hwellFormed key hmem units hunits⟩, hp, hv⟩
  -- The names of these keys lead back to them, so none of the look-ups goes on to a prototype or calls a getter.
  have hvalues : ∀ name ∈ goods.map Operation.memberName, Operation.nulPosition? name = none →
      ∃ p v, o.own? m.objects.size (.ofString name) = some p ∧ p.content = .data v := by
    rintro name hname -
    obtain ⟨key, hmem, rfl⟩ := List.mem_map.mp hname
    obtain ⟨units, p, v, hkey, hp, hv⟩ := hgoods key hmem
    exact ⟨p, v, hkey.key_eq.symm ▸ hp, hv⟩
  obtain ⟨found, others, rfl, hall⟩ := hanswered _ _ (by rw [hkeys, List.map_append]) hvalues
  refine ⟨found, others, rfl, ?_⟩
  have hnames := (List.forall₂_and_left goods found).mpr ⟨hgoods, List.forall₂_map_left_iff.mp hall⟩
  exact hnames.imp fun key item ⟨⟨units, _, _, hkey, _⟩, hitem⟩ => hkey.found hitem

/-! ### Objects with several members -/

/-- Under a key that is a text without NUL the program finds what is there. -/
theorem Operation.Found.of_text {own : PropertyKey → Option Property} {key : PropertyKey}
    {item : Except Failure (String × Handle)} (h : Found own key item) (text : String) {v : Value}
    (htext : key.units? = some (Units.ofString text)) (hnul : nulPosition? text = none)
    (hown : own key = some (.plain v)) : ∃ h, item = .ok (text, h) ∧ h.value.unnumbered = v.unnumbered := by
  obtain ⟨units, hunits, hitem⟩ := h
  obtain rfl := Option.some.inj (hunits.symm.trans htext)
  rw [if_neg ((nulPosition?_eq_none_iff text).mp hnul)] at hitem
  obtain ⟨name, h, p, v', rfl, hname, hp, hv, hsame⟩ := hitem
  obtain rfl := Option.some.inj (hp.symm.trans hown)
  obtain rfl := Content.data.inj hv
  obtain rfl : name = text := by rw [← Units.toStringLossy_ofString name, hname, Units.toStringLossy_ofString]
  exact ⟨h, rfl, hsame⟩

section

variable {m : Engine Empty Unit} {id : ObjectId} {entries : List (PropertyKey × Property)}

theorem own?_ofEntries (hobject : m.objects[id]? = some (some (.ofEntries .ordinary entries))) (key : PropertyKey) :
    m.own? id key = entries.reverse.lookup key := by
  have hp := Object.payload_ofEntries .ordinary entries
  rw [Machine.own?_eq hobject (Object.isPlain_of_ordinary hp), Object.own?_of_ordinary hp, Object.find?_ofEntries]

theorem isData_of_entries (hobject : m.objects[id]? = some (some (.ofEntries .ordinary entries)))
    (hdata : ∀ entry ∈ entries, entry.2.isData) (key : PropertyKey) (p : Property) (h : m.own? id key = some p) :
    p.isData := by
  rw [own?_ofEntries hobject, ← Object.find?_ofEntries .ordinary] at h
  exact hdata _ (Object.mem_of_find?_ofEntries h)

end

/-- Members of all kinds: under texts and an index, one that is hidden and one under a symbol. -/
def manyMembers : List (PropertyKey × Property) :=
  [(.name #[98], .plain (.int 1)), (.name #[99], .hidden (.int 2)), (.symbol 0, .plain (.int 3)),
    (.index 7, .plain (.int 4)), (.name #[97], .plain (.int 5))]

theorem ownKeys_manyMembers : (Object.ofEntries .ordinary manyMembers).ownKeys =
    [.index 7, .name #[98], .name #[99], .name #[97], .symbol 0] :=
  Object.ownKeys_ofEntries .ordinary
    [(.index 7, 3), (.name #[98], 0), (.name #[99], 1), (.name #[97], 4), (.symbol 0, 2)]
    (by decide) (by decide) (by decide)

/-- The index comes first, then the texts by their age; what is hidden and what is under a symbol is no member. -/
theorem member_is_listed : ∃ (m m' : Engine Empty Unit) (target h₁ h₂ h₃ : Handle) (env : Env (World Empty Unit)),
    Run m [target] ∧ target.value = .object 0 ∧
    m.objects[0]? = some (some (.ofEntries .ordinary manyMembers)) ∧
    (Operation.properties target) env m = .ok [.ok ("7", h₁), .ok ("b", h₂), .ok ("a", h₃)] m' ∧
    h₁.value.unnumbered = .int 4 ∧ h₂.value.unnumbered = .int 1 ∧ h₃.value.unnumbered = .int 5 := by
  let env := environment (⟨fun k _ => k.elim, fun k _ => k.elim⟩ : Respond Empty Unit) .default
  obtain ⟨m, target, hrun, hvalue, hobject⟩ := exists_object (.ofEntries .ordinary manyMembers)
  have hcanonical : (Object.ofEntries .ordinary manyMembers).IsCanonical := by
    rw [Object.isCanonical_iff, ownKeys_manyMembers]
    decide
  obtain ⟨-, -, -, members, m', hmembers, hnamed, hfound⟩ := members_that_are_listed hrun List.mem_cons_self hvalue
    hobject (Object.isPlain_of_ordinary (Object.payload_ofEntries _ _)) hcanonical
    (isData_of_entries hobject (by decide)) env
  have hkeys : (Object.ofEntries .ordinary manyMembers).memberKeys m.objects.size =
      [.index 7, .name #[98], .name #[97]] := by
    rw [Object.memberKeys_ofEntries, ownKeys_manyMembers]
    decide
  rw [hkeys] at hnamed hfound
  obtain ⟨found, others, rfl, hall⟩ := hfound _ [] (List.append_nil _).symm (by simp [PropertyKey.units?]; decide)
  obtain _ | ⟨hfirst, _ | ⟨hsecond, _ | ⟨hthird, _ | _⟩⟩⟩ := hall
  have hothers : others = [] := by simpa using hnamed.length_eq
  have hown := own?_ofEntries hobject
  obtain ⟨h₁, rfl, hsame₁⟩ := hfirst.of_text "7" (by decide) (by decide) (hown _)
  obtain ⟨h₂, rfl, hsame₂⟩ := hsecond.of_text "b" (by decide) (by decide) (hown _)
  obtain ⟨h₃, rfl, hsame₃⟩ := hthird.of_text "a" (by decide) (by decide) (hown _)
  rw [hothers] at hmembers
  exact ⟨m, m', target, h₁, h₂, h₃, env, hrun, hvalue, hobject, hmembers, hsame₁, hsame₂, hsame₃⟩

/-- Two members that the program looks for under one name: a surrogate that stands alone, and what becomes of it. -/
def confusable : List (PropertyKey × Property) :=
  [(.name #[0xD800], .plain (.int 2)), (.name #[0xFFFD, 0xFFFD, 0xFFFD], .plain (.int 3))]

theorem ownKeys_confusable : (Object.ofEntries .ordinary confusable).ownKeys =
    [.name #[0xD800], .name #[0xFFFD, 0xFFFD, 0xFFFD]] :=
  Object.ownKeys_ofEntries .ordinary _ (by decide) (List.Perm.refl _) (by decide)

/-- The program looks for both members under the name of the second. -/
theorem names_confusable (fresh : ObjectId) :
    ((Object.ofEntries .ordinary confusable).memberKeys fresh).map Operation.memberName =
      ["\uFFFD\uFFFD\uFFFD", "\uFFFD\uFFFD\uFFFD"] := by
  rw [Object.memberKeys_ofEntries, ownKeys_confusable]
  decide

/-- A surrogate that stands alone is lost on the way: the program gets the value of another member instead. -/
theorem lone_surrogate_is_lost : ∃ (m m' : Engine Empty Unit) (target h h' : Handle) (o : Object)
    (env : Env (World Empty Unit)),
    Run m [target] ∧ target.value = .object 0 ∧ m.objects[0]? = some (some o) ∧ o.payload = .ordinary ∧
    o.IsCanonical ∧ (∀ key p, m.own? 0 key = some p → p.isData) ∧
    m.own? 0 (.name #[0xD800]) = some (.plain (.int 2)) ∧
    m.own? 0 (.name #[0xFFFD, 0xFFFD, 0xFFFD]) = some (.plain (.int 3)) ∧
    (Operation.properties target) env m =
      .ok [.ok ("\uFFFD\uFFFD\uFFFD", h), .ok ("\uFFFD\uFFFD\uFFFD", h')] m' ∧
    h.value.unnumbered = .int 3 ∧ h'.value.unnumbered = .int 3 := by
  let env := environment (⟨fun k _ => k.elim, fun k _ => k.elim⟩ : Respond Empty Unit) .default
  obtain ⟨m, target, hrun, hvalue, hobject⟩ := exists_object (.ofEntries .ordinary confusable)
  have hp := Object.payload_ofEntries .ordinary confusable
  have ho := Object.isPlain_of_ordinary hp
  have hcanonical : (Object.ofEntries .ordinary confusable).IsCanonical := by
    rw [Object.isCanonical_iff, ownKeys_confusable]
    decide
  have hnul : Operation.nulPosition? "\uFFFD\uFFFD\uFFFD" = none := by decide
  have hfinds : (Object.ofEntries .ordinary confusable).own? m.objects.size (.ofString "\uFFFD\uFFFD\uFFFD") =
      some (.plain (.int 3)) := by
    rw [Object.own?_of_ordinary hp, Object.find?_ofEntries]
    decide
  have hvalues : ∀ name ∈ ["\uFFFD\uFFFD\uFFFD", "\uFFFD\uFFFD\uFFFD"], Operation.nulPosition? name = none →
      ∃ p v, (Object.ofEntries .ordinary confusable).own? m.objects.size (.ofString name) = some p ∧
        p.content = .data v := by
    simpa using fun _ => ⟨_, hfinds, _, rfl⟩
  obtain ⟨members, m', hmembers, hnamed, hanswered⟩ :=
    Operation.properties_run (hrun.holds List.mem_cons_self) hvalue hobject ho env
  obtain ⟨found, others, rfl, hall⟩ := hanswered _ []
    ((names_confusable _).trans (List.append_nil _).symm) hvalues
  obtain _ | ⟨hfirst, _ | ⟨hsecond, _ | _⟩⟩ := hall
  have hcount := congrArg List.length (names_confusable m.objects.size)
  rw [List.length_map] at hcount
  have hlength : others = [] := by simpa [hcount] using hnamed.length_eq
  obtain ⟨h, p, v, rfl, hp, hv, hsame⟩ := hfirst.of_named hnul
  obtain ⟨h', p', v', rfl, hp', hv', hsame'⟩ := hsecond.of_named hnul
  rw [hfinds] at hp hp'
  obtain rfl := Option.some.inj hp
  obtain rfl := Option.some.inj hp'
  obtain rfl := Content.data.inj hv
  obtain rfl := Content.data.inj hv'
  rw [hlength] at hmembers
  exact ⟨m, m', target, h, h', _, env, hrun, hvalue, hobject, Object.payload_ofEntries _ _, hcanonical,
    isData_of_entries hobject (by decide), own?_ofEntries hobject _, own?_ofEntries hobject _, hmembers, hsame, hsame'⟩

end PluginRelay.Embedding
