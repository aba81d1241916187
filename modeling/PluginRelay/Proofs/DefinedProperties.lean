import PluginRelay.Proofs.NewErrors
import PluginRelay.Proofs.OwnProperties

/-!
# Definitions of plain properties

A plain property takes the place of an old one that may be replaced, or of none where the object is extensible. In
all other cases the definition is refused with a message, and the own properties stay. Only the length of an array
can make it fail, and that is refused to any value that could be a length.
-/
namespace PluginRelay.Script

open Access

variable {σ : Type} [Evolving σ] {m : Machine σ} {id : ObjectId} {o : Object} {key : PropertyKey}

/-! ### Definitions -/

/-- Whether a property may be made, or take the place of an old one. -/
def hasRoom (isExtensible : Bool) : Option Property → Bool
  | some old => old.configurable
  | none => isExtensible

/-- Whether the object takes a property under a key. An array whose length is fixed takes no elements behind. -/
def Object.takes (o : Object) (fresh : ObjectId) (key : PropertyKey) : Bool :=
  hasRoom o.isExtensible (o.own? fresh key) && match o.payload, key with
    | .array length true, .index i => i < length
    | _, _ => true

theorem checkedChange_plain (isExtensible : Bool) (old : Option Property) (v : Value) :
    if hasRoom isExtensible old then checkedChange isExtensible old (.ofProperty (.plain v)) = .ok (.plain v)
    else ∃ message, checkedChange isExtensible old (.ofProperty (.plain v)) = .error message := by
  cases old with
  | none =>
    cases isExtensible with
    | true => rfl
    | false => exact ⟨_, rfl⟩
  | some old =>
    obtain ⟨content, writable, enumerable, configurable⟩ := old
    cases configurable with
    | true => cases content <;> rfl
    | false => exact ⟨_, rfl⟩

/-- A plain property is put where there is room for it. -/
theorem plainDefine_of_room (h : m.objects[id]? = some (some o)) (ho : o.IsPlain)
    (hroom : hasRoom o.isExtensible (o.own? m.objects.size key) = true) (v : Value) :
    ∃ m', (plainDefine id key (.ofProperty (.plain v)) : Action σ (Option String)) m = .ok none m' ∧
      m'.host = m.host ∧ m'.objects.size = m.objects.size ∧ m'.objects[id]? = some (some (o.put key (.plain v))) := by
  obtain ⟨m', hrun, -, rfl | ⟨hfixed, -⟩⟩ := plainOwn_spec h ho key
  · have hchecked := checkedChange_plain o.isExtensible (o.own? m'.objects.size key) v
    rw [if_pos hroom] at hchecked
    unfold plainDefine
    rw [Evolution.run_bind_ok (Action.object_run h), Evolution.run_bind_ok hrun, hchecked]
    refine ⟨_, rfl, rfl, Array.size_modify, ?_⟩
    change (m'.objects.modify id _)[id]? = _
    rw [Array.getElem?_modify, if_pos rfl, h]
    rfl
  · cases hown : o.own? m.objects.size key with
    | none => simp [hown] at hfixed
    | some p =>
      rw [hown] at hroom hfixed
      simp [show p.configurable = true from hroom] at hfixed

/-- Where there is none, the own properties stay. -/
theorem plainDefine_of_no_room (h : m.objects[id]? = some (some o)) (ho : o.IsPlain)
    (hroom : hasRoom o.isExtensible (o.own? m.objects.size key) = false) (v : Value) :
    ∃ message m' o', (plainDefine id key (.ofProperty (.plain v)) : Action σ (Option String)) m =
        .ok (some message) m' ∧ m'.host = m.host ∧
      m'.objects[id]? = some (some o') ∧ o'.IsPlain ∧
      ∀ k, o'.own? m'.objects.size k = o.own? m.objects.size k := by
  obtain ⟨m', hrun, hhost, hown⟩ := plainOwn_spec h ho key
  have hchecked := checkedChange_plain o.isExtensible (o.own? m.objects.size key) v
  rw [if_neg (Bool.eq_false_iff.mp hroom)] at hchecked
  obtain ⟨message, hmessage⟩ := hchecked
  unfold plainDefine
  rw [Evolution.run_bind_ok (Action.object_run h), Evolution.run_bind_ok hrun, hmessage]
  obtain rfl | ⟨-, o', hget, ho', hsame⟩ := hown
  · exact ⟨message, m', o, rfl, rfl, h, ho, fun _ => rfl⟩
  · exact ⟨message, m', o', rfl, hhost, hget, ho', fun k => hsame k _⟩

/-- An object after the definition of a property: it is there if the object takes it, and all others are as before,
but for the length of an array that gets an element behind its last one, or would have got it. -/
structure Object.Defined (o o' : Object) (fresh fresh' : ObjectId) (key : PropertyKey) (p : Property) : Prop where
  plain : o'.IsPlain
  found : o'.own? fresh' key = if o.takes fresh key then some p else o.own? fresh key
  others : ∀ k, k ≠ key → k ≠ lengthKey → o'.own? fresh' k = o.own? fresh k
  length : key ≠ lengthKey → o'.own? fresh' lengthKey = o.own? fresh lengthKey ∨
    ∃ length i, o.payload = .array length false ∧ key = .index i ∧ length ≤ i ∧
      o'.own? fresh' lengthKey = some ⟨.data (.ofNat (i + 1)), true, false, false⟩

theorem Object.IsPlain.put (ho : o.IsPlain)
    (hkey : ∀ length isFixed i, o.payload = .array length isFixed → key = .index i → i < length) (p : Property) :
    (o.put key p).IsPlain := by
  obtain ⟨hstored, helements⟩ := ho
  constructor
  · rwa [payload_put]
  · intro length isFixed harray i hi
    rw [payload_put] at harray
    have hne : key ≠ .index i := fun heq => by
      have := hkey length isFixed i harray heq
      omega
    rw [find?_put_other hne]
    exact helements length isFixed harray i hi

/-- The definition of a property whose key does not lie behind an array. -/
theorem plainDefine_spec (h : m.objects[id]? = some (some o)) (ho : o.IsPlain)
    (hkey : ∀ length isFixed i, o.payload = .array length isFixed → key = .index i → i < length) (v : Value) :
    ∃ answer m' o', (plainDefine id key (.ofProperty (.plain v)) : Action σ (Option String)) m = .ok answer m' ∧
      m'.host = m.host ∧ m'.objects[id]? = some (some o') ∧
      o.Defined o' m.objects.size m'.objects.size key (.plain v) := by
  have htakes : o.takes m.objects.size key = hasRoom o.isExtensible (o.own? m.objects.size key) := by
    unfold Object.takes
    split
    · next length i hp =>
      rw [decide_eq_true (hkey length true i hp rfl), Bool.and_true]
    · rw [Bool.and_true]
  cases hroom : hasRoom o.isExtensible (o.own? m.objects.size key) with
  | true =>
    obtain ⟨m', hrun, hhost, hsize, hget⟩ := plainDefine_of_room h ho hroom v
    refine ⟨none, m', _, hrun, hhost, hget, ho.put hkey _, ?_, fun k hk _ => ?_, fun hk => .inl ?_⟩
    · rw [htakes, hroom, if_pos rfl, hsize]
      refine Object.own?_put_self ?_ _
      cases hown : o.own? m.objects.size key with
      | none => rfl
      | some p => rwa [hown] at hroom
    · rw [hsize, Object.own?_put_other (Ne.symm hk)]
    · rw [hsize, Object.own?_put_other hk]
  | false =>
    obtain ⟨message, m', o', hrun, hhost, hget, ho', hsame⟩ := plainDefine_of_no_room h ho hroom v
    refine ⟨some message, m', o', hrun, hhost, hget, ho', ?_, fun k _ _ => hsame k, fun _ => .inl (hsame _)⟩
    rw [htakes, hroom, hsame]
    rfl

theorem index_ne_lengthKey (i : Nat) : PropertyKey.index i ≠ lengthKey := nofun

section

variable {length : Nat}

/-- The array with another length. -/
def Object.ofLength (o : Object) (length : Nat) : Object := { o with payload := .array length false }

theorem Object.IsPlain.ofLength (ho : o.IsPlain) (hp : o.payload = .array length false) {n : Nat} (hn : length ≤ n) :
    (o.ofLength n).IsPlain := by
  refine ⟨trivial, fun length' isFixed harray k hk => ?_⟩
  obtain ⟨rfl, -⟩ := Payload.array.inj harray
  exact ho.elements length false hp k (Nat.le_trans hn hk)

theorem Object.own?_ofLength (hp : o.payload = .array length false) (n : Nat) {k : PropertyKey} (hk : k ≠ lengthKey)
    (fresh : ObjectId) : (o.ofLength n).own? fresh k = o.own? fresh k := by
  cases k with
  | name units => simp only [own?, hp, ofLength, if_neg hk, find?]
  | index n | symbol s => simp only [own?, hp, ofLength, find?]

theorem Object.takes_ofLength (hp : o.payload = .array length false) (n : Nat) (fresh : ObjectId) (i : Nat) :
    (o.ofLength n).takes fresh (.index i) = o.takes fresh (.index i) := by
  simp only [takes, hp, own?_ofLength hp n (index_ne_lengthKey i)]
  rfl

/-- An element behind a longer array than before is not behind it any more. -/
theorem Object.Defined.ofLength {o' : Object} {fresh fresh' : ObjectId} {i : Nat} {p : Property}
    (hp : o.payload = .array length false) (hi : length ≤ i)
    (h : (o.ofLength (i + 1)).Defined o' fresh fresh' (.index i) p) : o.Defined o' fresh fresh' (.index i) p where
  plain := h.plain
  found := by rw [h.found, takes_ofLength hp, own?_ofLength hp _ (index_ne_lengthKey i)]
  others k hk hlength := by rw [h.others k hk hlength, own?_ofLength hp _ hlength]
  length hk := by
    refine .inr ⟨length, i, hp, rfl, hi, ?_⟩
    obtain hlength | ⟨length', i', harray, hkey, hle, -⟩ := h.length hk
    · rw [hlength]
      rfl
    · obtain ⟨rfl, -⟩ := Payload.array.inj harray
      obtain rfl := PropertyKey.index.inj hkey
      omega

/-- The definition of an element behind an array. -/
theorem defineElement_spec {i : Nat} {isFixed : Bool} (h : m.objects[id]? = some (some o)) (ho : o.IsPlain)
    (hp : o.payload = .array length isFixed) (hi : length ≤ i) (v : Value) :
    ∃ answer m' o', (defineElement id length isFixed i (.ofProperty (.plain v)) : Action σ (Option String)) m =
        .ok answer m' ∧ m'.host = m.host ∧
      m'.objects[id]? = some (some o') ∧ o.Defined o' m.objects.size m'.objects.size (.index i) (.plain v) := by
  have hsame (hrefused : o.takes m.objects.size (.index i) = false) :
      o.Defined o m.objects.size m.objects.size (.index i) (.plain v) :=
    ⟨ho, by rw [hrefused]; rfl, fun _ _ _ => rfl, fun _ => .inl rfl⟩
  unfold defineElement
  rw [Evolution.run_bind_ok (Action.object_run h)]
  split
  · next hdense =>
    refine ⟨_, m, o, rfl, rfl, h, hsame ?_⟩
    have hclosed : o.isExtensible = false := by
      simpa using (Bool.and_eq_true_iff.mp (Bool.and_eq_true_iff.mp hdense).1).1
    have hown : o.own? m.objects.size (.index i) = none := by
      simp only [Object.own?, hp]
      exact ho.elements length isFixed hp i hi
    simp only [Object.takes, hown, hasRoom, hclosed, Bool.false_and]
  cases isFixed with
  | true =>
    refine ⟨_, m, o, rfl, rfl, h, hsame ?_⟩
    simp only [Object.takes, hp, Nat.not_lt.mpr hi, decide_false, Bool.and_false]
  | false =>
    -- The length is changed before the property is defined, so the definition is one inside of the longer array.
    let longer : Machine σ := { m with objects := m.objects.modify id fun o => o.map (·.ofLength (i + 1)) }
    have hget : longer.objects[id]? = some (some (o.ofLength (i + 1))) := by
      change (m.objects.modify id _)[id]? = _
      rw [Array.getElem?_modify, if_pos rfl, h]
      rfl
    have hlast (length' : Nat) (isFixed' : Bool) (i' : Nat)
        (harray : (o.ofLength (i + 1)).payload = .array length' isFixed')
        (hkey : PropertyKey.index i = .index i') : i' < length' := by
      obtain ⟨rfl, -⟩ := Payload.array.inj harray
      obtain rfl := PropertyKey.index.inj hkey
      exact Nat.lt_succ_self i
    obtain ⟨answer, m', o', hrun, hhost, hget', hdefined⟩ :=
      plainDefine_spec hget (ho.ofLength hp (Nat.le_succ_of_le hi)) hlast v
    rw [show longer.objects.size = m.objects.size from Array.size_modify] at hdefined
    exact ⟨answer, m', o', hrun, hhost, hget', hdefined.ofLength hp hi⟩

end

/-- The definition of a plain property, other than the length of an array. -/
theorem ownDefine_spec (h : m.objects[id]? = some (some o)) (ho : o.IsPlain)
    (hkey : ∀ length isFixed, o.payload = .array length isFixed → key ≠ lengthKey) (v : Value) :
    ∃ answer m' o', (ownDefine id key (.ofProperty (.plain v)) : Action σ (Option String)) m = .ok answer m' ∧
      m'.host = m.host ∧ m'.objects[id]? = some (some o') ∧
      o.Defined o' m.objects.size m'.objects.size key (.plain v) := by
  have hstored := ho.stored
  unfold ownDefine
  rw [Evolution.run_bind_ok (Action.object_run h)]
  split
  · next length isFixed i hp =>
    split
    · next hi =>
      refine plainDefine_spec h ho (fun length' isFixed' i' harray hindex => ?_) v
      obtain ⟨rfl, -⟩ := Payload.array.inj (hp.symm.trans harray)
      exact PropertyKey.index.inj hindex ▸ hi
    · next hi => exact defineElement_spec h ho hp (Nat.not_lt.mp hi) v
  · next length isFixed hp hnamed =>
    rw [if_neg (hkey length isFixed hp)]
    exact plainDefine_spec h ho (fun _ _ i _ hindex => (hnamed i hindex).elim) v
  · next t i hp => simp only [hp] at hstored
  · next hp => simp only [hp] at hstored
  · next hother _ _ _ =>
    exact plainDefine_spec h ho (fun length isFixed i harray _ => (hother length isFixed harray).elim) v

/-! ### Lengths of arrays -/

/-- A plain value is no length for an array: lengths are not configurable. -/
theorem changeLength_spec (h : id < m.objects.size) (length : Nat) (isFixed : Bool) (v : Value) :
    (∃ message, (changeLength id length isFixed (.ofProperty (.plain v)) : Action σ (Option String)) m =
      .ok (some message) m) ∨
    ∃ e m', (changeLength id length isFixed (.ofProperty (.plain v)) : Action σ (Option String)) m = .error e m' ∧
      m'.objects[id]? = m.objects[id]? := by
  unfold changeLength
  dsimp only [Change.ofProperty, Property.plain]
  cases hlength : lengthOf? v with
  | none =>
    obtain ⟨m', hthrow, hspared⟩ := Action.throwUnits_spares (α := Option String) .rangeError
      (Units.ofString "invalid array length") m
    exact .inr ⟨_, m', hthrow, hspared id h⟩
  | some n => exact .inl ⟨_, rfl⟩

/-- No plain property takes the place of the length of an array. -/
theorem not_takes_length {length : Nat} {isFixed : Bool} (hp : o.payload = .array length isFixed)
    (fresh : ObjectId) : o.takes fresh lengthKey = false := by
  simp only [Object.takes, Object.own?, hp, lengthKey, hasRoom, if_true, Bool.false_and]

theorem defineLength_spec (env : Env σ) {length : Nat} {isFixed : Bool} (h : m.objects[id]? = some (some o))
    (hp : o.payload = .array length isFixed) (v : Value) :
    (∃ message, (Access.define env id lengthKey (.ofProperty (.plain v))) m = .ok (some message) m) ∨
    ∃ e m', (Access.define env id lengthKey (.ofProperty (.plain v))) m = .error e m' ∧
      m'.objects[id]? = m.objects[id]? := by
  have hchange : (Access.define env id lengthKey (.ofProperty (.plain v))) m =
      (changeLength id length isFixed (.ofProperty (.plain v)) : Action σ (Option String)) m := by
    unfold Access.define ownDefine
    rw [Evolution.run_bind_ok (Action.payload_run h), hp]
    dsimp only
    rw [Evolution.run_bind_ok (Action.object_run h), hp]
    rfl
  rw [hchange]
  exact changeLength_spec (Array.getElem?_eq_some_iff.mp h).1 length isFixed v

/-- The definition of a plain property, when its value is as the object stores it. -/
theorem define_spec (env : Env σ) (h : m.objects[id]? = some (some o)) (ho : o.IsPlain) (key : PropertyKey)
    (v : Value) :
    (∃ answer m' o', (Access.define env id key (.ofProperty (.plain v))) m = .ok answer m' ∧
      m'.host = m.host ∧ m'.objects[id]? = some (some o') ∧
      o.Defined o' m.objects.size m'.objects.size key (.plain v)) ∨
    ∃ length isFixed e m', o.payload = .array length isFixed ∧ key = lengthKey ∧
      (Access.define env id key (.ofProperty (.plain v))) m = .error e m' ∧ m'.objects[id]? = m.objects[id]? := by
  by_cases hlength : ∃ length isFixed, o.payload = .array length isFixed ∧ key = lengthKey
  · obtain ⟨length, isFixed, hp, rfl⟩ := hlength
    obtain ⟨message, hrun⟩ | ⟨e, m', hrun, hsame⟩ := defineLength_spec env h hp v
    · refine .inl ⟨_, m, o, hrun, rfl, h, ho, ?_, fun _ _ _ => rfl, fun hk => absurd rfl hk⟩
      rw [not_takes_length hp]
      rfl
    · exact .inr ⟨length, isFixed, e, m', hp, rfl, hrun, hsame⟩
  · have hstored := ho.stored
    have hown : (Access.define env id key (.ofProperty (.plain v))) m =
        (ownDefine id key (.ofProperty (.plain v)) : Action σ (Option String)) m := by
      unfold Access.define
      rw [Evolution.run_bind_ok (Action.payload_run h)]
      split
      · next hp => simp only [hp] at hstored
      · rfl
    rw [hown]
    obtain ⟨answer, m', o', hrun, hhost, hget, hdefined⟩ := ownDefine_spec h ho
      (fun length isFixed hp hk => hlength ⟨length, isFixed, hp, hk⟩) v
    exact .inl ⟨answer, m', o', hrun, hhost, hget, hdefined⟩

/-! ### Values -/

/-- To make an object the length of an array calls methods of the object. -/
def Object.Asks (o : Object) (key : PropertyKey) (v : Value) : Prop :=
  (∃ length isFixed, o.payload = .array length isFixed) ∧ key = lengthKey ∧ v.isObject

theorem toArrayLength_spec (env : Env σ) {v : Value} (hv : v.isObject = false) (m : Machine σ) :
    (∃ w, (Convert.toArrayLength env v) m = .ok w m) ∨
    ∃ e m', (Convert.toArrayLength env v) m = .error e m' ∧
      ∀ id < m.objects.size, m'.objects[id]? = m.objects[id]? := by
  unfold Convert.toArrayLength
  split
  · exact Bool.noConfusion hv
  · next s =>
    obtain ⟨m', hthrow, hspared⟩ := Action.throwUnits_spares (α := Value) .typeError
      (Units.ofString "cannot convert symbol to number") m
    have hdouble : (Convert.toDouble env (.symbol s)) m = .error (.object m.objects.size) m' :=
      Evolution.run_bind_error hthrow _
    have hwhole : (Convert.toUint32 env (.symbol s)) m = .error (.object m.objects.size) m' :=
      Evolution.run_bind_error (Evolution.run_bind_error hdouble _) _
    exact .inr ⟨_, m', Evolution.run_bind_error hwhole _, hspared⟩
  · next n =>
    split
    · exact .inl ⟨_, rfl⟩
    · obtain ⟨m', hthrow, hspared⟩ := Action.throwUnits_spares (α := Value) .rangeError
        (Units.ofString "invalid array length") m
      exact .inr ⟨_, m', hthrow, hspared⟩
  · exact .inl ⟨_, rfl⟩

/-- Only for the length of an array the value is converted. -/
theorem toDefined_run (env : Env σ) (h : m.objects[id]? = some (some o)) (ho : o.IsPlain) (key : PropertyKey)
    (v : Value) :
    (Convert.toDefined env id key v) m = .ok v m ∨
    (∃ length isFixed, o.payload = .array length isFixed) ∧ key = lengthKey ∧
      (Convert.toDefined env id key v) m = (Convert.toArrayLength env v) m := by
  have hstored := ho.stored
  have hrun : (Convert.toDefined env id key v) m = (Convert.toStored env id key v) m := by
    unfold Convert.toDefined
    rw [Evolution.run_bind_ok (Action.object_run h)]
    split
    · next hp => simp only [hp] at hstored
    · rfl
  rw [hrun]
  unfold Convert.toStored
  rw [Evolution.run_bind_ok (Action.object_run h)]
  split
  · next length isFixed hp =>
    split
    · next hlength => exact .inr ⟨⟨length, isFixed, hp⟩, hlength, rfl⟩
    · exact .inl rfl
  · next hp => simp only [hp] at hstored
  · exact .inl rfl

/-- The definition of a plain property that calls no methods. -/
theorem convertDefine_spec (env : Env σ) (h : m.objects[id]? = some (some o)) (ho : o.IsPlain) {v : Value}
    (hasks : ¬o.Asks key v) :
    (∃ answer m' o', (Convert.define env id key (.ofProperty (.plain v))) m = .ok answer m' ∧
      m'.host = m.host ∧ m'.objects[id]? = some (some o') ∧
      o.Defined o' m.objects.size m'.objects.size key (.plain v)) ∨
    ∃ length isFixed e m', o.payload = .array length isFixed ∧ key = lengthKey ∧
      (Convert.define env id key (.ofProperty (.plain v))) m = .error e m' ∧ m'.objects[id]? = m.objects[id]? := by
  have hconverted {w : Value} {m' : Machine σ} (hw : (Convert.toDefined env id key v) m = .ok w m') :
      (Convert.define env id key (.ofProperty (.plain v))) m =
        (Access.define env id key (.ofProperty (.plain w))) m' := Evolution.run_bind_ok hw _
  obtain hsame | ⟨⟨length, isFixed, hp⟩, rfl, hlength⟩ := toDefined_run env h ho key v
  · rw [hconverted hsame]
    exact define_spec env h ho key v
  · have hv : v.isObject = false := by
      rw [Bool.eq_false_iff]
      exact fun hobject => hasks ⟨⟨length, isFixed, hp⟩, rfl, hobject⟩
    obtain ⟨w, hw⟩ | ⟨e, m', he, hspared⟩ := toArrayLength_spec env hv m
    · rw [hconverted (hlength.trans hw)]
      obtain ⟨answer, m', o', hrun, hhost, hget, hdefined⟩ | herror := define_spec env h ho lengthKey w
      · have hfound := hdefined.found
        rw [not_takes_length hp] at hfound
        refine .inl ⟨answer, m', o', hrun, hhost, hget, hdefined.plain, ?_, hdefined.others, hdefined.length⟩
        rw [not_takes_length hp]
        exact hfound
      · exact .inr herror
    · exact .inr ⟨length, isFixed, e, m', hp, rfl, Evolution.run_bind_error (hlength.trans he) _,
        hspared id (Array.getElem?_eq_some_iff.mp h).1⟩

end PluginRelay.Script
