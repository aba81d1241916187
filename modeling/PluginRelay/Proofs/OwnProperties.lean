import Mathlib.Data.List.Induction
import PluginRelay.Script.Convert

/-!
# Own properties of plain objects

Of an object that is neither a proxy nor a text nor a typed array all properties are stored, but for two: the length
of an array, and the object for a function's instances, which is made when it is asked for. To look at a property
changes none.
-/
namespace PluginRelay.Script

open Access

/-! ### What is there -/

/-- All members are stored, and the elements of an array lie below its length. -/
structure Object.IsPlain (o : Object) : Prop where
  stored : match o.payload with
    | .proxy _ _ _ | .typedArray _ _ _ _ | .primitive (.string _) => False
    | _ => True
  elements : ∀ length isFixed, o.payload = .array length isFixed → ∀ i, length ≤ i → o.find? (.index i) = none

/-- The property under a key, where `fresh` stands for an object for instances that is not made yet. -/
def Object.own? (o : Object) (fresh : ObjectId) (key : PropertyKey) : Option Property :=
  match o.payload, key with
  | .function f, .name _ =>
    if f.isLazy && key = prototypeKey then some ⟨.data (.object fresh), true, false, false⟩ else o.find? key
  | .array length isFixed, .name _ =>
    if key = lengthKey then some ⟨.data (.ofNat length), !isFixed, false, false⟩ else o.find? key
  | _, _ => o.find? key

variable {o : Object} {key : PropertyKey}

theorem Object.own?_put_other {other : PropertyKey} (h : other ≠ key) (o : Object) (p : Property) (fresh : ObjectId) :
    (o.put other p).own? fresh key = o.own? fresh key := by
  simp only [own?, payload_put, find?_put_other h]

/-- What may be replaced is stored, and a stored property is found. -/
theorem Object.own?_put_self {fresh : ObjectId} (h : (o.own? fresh key).all (·.configurable)) (p : Property) :
    (o.put key p).own? fresh key = some p := by
  unfold own? at h ⊢
  rw [payload_put]
  split
  · next f units hp =>
    simp only [hp] at h
    split
    · next hlazy => simp [hlazy] at h
    · exact find?_put_self o _ p
  · next length isFixed units hp =>
    simp only [hp] at h
    split
    · next hlength => simp [hlength] at h
    · exact find?_put_self o _ p
  · exact find?_put_self o _ p

theorem Object.isPlain_of_ordinary (h : o.payload = .ordinary) : o.IsPlain := by
  refine ⟨?_, fun length isFixed harray => ?_⟩
  · rw [h]
    trivial
  · rw [h] at harray
    nomatch harray

theorem Object.own?_of_ordinary (h : o.payload = .ordinary) (fresh : ObjectId) (key : PropertyKey) :
    o.own? fresh key = o.find? key := by
  simp only [own?, h]

/-- An ordinary object with one property. -/
def Object.single (key : PropertyKey) (p : Property) : Object := (Object.new none .ordinary).put key p

theorem Object.payload_single (key : PropertyKey) (p : Property) : (single key p).payload = .ordinary :=
  payload_put _ _ _

theorem Object.own?_single (key : PropertyKey) (p : Property) (fresh : ObjectId) :
    (single key p).own? fresh key = some p :=
  (own?_of_ordinary (payload_single key p) _ _).trans (find?_put_self _ _ _)

/-- An object to which properties are given one after the other. -/
def Object.ofEntries (payload : Payload) (entries : List (PropertyKey × Property)) : Object :=
  entries.foldl (fun o entry => o.put entry.1 entry.2) (Object.new none payload)

theorem Object.ofEntries_concat (payload : Payload) (entries : List (PropertyKey × Property))
    (entry : PropertyKey × Property) :
    ofEntries payload (entries ++ [entry]) = (ofEntries payload entries).put entry.1 entry.2 := by
  simp only [ofEntries, List.foldl_append, List.foldl_cons, List.foldl_nil]

theorem Object.payload_ofEntries (payload : Payload) (entries : List (PropertyKey × Property)) :
    (ofEntries payload entries).payload = payload := by
  induction entries using List.reverseRecOn with
  | nil => rfl
  | append_singleton entries entry ih => rw [ofEntries_concat, payload_put, ih]

theorem Object.isExtensible_ofEntries (payload : Payload) (entries : List (PropertyKey × Property)) :
    (ofEntries payload entries).isExtensible = true := by
  induction entries using List.reverseRecOn with
  | nil => rfl
  | append_singleton entries entry ih => rw [ofEntries_concat, isExtensible_put, ih]

/-- Under each key there is what was given last. -/
theorem Object.find?_ofEntries (payload : Payload) (entries : List (PropertyKey × Property)) (key : PropertyKey) :
    (ofEntries payload entries).find? key = entries.reverse.lookup key := by
  induction entries using List.reverseRecOn with
  | nil => simp [ofEntries, new, find?]
  | append_singleton entries entry ih =>
    rw [ofEntries_concat, List.reverse_append, List.reverse_singleton, List.singleton_append, List.lookup_cons]
    by_cases h : entry.1 = key
    · rw [← h, find?_put_self, beq_self_eq_true]
    · rw [find?_put_other h, ih, beq_false_of_ne (Ne.symm h)]

theorem Object.mem_of_find?_ofEntries {payload : Payload} {entries : List (PropertyKey × Property)}
    {key : PropertyKey} {p : Property} (h : (ofEntries payload entries).find? key = some p) : (key, p) ∈ entries := by
  rw [find?_ofEntries, List.lookup_eq_some_iff] at h
  obtain ⟨before, after, hentries, -⟩ := h
  rw [← List.mem_reverse, hentries]
  exact List.mem_append_right before List.mem_cons_self

variable {σ : Type} {m : Machine σ} {id : ObjectId} {own : PropertyKey → Option Property}

/-- The object with a number is plain and has these own properties. -/
def Machine.Shows (m : Machine σ) (id : ObjectId) (own : PropertyKey → Option Property) : Prop :=
  ∃ o, m.objects[id]? = some (some o) ∧ o.IsPlain ∧ ∀ key, o.own? m.objects.size key = own key

/-- Nothing else matters than the object and how many there are. -/
theorem Machine.Shows.congr {m' : Machine σ} (h : m.Shows id own) (hget : m'.objects[id]? = m.objects[id]?)
    (hsize : m'.objects.size = m.objects.size) : m'.Shows id own := by
  obtain ⟨o, hobject, ho, hown⟩ := h
  exact ⟨o, hget.trans hobject, ho, hsize ▸ hown⟩

/-! ### Looking -/

variable [Evolving σ]

/-- The own property that the engine finds under a key. -/
def Machine.own? (m : Machine σ) (id : ObjectId) (key : PropertyKey) : Option Property :=
  match (plainOwn id key : Action σ (Option Property)) m with
  | .ok p _ => p
  | .error _ _ => none

theorem Action.object_run (h : m.objects[id]? = some (some o)) : (Action.object id : Action σ Object) m = .ok o m := by
  change EStateM.Result.ok ((m.objects[id]?.join).getD default) m = _
  rw [h]
  rfl

theorem Action.payload_run (h : m.objects[id]? = some (some o)) :
    (Action.payload id : Action σ Payload) m = .ok o.payload m := Evolution.run_bind_ok (Action.object_run h) _

/-- The object of a function for which an object for instances has been made. -/
def Object.withPrototype (o : Object) (f : Closure) (fresh : ObjectId) : Object :=
  { o with payload := .function { f with isLazy := false } }.put prototypeKey
    ⟨.data (.object fresh), true, false, false⟩

theorem Object.isPlain_withPrototype (o : Object) (f : Closure) (fresh : ObjectId) :
    (o.withPrototype f fresh).IsPlain := by
  unfold withPrototype
  refine ⟨?_, fun length isFixed harray => ?_⟩
  · rw [payload_put]
    trivial
  · rw [payload_put] at harray
    cases harray

/-- It has the properties that the function had before. -/
theorem Object.own?_withPrototype {f : Closure} (hp : o.payload = .function f) (hlazy : f.isLazy = true)
    (fresh fresh' : ObjectId) (k : PropertyKey) : (o.withPrototype f fresh).own? fresh' k = o.own? fresh k := by
  unfold withPrototype
  by_cases hk : prototypeKey = k
  · obtain ⟨units, hname⟩ : ∃ units, prototypeKey = .name units := ⟨_, rfl⟩
    rw [← hk, hname]
    simp only [own?, payload_put, hp, hname, hlazy, Bool.false_and, Bool.false_eq_true, if_false, decide_true,
      Bool.and_self, if_true]
    exact find?_put_self _ _ _
  · rw [own?_put_other hk]
    cases k with
    | index i | symbol s => simp only [own?, hp, find?]
    | name units =>
      have hother : (f.isLazy && PropertyKey.name units = prototypeKey) = false := by simp [Ne.symm hk]
      simp only [own?, hp, hother, Bool.false_and, Bool.false_eq_true, if_false, find?]

theorem makePrototype_run (h : m.objects[id]? = some (some o)) (f : Closure) :
    ∃ m', (makePrototype id f : Action σ Unit) m = .ok () m' ∧ m'.host = m.host ∧
      m'.objects[id]? = some (some (o.withPrototype f m.objects.size)) := by
  have hlt : id < m.objects.size := (Array.getElem?_eq_some_iff.mp h).1
  refine ⟨_, rfl, rfl, ?_⟩
  simp [Object.withPrototype, Array.getElem?_modify, Array.getElem?_push, Nat.ne_of_gt hlt, Nat.ne_of_lt hlt, h]

/-- To look at a property finds it and changes none. Nothing happens at all, unless the object for a function's
instances is made, and then the property is not configurable. -/
theorem plainOwn_spec (h : m.objects[id]? = some (some o)) (ho : o.IsPlain) (key : PropertyKey) :
    ∃ m', (plainOwn id key : Action σ (Option Property)) m = .ok (o.own? m.objects.size key) m' ∧
      m'.host = m.host ∧ (m' = m ∨ ((o.own? m.objects.size key).any (!·.configurable) ∧
        ∃ o', m'.objects[id]? = some (some o') ∧ o'.IsPlain ∧
          ∀ k fresh, o'.own? fresh k = o.own? m.objects.size k)) := by
  have hstored := ho.stored
  unfold plainOwn
  rw [Evolution.run_bind_ok (Action.object_run h)]
  split
  · next f units hp =>
    -- The one case where something is made: its number is the one that `own?` promises.
    by_cases hlazy : (f.isLazy && PropertyKey.name units = prototypeKey) = true
    · obtain ⟨m', hrun, hhost, hget⟩ := makePrototype_run h f
      obtain ⟨hlazy', hkey⟩ := Bool.and_eq_true_iff.mp hlazy
      have hown : o.own? m.objects.size (.name units) =
          some ⟨.data (.object m.objects.size), true, false, false⟩ := by
        simp only [Object.own?, hp, hlazy, if_true]
      refine ⟨m', ?_, hhost, .inr ⟨by rw [hown]; rfl, _, hget, o.isPlain_withPrototype f _,
        fun k fresh => Object.own?_withPrototype hp hlazy' _ fresh k⟩⟩
      simp only [hlazy, if_true]
      rw [Evolution.run_bind_ok hrun, Evolution.run_bind_ok (Action.object_run hget), hown, of_decide_eq_true hkey,
        Object.withPrototype, Object.find?_put_self]
      rfl
    · refine ⟨m, ?_, rfl, .inl rfl⟩
      simp only [Object.own?, hp, hlazy]
      rfl
  · next length isFixed units hp =>
    refine ⟨m, ?_, rfl, .inl rfl⟩
    simp only [Object.own?, hp]
    split <;> rfl
  · next t i hp => simp only [hp] at hstored
  · next t units hp => simp only [hp] at hstored
  · next hp => simp only [hp] at hstored
  · next hfunction harray hindexed hnamed helement =>
    refine ⟨m, ?_, rfl, .inl rfl⟩
    unfold Object.own?
    split
    · next f units hp => exact (hfunction f units hp rfl).elim
    · next length isFixed units hp => exact (harray length isFixed units hp rfl).elim
    · rfl

/-- The engine finds what the object says. -/
theorem Machine.own?_eq (h : m.objects[id]? = some (some o)) (ho : o.IsPlain) (key : PropertyKey) :
    m.own? id key = o.own? m.objects.size key := by
  obtain ⟨m', hrun, -⟩ := plainOwn_spec h ho key
  rw [Machine.own?, hrun]

theorem plainOwn_shows (h : m.Shows id own) (key : PropertyKey) :
    ∃ m', (plainOwn id key : Action σ (Option Property)) m = .ok (own key) m' ∧ m'.host = m.host ∧
      m'.Shows id own := by
  obtain ⟨o, hget, ho, hown⟩ := h
  obtain ⟨m', hrun, hhost, rfl | ⟨-, o', hget', ho', hsame⟩⟩ := plainOwn_spec hget ho key
  · exact ⟨m', hown key ▸ hrun, hhost, o, hget, ho, hown⟩
  · exact ⟨m', hown key ▸ hrun, hhost, o', hget', ho', fun k => (hsame k _).trans (hown k)⟩

/-- An array has nothing that is made when it is asked for. -/
theorem Machine.own?_of_array {length : Nat} {isFixed : Bool} (h : m.objects[id]? = some (some o))
    (hp : o.payload = .array length isFixed) (key : PropertyKey) : m.own? id key = o.own? 0 key := by
  unfold Machine.own? plainOwn Object.own?
  rw [Evolution.run_bind_ok (Action.object_run h), hp]
  cases key with
  | index i | symbol s => rfl
  | name units =>
    by_cases hlength : PropertyKey.name units = lengthKey
    · simp only [hlength, if_true]
      rfl
    · simp only [hlength, if_false]
      rfl

/-- An own property with a value is what reading gives, whatever is behind the object. -/
theorem get_shows (env : Env σ) (h : m.Shows id own) {key : PropertyKey} {p : Property} {v : Value}
    (hp : own key = some p) (hv : p.content = .data v) (receiver : Value) :
    ∃ m', (Access.get env id key receiver) m = .ok v m' ∧ m'.host = m.host ∧ m'.Shows id own := by
  obtain ⟨m', hrun, hhost, hshows⟩ := plainOwn_shows h key
  obtain ⟨o, hget, ho, -⟩ := h
  have hstored := ho.stored
  refine ⟨m', ?_, hhost, hshows⟩
  change (getFrom env key receiver (m.objects.size + 1) (some id)) m = _
  unfold getFrom
  rw [Evolution.run_bind_ok (Action.object_run hget)]
  split
  · next hproxy => simp only [hproxy] at hstored
  · rw [Evolution.run_bind_ok hrun, hp]
    dsimp only
    rw [hv]
    rfl

end PluginRelay.Script
