import Mathlib.Data.List.Nodup
import Mathlib.Data.List.Pairwise
import Mathlib.Data.List.TakeDrop
import PluginRelay.Proofs.OwnProperties

/-!
# Keys of plain objects

The engine lists the keys of an object by kind and age, each once. Symbols and what is not enumerable are no members for
a program, and the length of an array is neither of what is stored nor enumerable, so it is no member either.
-/
namespace PluginRelay.Script

open Access

theorem PropertyKey.exists_units {key : PropertyKey} (h : key.isSymbol = false) : ∃ units, key.units? = some units := by
  cases key with
  | symbol s => nomatch h
  | index i | name t => exact ⟨_, rfl⟩

theorem Property.exists_value {p : Property} (h : p.isData) : ∃ v, p.content = .data v := by
  unfold isData at h
  split at h
  · next v hv => exact ⟨v, hv⟩
  · nomatch h

/-! ### Stored keys -/

theorem Object.ownKeys_perm (o : Object) : o.ownKeys.Perm o.properties.keys := by
  unfold ownKeys
  refine ((List.mergeSort_perm _ _).map _).trans ?_
  rw [List.map_map, ← Std.HashMap.map_fst_toList_eq_keys]
  exact List.Perm.refl _

theorem Object.mem_ownKeys {o : Object} {key : PropertyKey} : key ∈ o.ownKeys ↔ (o.find? key).isSome := by
  rw [o.ownKeys_perm.mem_iff, Std.HashMap.mem_keys, find?, Option.isSome_map, Std.HashMap.isSome_getElem?_iff_mem]

theorem Object.nodup_ownKeys (o : Object) : o.ownKeys.Nodup :=
  o.ownKeys_perm.nodup_iff.mpr Std.HashMap.nodup_keys

/-- Whether a key is a member for a program: it is a text, and the property under it is enumerable. -/
def isMember (own : PropertyKey → Option Property) (key : PropertyKey) : Bool :=
  !key.isSymbol && (own key).any (·.enumerable)

/-- The keys of the members, in the order of the engine. -/
def Object.memberKeys (o : Object) (fresh : ObjectId) : List PropertyKey :=
  o.ownKeys.filter (isMember (o.own? fresh))

/-- The object has each key in one form only: a text that is the numeral of an index is that index. -/
def Object.IsCanonical (o : Object) : Prop :=
  ∀ key ∈ o.ownKeys, ∀ units, key.units? = some units → key = .ofUnits units

theorem Object.isCanonical_iff {o : Object} :
    o.IsCanonical ↔ ∀ key ∈ o.ownKeys, key.units?.all fun units => key = .ofUnits units := by
  simp only [IsCanonical, Option.all_eq_true, decide_eq_true_eq]

/-- What is enumerable is stored. -/
theorem Object.find?_of_enumerable {o : Object} {fresh : ObjectId} {key : PropertyKey} {p : Property}
    (h : o.own? fresh key = some p) (hp : p.enumerable = true) : o.find? key = some p := by
  unfold own? at h
  split at h
  · split at h
    · obtain rfl := Option.some.inj h
      exact Bool.noConfusion hp
    · exact h
  · split at h
    · obtain rfl := Option.some.inj h
      exact Bool.noConfusion hp
    · exact h
  · exact h

/-- Each member has its key among them once. -/
theorem Object.mem_memberKeys {o : Object} {fresh : ObjectId} {key : PropertyKey} :
    key ∈ o.memberKeys fresh ↔ key.isSymbol = false ∧ ∃ p, o.own? fresh key = some p ∧ p.enumerable = true := by
  unfold memberKeys isMember
  rw [List.mem_filter, Bool.and_eq_true, Bool.not_eq_true', Option.any_eq_true, mem_ownKeys]
  constructor
  · exact And.right
  · rintro ⟨hsymbol, p, hown, hp⟩
    exact ⟨by rw [find?_of_enumerable hown hp]; rfl, hsymbol, p, hown, hp⟩

theorem Object.nodup_memberKeys (o : Object) (fresh : ObjectId) : (o.memberKeys fresh).Nodup :=
  o.nodup_ownKeys.filter _

/-! ### The order of keys -/

/-- The keys with their stamps, in no order. -/
def Object.stamps (o : Object) : List (PropertyKey × Nat) :=
  o.properties.toList.map fun entry => (entry.1, entry.2.1)

theorem Object.keyLess_trans (a b c : PropertyKey × Nat) (hab : keyLess a b = true) (hbc : keyLess b c = true) :
    keyLess a c = true := by
  simp only [keyLess, Bool.or_eq_true, Bool.and_eq_true, decide_eq_true_eq] at *
  omega

theorem Object.keyLess_total (a b : PropertyKey × Nat) : (keyLess a b || keyLess b a) = true := by
  simp only [keyLess, Bool.or_eq_true, Bool.and_eq_true, decide_eq_true_eq]
  omega

/-- What has all keys with their stamps, each before those that do not come before it, is the order of the engine. -/
theorem Object.ownKeys_eq_of_perm {o : Object} {listed : List (PropertyKey × Nat)} (h : o.stamps.Perm listed)
    (hsorted : listed.Pairwise fun a b => keyLess b a = false) : o.ownKeys = listed.map Prod.fst := by
  have hpairwise : listed.Pairwise fun a b => keyLess a b = true :=
    hsorted.imp fun {a b} hlater => by simpa [hlater] using keyLess_total a b
  let SameIfBoth (a b : PropertyKey × Nat) : Prop := keyLess a b = true → keyLess b a = true → a = b
  have hsymm : Std.Symm SameIfBoth := ⟨fun a b h hba hab => (h hab hba).symm⟩
  have hantisymm : listed.Pairwise SameIfBoth := hsorted.imp fun {a b} hlater _ hba => by simp [hlater] at hba
  have hsame : o.stamps.mergeSort keyLess = listed := by
    have hperm := (List.mergeSort_perm o.stamps keyLess).trans h
    exact hperm.eq_of_pairwise (fun a b ha hb =>
      hantisymm.forall_of_forall (fun _ _ _ _ => rfl) (hperm.mem_iff.mp ha) hb)
      (List.pairwise_mergeSort keyLess_trans keyLess_total _) hpairwise
  exact congrArg (List.map Prod.fst) hsame

/-- A new property gets the next stamp. -/
theorem Object.stamps_put {o : Object} {key : PropertyKey} (h : o.find? key = none) (p : Property) :
    (o.put key p).nextStamp = o.nextStamp + 1 ∧ (o.put key p).stamps.Perm ((key, o.nextStamp) :: o.stamps) := by
  have habsent : o.properties[key]? = none := by simpa [find?] using h
  have hkept : o.properties.toList.filter (fun entry => ¬(key == entry.1) = true) = o.properties.toList := by
    refine List.filter_eq_self.mpr fun entry hentry => ?_
    have hstored := Std.HashMap.mem_toList_iff_getElem?_eq_some.mp hentry
    by_cases hkey : key = entry.1
    · rw [← hkey, habsent] at hstored
      cases hstored
    · simpa using hkey
  have hinserted := Std.HashMap.toList_insert_perm (m := o.properties) (k := key) (v := (o.nextStamp, p))
  rw [hkept] at hinserted
  unfold put stamps
  rw [habsent]
  exact ⟨rfl, hinserted.map fun entry => (entry.1, entry.2.1)⟩

/-- Properties under different keys have their places for stamps. -/
theorem Object.stamps_ofEntries {entries : List (PropertyKey × Property)} (payload : Payload)
    (h : (entries.map Prod.fst).Nodup) : (ofEntries payload entries).nextStamp = entries.length ∧
      (ofEntries payload entries).stamps.Perm (entries.map Prod.fst).zipIdx := by
  induction entries using List.reverseRecOn with
  | nil => exact ⟨rfl, by simp [stamps, ofEntries, new]⟩
  | append_singleton entries entry ih =>
    rw [List.map_append, List.map_singleton, List.nodup_append] at h
    obtain ⟨hentries, -, hnew⟩ := h
    obtain ⟨hnext, hperm⟩ := ih hentries
    have habsent : (ofEntries payload entries).find? entry.1 = none := by
      rw [find?_ofEntries, List.lookup_eq_none_iff]
      intro other hother
      have hmem := List.mem_map_of_mem (f := Prod.fst) (List.mem_reverse.mp hother)
      exact bne_iff_ne.mpr (Ne.symm (hnew _ hmem _ (List.mem_singleton_self _)))
    obtain ⟨hnext', hperm'⟩ := stamps_put habsent entry.2
    rw [ofEntries_concat, hnext', hnext, List.length_append, List.length_singleton]
    refine ⟨rfl, hperm'.trans ?_⟩
    rw [hnext, List.map_append, List.zipIdx_append, List.length_map]
    refine (hperm.cons _).trans ?_
    simpa using (List.perm_append_singleton _ _).symm

theorem Object.ownKeys_ofEntries {entries : List (PropertyKey × Property)} (payload : Payload)
    (listed : List (PropertyKey × Nat)) (h : (entries.map Prod.fst).Nodup) (hperm : (entries.map Prod.fst).zipIdx.Perm listed)
    (hsorted : listed.Pairwise fun a b => keyLess b a = false) :
    (ofEntries payload entries).ownKeys = listed.map Prod.fst :=
  ownKeys_eq_of_perm ((stamps_ofEntries payload h).2.trans hperm) hsorted

/-- Of an ordinary object all properties are found where they were put. -/
theorem Object.memberKeys_ofEntries (entries : List (PropertyKey × Property)) (fresh : ObjectId) :
    (ofEntries .ordinary entries).memberKeys fresh =
      (ofEntries .ordinary entries).ownKeys.filter (isMember fun key => entries.reverse.lookup key) := by
  have hown : (ofEntries .ordinary entries).own? fresh = fun key => entries.reverse.lookup key :=
    funext fun key => (own?_of_ordinary (payload_ofEntries _ _) _ _).trans (find?_ofEntries _ _ _)
  rw [memberKeys, hown]

/-! ### What the engine lists -/

variable {σ : Type} [Evolving σ] {m : Machine σ} {id : ObjectId} {o : Object}

theorem visibleKeys_run (keys : List PropertyKey) (m : Machine σ) :
    ∃ listed, (visibleKeys keys : Action σ (List PropertyKey)) m = .ok listed m ∧
      ∀ own, listed.filter (isMember own) = keys.filter (isMember own) := by
  refine ⟨_, rfl, fun own => ?_⟩
  rw [List.filter_filter]
  refine List.filter_congr fun key _ => ?_
  cases key with
  | index i | name units => rw [Bool.and_true]
  | symbol s => rfl

/-- Of what the engine lists, the stored members are members. -/
theorem ownKeys_run (env : Env σ) (h : m.objects[id]? = some (some o)) (ho : o.IsPlain) :
    ∃ listed, (Access.ownKeys env id) m = .ok listed m ∧
      listed.filter (isMember (o.own? m.objects.size)) = o.memberKeys m.objects.size := by
  have hstored := ho.stored
  obtain ⟨stored, hvisible, hmembers⟩ := visibleKeys_run o.ownKeys m
  unfold Access.ownKeys
  rw [Evolution.run_bind_ok (Action.payload_run h)]
  split
  · next hp => simp only [hp] at hstored
  · unfold plainKeys
    rw [Evolution.run_bind_ok (Action.object_run h), Evolution.run_bind_ok hvisible]
    split
    · next length isFixed hp =>
      refine ⟨_, rfl, ?_⟩
      have hlength : isMember (o.own? m.objects.size) lengthKey = false := by
        simp only [isMember, lengthKey, Object.own?, hp, if_true, Option.any_some, Bool.and_false]
      have hspan (isIndex : PropertyKey → Bool) : (stored.span isIndex).1 ++ (stored.span isIndex).2 = stored := by
        rw [List.span_eq_takeWhile_dropWhile, List.takeWhile_append_dropWhile]
      rw [List.filter_append, List.filter_cons_of_neg (Bool.eq_false_iff.mp hlength), ← List.filter_append]
      exact (congrArg _ (hspan _)).trans (hmembers _)
    · next t hp => simp only [hp] at hstored
    · next hp => simp only [hp] at hstored
    · exact ⟨stored, rfl, hmembers _⟩

/-! ### Listing -/

variable {own : PropertyKey → Option Property}

/-- One step of a listing: the text of a key that is a member is put behind the others. -/
def listKey (env : Env σ) (id : ObjectId) (key : PropertyKey) (texts : Array Units) :
    Action σ (ForInStep (Array Units)) :=
  match key.units? with
  | some units => do
    match ← getOwn env id key with
    | some p => if p.enumerable then return .yield (texts.push units) else return .yield texts
    | _ => return .yield texts
  | _ => return .yield texts

theorem getOwn_shows (env : Env σ) (h : m.Shows id own) (key : PropertyKey) :
    ∃ m', (getOwn env id key) m = .ok (own key) m' ∧ m'.host = m.host ∧ m'.Shows id own := by
  obtain ⟨m', hrun, hkept⟩ := plainOwn_shows h key
  obtain ⟨o, hget, ho, -⟩ := h
  have hstored := ho.stored
  refine ⟨m', ?_, hkept⟩
  unfold getOwn
  rw [Evolution.run_bind_ok (Action.payload_run hget)]
  split
  · next hp => simp only [hp] at hstored
  · exact hrun

/-- The text of a key that is a member. -/
def memberText? (own : PropertyKey → Option Property) (key : PropertyKey) : Option Units :=
  if isMember own key then key.units? else none

theorem listKey_run (env : Env σ) (h : m.Shows id own) (key : PropertyKey) (texts : Array Units) :
    ∃ m', (listKey env id key texts) m =
        .ok (.yield (texts ++ (memberText? own key).toList.toArray)) m' ∧ m'.host = m.host ∧ m'.Shows id own := by
  unfold listKey
  split
  · next units hunits =>
    have hsymbol : key.isSymbol = false := by
      cases key with
      | symbol s => nomatch hunits
      | index i | name t => rfl
    obtain ⟨m', hrun, hkept⟩ := getOwn_shows env h key
    refine ⟨m', ?_, hkept⟩
    rw [Evolution.run_bind_ok hrun, memberText?, isMember, hsymbol, hunits, Bool.not_false, Bool.true_and]
    cases hown : own key with
    | none => rfl
    | some p =>
      cases hp : p.enumerable with
      | true => simp only [hp, Option.any_some, if_true, Option.toList_some, Array.append_singleton]; rfl
      | false => simp only [hp, Option.any_some, Bool.false_eq_true, if_false]; rfl
  · next hunits =>
    refine ⟨m, ?_, rfl, h⟩
    rw [memberText?, Option.eq_none_iff_forall_ne_some.mpr hunits, ite_self]
    rfl

/-- A listing goes through all keys, and changes nothing on its way. -/
theorem listKeys_run (env : Env σ) (h : m.Shows id own) (keys : List PropertyKey) (texts : Array Units) :
    ∃ m', (forIn keys texts (listKey env id)) m = .ok (texts ++ (keys.filterMap (memberText? own)).toArray) m' ∧
      m'.host = m.host ∧ m'.Shows id own := by
  induction keys generalizing m texts with
  | nil => exact ⟨m, by rw [List.filterMap_nil, Array.append_empty]; rfl, rfl, h⟩
  | cons key keys ih =>
    obtain ⟨m₁, hstep, hhost₁, hshows₁⟩ := listKey_run env h key texts
    obtain ⟨m', hrest, hhost, hshows⟩ := ih hshows₁ (texts ++ (memberText? own key).toList.toArray)
    refine ⟨m', ?_, hhost.trans hhost₁, hshows⟩
    rw [List.forIn_cons, Evolution.run_bind_ok hstep]
    dsimp only
    rw [hrest]
    cases htext : memberText? own key <;> simp [htext]

end PluginRelay.Script
