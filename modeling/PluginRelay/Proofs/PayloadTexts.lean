import PluginRelay.Payload.Json
import PluginRelay.Proofs.JsonBounds
import PluginRelay.Proofs.UntaggedValues

/-!
# Payloads that were JSON

The payload that a JSON text writes has a JSON form again, which reads like the value in the text, and it is
a value without tags that is nested and sized like the text.
-/
namespace PluginRelay.Payload

open Cbor (Value Integer)
open Json (Held)

/-! ## Parts of values -/

theorem ofJsonItems_eq (items : List Json.Value) : ofJsonItems items = items.map ofJson := by
  induction items with
  | nil => rfl
  | cons v items ih => rw [ofJsonItems, ih, List.map_cons]

theorem ofJsonMembers_eq (members : List (String × Json.Value)) :
    ofJsonMembers members = members.map fun m => (.text m.1, ofJson m.2) := by
  induction members with
  | nil => rfl
  | cons m members ih => rw [ofJsonMembers, ih, List.map_cons]

/-! ## Numbers -/

theorem ofInt_of_nonneg {n : Int64} (h : 0 ≤ n.toInt) :
    Value.ofInt n.toInt = .integer (.natural (UInt64.ofNat n.toInt.toNat)) := by
  have hfits : n.toInt < UInt64.size := lt_trans n.toInt_lt (by decide)
  rw [Value.ofInt, Integer.ofInt?, if_pos h, if_pos hfits]

theorem ofInt_of_neg {n : Int64} (h : n.toInt < 0) :
    Value.ofInt n.toInt = .integer (.negative (UInt64.ofNat (-1 - n.toInt).toNat)) := by
  have hfits : -(UInt64.size : Int) ≤ n.toInt := le_trans (by decide) n.le_toInt
  rw [Value.ofInt, Integer.ofInt?, if_neg (not_le.mpr h), if_pos hfits]

theorem exists_ofNumber (n : Json.Number) :
    (∃ i, ofNumber n = .integer i) ∨ ∃ x, ofNumber n = .float x := by
  cases n with
  | natural n => exact .inl ⟨_, rfl⟩
  | negative n =>
    rcases lt_or_ge n.toInt 0 with h | h
    · exact .inl ⟨_, ofInt_of_neg h⟩
    · exact .inl ⟨_, ofInt_of_nonneg h⟩
  | double x => exact .inr ⟨x, rfl⟩

theorem toJson?_ofInt_of_neg {n : Int64} (h : n.toInt < 0) :
    toJson? (Value.ofInt n.toInt) = some (.number (.negative n)) := by
  have hlow := n.le_toInt
  have hnat : (UInt64.ofNat (-1 - n.toInt).toNat).toNat = (-1 - n.toInt).toNat :=
    UInt64.toNat_ofNat_of_lt' (by simp only [UInt64.size]; omega)
  have hsmall : (-1 - n.toInt).toNat < 1 <<< 63 := by
    rw [Nat.one_shiftLeft]
    omega
  have hback : -1 - ((-1 - n.toInt).toNat : Int) = n.toInt := by omega
  rw [ofInt_of_neg h, toJson?, integerJson?, hnat, if_pos hsmall, hback, Int64.ofInt_toInt]

/-- A number has a JSON form that reads like it; what is no finite double reads as null on both sides. -/
theorem toJson?_ofNumber (n : Json.Number) :
    ∃ j, toJson? (ofNumber n) = some j ∧ j.render = n.render := by
  cases n with
  | natural n => exact ⟨_, rfl, rfl⟩
  | negative n =>
    rcases lt_or_ge n.toInt 0 with h | h
    · exact ⟨.number (.negative n), toJson?_ofInt_of_neg h, rfl⟩
    · have hhigh := n.toInt_lt
      have hnat : (UInt64.ofNat n.toInt.toNat).toNat = n.toInt.toNat :=
        UInt64.toNat_ofNat_of_lt' (by simp only [UInt64.size]; omega)
      refine ⟨.number (.natural (UInt64.ofNat n.toInt.toNat)), ?_, ?_⟩
      · rw [ofNumber, ofInt_of_nonneg h, toJson?, integerJson?]
      · rw [Json.Value.render, Json.Number.render, Json.Number.render, hnat]
        obtain ⟨k, hk⟩ := Int.eq_ofNat_of_zero_le h
        rw [hk]
        rfl
  | double x =>
    refine ⟨_, rfl, ?_⟩
    split_ifs with hx
    · rfl
    · simp [Json.Value.render, Json.Number.render, Json.doubleText, hx]

/-! ## There and back -/

theorem renderItems_congr {a b : List Json.Value} (h : a.map Json.Value.render = b.map Json.Value.render) :
    Json.renderItems a = Json.renderItems b := by
  induction a generalizing b with
  | nil =>
    obtain rfl := List.map_eq_nil_iff.mp h.symm
    rfl
  | cons v a ih =>
    match b, h with
    | w :: b, h =>
      obtain ⟨hhead, htail⟩ := List.cons.inj h
      match a, b, htail, ih htail with
      | [], [], _, _ => simpa [Json.renderItems] using hhead
      | _ :: _, _ :: _, _, hrest => simp only [Json.renderItems, hhead, hrest]

theorem renderMembers_congr {a b : List (String × Json.Value)}
    (h : a.map (fun m => (m.1, m.2.render)) = b.map fun m => (m.1, m.2.render)) :
    Json.renderMembers a = Json.renderMembers b := by
  induction a generalizing b with
  | nil =>
    obtain rfl := List.map_eq_nil_iff.mp h.symm
    rfl
  | cons m a ih =>
    match b, h with
    | n :: b, h =>
      obtain ⟨hhead, htail⟩ := List.cons.inj h
      obtain ⟨hkey, hvalue⟩ := Prod.mk.inj hhead
      match a, b, htail, ih htail with
      | [], [], _, _ => simp [Json.renderMembers, hkey, hvalue]
      | _ :: _, _ :: _, _, hrest => simp only [Json.renderMembers, hkey, hvalue, hrest]

theorem toJsonItems?_map {items : List Json.Value}
    (h : ∀ v ∈ items, ∃ j, toJson? (ofJson v) = some j ∧ j.render = v.render) :
    ∃ js, toJsonItems? (items.map ofJson) = some js ∧
      js.map Json.Value.render = items.map Json.Value.render := by
  induction items with
  | nil => exact ⟨[], rfl, rfl⟩
  | cons v items ih =>
    obtain ⟨j, hj, hrender⟩ := h v List.mem_cons_self
    obtain ⟨js, hjs, hrenders⟩ := ih fun w hw => h w (List.mem_cons_of_mem _ hw)
    refine ⟨j :: js, ?_, ?_⟩
    · rw [List.map_cons, toJsonItems?, hj, hjs]
      rfl
    · rw [List.map_cons, List.map_cons, hrender, hrenders]

theorem toJsonMembers?_map {members : List (String × Json.Value)}
    (h : ∀ m ∈ members, ∃ j, toJson? (ofJson m.2) = some j ∧ j.render = m.2.render) :
    ∃ ms, toJsonMembers? (members.map fun m => (.text m.1, ofJson m.2)) = some ms ∧
      ms.map (fun m => (m.1, m.2.render)) = members.map fun m => (m.1, m.2.render) := by
  induction members with
  | nil => exact ⟨[], rfl, rfl⟩
  | cons m members ih =>
    obtain ⟨j, hj, hrender⟩ := h m List.mem_cons_self
    obtain ⟨ms, hms, hrenders⟩ := ih fun n hn => h n (List.mem_cons_of_mem _ hn)
    refine ⟨(m.1, j) :: ms, ?_, ?_⟩
    · rw [List.map_cons, toJsonMembers?, keyText?, hj, hms]
      rfl
    · rw [List.map_cons, List.map_cons, hrender, hrenders]

/-- Members that have the keys of sorted ones stay where they are. -/
theorem sorted_of_map_eq {a b : List (String × Json.Value)} (hb : Keyed.Sorted b)
    (h : a.map (fun m => (m.1, m.2.render)) = b.map fun m => (m.1, m.2.render)) : Keyed.Sorted a := by
  have hkeys := congrArg (List.map Prod.fst) h
  rw [List.map_map, List.map_map] at hkeys
  rw [Keyed.sorted_iff_keys] at hb ⊢
  exact hkeys ▸ hb

theorem toJson?_ofJson {bytes depth : Nat} {v : Json.Value} (h : Held bytes depth v) :
    ∃ j, toJson? (ofJson v) = some j ∧ j.render = v.render := by
  induction h with
  | null => exact ⟨_, rfl, rfl⟩
  | bool => exact ⟨_, rfl, rfl⟩
  | number depth n =>
    obtain ⟨j, hj, hrender⟩ := toJson?_ofNumber n
    exact ⟨j, hj, by rw [hrender, Json.Value.render]⟩
  | string => exact ⟨_, rfl, rfl⟩
  | array hl _ ih =>
    obtain ⟨js, hjs, hrenders⟩ := toJsonItems?_map ih
    refine ⟨.array js, ?_, ?_⟩
    · rw [ofJson, ofJsonItems_eq, toJson?, hjs]
      rfl
    · rw [Json.Value.render, Json.Value.render, renderItems_congr hrenders]
  | object hl ho _ _ ih =>
    obtain ⟨ms, hms, hrenders⟩ := toJsonMembers?_map ih
    refine ⟨.object ms, ?_, ?_⟩
    · rw [ofJson, ofJsonMembers_eq, toJson?, hms, Option.map_some,
        Keyed.ofList_of_sorted (sorted_of_map_eq ho hrenders)]
    · rw [Json.Value.render, Json.Value.render, renderMembers_congr hrenders]

/-! ## Payloads as values -/

theorem readable_ofNumber (limit : Nat) (n : Json.Number) : (ofNumber n).Readable limit := by
  rcases exists_ofNumber n with ⟨i, hi⟩ | ⟨x, hx⟩
  · rw [hi]
    exact ⟨by rintro _ _ ⟨⟩, trivial, Nat.zero_le _⟩
  · rw [hx]
    exact ⟨by rintro _ _ ⟨⟩, trivial, Nat.zero_le _⟩

theorem readable_ofJson {bytes depth : Nat} {v : Json.Value} (h : Held bytes depth v)
    (hb : bytes < UInt64.size) : (ofJson v).Readable depth := by
  induction h with
  | number depth n => exact readable_ofNumber depth n
  | string depth hs =>
    rw [ofJson, Value.readable_text, Utf8.encode_ofList]
    exact lt_of_le_of_lt hs hb
  | array hl _ ih =>
    rw [ofJson, ofJsonItems_eq, Value.readable_array, List.length_map]
    exact ⟨lt_of_le_of_lt hl hb, by simpa using ih⟩
  | object hl _ hk _ ih =>
    rw [ofJson, ofJsonMembers_eq, Value.readable_map, List.length_map]
    refine ⟨lt_of_le_of_lt hl hb, List.forall_mem_map.mpr fun m hm => ⟨?_, ih m hm⟩⟩
    exact Value.readable_text.mpr (lt_of_le_of_lt (hk m hm) hb)
  | _ => exact ⟨by rintro _ _ ⟨⟩, trivial, Nat.zero_le _⟩

/-! ## Parsed payloads -/

theorem parse_eq_ok {text : String} {v : Value} (h : parse text = .ok v) :
    ∃ j, Json.parse? text = some j ∧ v = ofJson j := by
  unfold parse at h
  split at h
  next j hj => exact ⟨j, hj, (Except.ok.inj h).symm⟩
  next => simp at h

/-- The payload reads like the value in the text. -/
theorem render_of_parse {text : String} {v : Value} (h : parse text = .ok v) :
    ∃ j, Json.parse? text = some j ∧ render v = .ok j.render := by
  obtain ⟨j, hj, rfl⟩ := parse_eq_ok h
  obtain ⟨k, hk, hrender⟩ := toJson?_ofJson (Json.held_of_parse? hj)
  refine ⟨j, hj, ?_⟩
  rw [render, hk]
  exact congrArg Except.ok hrender

theorem readable_of_parse {text : String} {v : Value} (h : parse text = .ok v)
    (hs : (Value.text text).Sized) : v.Readable Json.depthLimit := by
  obtain ⟨j, hj, rfl⟩ := parse_eq_ok h
  exact readable_ofJson (Json.held_of_parse? hj) hs

end PluginRelay.Payload
