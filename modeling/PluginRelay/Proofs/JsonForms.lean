import Mathlib
import PluginRelay.Payload.Json
import PluginRelay.Proofs.KeyedOrder
import PluginRelay.Proofs.UntaggedValues
import PluginRelay.Proofs.Utf8Order

/-!
# Which payloads have a JSON form

`HasForm` is what JSON asks of each value in a payload, and `Image` relates a payload to the JSON value with the
same structure: members in the order of their keys, of several under one key the last. A payload without tags
has a JSON form exactly if every value in it has one, and the form is then its image.
-/
namespace PluginRelay.Payload

open Cbor (Value Integer)
open Keyed (find? occurrences)

/-- The integer that a JSON number is, if it is one. -/
def numberInt? : Json.Number → Option Int
  | .natural n => some n.toNat
  | .negative n => some n.toInt
  | .double _ => none

/-- What JSON asks of a value, whatever is in it: no byte string, no integer below the range, texts as keys. -/
def HasForm : Value → Prop
  | .bytes _ => False
  | .integer n => -(2 : Int) ^ 63 ≤ n.toInt
  | .map entries => ∀ e ∈ entries, ∃ s, e.1 = .text s
  | _ => True

/-- The JSON value of the same structure. -/
inductive Image : Value → Json.Value → Prop
  | null : Image .null .null
  | bool (b : Bool) : Image (.bool b) (.bool b)
  | integer {n : Integer} {m : Json.Number} (h : numberInt? m = some n.toInt) : Image (.integer n) (.number m)
  | finite {x : Binary64} (h : x.isFinite) : Image (.float x) (.number (.double x))
  | nonFinite {x : Binary64} (h : ¬x.isFinite) : Image (.float x) .null
  | text (s : String) : Image (.text s) (.string s)
  | array {items : List Value} {forms : List Json.Value} (h : List.Forall₂ Image items forms) :
    Image (.array items) (.array forms)
  /-- Under each key stands the image of the last value that has the key. -/
  | map {fields : List (String × Value)} {members : List (String × Json.Value)}
    (ho : members.Pairwise fun a b => Utf8.encode a.1 < Utf8.encode b.1)
    (h : ∀ key, Option.Rel Image (occurrences key fields).getLast? (find? key members)) :
    Image (.ofFields fields) (.object members)

/-! ## Success -/

theorem isSome_integerJson? (n : Integer) : (integerJson? n).isSome ↔ -(2 : Int) ^ 63 ≤ n.toInt := by
  cases n with
  | natural n =>
    simp only [integerJson?, Option.isSome_some, Integer.toInt, true_iff]
    omega
  | negative n =>
    have hpow : (1 <<< 63 : Nat) = 2 ^ 63 := Nat.one_shiftLeft 63
    simp only [integerJson?, Integer.toInt, hpow]
    split_ifs with h
    · simp only [Option.isSome_some, true_iff]
      omega
    · simp only [Option.isSome_none, Bool.false_eq_true, false_iff]
      omega

theorem isSome_keyText? {k : Value} (hu : k.Untagged) : (keyText? k).isSome ↔ ∃ s, k = .text s := by
  cases k with
  | tag n item => exact absurd rfl (hu.self n item)
  | _ => simp [keyText?]

theorem isSome_toJsonItems? {items : List Value} :
    (toJsonItems? items).isSome ↔ ∀ v ∈ items, (toJson? v).isSome := by
  induction items with
  | nil => simp [toJsonItems?]
  | cons v items ih =>
    rw [toJsonItems?, List.forall_mem_cons, ← ih]
    cases toJson? v with
    | none => simp
    | some j => cases toJsonItems? items <;> simp

theorem isSome_toJsonMembers? {entries : List (Value × Value)} : (toJsonMembers? entries).isSome ↔
    ∀ e ∈ entries, (keyText? e.1).isSome ∧ (toJson? e.2).isSome := by
  induction entries with
  | nil => simp [toJsonMembers?]
  | cons e entries ih =>
    rw [toJsonMembers?, List.forall_mem_cons, ← ih]
    cases keyText? e.1 with
    | none => simp
    | some s =>
      cases toJson? e.2 with
      | none => simp
      | some j => cases toJsonMembers? entries <;> simp

/-- A key that is a text has a form, like everything of a single kind that JSON has. -/
theorem isSome_toJson? {v : Value} (hu : v.Untagged) : (toJson? v).isSome ↔ v.Everywhere HasForm := by
  induction v using Value.inductionOn with
  | integer n => exact isSome_integerJson? n
  | tag n item => exact absurd rfl (hu.self n item)
  | array items ih =>
    obtain ⟨-, hu⟩ := Value.everywhere_array.mp hu
    rw [toJson?, Option.isSome_map, isSome_toJsonItems?, Value.everywhere_array]
    exact ⟨fun h => ⟨trivial, fun v hv => (ih v hv (hu v hv)).mp (h v hv)⟩,
      fun h v hv => (ih v hv (hu v hv)).mpr (h.2 v hv)⟩
  | map entries ih =>
    rw [Value.untagged_map] at hu
    rw [toJson?, Option.isSome_map, isSome_toJsonMembers?, Value.everywhere_map]
    constructor
    · intro h
      have hkey (e) (he : e ∈ entries) : ∃ s, e.1 = .text s := (isSome_keyText? (hu e he).1).mp (h e he).1
      refine ⟨hkey, fun e he => ⟨?_, ((ih e he).2 (hu e he).2).mp (h e he).2⟩⟩
      obtain ⟨s, hs⟩ := hkey e he
      rw [hs]
      trivial
    · rintro ⟨hkey, h⟩ e he
      exact ⟨(isSome_keyText? (hu e he).1).mpr (hkey e he), ((ih e he).2 (hu e he).2).mpr (h e he).2⟩
  | _ => simp [toJson?, Value.Everywhere, HasForm]

/-! ## The form -/

theorem numberInt?_of_integerJson? {n : Integer} {j : Json.Value} (h : integerJson? n = some j) :
    ∃ m, j = .number m ∧ numberInt? m = some n.toInt := by
  cases n with
  | natural n =>
    obtain rfl := Option.some.inj h
    exact ⟨_, rfl, rfl⟩
  | negative n =>
    rw [integerJson?, Nat.one_shiftLeft] at h
    split_ifs at h with hn
    obtain rfl := Option.some.inj h
    refine ⟨_, rfl, ?_⟩
    rw [numberInt?, Int64.toInt_ofInt_of_le (by omega) (by omega), Integer.toInt]

theorem images_of_toJsonItems? {items : List Value} {forms : List Json.Value}
    (h : toJsonItems? items = some forms) (himage : ∀ v ∈ items, ∀ j, toJson? v = some j → Image v j) :
    List.Forall₂ Image items forms := by
  induction items generalizing forms with
  | nil =>
    obtain rfl := Option.some.inj h
    exact .nil
  | cons v items ih =>
    obtain ⟨j, hj, h⟩ := Option.bind_eq_some_iff.mp h
    obtain ⟨rest, hrest, h⟩ := Option.bind_eq_some_iff.mp h
    obtain rfl := Option.some.inj h
    exact .cons (himage v List.mem_cons_self j hj) (ih hrest fun w hw => himage w (List.mem_cons_of_mem _ hw))

/-- The entries of a map that has a form are fields, and the forms of the values under a key are the members under
it. -/
theorem fields_of_toJsonMembers? {entries : List (Value × Value)} (hu : ∀ e ∈ entries, e.1.Untagged)
    {members : List (String × Json.Value)} (h : toJsonMembers? entries = some members) :
    ∃ fields : List (String × Value), entries = fields.map (fun (k, v) => (.text k, v)) ∧
      ∀ key, (occurrences key members).map some = (occurrences key fields).map toJson? := by
  induction entries generalizing members with
  | nil =>
    obtain rfl := Option.some.inj h
    exact ⟨[], rfl, fun _ => rfl⟩
  | cons e entries ih =>
    obtain ⟨k, hk, h⟩ := Option.bind_eq_some_iff.mp h
    obtain ⟨j, hj, h⟩ := Option.bind_eq_some_iff.mp h
    obtain ⟨rest, hrest, h⟩ := Option.bind_eq_some_iff.mp h
    obtain rfl := Option.some.inj h
    obtain ⟨fields, rfl, hfields⟩ := ih (fun e he => hu e (List.mem_cons_of_mem _ he)) hrest
    obtain ⟨s, hs⟩ := (isSome_keyText? (hu e List.mem_cons_self)).mp (Option.isSome_of_eq_some hk)
    obtain ⟨key, v⟩ := e
    obtain rfl : key = .text s := hs
    obtain rfl : s = k := Option.some.inj hk
    refine ⟨(s, v) :: fields, rfl, fun key => ?_⟩
    rw [Keyed.occurrences_cons, Keyed.occurrences_cons]
    split_ifs
    · rw [List.map_cons, List.map_cons, hfields key, hj]
    · exact hfields key

/-- Of several entries under one key the last counts, in the map and in the object. -/
theorem image_of_toJsonMembers? {entries : List (Value × Value)} (hu : ∀ e ∈ entries, e.1.Untagged)
    {members : List (String × Json.Value)} (h : toJsonMembers? entries = some members)
    (himage : ∀ e ∈ entries, ∀ j, toJson? e.2 = some j → Image e.2 j) :
    Image (.map entries) (.object (Keyed.ofList members)) := by
  obtain ⟨fields, rfl, hfields⟩ := fields_of_toJsonMembers? hu h
  refine .map ?_ fun key => ?_
  · exact (Keyed.sorted_ofList members).imp Utf8.encode_lt
  · have hlast := congrArg List.getLast? (hfields key)
    rw [List.getLast?_map, List.getLast?_map] at hlast
    rw [Keyed.find?_ofList]
    cases hv : (occurrences key fields).getLast? with
    | none =>
      rw [hv, Option.map_none, Option.map_eq_none_iff] at hlast
      rw [hlast]
      exact .none
    | some v =>
      rw [hv, Option.map_some] at hlast
      obtain ⟨j, hj, heq⟩ := Option.map_eq_some_iff.mp hlast
      have hmem := List.mem_map_of_mem (f := fun f : String × Value => (Value.text f.1, f.2))
        (Keyed.mem_occurrences.mp (List.mem_of_getLast? hv))
      rw [hj]
      exact .some (himage _ hmem _ heq.symm)

theorem image_of_toJson? {v : Value} (hu : v.Untagged) {j : Json.Value} (h : toJson? v = some j) : Image v j := by
  induction v using Value.inductionOn generalizing j with
  | null =>
    obtain rfl := Option.some.inj h
    exact .null
  | bool b =>
    obtain rfl := Option.some.inj h
    exact .bool b
  | integer n =>
    obtain ⟨m, rfl, hm⟩ := numberInt?_of_integerJson? h
    exact .integer hm
  | float x =>
    obtain rfl := Option.some.inj h
    split_ifs with hx
    · exact .finite hx
    · exact .nonFinite hx
  | text s =>
    obtain rfl := Option.some.inj h
    exact .text s
  | bytes b => simp [toJson?] at h
  | array items ih =>
    obtain ⟨-, hu⟩ := Value.everywhere_array.mp hu
    obtain ⟨forms, hforms, rfl⟩ := Option.map_eq_some_iff.mp h
    exact .array (images_of_toJsonItems? hforms fun v hv j hj => ih v hv (hu v hv) hj)
  | map entries ih =>
    rw [Value.untagged_map] at hu
    obtain ⟨members, hmembers, rfl⟩ := Option.map_eq_some_iff.mp h
    exact image_of_toJsonMembers? (fun e he => (hu e he).1) hmembers
      fun e he j hj => (ih e he).2 (hu e he).2 hj
  | tag n item => exact absurd rfl (hu.self n item)

/-- A payload without tags is printed exactly if every value in it has a form; what is printed is its image, and the
one thing reported otherwise is that there is none. -/
theorem render_eq_image {v : Value} (hu : v.Untagged) :
    ((∃ text, render v = .ok text) ↔ v.Everywhere HasForm) ∧
    (∀ text, render v = .ok text → ∃ j, Image v j ∧ text = j.render) ∧
    ∀ fault, render v = .error fault → fault.message = "response payload has no JSON representation" := by
  have hform := isSome_toJson? hu
  cases hj : toJson? v with
  | none =>
    have hrender : render v = .error .noJsonForm := by rw [render, hj]
    rw [hj] at hform
    rw [hrender]
    exact ⟨by simpa using hform, by rintro _ ⟨⟩, by rintro _ ⟨⟩; rfl⟩
  | some j =>
    have hrender : render v = .ok j.render := by rw [render, hj]
    rw [hj] at hform
    rw [hrender]
    refine ⟨by simpa using hform, ?_, by rintro _ ⟨⟩⟩
    rintro _ ⟨⟩
    exact ⟨j, image_of_toJson? hu hj, rfl⟩

/-- Keys out of order, one of them twice, and an infinity; and a byte string far inside. -/
theorem render_eq_image_normalised :
    let v : Value := .map [(.text "b", .integer (.natural 1)),
      (.text "a", .array [.float .infinity, .integer (.negative 0x7FFFFFFFFFFFFFFF)]), (.text "b", .text "x")]
    let w : Value := .map [(.text "a", .array [.bool true, .array [.bytes [1]]])]
    (v.Untagged ∧ w.Untagged) ∧
      (∃ j, Image v j ∧ j.render = "\x7b\"a\":[null,-9223372036854775808],\"b\":\"x\"\x7d") ∧
      ∃ fault, render w = .error fault ∧ fault.message = "response payload has no JSON representation" := by
  intro v w
  have hv : v.Untagged := by
    simp [v, Value.Untagged, Value.Everywhere, Value.EverywhereEntries, Value.EverywhereItems]
  have hw : w.Untagged := by
    simp [w, Value.Untagged, Value.Everywhere, Value.EverywhereEntries, Value.EverywhereItems]
  have hprinted : render v = .ok "\x7b\"a\":[null,-9223372036854775808],\"b\":\"x\"\x7d" := by
    dsimp only [v]
    cbv
  have hrefused : render w = .error .noJsonForm := rfl
  obtain ⟨j, himage, hj⟩ := (render_eq_image hv).2.1 _ hprinted
  exact ⟨⟨hv, hw⟩, ⟨j, himage, hj.symm⟩, _, hrefused, (render_eq_image hw).2.2 _ hrefused⟩

end PluginRelay.Payload
