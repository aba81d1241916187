import Mathlib
import PluginRelay.Proofs.JsonForms
import PluginRelay.Proofs.PayloadTexts
import PluginRelay.Proofs.WrittenJson

/-!
# Payloads that JSON keeps

A JSON text is read in two steps: first every member as it stands, then the members of each object in the order of
their keys, of several under one key the last. A payload of integers, texts, arrays and maps in that order is
printed and read back as it was, so that printing what was read is a normal form of the text.
-/
namespace PluginRelay.Json

/-! ## Members as they stand -/

mutual

/-- The value with the members of each object in the order of their keys, the last one under each key. -/
def Value.normal : Value → Value
  | .array items => .array (normalItems items)
  | .object members => .object (Keyed.ofList (normalMembers members))
  | v => v

def normalItems : List Value → List Value
  | [] => []
  | v :: rest => v.normal :: normalItems rest

def normalMembers : List (String × Value) → List (String × Value)
  | [] => []
  | (k, v) :: rest => (k, v.normal) :: normalMembers rest

end

/-- A value with all its members in the order of the text. -/
def written (depth : Nat) (text : List Char) : Option (Value × List Char) :=
  match depth, skipBlanks text with
  | 0, '[' :: _ => none
  | 0, '{' :: _ => none
  | depth + 1, '[' :: rest => (items (written depth) rest).map fun (vs, rest) => (.array vs, rest)
  | depth + 1, '{' :: rest => (entries (written depth) rest).map fun (es, rest) => (.object es, rest)
  | _, text => scalar text

/-- What a text writes, member by member. -/
def written? (text : String) : Option Value :=
  match written depthLimit text.toList with
  | some (v, rest) => if (skipBlanks rest).isEmpty then some v else none
  | none => none

theorem normalItems_eq (items : List Value) : normalItems items = items.map Value.normal := by
  induction items with
  | nil => rfl
  | cons v items ih => rw [normalItems, ih, List.map_cons]

theorem normalMembers_eq (members : List (String × Value)) :
    normalMembers members = members.map fun m => (m.1, m.2.normal) := by
  induction members with
  | nil => rfl
  | cons m members ih => rw [normalMembers, ih, List.map_cons]

/-- Under each key of an object stands the last of its values. -/
theorem normal_object (members : List (String × Value)) :
    ∃ kept, (Value.object members).normal = .object kept ∧
      (kept.Pairwise fun a b => Utf8.encode a.1 < Utf8.encode b.1) ∧
      ∀ key, Keyed.find? key kept = (Keyed.occurrences key members).getLast?.map Value.normal := by
  refine ⟨_, by rw [Value.normal], (Keyed.sorted_ofList _).imp Utf8.encode_lt, fun key => ?_⟩
  have hkey : Keyed.occurrences key (normalMembers members) = (Keyed.occurrences key members).map Value.normal := by
    rw [normalMembers_eq, Keyed.occurrences, Keyed.occurrences, List.filter_map, List.map_map, List.map_map]
    rfl
  rw [Keyed.find?_ofList, hkey, List.getLast?_map]

section

variable {item raw : Reader Value} (h : ∀ text, item text = (raw text).map fun (w, rest) => (w.normal, rest))
include h

theorem itemsTail_normal (fuel : Nat) (text : List Char) :
    itemsTail item fuel text = (itemsTail raw fuel text).map fun (ws, rest) => (normalItems ws, rest) := by
  fun_induction itemsTail raw fuel text with
  | case1 fuel text rest hskip =>
    rw [itemsTail.eq_def, hskip]
    rfl
  | case2 text fuel rest hskip ih =>
    rw [itemsTail.eq_def, hskip]
    simp only [h, Option.bind_eq_bind]
    cases raw rest with
    | none => rfl
    | some p =>
      simp only [Option.map_some, Option.bind_some, ih]
      cases itemsTail raw fuel p.2 <;> rfl
  | case3 fuel text hend hcomma =>
    rw [itemsTail.eq_def]
    split
    next heq => exact (hend _ heq).elim
    next heq => exact (hcomma _ _ rfl heq).elim
    next => rfl

theorem items_normal (text : List Char) :
    items item text = (items raw text).map fun (ws, rest) => (normalItems ws, rest) := by
  unfold items
  split
  next => rfl
  next =>
    simp only [h, Option.bind_eq_bind]
    cases raw (skipBlanks text) with
    | none => rfl
    | some p =>
      simp only [Option.map_some, Option.bind_some, itemsTail_normal h]
      cases itemsTail raw p.2.length p.2 <;> rfl

theorem entry_normal (text : List Char) :
    entry item text = (entry raw text).map fun (m, rest) => ((m.1, m.2.normal), rest) := by
  unfold entry
  split
  next rest _ =>
    cases stringBody rest with
    | none => rfl
    | some p =>
      simp only [Option.bind_eq_bind, Option.bind_some]
      split
      next rest _ =>
        rw [h]
        cases raw rest <;> rfl
      next => rfl
  next => rfl

theorem entriesTail_normal (fuel : Nat) (text : List Char) :
    entriesTail item fuel text = (entriesTail raw fuel text).map fun (ms, rest) => (normalMembers ms, rest) := by
  fun_induction entriesTail raw fuel text with
  | case1 fuel text rest hskip =>
    rw [entriesTail.eq_def, hskip]
    rfl
  | case2 text fuel rest hskip ih =>
    rw [entriesTail.eq_def, hskip]
    simp only [entry_normal h, Option.bind_eq_bind]
    cases entry raw rest with
    | none => rfl
    | some p =>
      simp only [Option.map_some, Option.bind_some, ih]
      cases entriesTail raw fuel p.2 <;> rfl
  | case3 fuel text hend hcomma =>
    rw [entriesTail.eq_def]
    split
    next heq => exact (hend _ heq).elim
    next heq => exact (hcomma _ _ rfl heq).elim
    next => rfl

theorem entries_normal (text : List Char) :
    entries item text = (entries raw text).map fun (ms, rest) => (normalMembers ms, rest) := by
  unfold entries
  split
  next => rfl
  next =>
    simp only [entry_normal h, Option.bind_eq_bind]
    cases entry raw (skipBlanks text) with
    | none => rfl
    | some p =>
      simp only [Option.map_some, Option.bind_some, entriesTail_normal h]
      cases entriesTail raw p.2.length p.2 <;> rfl

end

theorem normal_of_scalar {text rest : List Char} {v : Value} (h : scalar text = some (v, rest)) : v.normal = v := by
  unfold scalar at h
  split at h
  all_goals
    obtain ⟨_, -, h⟩ := Option.map_eq_some_iff.mp h
    obtain ⟨rfl, -⟩ := Prod.mk.inj h
    rfl

theorem scalar_normal (text : List Char) : scalar text = (scalar text).map fun (w, rest) => (w.normal, rest) := by
  cases h : scalar text with
  | none => rfl
  | some p =>
    obtain ⟨v, rest⟩ := p
    simp only [Option.map_some, normal_of_scalar h]

theorem written_scalar {depth : Nat} {text : List Char} (harray : ∀ tail, skipBlanks text ≠ '[' :: tail)
    (hobject : ∀ tail, skipBlanks text ≠ '\x7b' :: tail) : written depth text = scalar (skipBlanks text) := by
  unfold written
  split
  next heq => exact absurd heq (harray _)
  next heq => exact absurd heq (hobject _)
  next heq => exact absurd heq (harray _)
  next heq => exact absurd heq (hobject _)
  next => rfl

theorem written_array {depth : Nat} {text rest : List Char} (h : skipBlanks text = '[' :: rest) :
    written (depth + 1) text = (items (written depth) rest).map fun (vs, rest) => (.array vs, rest) := by
  rw [written.eq_def, h]
  rfl

theorem written_object {depth : Nat} {text rest : List Char} (h : skipBlanks text = '\x7b' :: rest) :
    written (depth + 1) text = (entries (written depth) rest).map fun (es, rest) => (.object es, rest) := by
  rw [written.eq_def, h]
  rfl

/-- A text is read member by member, and what was read is then brought into normal form. -/
theorem value_eq_written (depth : Nat) (text : List Char) :
    value depth text = (written depth text).map fun (w, rest) => (w.normal, rest) := by
  induction depth generalizing text with
  | zero =>
    unfold value
    split
    next heq =>
      rw [written.eq_def, heq]
      rfl
    next heq =>
      rw [written.eq_def, heq]
      rfl
    next heq _ => simp at heq
    next heq _ => simp at heq
    next harray hobject _ _ =>
      rw [written_scalar (fun _ h => harray _ rfl h) (fun _ h => hobject _ rfl h)]
      exact scalar_normal _
  | succ depth ih =>
    unfold value
    split
    next heq _ => simp at heq
    next heq _ => simp at heq
    next inner rest heq hskip =>
      obtain rfl : depth = inner := Nat.succ.inj heq
      rw [written_array hskip, items_normal ih]
      cases items (written depth) rest <;> rfl
    next inner rest heq hskip =>
      obtain rfl : depth = inner := Nat.succ.inj heq
      rw [written_object hskip, entries_normal ih]
      cases entries (written depth) rest <;> rfl
    next harray hobject =>
      rw [written_scalar (fun _ h => harray _ _ rfl h) (fun _ h => hobject _ _ rfl h)]
      exact scalar_normal _

theorem parse?_eq_written (text : String) : parse? text = (written? text).map Value.normal := by
  rw [parse?, parseWithin?, written?, value_eq_written]
  cases written depthLimit text.toList with
  | none => rfl
  | some p =>
    simp only [Option.map_some]
    split_ifs <;> rfl

end PluginRelay.Json

namespace PluginRelay.Payload

open Cbor (Value Integer)
open Json (Held Printable written?)

/-! ## What JSON keeps -/

/-- A value that JSON keeps as it is, of at most that much nesting. No integer is above the range, so that only its
lower end is a condition. -/
inductive Lossless : Nat → Value → Prop
  | null (depth : Nat) : Lossless depth .null
  | bool (depth : Nat) (b : Bool) : Lossless depth (.bool b)
  | integer (depth : Nat) {n : Integer} (h : -(2 : Int) ^ 63 ≤ n.toInt) : Lossless depth (.integer n)
  | text (depth : Nat) (s : String) : Lossless depth (.text s)
  | array {depth : Nat} {items : List Value} (h : ∀ v ∈ items, Lossless depth v) :
    Lossless (depth + 1) (.array items)
  | map {depth : Nat} {fields : List (String × Value)}
    (ho : fields.Pairwise fun a b => Utf8.encode a.1 < Utf8.encode b.1) (h : ∀ f ∈ fields, Lossless depth f.2) :
    Lossless (depth + 1) (.ofFields fields)

/-- All numbers in a JSON value were read as integers. -/
inductive Integral : Json.Value → Prop
  | null : Integral .null
  | bool (b : Bool) : Integral (.bool b)
  | natural (n : UInt64) : Integral (.number (.natural n))
  | negative (n : Int64) : Integral (.number (.negative n))
  | string (s : String) : Integral (.string s)
  | array {items : List Json.Value} (h : ∀ v ∈ items, Integral v) : Integral (.array items)
  | object {members : List (String × Json.Value)} (h : ∀ m ∈ members, Integral m.2) : Integral (.object members)

/-! ## From payloads -/

theorem exists_map_eq {α β : Type} {f : β → α} {P : β → Prop} {l : List α} (h : ∀ a ∈ l, ∃ b, P b ∧ f b = a) :
    ∃ m : List β, (∀ b ∈ m, P b) ∧ m.map f = l := by
  induction l with
  | nil => exact ⟨[], by simp, rfl⟩
  | cons a l ih =>
    obtain ⟨b, hb, rfl⟩ := h a List.mem_cons_self
    obtain ⟨m, hm, rfl⟩ := ih fun c hc => h c (List.mem_cons_of_mem _ hc)
    exact ⟨b :: m, List.forall_mem_cons.mpr ⟨hb, hm⟩, rfl⟩

theorem exists_integer {n : Integer} (h : -(2 : Int) ^ 63 ≤ n.toInt) :
    ∃ m : Json.Number, m.IsInteger ∧ ofNumber m = .integer n := by
  cases n with
  | natural n => exact ⟨.natural n, trivial, rfl⟩
  | negative n =>
    rw [Integer.toInt] at h
    have hback : (Int64.ofInt (-1 - (n.toNat : Int))).toInt = -1 - n.toNat :=
      Int64.toInt_ofInt_of_le (by omega) (by omega)
    have hneg : (Int64.ofInt (-1 - (n.toNat : Int))).toInt < 0 := by omega
    have hmagnitude : -1 - (-1 - (n.toNat : Int)) = n.toNat := by omega
    refine ⟨.negative (Int64.ofInt (-1 - n.toNat)), hneg, ?_⟩
    rw [ofNumber, ofInt_of_neg hneg, hback, hmagnitude, Int.toNat_natCast, UInt64.ofNat_toNat]

/-- The payloads that JSON keeps are those of the JSON values that are read back. -/
theorem Lossless.exists_printable {depth : Nat} {v : Value} (h : Lossless depth v) :
    ∃ j, Printable depth j ∧ ofJson j = v := by
  induction h with
  | null depth => exact ⟨_, .null depth, rfl⟩
  | bool depth b => exact ⟨_, .bool depth b, rfl⟩
  | integer depth h =>
    obtain ⟨m, hm, heq⟩ := exists_integer h
    exact ⟨.number m, .number depth hm, heq⟩
  | text depth s => exact ⟨_, .string depth s, rfl⟩
  | array _ ih =>
    obtain ⟨js, hjs, rfl⟩ := exists_map_eq ih
    exact ⟨.array js, .array hjs, by rw [ofJson, ofJsonItems_eq]⟩
  | @map depth fields ho _ ih =>
    obtain ⟨members, hmembers, rfl⟩ := exists_map_eq (P := fun m : String × Json.Value => Printable depth m.2)
      (f := fun m => (m.1, ofJson m.2)) fun f hf => by
        obtain ⟨j, hj, heq⟩ := ih f hf
        exact ⟨(f.1, j), hj, by rw [heq]⟩
    have hsorted : Keyed.Sorted members :=
      (List.pairwise_map.mp ho).imp Utf8.encode_lt_encode_iff.mp
    refine ⟨.object members, .object hsorted hmembers, ?_⟩
    rw [ofJson, ofJsonMembers_eq, Value.ofFields, List.map_map]
    rfl

theorem toJson?_ofNumber_of_isInteger {n : Json.Number} (h : n.IsInteger) :
    toJson? (ofNumber n) = some (.number n) := by
  cases n with
  | natural n => rfl
  | negative n => exact toJson?_ofInt_of_neg h
  | double x => exact h.elim

theorem toJsonItems?_ofJson {items : List Json.Value} (h : ∀ v ∈ items, toJson? (ofJson v) = some v) :
    toJsonItems? (ofJsonItems items) = some items := by
  induction items with
  | nil => rfl
  | cons v items ih =>
    rw [ofJsonItems, toJsonItems?, h v List.mem_cons_self, ih fun w hw => h w (List.mem_cons_of_mem _ hw)]
    rfl

theorem toJsonMembers?_ofJson {members : List (String × Json.Value)}
    (h : ∀ m ∈ members, toJson? (ofJson m.2) = some m.2) :
    toJsonMembers? (ofJsonMembers members) = some members := by
  induction members with
  | nil => rfl
  | cons m members ih =>
    rw [ofJsonMembers, toJsonMembers?, h m List.mem_cons_self, ih fun n hn => h n (List.mem_cons_of_mem _ hn)]
    rfl

theorem toJson?_ofJson_of_printable {depth : Nat} {j : Json.Value} (h : Printable depth j) :
    toJson? (ofJson j) = some j := by
  induction h with
  | null => rfl
  | bool => rfl
  | number _ h => exact toJson?_ofNumber_of_isInteger h
  | string => rfl
  | array _ ih => rw [ofJson, toJson?, toJsonItems?_ofJson ih, Option.map_some]
  | object ho _ ih =>
    rw [ofJson, toJson?, toJsonMembers?_ofJson ih, Option.map_some, Keyed.ofList_of_sorted ho]

/-- A payload that JSON keeps is printed, and the text is read as that payload. -/
theorem Lossless.render_parse {v : Value} (h : Lossless Json.depthLimit v) :
    ∃ text, render v = .ok text ∧ parse text = .ok v := by
  obtain ⟨j, hj, rfl⟩ := h.exists_printable
  refine ⟨j.render, ?_, ?_⟩
  · rw [render, toJson?_ofJson_of_printable hj]
  · rw [parse, Json.parse?_render hj]

/-! ## From texts -/

theorem Integral.normal {w : Json.Value} (h : Integral w) : Integral w.normal := by
  induction h with
  | array _ ih =>
    rw [Json.Value.normal, Json.normalItems_eq]
    exact .array (List.forall_mem_map.mpr ih)
  | object _ ih =>
    rw [Json.Value.normal, Json.normalMembers_eq]
    refine .object fun m hm => ?_
    obtain ⟨n, hn, rfl⟩ := List.mem_map.mp (Keyed.mem_of_mem_ofList hm)
    exact ih n hn
  | null => exact .null
  | bool b => exact .bool b
  | natural n => exact .natural n
  | negative n => exact .negative n
  | string s => exact .string s

theorem lossless_ofInt (depth : Nat) (n : Int64) : Lossless depth (Value.ofInt n.toInt) := by
  have hlow := n.le_toInt
  rcases lt_or_ge n.toInt 0 with h | h
  · rw [ofInt_of_neg h]
    refine .integer depth ?_
    rw [Integer.toInt, UInt64.toNat_ofNat_of_lt' (by simp only [UInt64.size]; omega)]
    omega
  · rw [ofInt_of_nonneg h]
    refine .integer depth ?_
    rw [Integer.toInt]
    omega

theorem lossless_ofJson {bytes depth : Nat} {j : Json.Value} (h : Held bytes depth j) (hi : Integral j) :
    Lossless depth (ofJson j) := by
  induction h with
  | null depth => exact .null depth
  | bool depth b => exact .bool depth b
  | number depth n =>
    cases hi with
    | natural n => exact .integer depth (by rw [Integer.toInt]; omega)
    | negative n => exact lossless_ofInt depth n
  | string depth => exact .text depth _
  | array _ _ ih =>
    cases hi with | array hi =>
    rw [ofJson, ofJsonItems_eq]
    exact .array (List.forall_mem_map.mpr fun v hv => ih v hv (hi v hv))
  | @object depth members _ ho _ _ ih =>
    cases hi with | object hi =>
    have hfields : ofJson (.object members) = .ofFields (members.map fun m => (m.1, ofJson m.2)) := by
      rw [ofJson, ofJsonMembers_eq, Value.ofFields, List.map_map]
      rfl
    rw [hfields]
    refine .map (List.pairwise_map.mpr (ho.imp Utf8.encode_lt)) (List.forall_mem_map.mpr fun m hm => ?_)
    exact ih m hm (hi m hm)

theorem parse_eq_written {text : String} {v : Value} (h : parse text = .ok v) :
    ∃ w, written? text = some w ∧ v = ofJson w.normal ∧ (Integral w → Lossless Json.depthLimit v) := by
  obtain ⟨j, hj, rfl⟩ := parse_eq_ok h
  have hheld := Json.held_of_parse? hj
  obtain ⟨w, hw, rfl⟩ := Option.map_eq_some_iff.mp (Json.parse?_eq_written text ▸ hj)
  exact ⟨w, hw, rfl, fun hi => lossless_ofJson hheld hi.normal⟩

/-- Printing and reading undo each other on what JSON keeps. What is read from a text is the normal form of what the
text writes, with the last of the members under each key and those in the order of their keys; where the numbers are
integers, JSON keeps it, and a text that was read and printed stays as it is. -/
theorem parse_render_normal :
    (∀ v, Lossless Json.depthLimit v → ∃ text, render v = .ok text ∧ parse text = .ok v) ∧
    (∀ text v, parse text = .ok v → ∃ w, written? text = some w ∧ v = ofJson w.normal ∧
      (Integral w → Lossless Json.depthLimit v ∧
        ∃ again, parse text >>= render = .ok again ∧ parse again = .ok v ∧ parse again >>= render = .ok again)) ∧
    ∀ members, ∃ kept, (Json.Value.object members).normal = .object kept ∧
      (kept.Pairwise fun a b => Utf8.encode a.1 < Utf8.encode b.1) ∧
      ∀ key, Keyed.find? key kept = (Keyed.occurrences key members).getLast?.map Json.Value.normal := by
  refine ⟨fun v hv => hv.render_parse, fun text v hv => ?_, Json.normal_object⟩
  obtain ⟨w, hw, hnormal, hkept⟩ := parse_eq_written hv
  refine ⟨w, hw, hnormal, fun hi => ⟨hkept hi, ?_⟩⟩
  obtain ⟨again, hrender, hparse⟩ := (hkept hi).render_parse
  exact ⟨again, by rw [hv]; exact hrender, hparse, by rw [hparse]; exact hrender⟩

/-- A key that stands twice, an escaped pair of surrogates, and integers at both ends of the range. -/
theorem parse_render_normal_reordered :
    let text := "\x7b\"b\":1, \"a\":[\"\\ud83d\\ude00\\n\",-9223372036854775808], \"b\":18446744073709551615\x7d"
    let v : Value := .ofFields [("a", .array [.text "😀\n", .integer (.negative 0x7FFFFFFFFFFFFFFF)]),
      ("b", .integer (.natural 0xFFFFFFFFFFFFFFFF))]
    parse text = .ok v ∧ Lossless Json.depthLimit v ∧ (∃ again, render v = .ok again ∧ parse again = .ok v) ∧
      ∃ again, parse text >>= render = .ok again ∧ parse again >>= render = .ok again := by
  intro text v
  have hparse : parse text = .ok v := by
    dsimp only [text, v]
    cbv
  have hwritten : written? text = some (.object [("b", .number (.natural 1)),
      ("a", .array [.string "😀\n", .number (.negative (-9223372036854775808))]),
      ("b", .number (.natural 0xFFFFFFFFFFFFFFFF))]) := by
    dsimp only [text]
    cbv
  obtain ⟨w, hw, -, hnormal⟩ := parse_render_normal.2.1 text v hparse
  obtain rfl := Option.some.inj (hwritten.symm.trans hw)
  have hintegral : Integral (.array [.string "😀\n", .number (.negative (-9223372036854775808))]) :=
    .array (by simpa using ⟨.string _, .negative _⟩)
  obtain ⟨hv, again, hagain, -, hstays⟩ := hnormal (.object (by simpa using ⟨.natural _, hintegral, .natural _⟩))
  exact ⟨hparse, hv, parse_render_normal.1 v hv, again, hagain, hstays⟩

end PluginRelay.Payload
