import Mathlib.Data.List.Basic
import PluginRelay.Payload.Catalog
import PluginRelay.Proofs.KeyedOrder
import PluginRelay.Proofs.SingleFloat
import PluginRelay.Proofs.UntaggedValues

/-!
# Data that schemas read back

A datum that fits a schema is written as a value that the schema matches with that datum, provided that the schema
keeps its data apart: nothing that is written as null is optional, and names are not used twice. `Exact` says
this of a schema as a whole, together with its nesting.
-/
namespace PluginRelay.Payload

open Cbor (Value Integer)

namespace Schema

/-- Null is among the values that data of the schema are written as. -/
def nullable : Schema → Bool
  | .unit => true
  | .option _ => true
  | .value => true
  | _ => false

/-- A schema of at most that much nesting whose data can be told apart in what they are written as. -/
inductive Exact : Nat → Schema → Prop
  | integer (depth : Nat) {low high : Int} (hl : -(UInt64.size : Int) ≤ low) (hh : high < UInt64.size) :
    Exact depth (.integer low high)
  | single (depth : Nat) : Exact depth .single
  | double (depth : Nat) : Exact depth .double
  | bool (depth : Nat) : Exact depth .bool
  | char (depth : Nat) : Exact depth .char
  | text (depth : Nat) : Exact depth .text
  | unit (depth : Nat) : Exact depth .unit
  | uuid (depth : Nat) : Exact depth .uuid
  | list {depth : Nat} {item : Schema} (h : Exact depth item) : Exact (depth + 1) (.list item)
  | option {depth : Nat} {item : Schema} (hn : item.nullable = false) (h : Exact depth item) :
    Exact depth (.option item)
  | map {depth : Nat} {item : Schema} (h : Exact depth item) : Exact (depth + 1) (.map item)
  | tuple {depth : Nat} {items : List Schema} (h : ∀ s ∈ items, Exact depth s) : Exact (depth + 1) (.tuple items)
  | record {depth : Nat} {fields : List (String × Schema × Option Datum)} (hn : (fields.map (·.1)).Nodup)
    (h : ∀ f ∈ fields, Exact depth f.2.1) : Exact (depth + 1) (.record fields)
  | choice {depth : Nat} {variants : List (String × Option Schema)} (hn : (variants.map (·.1)).Nodup)
    (h : ∀ name s, (name, some s) ∈ variants → Exact depth s) : Exact (depth + 1) (.choice variants)

/-- The datum is one of those that the schema describes. A single is the double it widens to. -/
inductive Fits : Schema → Datum → Prop
  | integer {low high n : Int} (hl : low ≤ n) (hh : n ≤ high) : Fits (.integer low high) (.integer n)
  | single {bits : Nat} (h : bits < UInt32.size) : Fits .single (.double (.ofSingleBits bits))
  | double (x : Binary64) : Fits .double (.double x)
  | bool (b : Bool) : Fits .bool (.bool b)
  | char (c : Char) : Fits .char (.char c)
  | text (s : String) : Fits .text (.text s)
  | unit : Fits .unit .unit
  | uuid (id : Uuid) : Fits .uuid (.uuid id)
  | list {item : Schema} {ds : List Datum} (h : ∀ d ∈ ds, Fits item d) : Fits (.list item) (.list ds)
  | absent (item : Schema) : Fits (.option item) .absent
  | present {item : Schema} {d : Datum} (h : Fits item d) : Fits (.option item) (.present d)
  | map {item : Schema} {entries : List (String × Datum)} (ho : Keyed.Sorted entries)
    (h : ∀ e ∈ entries, Fits item e.2) : Fits (.map item) (.map entries)
  | tuple {items : List Schema} {ds : List Datum} (hl : ds.length = items.length)
    (h : ∀ p ∈ items.zip ds, Fits p.1 p.2) : Fits (.tuple items) (.list ds)
  | record {fields : List (String × Schema × Option Datum)} {ds : List (String × Datum)}
    (hn : ds.map (·.1) = fields.map (·.1)) (h : ∀ p ∈ fields.zip ds, Fits p.1.2.1 p.2.2) :
    Fits (.record fields) (.record ds)
  | plain {variants : List (String × Option Schema)} {name : String} (h : (name, none) ∈ variants) :
    Fits (.choice variants) (.choice name none)
  | body {variants : List (String × Option Schema)} {name : String} {s : Schema} {d : Datum}
    (hv : (name, some s) ∈ variants) (h : Fits s d) : Fits (.choice variants) (.choice name (some d))

end Schema

/-! ## Written data -/

theorem toValues_eq (ds : List Datum) : Datum.toValues ds = ds.map Datum.toValue := by
  induction ds with
  | nil => rfl
  | cons d ds ih => rw [Datum.toValues, ih, List.map_cons]

theorem toEntries_eq (ds : List (String × Datum)) :
    Datum.toEntries ds = ds.map fun e => (.text e.1, e.2.toValue) := by
  induction ds with
  | nil => rfl
  | cons e ds ih => rw [Datum.toEntries, ih, List.map_cons]

theorem exists_integer_ofInt {n : Int} (hl : -(UInt64.size : Int) ≤ n) (hh : n < UInt64.size) :
    ∃ i : Integer, Value.ofInt n = .integer i ∧ i.toInt = n := by
  rw [Value.ofInt, Integer.ofInt?]
  by_cases hn : 0 ≤ n
  · refine ⟨.natural (UInt64.ofNat n.toNat), by rw [if_pos hn, if_pos hh], ?_⟩
    rw [Integer.toInt, UInt64.toNat_ofNat_of_lt' (by omega)]
    omega
  · refine ⟨.negative (UInt64.ofNat (-1 - n).toNat), by rw [if_neg hn, if_pos hl], ?_⟩
    rw [Integer.toInt, UInt64.toNat_ofNat_of_lt' (by omega)]
    omega

namespace Schema

/-- A map from texts is read as what it was written from. -/
theorem textEntries?_map (ds : List (String × Datum)) :
    textEntries? (ds.map fun e => (.text e.1, e.2.toValue)) = some (ds.map fun e => (e.1, e.2.toValue)) := by
  induction ds with
  | nil => rfl
  | cons e ds ih =>
    rw [List.map_cons, textEntries?, ih]
    rfl

theorem toValue_ne_null {s : Schema} {d : Datum} (h : s.Fits d) (hn : s.nullable = false) : d.toValue ≠ .null := by
  cases h with
  | @integer _ _ n =>
    rcases Value.ofInt_cases n with ⟨_, h⟩ | ⟨-, h⟩ | ⟨-, h⟩
    all_goals simp [Datum.toValue, h]
  | unit => simp [nullable] at hn
  | absent => simp [nullable] at hn
  | present => simp [nullable] at hn
  | _ => simp [Datum.toValue]

/-! ## Parts of data -/

theorem mapM_map {α β : Type} {f : β → Option α} {g : α → β} {l : List α} (h : ∀ a ∈ l, f (g a) = some a) :
    (l.map g).mapM f = some l := by
  induction l with
  | nil => rfl
  | cons a l ih =>
    rw [List.map_cons, List.mapM_cons, h a List.mem_cons_self, ih fun b hb => h b (List.mem_cons_of_mem _ hb)]
    rfl

/-- What is in the second of two lists is paired with something of the first. -/
theorem exists_mem_zip {α β : Type} {l : List α} {l' : List β} (hl : l'.length ≤ l.length) {b : β} (hb : b ∈ l') :
    ∃ a ∈ l, (a, b) ∈ l.zip l' := by
  rw [← List.map_snd_zip hl] at hb
  obtain ⟨⟨a, b⟩, hp, rfl⟩ := List.mem_map.mp hb
  exact ⟨a, (List.of_mem_zip hp).1, hp⟩

theorem matchTuple?_toValues {items : List Schema} {ds : List Datum} (hl : ds.length = items.length)
    (h : ∀ p ∈ items.zip ds, p.1.match? p.2.toValue = some p.2) :
    matchTuple? items (ds.map Datum.toValue) = some ds := by
  induction items generalizing ds with
  | nil =>
    obtain rfl := List.length_eq_zero_iff.mp hl
    rfl
  | cons s items ih =>
    obtain ⟨d, rest, rfl⟩ := List.exists_cons_of_length_eq_add_one hl
    rw [List.zip_cons_cons, List.forall_mem_cons] at h
    rw [List.map_cons, matchTuple?, h.1, ih (Nat.succ.inj hl) h.2]
    rfl

theorem only?_of_mem {α : Type} {entries : List (String × α)} (hn : (entries.map (·.1)).Nodup) {e : String × α}
    (h : e ∈ entries) : only? e.1 entries = some (some e.2) := by
  induction entries with
  | nil => simp at h
  | cons f entries ih =>
    rw [List.map_cons, List.nodup_cons] at hn
    rcases List.mem_cons.mp h with rfl | h
    · have hrest : entries.filter (·.1 = e.1) = [] := by
        refine List.filter_eq_nil_iff.mpr fun f hf heq => hn.1 ?_
        rw [← of_decide_eq_true heq]
        exact List.mem_map_of_mem hf
      rw [only?, List.filter_cons_of_pos (by simp), hrest]
    · have hne : f.1 ≠ e.1 := fun heq => hn.1 (heq ▸ List.mem_map_of_mem h)
      have hrest := ih hn.2 h
      rw [only?] at hrest ⊢
      rwa [List.filter_cons_of_neg (by simpa using hne)]

theorem matchFields?_toValues {fields : List (String × Schema × Option Datum)} {ds : List (String × Datum)}
    {entries : List (String × Value)} (hn : ds.map (·.1) = fields.map (·.1))
    (he : ∀ e ∈ ds, only? e.1 entries = some (some e.2.toValue))
    (h : ∀ p ∈ fields.zip ds, p.1.2.1.match? p.2.2.toValue = some p.2.2) :
    matchFields? fields entries = some ds := by
  induction fields generalizing ds with
  | nil =>
    obtain rfl := List.map_eq_nil_iff.mp hn
    rfl
  | cons f fields ih =>
    obtain ⟨e, rest, rfl⟩ := List.exists_cons_of_ne_nil (l := ds) (by rintro rfl; simp at hn)
    obtain ⟨hname, hnames⟩ := List.cons.inj hn
    rw [List.zip_cons_cons, List.forall_mem_cons] at h
    rw [List.forall_mem_cons] at he
    obtain ⟨name, s, fallback⟩ := f
    obtain rfl : e.1 = name := hname
    have hrest := ih hnames he.2 h.2
    rw [matchFields?, he.1]
    simp only [Option.bind_eq_bind, Option.bind_some, h.1, hrest]
    rfl

/-- The first variant with a name is the only one. -/
theorem matchVariant?_of_mem {variants : List (String × Option Schema)} (hn : (variants.map (·.1)).Nodup)
    {name : String} {schema : Option Schema} (h : (name, schema) ∈ variants) (body : Option Value) :
    matchVariant? variants name body = matchVariant? [(name, schema)] name body := by
  induction variants with
  | nil => simp at h
  | cons v variants ih =>
    rw [List.map_cons, List.nodup_cons] at hn
    rcases List.mem_cons.mp h with rfl | h
    · unfold matchVariant?
      rw [if_pos rfl, if_pos rfl]
    · have hne : v.1 ≠ name := fun heq => hn.1 (heq ▸ List.mem_map_of_mem (f := (·.1)) h)
      rw [← ih hn.2 h]
      conv_lhs => unfold matchVariant?
      exact if_neg hne

/-- What a datum is written as is read as that datum. -/
theorem match?_toValue {depth : Nat} {s : Schema} {d : Datum} (h : s.Fits d) (hs : s.Exact depth) :
    s.match? d.toValue = some d := by
  induction h generalizing depth with
  | integer hl hh =>
    cases hs with | integer _ hlow hhigh =>
    obtain ⟨i, hi, hvalue⟩ := exists_integer_ofInt (hlow.trans hl) (lt_of_le_of_lt hh hhigh)
    rw [Datum.toValue, hi, match?, integer?, hvalue]
    exact if_pos ⟨hl, hh⟩
  | single h => simp only [Datum.toValue, match?, untagged, Binary64.toSingle_ofSingleBits h]
  | double => rfl
  | bool => rfl
  | char c => simp [Datum.toValue, match?, text?, untagged]
  | text => rfl
  | unit => rfl
  | uuid id => simp [Datum.toValue, match?, untagged, Uuid.ofBytes?, id.length_bytes]
  | list _ ih =>
    cases hs with | list hs =>
    simp only [Datum.toValue, toValues_eq, match?, untagged, mapM_map fun d hd => ih d hd hs, Option.map_some]
  | absent => rfl
  | present h ih =>
    cases hs with | option hn hs =>
    rw [Datum.toValue, match?, ih hs, Option.map_some]
    exact toValue_ne_null h hn
  | @map item entries ho _ ih =>
    cases hs with | map hs =>
    have hread : (entries.map fun e => (e.1, e.2.toValue)).mapM
        (fun e => (match? item e.2).map fun d => (e.1, d)) = some entries :=
      mapM_map fun e he => by rw [ih e he hs, Option.map_some]
    simp only [Datum.toValue, toEntries_eq, match?, untagged, textEntries?_map, Option.bind_eq_bind,
      Option.bind_some, hread, Option.pure_def, Keyed.ofList_of_sorted ho]
  | tuple hl _ ih =>
    cases hs with | tuple hs =>
    have hread := matchTuple?_toValues hl fun p hp => ih p hp (hs p.1 (List.of_mem_zip hp).1)
    simp only [Datum.toValue, toValues_eq, match?, untagged, hread, Option.map_some]
  | @record fields ds hn _ ih =>
    cases hs with | record hnames hs =>
    have honce : ((ds.map fun e => (e.1, e.2.toValue)).map (·.1)).Nodup := by
      rw [List.map_map]
      exact hn ▸ hnames
    have hread := matchFields?_toValues hn
      (fun e he => only?_of_mem honce (List.mem_map_of_mem (f := fun e => (e.1, e.2.toValue)) he))
      fun p hp => ih p hp (hs p.1 (List.of_mem_zip hp).1)
    simp only [Datum.toValue, toEntries_eq, match?, untagged, textEntries?_map, Option.bind_eq_bind,
      Option.bind_some, hread, Option.map_some]
  | plain hv =>
    cases hs with | choice hn hs =>
    simp only [Datum.toValue, match?, untagged, matchVariant?_of_mem hn hv, matchVariant?, if_true]
  | body hv _ ih =>
    cases hs with | choice hn hs =>
    simp only [Datum.toValue, match?, untagged, text?, Option.bind_eq_bind, Option.bind_some,
      matchVariant?_of_mem hn hv, matchVariant?, if_true, ih (hs _ _ hv), Option.map_some]

/-- Written data hold no tags and are nested like their schema. -/
theorem readable_toValue {depth : Nat} {s : Schema} {d : Datum} (h : s.Fits d) (hs : s.Exact depth)
    (hz : d.toValue.Sized) : d.toValue.Readable depth := by
  induction h generalizing depth with
  | integer hl hh =>
    cases hs with | integer _ hlow hhigh =>
    obtain ⟨i, hi, -⟩ := exists_integer_ofInt (hlow.trans hl) (lt_of_le_of_lt hh hhigh)
    rw [Datum.toValue, hi]
    exact ⟨by rintro _ _ ⟨⟩, trivial, Nat.zero_le _⟩
  | list _ ih =>
    cases hs with | list hs =>
    rw [Datum.toValue, toValues_eq] at hz ⊢
    obtain ⟨hl, hz⟩ := Value.everywhere_array.mp hz
    rw [List.forall_mem_map] at hz
    exact Value.readable_array.mpr ⟨hl, List.forall_mem_map.mpr fun d hd => ih d hd hs (hz d hd)⟩
  | present _ ih =>
    cases hs with | option _ hs =>
    exact ih hs hz
  | map _ _ ih =>
    cases hs with | map hs =>
    rw [Datum.toValue, toEntries_eq] at hz ⊢
    obtain ⟨hl, hz⟩ := Value.sized_map.mp hz
    rw [List.forall_mem_map] at hz
    refine Value.readable_map.mpr ⟨hl, List.forall_mem_map.mpr fun e he => ?_⟩
    exact ⟨Value.readable_text.mpr (hz e he).1, ih e he hs (hz e he).2⟩
  | tuple hlength _ ih =>
    cases hs with | tuple hs =>
    rw [Datum.toValue, toValues_eq] at hz ⊢
    obtain ⟨hl, hz⟩ := Value.everywhere_array.mp hz
    rw [List.forall_mem_map] at hz
    refine Value.readable_array.mpr ⟨hl, List.forall_mem_map.mpr fun d hd => ?_⟩
    obtain ⟨s, hitem, hp⟩ := exists_mem_zip hlength.le hd
    exact ih (s, d) hp (hs s hitem) (hz d hd)
  | @record fields ds hn _ ih =>
    cases hs with | record _ hs =>
    rw [Datum.toValue, toEntries_eq] at hz ⊢
    obtain ⟨hl, hz⟩ := Value.sized_map.mp hz
    rw [List.forall_mem_map] at hz
    refine Value.readable_map.mpr ⟨hl, List.forall_mem_map.mpr fun e he => ⟨Value.readable_text.mpr (hz e he).1, ?_⟩⟩
    have hlength : ds.length ≤ fields.length := by simpa using (congrArg List.length hn).le
    obtain ⟨f, hfield, hp⟩ := exists_mem_zip hlength he
    exact ih (f, e) hp (hs f hfield) (hz e he).2
  | body hv _ ih =>
    cases hs with | choice _ hs =>
    rw [Datum.toValue] at hz ⊢
    obtain ⟨hl, hz⟩ := Value.sized_map.mp hz
    obtain ⟨hname, hbody⟩ := hz _ List.mem_cons_self
    exact Value.readable_map.mpr ⟨hl, by simpa using ⟨Value.readable_text.mpr hname, ih (hs _ _ hv) hbody⟩⟩
  | _ => exact ⟨by rintro _ _ ⟨⟩, hz, Nat.zero_le _⟩

/-! ## The schemas that have a name -/

theorem exact_unsigned (depth : Nat) {width : Nat} (hw : width ≤ 64) : (unsigned width).Exact depth := by
  have hpow : 1 <<< width ≤ UInt64.size := by
    rw [Nat.one_shiftLeft]
    exact Nat.pow_le_pow_right (by omega) hw
  exact .integer depth (by decide) (by omega)

theorem exact_signed (depth : Nat) {width : Nat} (hw : width ≤ 64) : (signed width).Exact depth := by
  have hpow : 1 <<< (width - 1) ≤ UInt64.size := by
    rw [Nat.one_shiftLeft]
    exact Nat.pow_le_pow_right (by omega) (show width - 1 ≤ 64 by omega)
  exact .integer depth (by omega) (by omega)

theorem exact_sum (depth : Nat) : sum.Exact (depth + 2) :=
  .record (by decide) (by simpa using .list (exact_signed depth (by decide)))

theorem exact_greeting (depth : Nat) : greeting.Exact (depth + 1) :=
  .record (by decide) (by simpa using ⟨.text depth, exact_unsigned depth (by decide)⟩)

theorem exact_profile (depth : Nat) : profile.Exact (depth + 2) :=
  .record (by decide) (by simpa using
    ⟨.text _, .option rfl (exact_unsigned _ (by decide)), .list (.text depth)⟩)

theorem exact_shape (depth : Nat) : shape.Exact (depth + 2) :=
  .choice (by decide) fun name s h => by
    obtain ⟨-, rfl⟩ | ⟨-, rfl⟩ | ⟨-, rfl⟩ : (name = "circle" ∧ s = .double) ∨
        (name = "rect" ∧ s = .tuple [signed 64, signed 64]) ∨
          (name = "named" ∧ s = .record [("label", .text, none)]) := by simpa [shape] using h
    · exact .double _
    · exact .tuple (by simpa using exact_signed depth (by decide))
    · exact .record (by decide) (by simpa using .text depth)

theorem exact_pair (depth : Nat) : (tuple [text, signed 64]).Exact (depth + 1) :=
  .tuple (by simpa using ⟨.text depth, exact_signed depth (by decide)⟩)

/-- Every schema with a name but the one of all values. -/
theorem exact_catalog (depth : Nat) : ∀ e ∈ catalog, e.1 ≠ "value" → e.2.Exact (depth + 2) := by
  simp only [catalog, List.forall_mem_cons, List.not_mem_nil, false_implies, implies_true, ne_eq]
  exact ⟨fun _ => exact_unsigned _ (by decide), fun _ => exact_signed _ (by decide),
    fun _ => exact_unsigned _ (by decide), fun _ => exact_signed _ (by decide), fun _ => exact_signed _ (by decide),
    fun _ => exact_unsigned _ (by decide), fun _ => exact_signed _ (by decide), fun _ => exact_unsigned _ (by decide),
    fun _ => .single _, fun _ => .double _, fun _ => .bool _, fun _ => .char _, fun _ => .text _, fun _ => .unit _,
    fun _ => .list (exact_unsigned _ (by decide)), fun _ => .list (exact_signed _ (by decide)),
    fun _ => .list (.text _), fun _ => .option rfl (.text _), fun _ => .map (exact_signed _ (by decide)),
    fun _ => exact_pair _, fun _ => .uuid _, fun _ => exact_greeting _, fun _ => exact_sum _,
    fun _ => exact_profile _, fun _ => exact_shape _, fun h => absurd trivial h, trivial⟩

end Schema

end PluginRelay.Payload
