import Mathlib.Order.Lattice
import PluginRelay.Cbor.Encoding
import PluginRelay.Proofs.Digits

/-!
# Values as trees

Induction over values, properties of every node, and the three that messages are about: lengths that fit
64 bits (`Sized`), large integers in the one form they are written in (`Plain`), and the weaker
`Settled`, which only speaks of byte strings that are read back as integers.
-/
namespace PluginRelay.Cbor.Value

/-- Induction with a hypothesis for every item of a list and both sides of every entry. -/
@[elab_as_elim]
theorem inductionOn {motive : Value → Prop} (v : Value) (null : motive .null)
    (bool : ∀ b, motive (.bool b)) (integer : ∀ n, motive (.integer n))
    (float : ∀ x, motive (.float x)) (text : ∀ s, motive (.text s))
    (bytes : ∀ b, motive (.bytes b))
    (array : ∀ items, (∀ v ∈ items, motive v) → motive (.array items))
    (map : ∀ entries, (∀ e ∈ entries, motive e.1 ∧ motive e.2) → motive (.map entries))
    (tag : ∀ n item, motive item → motive (.tag n item)) : motive v :=
  @Value.rec motive (fun items => ∀ v ∈ items, motive v)
    (fun entries => ∀ e ∈ entries, motive e.1 ∧ motive e.2) (fun e => motive e.1 ∧ motive e.2)
    null bool integer float text bytes array map tag
    (by simp) (fun _ _ hv hrest => List.forall_mem_cons.mpr ⟨hv, hrest⟩)
    (by simp) (fun _ _ he hrest => List.forall_mem_cons.mpr ⟨he, hrest⟩)
    (fun _ _ hk hv => ⟨hk, hv⟩) v

mutual

/-- The property holds of the value and of everything in it. -/
def Everywhere (P : Value → Prop) : Value → Prop
  | .array items => P (.array items) ∧ EverywhereItems P items
  | .map entries => P (.map entries) ∧ EverywhereEntries P entries
  | .tag n item => P (.tag n item) ∧ Everywhere P item
  | v => P v

def EverywhereItems (P : Value → Prop) : List Value → Prop
  | [] => True
  | v :: rest => Everywhere P v ∧ EverywhereItems P rest

def EverywhereEntries (P : Value → Prop) : List (Value × Value) → Prop
  | [] => True
  | (k, v) :: rest => (Everywhere P k ∧ Everywhere P v) ∧ EverywhereEntries P rest

end

theorem everywhereItems_iff {P : Value → Prop} {items : List Value} :
    EverywhereItems P items ↔ ∀ v ∈ items, Everywhere P v := by
  induction items with
  | nil => simp [EverywhereItems]
  | cons v rest ih => simp [EverywhereItems, ih]

theorem everywhereEntries_iff {P : Value → Prop} {entries : List (Value × Value)} :
    EverywhereEntries P entries ↔ ∀ e ∈ entries, Everywhere P e.1 ∧ Everywhere P e.2 := by
  induction entries with
  | nil => simp [EverywhereEntries]
  | cons e rest ih => simp [EverywhereEntries, ih]

@[simp] theorem everywhere_array {P : Value → Prop} {items : List Value} :
    Everywhere P (.array items) ↔ P (.array items) ∧ ∀ v ∈ items, Everywhere P v := by
  rw [Everywhere, everywhereItems_iff]

@[simp] theorem everywhere_map {P : Value → Prop} {entries : List (Value × Value)} :
    Everywhere P (.map entries) ↔
      P (.map entries) ∧ ∀ e ∈ entries, Everywhere P e.1 ∧ Everywhere P e.2 := by
  rw [Everywhere, everywhereEntries_iff]

@[simp] theorem everywhere_tag {P : Value → Prop} {n : UInt64} {item : Value} :
    Everywhere P (.tag n item) ↔ P (.tag n item) ∧ Everywhere P item := by
  rw [Everywhere]

theorem Everywhere.self {P : Value → Prop} {v : Value} (h : v.Everywhere P) : P v := by
  cases v with
  | array items => exact (everywhere_array.mp h).1
  | map entries => exact (everywhere_map.mp h).1
  | tag n item => exact (everywhere_tag.mp h).1
  | _ => exact h

theorem Everywhere.imp {P Q : Value → Prop} (hpq : ∀ v, P v → Q v) {v : Value}
    (h : v.Everywhere P) : v.Everywhere Q := by
  induction v using inductionOn with
  | array items ih =>
    obtain ⟨hp, hi⟩ := everywhere_array.mp h
    exact everywhere_array.mpr ⟨hpq _ hp, fun v hv => ih v hv (hi v hv)⟩
  | map entries ih =>
    obtain ⟨hp, hi⟩ := everywhere_map.mp h
    exact everywhere_map.mpr ⟨hpq _ hp, fun e he =>
      ⟨(ih e he).1 (hi e he).1, (ih e he).2 (hi e he).2⟩⟩
  | tag n item ih =>
    obtain ⟨hp, hi⟩ := everywhere_tag.mp h
    exact everywhere_tag.mpr ⟨hpq _ hp, ih hi⟩
  | _ => exact hpq _ h

/-! ## Lengths -/

/-- The length of the value itself fits 64 bits, as the length of anything in memory does. -/
def LengthFits : Value → Prop
  | .text s => (Utf8.encode s).length < UInt64.size
  | .bytes b => b.length < UInt64.size
  | .array items => items.length < UInt64.size
  | .map entries => entries.length < UInt64.size
  | _ => True

/-- Every length in the value fits 64 bits. -/
def Sized (v : Value) : Prop := v.Everywhere LengthFits

theorem sized_null : null.Sized := trivial

theorem sized_text {s : String} : (text s).Sized ↔ (Utf8.encode s).length < UInt64.size := Iff.rfl

theorem sized_bytes {b : Bytes} : (bytes b).Sized ↔ b.length < UInt64.size := Iff.rfl

theorem sized_map {entries : List (Value × Value)} : (map entries).Sized ↔
    entries.length < UInt64.size ∧ ∀ e ∈ entries, e.1.Sized ∧ e.2.Sized := everywhere_map

/-! ## Large integers -/

/-- The value is what an integer from `-2 ^ 127` up to the bound is written as. -/
def StandsBelow (bound : Int) (v : Value) : Prop :=
  ∃ i : Int, -(2 : Int) ^ 127 ≤ i ∧ i < bound ∧ v = ofInt i

/-- A tag for large integers is only used as 128-bit integers use it. -/
def TagPlain (v : Value) : Prop :=
  ∀ n item, v = .tag n item → n = positiveTag ∨ n = negativeTag → v.StandsBelow (2 ^ 127)

/-- Tags for large integers occur in the value only as 128-bit integers use them. -/
def Plain (v : Value) : Prop := v.Everywhere TagPlain

/-- A short byte string under a tag for large integers is the one that its integer is written as. -/
def TagSettled (v : Value) : Prop :=
  ∀ n item, v = .tag n item → (integerDigits? n item).isSome → v.StandsBelow (2 ^ 128)

/-- Wherever a reader finds an integer under its tag, the value holds the integer's own form. -/
def Settled (v : Value) : Prop := v.Everywhere TagSettled

theorem integerDigits?_eq_some {n : UInt64} {item : Value} {digits : Bytes}
    (h : integerDigits? n item = some digits) :
    item = .bytes digits ∧ (n = positiveTag ∨ n = negativeTag) ∧ digits.length ≤ integerWidth := by
  cases item with
  | bytes b =>
    simp only [integerDigits?] at h
    split_ifs at h with hb
    obtain rfl := Option.some.inj h
    exact ⟨rfl, hb⟩
  | _ => simp [integerDigits?] at h

theorem Plain.settled {v : Value} (h : v.Plain) : v.Settled := by
  refine h.imp fun v hv n item hn hd => ?_
  obtain ⟨digits, hd⟩ := Option.isSome_iff_exists.mp hd
  obtain ⟨i, hlow, hhigh, hi⟩ := hv n item hn (integerDigits?_eq_some hd).2.1
  exact ⟨i, hlow, hhigh.trans (by norm_num), hi⟩

/-- The form of an integer in 64 bits, of a larger one and of a smaller one. -/
theorem ofInt_cases (i : Int) :
    (∃ n, ofInt i = .integer n) ∨
      (0 ≤ i ∧ ofInt i = .tag positiveTag (.bytes (magnitude i.toNat))) ∨
        (i < 0 ∧ ofInt i = .tag negativeTag (.bytes (magnitude (-1 - i).toNat))) := by
  unfold ofInt
  split
  · next n _ => exact .inl ⟨n, rfl⟩
  · split_ifs with h
    · exact .inr (.inl ⟨h, rfl⟩)
    · exact .inr (.inr ⟨by omega, rfl⟩)

theorem integerDigits?_magnitude {n : UInt64} (hn : n = positiveTag ∨ n = negativeTag) (m : Nat) :
    integerDigits? n (.bytes (magnitude m)) = some (magnitude m) := by
  simp [integerDigits?, hn, length_magnitude_le]

theorem depth_ofInt (i : Int) : (ofInt i).depth = 0 := by
  rcases ofInt_cases i with ⟨n, h⟩ | ⟨-, h⟩ | ⟨-, h⟩
  · simp [h, depth]
  · rw [h, depth, integerDigits?_magnitude (.inl rfl)]
    rfl
  · rw [h, depth, integerDigits?_magnitude (.inr rfl)]
    rfl

theorem sized_ofInt (i : Int) : (ofInt i).Sized := by
  have hlen (m : Nat) : (magnitude m).length < UInt64.size :=
    lt_of_le_of_lt (length_magnitude_le m) (by decide)
  rcases ofInt_cases i with ⟨n, h⟩ | ⟨-, h⟩ | ⟨-, h⟩
  · rw [h]
    trivial
  · rw [h]
    exact everywhere_tag.mpr ⟨trivial, hlen _⟩
  · rw [h]
    exact everywhere_tag.mpr ⟨trivial, hlen _⟩

/-- What holds of an integer's form and of byte strings holds of everything in the form. -/
theorem everywhere_ofInt {P : Value → Prop} {i : Int} (h : P (ofInt i)) (hb : ∀ b, P (.bytes b)) :
    (ofInt i).Everywhere P := by
  rcases ofInt_cases i with ⟨n, hi⟩ | ⟨-, hi⟩ | ⟨-, hi⟩
  · rw [hi] at h ⊢
    exact h
  · rw [hi] at h ⊢
    exact everywhere_tag.mpr ⟨h, hb _⟩
  · rw [hi] at h ⊢
    exact everywhere_tag.mpr ⟨h, hb _⟩

theorem StandsBelow.settled {v : Value} (h : v.StandsBelow (2 ^ 128)) : v.Settled := by
  have hself : v.TagSettled := fun _ _ _ _ => h
  obtain ⟨i, -, -, rfl⟩ := h
  exact everywhere_ofInt hself (by rintro _ _ _ ⟨⟩)

theorem StandsBelow.plain {v : Value} (h : v.StandsBelow (2 ^ 127)) : v.Plain := by
  have hself : v.TagPlain := fun _ _ _ _ => h
  obtain ⟨i, -, -, rfl⟩ := h
  exact everywhere_ofInt hself (by rintro _ _ _ ⟨⟩)

theorem StandsBelow.ne_null {bound : Int} {v : Value} (h : v.StandsBelow bound) : v ≠ .null := by
  obtain ⟨i, -, -, rfl⟩ := h
  rcases ofInt_cases i with ⟨n, hi⟩ | ⟨-, hi⟩ | ⟨-, hi⟩
  all_goals simp [hi]

theorem plain_map {entries : List (Value × Value)} : (map entries).Plain ↔
    ∀ e ∈ entries, e.1.Plain ∧ e.2.Plain := by
  simp [Plain, TagPlain]

theorem plain_text (s : String) : (text s).Plain := by rintro _ _ ⟨⟩

theorem plain_null : null.Plain := by rintro _ _ ⟨⟩

theorem settled_map {entries : List (Value × Value)} : (map entries).Settled ↔
    ∀ e ∈ entries, e.1.Settled ∧ e.2.Settled := by
  simp [Settled, TagSettled]

/-! ## Depth -/

theorem depthItems_le_iff {items : List Value} {d : Nat} :
    depthItems items ≤ d ↔ ∀ v ∈ items, v.depth ≤ d := by
  induction items with
  | nil => simp [depthItems]
  | cons v rest ih => simp [depthItems, ih]

theorem depthEntries_le_iff {entries : List (Value × Value)} {d : Nat} :
    depthEntries entries ≤ d ↔ ∀ e ∈ entries, e.1.depth ≤ d ∧ e.2.depth ≤ d := by
  induction entries with
  | nil => simp [depthEntries]
  | cons e rest ih => simp [depthEntries, ih, and_assoc]

end PluginRelay.Cbor.Value
