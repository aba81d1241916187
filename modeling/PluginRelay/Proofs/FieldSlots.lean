import PluginRelay.Proofs.UntaggedValues

/-!
# The slots of a message

A message is read field by field into slots. Each slot is filled by the values under its key, which have to
be one value of the right form: `OccursOnce` says so of the fields as a whole.
-/
namespace PluginRelay.Message

open Cbor
open Keyed (occurrences)
open Value (ofFields encodeText)
open Reader (Reads Leads)

/-! ## Slots -/

section

variable {α σ : Type} {accepts : Value → α → Prop} {slot slot' : Option α} {v : Value}

/-- A value goes into a slot that is still empty. -/
def Sets (accepts : Value → α → Prop) (slot : Option α) (set : α → σ) (v : Value) (t : σ) : Prop :=
  slot = none ∧ ∃ a, accepts v a ∧ t = set a

/-- What becomes of a slot when the values come one after the other. -/
def Fills (accepts : Value → α → Prop) (slot : Option α) (values : List Value)
    (slot' : Option α) : Prop :=
  match values with
  | [] => slot' = slot
  | v :: rest => slot = none ∧ ∃ a, accepts v a ∧ rest = [] ∧ slot' = some a

theorem exists_sets_iff {set : α → σ} {Q : σ → Prop} :
    (∃ m, Sets accepts slot set v m ∧ Q m) ↔ slot = none ∧ ∃ a, accepts v a ∧ Q (set a) := by
  constructor
  · rintro ⟨_, ⟨hslot, a, ha, rfl⟩, hq⟩
    exact ⟨hslot, a, ha, hq⟩
  · rintro ⟨hslot, a, ha, hq⟩
    exact ⟨set a, ⟨hslot, a, ha, rfl⟩, hq⟩

theorem fills_cons {values : List Value} :
    Fills accepts slot (v :: values) slot' ↔
      slot = none ∧ ∃ a, accepts v a ∧ values = [] ∧ slot' = some a := Iff.rfl

theorem fills_some {a : α} {values : List Value} :
    Fills accepts (some a) values slot' ↔ values = [] ∧ slot' = some a := by
  cases values with
  | nil => simp [Fills]
  | cons v rest => simp [Fills]

theorem fills_none_some {a : α} {values : List Value} :
    Fills accepts none values (some a) ↔ ∃ v, values = [v] ∧ accepts v a := by
  cases values with
  | nil => simp [Fills]
  | cons v rest => simp [Fills, and_comm]

theorem fills_none_none {values : List Value} : Fills accepts none values none ↔ values = [] := by
  cases values with
  | nil => simp [Fills]
  | cons v rest => simp [Fills]

/-- There is one value under the key, and it stands for `a`. -/
def OccursOnce (accepts : Value → α → Prop) (key : String) (fields : List (String × Value))
    (a : α) : Prop :=
  ∃ v, occurrences key fields = [v] ∧ accepts v a

theorem occursOnce_iff {key : String} {fields : List (String × Value)} {a : α} :
    OccursOnce accepts key fields a ↔ Fills accepts none (occurrences key fields) (some a) :=
  fills_none_some.symm

theorem once_iff {reader : Reader α} (h : Reads reader v (accepts v)) (set : α → σ) (rest : Bytes)
    (t : σ) (rest' : Bytes) :
    (once slot reader (v.encode ++ rest) >>= fun read => pure (set read.1, read.2)) =
        .ok (t, rest') ↔ Sets accepts slot set v t ∧ rest' = rest := by
  cases slot with
  | some a => simp [once, Sets]
  | none =>
    simp only [once, Sets, bind_eq_ok, pure_eq_ok]
    constructor
    · rintro ⟨⟨a, after⟩, hread, ht⟩
      obtain ⟨ha, rfl⟩ := (h rest a after).mp hread
      obtain ⟨rfl, rfl⟩ := by simpa using ht
      exact ⟨⟨trivial, a, ha, rfl⟩, rfl⟩
    · rintro ⟨⟨-, a, ha, rfl⟩, rfl⟩
      exact ⟨(a, rest'), (h _ a _).mpr ⟨ha, rfl⟩, rfl⟩

end

/-! ## Values of the fields -/

def IsUuid (v : Value) (id : Uuid) : Prop := v = .bytes id.bytes

def IsBool (v : Value) (b : Bool) : Prop := v = .bool b

def IsText (v : Value) (s : String) : Prop := v = .text s

/-- The entries of a map from texts, a later one in place of an earlier one of its key. -/
def IsMeta (v : Value) (entries : Meta) : Prop :=
  ∃ fields, v = ofFields fields ∧ entries = Keyed.ofList fields

theorem reads_uuid {limit : Nat} {v : Value} (h : v.Readable limit) : Reads uuid v (IsUuid v) := by
  intro rest id rest'
  have hbytes := Reader.reads_shortBytes h rest
  simp only [uuid, bind_eq_ok, IsUuid]
  constructor
  · rintro ⟨⟨b, after⟩, hread, hid⟩
    obtain ⟨⟨rfl, -⟩, rfl⟩ := (hbytes b after).mp hread
    unfold Uuid.ofBytes? at hid
    split_ifs at hid
    · obtain ⟨rfl, rfl⟩ := by simpa using hid
      exact ⟨rfl, rfl⟩
  · rintro ⟨rfl, rfl⟩
    have hl : id.bytes.length ≤ Reader.pieceLength := by
      rw [id.length_bytes]
      decide
    refine ⟨(id.bytes, rest'), (hbytes _ _).mpr ⟨⟨rfl, hl⟩, rfl⟩, ?_⟩
    simp [Uuid.ofBytes?, id.length_bytes]

theorem leads_meta {entries : List (Value × Value)} {start m : Meta} :
    Leads (fun s e t => ∃ key, e.1 = .text key ∧ t = Keyed.insert key e.2 s) start entries m ↔
      ∃ fields : List (String × Value), entries = fields.map (fun (k, v) => (.text k, v)) ∧
        m = fields.foldl (fun sorted (k, v) => Keyed.insert k v sorted) start := by
  induction entries generalizing start with
  | nil => simp [Leads]
  | cons e entries ih =>
    obtain ⟨k, v⟩ := e
    simp only [Leads, ih]
    constructor
    · rintro ⟨_, ⟨key, rfl, rfl⟩, fields, rfl, rfl⟩
      exact ⟨(key, v) :: fields, rfl, rfl⟩
    · rintro ⟨fields, hfields, rfl⟩
      cases fields with
      | nil => simp at hfields
      | cons f fields =>
        obtain ⟨key, w⟩ := f
        obtain ⟨⟨rfl, rfl⟩, rfl⟩ := by simpa using hfields
        exact ⟨_, ⟨key, rfl, rfl⟩, fields, rfl, rfl⟩

theorem reads_meta {limit : Nat} {v : Value} (h : v.Readable limit) :
    Reads (metaMap limit) v (IsMeta v) := by
  intro rest m rest'
  rw [metaMap, Reader.mapInto_iff (R := fun s e t => ∃ key, e.1 = .text key ∧ t = Keyed.insert key e.2 s)
    h ?_ []]
  · simp only [leads_meta, IsMeta, ofFields, Keyed.ofList]
    constructor
    · rintro ⟨⟨_, rfl, fields, rfl, rfl⟩, rfl⟩
      exact ⟨⟨fields, rfl, rfl⟩, rfl⟩
    · rintro ⟨⟨fields, rfl, rfl⟩, rfl⟩
      exact ⟨⟨_, rfl, fields, rfl, rfl⟩, rfl⟩
  · rintro inner entries rfl rfl e he s rest t rest'
    obtain ⟨hkey, hvalue⟩ := h.entries he
    simp only [metaEntry, bind_eq_ok, pure_eq_ok]
    constructor
    · rintro ⟨⟨key, after⟩, hreadKey, ⟨w, last⟩, hreadValue, ht⟩
      obtain ⟨hk, rfl⟩ := (Reader.reads_text hkey _ key after).mp hreadKey
      obtain ⟨rfl, rfl⟩ := (Reader.reads_value hvalue _ w last).mp hreadValue
      obtain ⟨rfl, rfl⟩ := by simpa using ht
      exact ⟨⟨key, hk, rfl⟩, rfl⟩
    · rintro ⟨⟨key, hk, rfl⟩, rfl⟩
      exact ⟨(key, _), (Reader.reads_text hkey _ key _).mpr ⟨hk, rfl⟩, (e.2, _),
        (Reader.reads_value hvalue _ _ _).mpr ⟨rfl, rfl⟩, rfl⟩

theorem reads_bool {limit : Nat} {v : Value} (h : v.Readable limit) :
    Reads Reader.bool v (IsBool v) := Reader.reads_bool h

theorem reads_text {limit : Nat} {v : Value} (h : v.Readable limit) :
    Reads Reader.text v (IsText v) := Reader.reads_text h

theorem reads_value {limit : Nat} {v : Value} (h : v.Readable limit) :
    Reads (Reader.value limit) v (Eq v) := by
  intro rest a rest'
  simpa only [eq_comm] using Reader.reads_value h rest a rest'

/-- A field that does not count is passed over. -/
theorem ignored_iff {σ : Type} {limit : Nat} {v : Value} (h : v.Readable limit) (s : σ) (rest : Bytes)
    (t : σ) (rest' : Bytes) :
    (ignored limit (v.encode ++ rest) >>= fun read => pure (s, read.2)) = .ok (t, rest') ↔
      t = s ∧ rest' = rest := by
  have hread : Reader.value limit (v.encode ++ rest) = .ok (v, rest) :=
    (Reader.reads_value h rest v rest).mpr ⟨rfl, rfl⟩
  rw [ignored, hread]
  simp [eq_comm]

end PluginRelay.Message
