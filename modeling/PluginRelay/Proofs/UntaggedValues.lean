import PluginRelay.Proofs.MetaRoundTrip

/-!
# What readers take of values without tags

A written value without tags either fits a reader, which then takes all of it and nothing else, or is
refused. `Reads` says which, for any bytes behind the value; a map read entry by entry runs through
states as its entries say.
-/
namespace PluginRelay.Cbor

namespace Value

/-- There is no tag in the value. -/
def Untagged (v : Value) : Prop := v.Everywhere fun v => ∀ n item, v ≠ .tag n item

theorem Untagged.settled {v : Value} (h : v.Untagged) : v.Settled :=
  h.imp fun _ hv n item heq _ => absurd heq (hv n item)

theorem untagged_map {entries : List (Value × Value)} :
    (map entries).Untagged ↔ ∀ e ∈ entries, e.1.Untagged ∧ e.2.Untagged := by
  simp [Untagged]

/-- A value without tags that a reader may read which opens `limit` containers. -/
structure Readable (limit : Nat) (v : Value) : Prop where
  untagged : v.Untagged
  sized : v.Sized
  depth_le : v.depth ≤ limit

theorem Readable.mono {limit more : Nat} {v : Value} (h : v.Readable limit) (hle : limit ≤ more) :
    v.Readable more := ⟨h.untagged, h.sized, h.depth_le.trans hle⟩

theorem readable_array {limit : Nat} {items : List Value} : (array items).Readable (limit + 1) ↔
    items.length < UInt64.size ∧ ∀ v ∈ items, v.Readable limit := by
  constructor
  · rintro ⟨hu, hs, hd⟩
    rw [depth, Nat.add_le_add_iff_right, depthItems_le_iff] at hd
    obtain ⟨-, hu⟩ := everywhere_array.mp hu
    obtain ⟨hl, hs⟩ := everywhere_array.mp hs
    exact ⟨hl, fun v hv => ⟨hu v hv, hs v hv, hd v hv⟩⟩
  · rintro ⟨hl, h⟩
    refine ⟨everywhere_array.mpr ⟨by rintro _ _ ⟨⟩, fun v hv => (h v hv).untagged⟩,
      everywhere_array.mpr ⟨hl, fun v hv => (h v hv).sized⟩, ?_⟩
    rw [depth, Nat.add_le_add_iff_right, depthItems_le_iff]
    exact fun v hv => (h v hv).depth_le

theorem readable_map {limit : Nat} {entries : List (Value × Value)} :
    (map entries).Readable (limit + 1) ↔
      entries.length < UInt64.size ∧ ∀ e ∈ entries, e.1.Readable limit ∧ e.2.Readable limit := by
  constructor
  · rintro ⟨hu, hs, hd⟩
    rw [depth, Nat.add_le_add_iff_right, depthEntries_le_iff] at hd
    rw [untagged_map] at hu
    obtain ⟨hl, hs⟩ := sized_map.mp hs
    exact ⟨hl, fun e he => ⟨⟨(hu e he).1, (hs e he).1, (hd e he).1⟩, ⟨(hu e he).2, (hs e he).2, (hd e he).2⟩⟩⟩
  · rintro ⟨hl, h⟩
    refine ⟨untagged_map.mpr fun e he => ⟨(h e he).1.untagged, (h e he).2.untagged⟩,
      sized_map.mpr ⟨hl, fun e he => ⟨(h e he).1.sized, (h e he).2.sized⟩⟩, ?_⟩
    rw [depth, Nat.add_le_add_iff_right, depthEntries_le_iff]
    exact fun e he => ⟨(h e he).1.depth_le, (h e he).2.depth_le⟩

theorem readable_text {limit : Nat} {s : String} :
    (text s).Readable limit ↔ (Utf8.encode s).length < UInt64.size :=
  ⟨fun h => h.sized, fun h => ⟨by rintro _ _ ⟨⟩, h, Nat.zero_le _⟩⟩

theorem Readable.entries {limit : Nat} {entries : List (Value × Value)}
    (h : (map entries).Readable (limit + 1)) {e : Value × Value} (he : e ∈ entries) :
    e.1.Readable limit ∧ e.2.Readable limit := (readable_map.mp h).2 e he

theorem Readable.exists_limit {limit : Nat} {entries : List (Value × Value)}
    (h : (map entries).Readable limit) : ∃ inner, limit = inner + 1 := by
  have hdepth := h.depth_le
  rw [depth] at hdepth
  exact ⟨limit - 1, by omega⟩

/-- A map from texts. -/
def ofFields (fields : List (String × Value)) : Value :=
  .map (fields.map fun (k, v) => (.text k, v))

theorem ofFields_injective {a b : List (String × Value)} (h : ofFields a = ofFields b) : a = b :=
  Message.metaValue_injective h

end Value

namespace Reader

variable {α σ : Type}

/-- What the reader takes a written value for: what it accepts, and then nothing is left of the value. -/
def Reads (reader : Reader α) (v : Value) (accepts : α → Prop) : Prop :=
  ∀ rest a rest', reader (v.encode ++ rest) = .ok (a, rest') ↔ accepts a ∧ rest' = rest

theorem skipTags_encode {v : Value} (hu : v.Untagged) (hs : v.Sized) (rest : Bytes) :
    skipTags (v.encode ++ rest) = .ok (v.header, v.body ++ rest) := by
  have htag : ∀ n, v.header ≠ .tag n := by
    intro n hn
    cases v with
    | tag m item => exact absurd rfl (hu.self m item)
    | integer i => cases i <;> simp [Value.header] at hn
    | _ => simp [Value.header] at hn
  rw [Value.encode_eq, List.append_assoc, skipTags_write (Value.header_fits hs.self) htag]

theorem reads_value {limit : Nat} {v : Value} (h : v.Readable limit) :
    Reads (value limit) v (· = v) := by
  intro rest a rest'
  rw [Value.value_encode h.sized, Value.reread_of_settled h.untagged.settled, Value.within,
    if_pos h.depth_le, map_ok]
  simp [eq_comm]

theorem reads_text {limit : Nat} {v : Value} (h : v.Readable limit) :
    Reads text v fun s => v = .text s := by
  intro rest s rest'
  rw [text, skipTags_encode h.untagged h.sized]
  cases v with
  | text t =>
    simp only [Value.header, Value.body, ok_bind, textBody_encode]
    simp [eq_comm]
  | integer i => cases i <;> simp [Value.header]
  | _ => simp [Value.header]

theorem reads_bool {limit : Nat} {v : Value} (h : v.Readable limit) :
    Reads bool v fun b => v = .bool b := by
  intro rest b rest'
  rw [bool, skipTags_encode h.untagged h.sized]
  cases v with
  | bool c => cases c <;> simp [Value.header, Value.body, Header.falseCode, Header.trueCode, eq_comm]
  | null => simp [Value.header, Header.nullCode, Header.falseCode, Header.trueCode]
  | integer i => cases i <;> simp [Value.header]
  | _ => simp [Value.header]

theorem reads_shortBytes {limit : Nat} {v : Value} (h : v.Readable limit) :
    Reads shortBytes v fun b => v = .bytes b ∧ b.length ≤ pieceLength := by
  intro rest b rest'
  rw [shortBytes, skipTags_encode h.untagged h.sized]
  cases v with
  | bytes c =>
    simp only [Value.header, Value.body, ok_bind]
    split_ifs with hc
    · rw [exactly_append]
      constructor
      · intro heq
        obtain ⟨rfl, rfl⟩ := by simpa using heq
        exact ⟨⟨rfl, hc⟩, rfl⟩
      · rintro ⟨⟨heq, -⟩, rfl⟩
        rw [Value.bytes.inj heq]
    · simp only [Value.bytes.injEq, false_iff]
      rintro ⟨⟨rfl, hb⟩, -⟩
      exact hc hb
  | integer i => cases i <;> simp [Value.header]
  | _ => simp [Value.header]

theorem reads_optional {limit : Nat} {v : Value} (h : v.Readable limit) :
    Reads (optional limit) v (· = nonNull? v) := by
  intro rest a rest'
  rw [optional_encode h.sized, Value.reread_of_settled h.untagged.settled, Value.within,
    if_pos h.depth_le, map_ok]
  simp [eq_comm]

/-! ## Maps -/

/-- From state to state along a list. -/
def Leads {ε : Type} (step : σ → ε → σ → Prop) : σ → List ε → σ → Prop
  | s, [], t => t = s
  | s, e :: es, t => ∃ m, step s e m ∧ Leads step m es t

theorem stepTimes_iff {step : σ → Reader σ} {R : σ → Value × Value → σ → Prop}
    {entries : List (Value × Value)}
    (h : ∀ e ∈ entries, ∀ s rest t rest', step s (e.1.encode ++ (e.2.encode ++ rest)) = .ok (t, rest') ↔
      R s e t ∧ rest' = rest) (s : σ) (rest : Bytes) (t : σ) (rest' : Bytes) :
    stepTimes step entries.length s (Value.encodeEntries entries ++ rest) = .ok (t, rest') ↔
      Leads R s entries t ∧ rest' = rest := by
  induction entries generalizing s with
  | nil => simp [stepTimes, Value.encodeEntries, Leads, eq_comm]
  | cons e entries ih =>
    have hstep := h e List.mem_cons_self
    have hrest := ih fun e' he' => h e' (List.mem_cons_of_mem _ he')
    simp only [List.length_cons, stepTimes, Value.encodeEntries, List.append_assoc, bind_eq_ok, Leads]
    constructor
    · rintro ⟨⟨m, after⟩, hread, hreads⟩
      obtain ⟨hm, rfl⟩ := (hstep s _ m after).mp hread
      obtain ⟨ht, rfl⟩ := (hrest m).mp hreads
      exact ⟨⟨m, hm, ht⟩, rfl⟩
    · rintro ⟨⟨m, hm, ht⟩, rfl⟩
      exact ⟨(m, _), (hstep s _ m _).mpr ⟨hm, rfl⟩, (hrest m).mpr ⟨ht, rfl⟩⟩

/-- Reading a map into a state takes maps only, and runs through their entries. -/
theorem mapInto_iff {limit : Nat} {step : Nat → σ → Reader σ} {R : σ → Value × Value → σ → Prop}
    {v : Value} (h : v.Readable limit)
    (hstep : ∀ inner entries, limit = inner + 1 → v = .map entries → ∀ e ∈ entries, ∀ s rest t rest',
      step inner s (e.1.encode ++ (e.2.encode ++ rest)) = .ok (t, rest') ↔ R s e t ∧ rest' = rest)
    (start : σ) :
    Reads (mapInto limit step start) v fun t => ∃ entries, v = .map entries ∧ Leads R start entries t := by
  intro rest t rest'
  cases v with
  | map entries =>
    obtain ⟨inner, rfl⟩ := h.exists_limit
    rw [mapInto_encode (Value.sized_map.mp h.sized).1, stepTimes_iff (hstep inner entries rfl rfl)]
    simp
  | integer i => cases i <;> simp [mapInto, skipTags_encode h.untagged h.sized, Value.header]
  | _ => simp [mapInto, skipTags_encode h.untagged h.sized, Value.header]

theorem leads_map {ε δ : Type} {f : ε → δ} {R : σ → δ → σ → Prop} {s t : σ} {es : List ε} :
    Leads R s (es.map f) t ↔ Leads (fun s e t => R s (f e) t) s es t := by
  induction es generalizing s with
  | nil => rfl
  | cons e es ih => simp only [List.map_cons, Leads, ih]

/-- The same of a map from texts, where the steps are known for the keys that are there. -/
theorem mapInto_ofFields_iff {limit : Nat} {step : Nat → σ → Reader σ}
    {R : σ → String × Value → σ → Prop} {fields : List (String × Value)}
    (h : (Value.ofFields fields).Readable limit)
    (hstep : ∀ inner, limit = inner + 1 → ∀ e ∈ fields, (Value.text e.1).Sized → e.2.Readable inner →
      ∀ s rest t rest', step inner s (Value.encodeText e.1 ++ (e.2.encode ++ rest)) = .ok (t, rest') ↔
        R s e t ∧ rest' = rest) (start : σ) :
    Reads (mapInto limit step start) (Value.ofFields fields) fun t => Leads R start fields t := by
  intro rest t rest'
  rw [mapInto_iff (R := fun s e t => ∃ k, e.1 = .text k ∧ R s (k, e.2) t) h ?_ start]
  · simp [Value.ofFields, leads_map]
  · rintro inner entries rfl heq e he s rest t rest'
    obtain rfl := Value.map.inj heq
    obtain ⟨⟨k, v⟩, hf, rfl⟩ := List.mem_map.mp he
    obtain ⟨hkey, hvalue⟩ := h.entries he
    simpa [Value.encode] using hstep inner rfl (k, v) hf hkey.sized hvalue s rest t rest'

end Reader

end PluginRelay.Cbor
