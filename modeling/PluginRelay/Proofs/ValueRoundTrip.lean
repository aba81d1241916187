import PluginRelay.Proofs.HeaderRoundTrip
import PluginRelay.Proofs.Utf8Pieces
import PluginRelay.Proofs.ValueTree

/-!
# Values survive writing and reading

`reread` says what is read back of any written value: everything as it was, except that a short byte
string under a tag for large integers comes back as the integer, and that nothing comes back from too
deep inside. Settled values come back unchanged exactly if their depth allows it.
-/
namespace PluginRelay.Cbor.Value

open Reader (taggedDigits)

/-! ## A written value is a header and a body -/

def header : Value → Header
  | .null => .simple Header.nullCode
  | .bool b => .simple (if b then Header.trueCode else Header.falseCode)
  | .integer (.natural n) => .natural n
  | .integer (.negative n) => .negative n
  | .float x => .float x
  | .text s => .text (some (Utf8.encode s).length)
  | .bytes b => .bytes (some b.length)
  | .array items => .array (some items.length)
  | .map entries => .map (some entries.length)
  | .tag n _ => .tag n

def body : Value → Bytes
  | .text s => Utf8.encode s
  | .bytes b => b
  | .array items => encodeItems items
  | .map entries => encodeEntries entries
  | .tag _ item => encode item
  | _ => []

theorem encode_eq (v : Value) : encode v = Header.write v.header ++ v.body := by
  cases v with
  | integer n => cases n <;> simp [encode, header, body]
  | text s => simp [encode, header, body, encodeText]
  | bytes b => simp [encode, header, body, encodeBytes]
  | _ => simp [encode, header, body]

theorem header_fits {v : Value} (h : v.LengthFits) : v.header.Fits := by
  cases v with
  | integer n => cases n <;> trivial
  | text s => exact h
  | bytes b => exact h
  | array items => exact h
  | map entries => exact h
  | _ => trivial

theorem read_encode {v : Value} (h : v.LengthFits) (rest : Bytes) :
    Header.read (encode v ++ rest) = .ok (v.header, v.body ++ rest) := by
  rw [encode_eq, List.append_assoc, Header.read_write (header_fits h)]

/-! ## What is read back -/

mutual

/-- What is read back of a value where `depth` more containers may be opened. -/
def reread (depth : Nat) : Value → Except Fault Value
  | .array items =>
    match depth with
    | 0 => .error .tooDeep
    | depth + 1 => (rereadItems depth items).map .array
  | .map entries =>
    match depth with
    | 0 => .error .tooDeep
    | depth + 1 => (rereadEntries depth entries).map .map
  | .tag n item =>
    match integerDigits? n item with
    | some digits => taggedDigits n digits
    | none =>
      match depth with
      | 0 => .error .tooDeep
      | depth + 1 => (reread depth item).map (.tag n)
  | v => .ok v

def rereadItems (depth : Nat) : List Value → Except Fault (List Value)
  | [] => .ok []
  | v :: rest => do
    let v ← reread depth v
    let rest ← rereadItems depth rest
    return v :: rest

def rereadEntries (depth : Nat) : List (Value × Value) → Except Fault (List (Value × Value))
  | [] => .ok []
  | (k, v) :: rest => do
    let k ← reread depth k
    let v ← reread depth v
    let rest ← rereadEntries depth rest
    return (k, v) :: rest

end

theorem taggedInteger_encode {n : UInt64} {item : Value} (h : item.LengthFits) (rest : Bytes) :
    Reader.taggedInteger n (encode item ++ rest) =
      match integerDigits? n item with
      | some digits => (taggedDigits n digits).map fun v => (some v, rest)
      | none => .ok (none, encode item ++ rest) := by
  unfold Reader.taggedInteger
  split_ifs with hn
  · rw [read_encode h]
    cases item with
    | bytes b =>
      simp only [ok_bind, header, body, integerDigits?, hn, true_and]
      split_ifs with hw
      · simp only [Reader.exactly_append, ok_bind]
        cases taggedDigits n b with
        | ok v => rfl
        | error e => rfl
      · rfl
    | integer i => cases i <;> rfl
    | _ => rfl
  · cases item with
    | bytes b => simp [integerDigits?, hn]
    | _ => rfl

theorem times_encodeItems {depth : Nat} {items : List Value}
    (h : ∀ v ∈ items, ∀ rest,
      Reader.value depth (encode v ++ rest) = (reread depth v).map fun v => (v, rest)) (rest : Bytes) :
    Reader.times (Reader.value depth) items.length (encodeItems items ++ rest) =
      (rereadItems depth items).map fun items => (items, rest) := by
  induction items with
  | nil => rfl
  | cons v items ih =>
    simp only [List.length_cons, Reader.times, encodeItems, List.append_assoc, rereadItems]
    rw [h v (by simp)]
    cases reread depth v with
    | error e => rfl
    | ok v =>
      simp only [map_ok, ok_bind]
      rw [ih fun w hw => h w (by simp [hw])]
      cases rereadItems depth items with
      | error e => rfl
      | ok items => rfl

theorem times_encodeEntries {depth : Nat} {entries : List (Value × Value)}
    (h : ∀ e ∈ entries,
      (∀ rest, Reader.value depth (encode e.1 ++ rest) = (reread depth e.1).map fun v => (v, rest)) ∧
      ∀ rest, Reader.value depth (encode e.2 ++ rest) = (reread depth e.2).map fun v => (v, rest))
    (rest : Bytes) :
    Reader.times (Reader.pair (Reader.value depth) (Reader.value depth)) entries.length
        (encodeEntries entries ++ rest) =
      (rereadEntries depth entries).map fun entries => (entries, rest) := by
  induction entries with
  | nil => rfl
  | cons e entries ih =>
    obtain ⟨k, v⟩ := e
    obtain ⟨hk, hv⟩ := h (k, v) (by simp)
    simp only [List.length_cons, Reader.times, Reader.pair, encodeEntries, List.append_assoc,
      rereadEntries]
    rw [hk]
    cases reread depth k with
    | error e => rfl
    | ok k =>
      simp only [map_ok, ok_bind]
      rw [hv]
      cases reread depth v with
      | error e => rfl
      | ok v =>
        simp only [map_ok, ok_bind, pure_eq_ok]
        rw [ih fun e he => h e (by simp [he])]
        cases rereadEntries depth entries with
        | error e => rfl
        | ok entries => rfl

/-- Whatever follows it, a written value is read back as `reread` says, and what follows is left. -/
theorem value_encode {v : Value} (hs : v.Sized) (depth : Nat) (rest : Bytes) :
    Reader.value depth (encode v ++ rest) = (reread depth v).map fun v => (v, rest) := by
  -- The depth goes down with each container, on both sides in the same places.
  induction v using inductionOn generalizing depth rest with
  | array items ih =>
    obtain ⟨hl, hi⟩ := everywhere_array.mp hs
    rw [Reader.value, read_encode hl]
    simp only [ok_bind, header, body, reread]
    cases depth with
    | zero => rfl
    | succ depth =>
      simp only [Reader.repeated]
      rw [times_encodeItems fun v hv rest => ih v hv (hi v hv) depth rest]
      cases rereadItems depth items with
      | error e => rfl
      | ok items => rfl
  | map entries ih =>
    obtain ⟨hl, hi⟩ := everywhere_map.mp hs
    rw [Reader.value, read_encode hl]
    simp only [ok_bind, header, body, reread]
    cases depth with
    | zero => rfl
    | succ depth =>
      simp only [Reader.repeated]
      rw [times_encodeEntries fun e he =>
        ⟨(ih e he).1 (hi e he).1 depth, (ih e he).2 (hi e he).2 depth⟩]
      cases rereadEntries depth entries with
      | error e => rfl
      | ok entries => rfl
  | tag n item ih =>
    obtain ⟨hl, hi⟩ := everywhere_tag.mp hs
    rw [Reader.value, read_encode hl]
    simp only [ok_bind, header, body, reread]
    rw [taggedInteger_encode hi.self]
    cases integerDigits? n item with
    | some digits =>
      simp only
      cases taggedDigits n digits with
      | error e => rfl
      | ok v => rfl
    | none =>
      simp only [ok_bind]
      cases depth with
      | zero => rfl
      | succ depth =>
        simp only
        rw [ih hi]
        cases reread depth item with
        | error e => rfl
        | ok item => rfl
  | text s =>
    rw [Reader.value, read_encode hs.self]
    simp only [ok_bind, header, body, Reader.leaf, Reader.textBody_encode, map_ok, reread]
  | bytes b =>
    rw [Reader.value, read_encode hs.self]
    simp only [ok_bind, header, body, Reader.leaf, Reader.bytesBody, Reader.bytesChunk,
      Reader.exactly_append, pure_eq_ok, List.nil_append, map_ok, reread]
  | integer n =>
    rw [Reader.value, read_encode hs.self]
    cases n with
    | natural n => rfl
    | negative n => rfl
  | bool b =>
    rw [Reader.value, read_encode hs.self]
    cases b with
    | false => rfl
    | true => rfl
  | null =>
    rw [Reader.value, read_encode hs.self]
    rfl
  | float x =>
    rw [Reader.value, read_encode hs.self]
    rfl

/-! ## What comes back unchanged -/

theorem taggedDigits_standsBelow {n : UInt64} {digits : Bytes} {v : Value}
    (hl : digits.length ≤ integerWidth) (h : taggedDigits n digits = .ok v) :
    v.StandsBelow (2 ^ 128) := by
  have hlt : Bytes.toNat digits < 256 ^ 16 :=
    lt_of_lt_of_le (Bytes.toNat_lt digits) (Nat.pow_le_pow_right (by decide) hl)
  simp only [taggedDigits] at h
  split_ifs at h with hp hm
  · obtain rfl := Except.ok.inj h
    exact ⟨_, by omega, by omega, rfl⟩
  · obtain rfl := Except.ok.inj h
    rw [Nat.one_shiftLeft] at hm
    exact ⟨_, by omega, by omega, rfl⟩

theorem taggedDigits_of_standsBelow {n : UInt64} {digits : Bytes}
    (h : (Value.tag n (.bytes digits)).StandsBelow (2 ^ 128)) :
    taggedDigits n digits = .ok (.tag n (.bytes digits)) := by
  obtain ⟨i, hlow, hhigh, hi⟩ := h
  rcases ofInt_cases i with ⟨k, hk⟩ | ⟨hs, hk⟩ | ⟨hs, hk⟩
  · simp [hk] at hi
  · obtain ⟨rfl, hd⟩ := by simpa [hk] using hi
    have hm : Bytes.toNat digits = i.toNat := by
      rw [hd, toNat_magnitude (by omega)]
    rw [hi, taggedDigits, if_pos rfl, hm, Int.toNat_of_nonneg hs]
  · obtain ⟨rfl, hd⟩ := by simpa [hk] using hi
    have hm : Bytes.toNat digits = (-1 - i).toNat := by
      rw [hd, toNat_magnitude (by omega)]
    rw [hi, taggedDigits, if_neg (by decide), hm, if_pos (by rw [Nat.one_shiftLeft]; omega),
      Int.toNat_of_nonneg (by omega), show -1 - (-1 - i) = i by omega]

/-- What a reader gives for a value that it reads back unchanged as far as it gets. -/
def within (limit depth : Nat) {α : Type} (a : α) : Except Fault α :=
  if depth ≤ limit then .ok a else .error .tooDeep

theorem rereadItems_of_settled {limit : Nat} {items : List Value}
    (h : ∀ v ∈ items, reread limit v = within limit v.depth v) :
    rereadItems limit items = within limit (depthItems items) items := by
  induction items with
  | nil => rfl
  | cons v items ih =>
    rw [rereadItems, h v (by simp), ih fun w hw => h w (by simp [hw])]
    simp only [within, depthItems, Nat.max_le]
    by_cases hv : v.depth ≤ limit
    · by_cases hi : depthItems items ≤ limit
      · simp [hv, hi]
      · simp [hv, hi]
    · simp [hv]

theorem rereadEntries_of_settled {limit : Nat} {entries : List (Value × Value)}
    (h : ∀ e ∈ entries, reread limit e.1 = within limit e.1.depth e.1 ∧
      reread limit e.2 = within limit e.2.depth e.2) :
    rereadEntries limit entries = within limit (depthEntries entries) entries := by
  induction entries with
  | nil => rfl
  | cons e entries ih =>
    obtain ⟨k, v⟩ := e
    obtain ⟨hk, hv⟩ := h (k, v) (by simp)
    rw [rereadEntries, hk, hv, ih fun e he => h e (by simp [he])]
    simp only [within, depthEntries, Nat.max_le]
    by_cases hk : k.depth ≤ limit
    · by_cases hv : v.depth ≤ limit
      · by_cases hi : depthEntries entries ≤ limit
        · simp [hk, hv, hi]
        · simp [hk, hv, hi]
      · simp [hk, hv]
    · simp [hk]

/-- A settled value comes back unchanged exactly if the limit reaches its depth. -/
theorem reread_of_settled {v : Value} (h : v.Settled) (limit : Nat) :
    reread limit v = within limit v.depth v := by
  induction v using inductionOn generalizing limit with
  | array items ih =>
    cases limit with
    | zero => simp [reread, within, depth]
    | succ limit =>
      have hi := (everywhere_array.mp h).2
      simp only [reread, depth]
      rw [rereadItems_of_settled fun v hv => ih v hv (hi v hv) limit]
      simp only [within, Nat.add_le_add_iff_right]
      split_ifs <;> rfl
  | map entries ih =>
    cases limit with
    | zero => simp [reread, within, depth]
    | succ limit =>
      have hi := (everywhere_map.mp h).2
      simp only [reread, depth]
      rw [rereadEntries_of_settled fun e he =>
        ⟨(ih e he).1 (hi e he).1 limit, (ih e he).2 (hi e he).2 limit⟩]
      simp only [within, Nat.add_le_add_iff_right]
      split_ifs <;> rfl
  | tag n item ih =>
    obtain ⟨hself, hi⟩ := everywhere_tag.mp h
    simp only [reread, depth]
    cases hd : integerDigits? n item with
    | some digits =>
      obtain ⟨rfl, -, -⟩ := integerDigits?_eq_some hd
      simp [within, taggedDigits_of_standsBelow (hself n _ rfl (by simp [hd]))]
    | none =>
      cases limit with
      | zero => simp [within]
      | succ limit =>
        simp only [ih hi limit, within, Option.isSome_none, Bool.false_eq_true, if_false,
          Nat.add_le_add_iff_right]
        split_ifs <;> rfl
  | _ => simp [reread, within, depth]

theorem rereadItems_eq_self {limit : Nat} {items : List Value}
    (h : rereadItems limit items = .ok items) : ∀ v ∈ items, reread limit v = .ok v := by
  induction items with
  | nil => simp
  | cons v items ih =>
    rw [rereadItems] at h
    obtain ⟨w, hw, h⟩ := bind_eq_ok.mp h
    obtain ⟨rest, hrest, h⟩ := bind_eq_ok.mp h
    obtain ⟨rfl, rfl⟩ := by simpa using h
    exact List.forall_mem_cons.mpr ⟨hw, ih hrest⟩

theorem rereadEntries_eq_self {limit : Nat} {entries : List (Value × Value)}
    (h : rereadEntries limit entries = .ok entries) :
    ∀ e ∈ entries, reread limit e.1 = .ok e.1 ∧ reread limit e.2 = .ok e.2 := by
  induction entries with
  | nil => simp
  | cons e entries ih =>
    obtain ⟨k, v⟩ := e
    rw [rereadEntries] at h
    obtain ⟨k', hk, h⟩ := bind_eq_ok.mp h
    obtain ⟨v', hv, h⟩ := bind_eq_ok.mp h
    obtain ⟨rest, hrest, h⟩ := bind_eq_ok.mp h
    obtain ⟨⟨rfl, rfl⟩, rfl⟩ := by simpa using h
    exact List.forall_mem_cons.mpr ⟨⟨hk, hv⟩, ih hrest⟩

/-- Only settled values come back unchanged. -/
theorem settled_of_reread {v : Value} {limit : Nat} (h : reread limit v = .ok v) : v.Settled := by
  induction v using inductionOn generalizing limit with
  | array items ih =>
    cases limit with
    | zero => simp [reread] at h
    | succ limit =>
      simp only [reread] at h
      obtain ⟨items', hi, hv⟩ := map_eq_ok.mp h
      obtain rfl := Value.array.inj hv
      exact everywhere_array.mpr ⟨by rintro _ _ ⟨⟩, fun v hv => ih v hv (rereadItems_eq_self hi v hv)⟩
  | map entries ih =>
    cases limit with
    | zero => simp [reread] at h
    | succ limit =>
      simp only [reread] at h
      obtain ⟨entries', hi, hv⟩ := map_eq_ok.mp h
      obtain rfl := Value.map.inj hv
      have hself := rereadEntries_eq_self hi
      exact everywhere_map.mpr ⟨by rintro _ _ ⟨⟩, fun e he =>
        ⟨(ih e he).1 (hself e he).1, (ih e he).2 (hself e he).2⟩⟩
  | tag n item ih =>
    simp only [reread] at h
    cases hd : integerDigits? n item with
    | some digits =>
      simp only [hd] at h
      obtain ⟨rfl, -, hl⟩ := integerDigits?_eq_some hd
      exact (taggedDigits_standsBelow hl h).settled
    | none =>
      cases limit with
      | zero => simp [hd] at h
      | succ limit =>
        simp only [hd] at h
        obtain ⟨item', hi, hv⟩ := map_eq_ok.mp h
        obtain ⟨-, rfl⟩ := Value.tag.inj hv
        refine everywhere_tag.mpr ⟨?_, ih hi⟩
        rintro _ _ ⟨⟩ hsome
        simp [hd] at hsome
  | _ => rintro _ _ ⟨⟩

/-! ## What is not too deep -/

theorem rereadItems_ne_tooDeep {limit : Nat} {items : List Value}
    (h : ∀ v ∈ items, reread limit v ≠ .error .tooDeep) :
    rereadItems limit items ≠ .error .tooDeep := by
  induction items with
  | nil => simp [rereadItems]
  | cons v items ih =>
    have hv := h v (by simp)
    have hi := ih fun w hw => h w (by simp [hw])
    rw [rereadItems]
    cases hr : reread limit v with
    | error e => simpa [hr] using hv
    | ok v =>
      cases hrest : rereadItems limit items with
      | error e => simpa [hrest] using hi
      | ok items => simp

theorem rereadEntries_ne_tooDeep {limit : Nat} {entries : List (Value × Value)}
    (h : ∀ e ∈ entries, reread limit e.1 ≠ .error .tooDeep ∧ reread limit e.2 ≠ .error .tooDeep) :
    rereadEntries limit entries ≠ .error .tooDeep := by
  induction entries with
  | nil => simp [rereadEntries]
  | cons e entries ih =>
    obtain ⟨k, v⟩ := e
    obtain ⟨hk, hv⟩ := h (k, v) (by simp)
    have hi := ih fun e he => h e (by simp [he])
    rw [rereadEntries]
    cases hrk : reread limit k with
    | error e => simpa [hrk] using hk
    | ok k =>
      cases hrv : reread limit v with
      | error e => simpa [hrv] using hv
      | ok v =>
        cases hrest : rereadEntries limit entries with
        | error e => simpa [hrest] using hi
        | ok entries => simp

theorem taggedDigits_ne_tooDeep (n : UInt64) (digits : Bytes) :
    taggedDigits n digits ≠ .error .tooDeep := by
  simp only [taggedDigits]
  split_ifs <;> simp

/-- Settled or not, no value is too deep for a limit that reaches its depth. -/
theorem reread_ne_tooDeep {v : Value} {limit : Nat} (h : v.depth ≤ limit) :
    reread limit v ≠ .error .tooDeep := by
  induction v using inductionOn generalizing limit with
  | array items ih =>
    rw [depth] at h
    obtain ⟨limit, rfl⟩ : ∃ k, limit = k + 1 := ⟨limit - 1, by omega⟩
    have hi := rereadItems_ne_tooDeep fun v hv =>
      ih v hv (depthItems_le_iff.mp (Nat.le_of_succ_le_succ h) v hv)
    simp only [reread]
    cases hr : rereadItems limit items with
    | error e => simpa [hr] using hi
    | ok items => simp
  | map entries ih =>
    rw [depth] at h
    obtain ⟨limit, rfl⟩ : ∃ k, limit = k + 1 := ⟨limit - 1, by omega⟩
    have hd := depthEntries_le_iff.mp (Nat.le_of_succ_le_succ h)
    have hi := rereadEntries_ne_tooDeep fun e he =>
      ⟨(ih e he).1 (hd e he).1, (ih e he).2 (hd e he).2⟩
    simp only [reread]
    cases hr : rereadEntries limit entries with
    | error e => simpa [hr] using hi
    | ok entries => simp
  | tag n item ih =>
    simp only [reread]
    cases hd : integerDigits? n item with
    | some digits => exact taggedDigits_ne_tooDeep n digits
    | none =>
      simp only [depth, hd, Option.isSome_none, Bool.false_eq_true, if_false] at h
      obtain ⟨limit, rfl⟩ : ∃ k, limit = k + 1 := ⟨limit - 1, by omega⟩
      have hi := ih (Nat.le_of_succ_le_succ h)
      simp only
      cases hr : reread limit item with
      | error e => simpa [hr] using hi
      | ok item => simp
  | _ => simp [reread]

end PluginRelay.Cbor.Value
