import PluginRelay.Proofs.ValueRoundTrip

/-!
# Fields survive writing and reading

The readers of texts, byte strings, numbers and maps skip tags. What was written without a tag in front
comes back from each of them, whatever follows it.
-/
namespace PluginRelay.Cbor.Reader

theorem skipTags_write {h : Header} (hf : h.Fits) (ht : ∀ n, h ≠ .tag n) (rest : Bytes) :
    skipTags (Header.write h ++ rest) = .ok (h, rest) := by
  rw [skipTags, untagged, Header.read_write hf]
  cases h with
  | tag n => exact absurd rfl (ht n)
  | _ => rfl

/-! ## Texts and byte strings -/

theorem text_encode {s : String} (hs : (Value.text s).Sized) (rest : Bytes) :
    text (Value.encode (.text s) ++ rest) = .ok (s, rest) := by
  rw [text, Value.encode, Value.encodeText, List.append_assoc,
    skipTags_write (h := .text (some _)) hs (by simp)]
  exact textBody_encode s rest

theorem pieceLength_lt : pieceLength < UInt64.size := by decide

/-- A field name that is read in one piece. -/
theorem name_encodeText {s : String} (hs : (Utf8.encode s).length ≤ pieceLength) (rest : Bytes) :
    name (Value.encodeText s ++ rest) = .ok (some s, rest) := by
  have hf : (Utf8.encode s).length < UInt64.size := lt_of_le_of_lt hs pieceLength_lt
  rw [name, Value.encodeText, List.append_assoc, skipTags_write (h := .text (some _)) hf (by simp)]
  simp only [ok_bind, if_pos hs, exactly_append, Utf8.decode?_encode, pure_eq_ok]

theorem shortBytes_encode {b : Bytes} (hb : b.length ≤ pieceLength) (rest : Bytes) :
    shortBytes (Value.encode (.bytes b) ++ rest) = .ok (b, rest) := by
  have hf : b.length < UInt64.size := lt_of_le_of_lt hb pieceLength_lt
  rw [shortBytes, Value.encode, Value.encodeBytes, List.append_assoc,
    skipTags_write (h := .bytes (some _)) hf (by simp)]
  simp only [ok_bind, if_pos hb, exactly_append]

/-! ## Numbers -/

theorem bool_encode (b : Bool) (rest : Bytes) :
    bool (Value.encode (.bool b) ++ rest) = .ok (b, rest) := by
  rw [bool, Value.encode, skipTags_write (h := .simple _) trivial (by simp)]
  cases b with
  | false => rfl
  | true => rfl

theorem natural_encode (n : UInt64) (rest : Bytes) :
    natural (Value.encode (.integer (.natural n)) ++ rest) = .ok (n.toNat, rest) := by
  rw [natural, naturalFrom, Value.encode, Header.read_write (h := .natural n) trivial]
  rfl

/-! ## Values that may be missing -/

/-- Null stands for no value where a value may be missing. -/
def nonNull? : Value → Option Value
  | .null => none
  | v => some v

theorem nonNull?_eq_some {v : Value} (h : v ≠ .null) : nonNull? v = some v := by
  cases v with
  | null => exact absurd rfl h
  | _ => rfl

theorem nonNull?_injective {v w : Value} (h : nonNull? v = nonNull? w) : v = w := by
  by_cases hv : v = .null
  · by_cases hw : w = .null
    · rw [hv, hw]
    · simp [hv, nonNull?] at h
  · by_cases hw : w = .null
    · simp [hw, nonNull?] at h
    · simpa [nonNull?_eq_some hv, nonNull?_eq_some hw] using h

theorem nonNull?_getD (a : Option Value) : nonNull? (a.getD .null) = a.bind nonNull? := by
  cases a with
  | none => rfl
  | some v => rfl

theorem eq_null_of_header {v : Value}
    (h : v.header = .simple Header.nullCode ∨ v.header = .simple Header.undefinedCode) :
    v = .null := by
  cases v with
  | null => rfl
  | bool b => cases b <;> exact absurd h (by decide)
  | integer n => cases n <;> simp [Value.header] at h
  | _ => simp [Value.header] at h

theorem reread_ne_null {depth : Nat} {v w : Value} (hv : v ≠ .null)
    (h : v.reread depth = .ok w) : w ≠ .null := by
  cases v with
  | null => exact absurd rfl hv
  | array items =>
    cases depth with
    | zero => simp [Value.reread] at h
    | succ depth =>
      obtain ⟨_, -, rfl⟩ := map_eq_ok.mp (by simpa only [Value.reread] using h)
      simp
  | map entries =>
    cases depth with
    | zero => simp [Value.reread] at h
    | succ depth =>
      obtain ⟨_, -, rfl⟩ := map_eq_ok.mp (by simpa only [Value.reread] using h)
      simp
  | tag n item =>
    simp only [Value.reread] at h
    cases hd : Value.integerDigits? n item with
    | some digits =>
      rw [hd] at h
      exact (Value.taggedDigits_standsBelow (Value.integerDigits?_eq_some hd).2.2 h).ne_null
    | none =>
      cases depth with
      | zero => simp [hd] at h
      | succ depth =>
        obtain ⟨_, -, rfl⟩ := map_eq_ok.mp (by simpa only [hd] using h)
        simp
  | _ =>
    obtain rfl := Except.ok.inj (by simpa only [Value.reread] using h)
    exact hv

theorem optional_encode {v : Value} (hv : v.Sized) (depth : Nat) (rest : Bytes) :
    optional depth (v.encode ++ rest) =
      (v.reread depth).map fun v => (nonNull? v, rest) := by
  simp only [optional, Value.read_encode hv.self, ok_bind]
  split_ifs with hnull
  · rw [eq_null_of_header hnull]
    rfl
  · have hne : v ≠ .null := by
      rintro rfl
      exact hnull (.inl rfl)
    rw [Value.value_encode hv]
    cases hr : v.reread depth with
    | error e => rfl
    | ok w => simp [nonNull?_eq_some (reread_ne_null hne hr)]

/-! ## Maps -/

theorem mapInto_encode {σ : Type} {entries : List (Value × Value)}
    (hl : entries.length < UInt64.size) (depth : Nat) (step : Nat → σ → Reader σ) (start : σ)
    (rest : Bytes) :
    mapInto (depth + 1) step start (Value.encode (.map entries) ++ rest) =
      stepTimes (step depth) entries.length start (Value.encodeEntries entries ++ rest) := by
  rw [mapInto, Value.encode, List.append_assoc,
    skipTags_write (h := .map (some entries.length)) hl (by simp)]
  rfl

theorem stepTimes_cons {σ : Type} (step : σ → Reader σ) (state : σ) (key : String) (v : Value)
    (entries : List (Value × Value)) (rest : Bytes) :
    stepTimes step ((Value.text key, v) :: entries).length state
        (Value.encodeEntries ((.text key, v) :: entries) ++ rest) =
      step state (Value.encodeText key ++ (Value.encode v ++ (Value.encodeEntries entries ++ rest))) >>=
        fun (state, rest) => stepTimes step entries.length state rest := by
  simp only [List.length_cons, stepTimes, Value.encodeEntries, Value.encode, List.append_assoc]

/-- A variant that is a name alone. -/
theorem variant_encode_text {α : Type} {s : String} (hs : (Utf8.encode s).length ≤ pieceLength)
    (depth : Nat) (body : Nat → Option String → Reader α) (rest : Bytes) :
    variant (depth + 1) body (Value.encode (.text s) ++ rest) = body depth (some s) rest := by
  have hf : (Utf8.encode s).length < UInt64.size := lt_of_le_of_lt hs pieceLength_lt
  have hskip := skipTags_write (h := .text (some (Utf8.encode s).length)) hf (by simp)
    (Utf8.encode s ++ rest)
  rw [← List.append_assoc, ← Value.encodeText] at hskip
  simp only [variant, Value.encode, hskip, ok_bind, name_encodeText hs]

/-- A variant that is the only key of a map. -/
theorem variant_encode_map {α : Type} {s : String} (hs : (Utf8.encode s).length ≤ pieceLength)
    (v : Value) (depth : Nat) (body : Nat → Option String → Reader α) (rest : Bytes) :
    variant (depth + 1) body (Value.encode (.map [(.text s, v)]) ++ rest) =
      body depth (some s) (Value.encode v ++ rest) := by
  have hf : (1 : Nat) < UInt64.size := by decide
  have hskip := skipTags_write (h := .map (some 1)) hf (by simp)
    (Value.encodeText s ++ (Value.encode v ++ rest))
  simp only [variant, Value.encode, Value.encodeEntries, List.length_singleton, List.append_assoc,
    List.nil_append, hskip, ok_bind, name_encodeText hs]

end PluginRelay.Cbor.Reader
