import Mathlib.Data.List.Infix
import PluginRelay.Proofs.ReaderBounds
import PluginRelay.Proofs.ValueRoundTrip

/-!
# What values decoding can give

Any bytes at all: what is read from them is no deeper than the reader was allowed to go, its lengths fit
64 bits as those of the bytes do, and it is settled unless a large integer was cut into chunks.
-/
namespace PluginRelay.Cbor

namespace Reader

/-- A tag for large integers with a byte string of indefinite length behind it. -/
def chunkedInteger (input : Bytes) : Bool :=
  match Header.read input with
  | .ok (.tag n, rest) =>
    (n = Value.positiveTag || n = Value.negativeTag) &&
      match Header.read rest with
      | .ok (.bytes none, _) => true
      | _ => false
  | _ => false

/-- No large integer is cut into chunks, at whatever place reading starts. -/
def Unchunked (whole : Bytes) : Prop := ∀ input ∈ whole.tails, chunkedInteger input = false

/-- On any end of the bytes the reader leaves another one, and what it gives has the property. -/
def Gives {α : Type} (whole : Bytes) (P : α → Prop) (reader : Reader α) : Prop :=
  ∀ ⦃input a rest⦄, input <:+ whole → reader input = .ok (a, rest) → rest <:+ whole ∧ P a

end Reader

/-- What is known of a value that was read from an end of some bytes. -/
structure Value.Decoded (whole : Bytes) (depth : Nat) (v : Value) : Prop where
  depth_le : v.depth ≤ depth
  sized : whole.length < UInt64.size → v.Sized
  settled : Reader.Unchunked whole → v.Settled

namespace Value.Decoded

variable {whole : Bytes} {depth : Nat}

theorem bytes {b : Bytes} (h : whole.length < UInt64.size → b.length < UInt64.size) :
    (Value.bytes b).Decoded whole depth where
  depth_le := Nat.zero_le _
  sized := h
  settled _ := by rintro _ _ ⟨⟩

theorem text {s : String} (h : whole.length < UInt64.size → (Utf8.encode s).length < UInt64.size) :
    (Value.text s).Decoded whole depth where
  depth_le := Nat.zero_le _
  sized := h
  settled _ := by rintro _ _ ⟨⟩

theorem of_leaf {v : Value} (hd : v.depth = 0) (hs : v.Sized) (ht : v.Settled) :
    v.Decoded whole depth :=
  ⟨hd ▸ Nat.zero_le _, fun _ => hs, fun _ => ht⟩

theorem null : Value.null.Decoded whole depth := of_leaf rfl trivial (by rintro _ _ ⟨⟩)

theorem bool (b : Bool) : (Value.bool b).Decoded whole depth :=
  of_leaf rfl trivial (by rintro _ _ ⟨⟩)

theorem integer (n : Integer) : (Value.integer n).Decoded whole depth :=
  of_leaf rfl trivial (by rintro _ _ ⟨⟩)

theorem float (x : Binary64) : (Value.float x).Decoded whole depth :=
  of_leaf rfl trivial (by rintro _ _ ⟨⟩)

theorem array {items : List Value} (hl : whole.length < UInt64.size → items.length < UInt64.size)
    (h : ∀ v ∈ items, v.Decoded whole depth) : (Value.array items).Decoded whole (depth + 1) where
  depth_le := by
    rw [Value.depth, Nat.add_le_add_iff_right, depthItems_le_iff]
    exact fun v hv => (h v hv).depth_le
  sized hw := everywhere_array.mpr ⟨hl hw, fun v hv => (h v hv).sized hw⟩
  settled hc := everywhere_array.mpr ⟨by rintro _ _ ⟨⟩, fun v hv => (h v hv).settled hc⟩

theorem map {entries : List (Value × Value)}
    (hl : whole.length < UInt64.size → entries.length < UInt64.size)
    (h : ∀ e ∈ entries, e.1.Decoded whole depth ∧ e.2.Decoded whole depth) :
    (Value.map entries).Decoded whole (depth + 1) where
  depth_le := by
    rw [Value.depth, Nat.add_le_add_iff_right, depthEntries_le_iff]
    exact fun e he => ⟨(h e he).1.depth_le, (h e he).2.depth_le⟩
  sized hw := sized_map.mpr ⟨hl hw, fun e he => ⟨(h e he).1.sized hw, (h e he).2.sized hw⟩⟩
  settled hc := settled_map.mpr fun e he => ⟨(h e he).1.settled hc, (h e he).2.settled hc⟩

theorem tag {n : UInt64} {item : Value} (h : item.Decoded whole depth)
    (ht : Reader.Unchunked whole → (Value.tag n item).TagSettled) :
    (Value.tag n item).Decoded whole (depth + 1) where
  depth_le := by
    rw [Value.depth]
    split_ifs
    · exact Nat.zero_le _
    · exact Nat.succ_le_succ h.depth_le
  sized hw := everywhere_tag.mpr ⟨trivial, h.sized hw⟩
  settled hc := everywhere_tag.mpr ⟨ht hc, h.settled hc⟩

theorem of_standsBelow {v : Value} (h : v.StandsBelow (2 ^ 128)) : v.Decoded whole depth where
  depth_le := by
    obtain ⟨i, -, -, rfl⟩ := h
    rw [depth_ofInt]
    exact Nat.zero_le _
  sized _ := by
    obtain ⟨i, -, -, rfl⟩ := h
    exact sized_ofInt i
  settled _ := h.settled

end Value.Decoded

namespace Reader

variable {whole : Bytes}

/-! ## What one item can be -/

/-- Behind a tag for large integers a short byte string in one piece is read as digits. Nothing else is read. -/
theorem taggedInteger_cases {n : UInt64} {input rest : Bytes} {found : Option Value}
    (h : taggedInteger n input = .ok (found, rest)) :
    (∃ k tail digits v, Header.read input = .ok (.bytes (some k), tail) ∧ k ≤ Value.integerWidth ∧
      exactly k tail = .ok (digits, rest) ∧ taggedDigits n digits = .ok v ∧ found = some v) ∨
    (found = none ∧ rest = input ∧ (n = Value.positiveTag ∨ n = Value.negativeTag →
      ∀ k tail, Header.read input = .ok (.bytes (some k), tail) → Value.integerWidth < k)) := by
  unfold taggedInteger at h
  split_ifs at h with hn
  · obtain ⟨⟨header, tail⟩, hr, h⟩ := bind_eq_ok.mp h
    dsimp only at h
    split at h
    · next k =>
      split_ifs at h with hk
      · obtain ⟨⟨digits, tail'⟩, he, h⟩ := bind_eq_ok.mp h
        obtain ⟨v, hv, h⟩ := bind_eq_ok.mp h
        obtain ⟨rfl, rfl⟩ := by simpa using h
        exact .inl ⟨k, tail, digits, v, hr, hk, he, hv, rfl⟩
      · obtain ⟨rfl, rfl⟩ := by simpa using h
        refine .inr ⟨rfl, rfl, fun _ k' tail' hr' => ?_⟩
        obtain ⟨rfl, rfl⟩ := by simpa [hr] using hr'
        exact not_le.mp hk
    · next hheader =>
      obtain ⟨rfl, rfl⟩ := by simpa using h
      refine .inr ⟨rfl, rfl, fun _ k tail' hr' => ?_⟩
      obtain ⟨rfl, rfl⟩ := by simpa [hr] using hr'
      exact absurd rfl (hheader k)
  · obtain ⟨rfl, rfl⟩ := by simpa using h
    exact .inr ⟨rfl, rfl, fun hn' => absurd hn' hn⟩

theorem taggedInteger_eq_some {n : UInt64} {input rest : Bytes} {v : Value}
    (h : taggedInteger n input = .ok (some v, rest)) :
    rest <:+ input ∧ v.StandsBelow (2 ^ 128) := by
  obtain ⟨k, tail, digits, w, hr, hk, he, hw, hfound⟩ | ⟨hfound, -⟩ := taggedInteger_cases h
  · obtain rfl := Option.some.inj hfound
    obtain ⟨rfl, rfl⟩ := exactly_eq_ok he
    exact ⟨(List.suffix_append _ _).trans (Header.read_suffix hr).1, Value.taggedDigits_standsBelow hk hw⟩
  · nomatch hfound

/-- Behind a tag for large integers no short byte string in one piece is left to be read. -/
theorem taggedInteger_eq_none {n : UInt64} {input rest : Bytes}
    (h : taggedInteger n input = .ok (none, rest)) :
    rest = input ∧ (n = Value.positiveTag ∨ n = Value.negativeTag →
      ∀ k tail, Header.read input = .ok (.bytes (some k), tail) → Value.integerWidth < k) := by
  obtain ⟨_, _, _, _, -, -, -, -, hfound⟩ | ⟨-, hleft⟩ := taggedInteger_cases h
  · nomatch hfound
  · exact hleft

theorem value_eq_ok {depth : Nat} {input rest : Bytes} {v : Value}
    (h : value depth input = .ok (v, rest)) :
    ∃ header tail, Header.read input = .ok (header, tail) ∧
      ((∃ length d items, header = .array length ∧ depth = d + 1 ∧
          repeated (value d) length tail = .ok (items, rest) ∧ v = .array items) ∨
        (∃ length d entries, header = .map length ∧ depth = d + 1 ∧
          repeated (pair (value d) (value d)) length tail = .ok (entries, rest) ∧ v = .map entries) ∨
        (∃ n, header = .tag n ∧ taggedInteger n tail = .ok (some v, rest)) ∨
        (∃ n d item, header = .tag n ∧ depth = d + 1 ∧ taggedInteger n tail = .ok (none, tail) ∧
          value d tail = .ok (item, rest) ∧ v = .tag n item) ∨
        leaf header tail = .ok (v, rest)) := by
  rw [value] at h
  obtain ⟨⟨header, tail⟩, hr, h⟩ := bind_eq_ok.mp h
  refine ⟨header, tail, hr, ?_⟩
  cases header with
  | array length =>
    cases depth with
    | zero => simp at h
    | succ d =>
      obtain ⟨⟨items, tail'⟩, hi, h⟩ := bind_eq_ok.mp h
      obtain ⟨rfl, rfl⟩ := by simpa using h
      exact .inl ⟨length, d, items, rfl, rfl, hi, rfl⟩
  | map length =>
    cases depth with
    | zero => simp at h
    | succ d =>
      obtain ⟨⟨entries, tail'⟩, he, h⟩ := bind_eq_ok.mp h
      obtain ⟨rfl, rfl⟩ := by simpa using h
      exact .inr (.inl ⟨length, d, entries, rfl, rfl, he, rfl⟩)
  | tag n =>
    obtain ⟨⟨found, tail'⟩, ht, hv⟩ := bind_eq_ok.mp h
    cases found with
    | some w =>
      obtain ⟨rfl, rfl⟩ := by simpa using hv
      exact .inr (.inr (.inl ⟨n, rfl, ht⟩))
    | none =>
      obtain rfl := (taggedInteger_eq_none ht).1
      cases depth with
      | zero => simp at hv
      | succ d =>
        obtain ⟨⟨item, tail''⟩, hi, hv⟩ := bind_eq_ok.mp hv
        obtain ⟨rfl, rfl⟩ := by simpa using hv
        exact .inr (.inr (.inr (.inl ⟨n, d, item, rfl, rfl, ht, hi, rfl⟩)))
  | _ => exact .inr (.inr (.inr (.inr h)))

theorem leaf_eq_bytes {header : Header} {input rest b : Bytes}
    (h : leaf header input = .ok (.bytes b, rest)) :
    ∃ length, header = .bytes length ∧ bytesBody length input = .ok (b, rest) := by
  cases header with
  | bytes length =>
    obtain ⟨⟨b', rest'⟩, hb, h⟩ := map_eq_ok.mp h
    obtain ⟨rfl, rfl⟩ := by simpa using h
    exact ⟨length, rfl, hb⟩
  | text length =>
    obtain ⟨⟨s, rest'⟩, -, h⟩ := map_eq_ok.mp h
    simp at h
  | simple n =>
    simp only [leaf] at h
    split_ifs at h
    all_goals simp at h
  | _ => simp [leaf] at h

/-- Only the two simple values that stand for null are read as null. -/
theorem header_of_null {depth : Nat} {header : Header} {input tail rest : Bytes}
    (hr : Header.read input = .ok (header, tail)) (hv : value depth input = .ok (.null, rest)) :
    header = .simple Header.nullCode ∨ header = .simple Header.undefinedCode := by
  obtain ⟨header', tail', hr', hcase⟩ := value_eq_ok hv
  obtain ⟨rfl, rfl⟩ : header = header' ∧ tail = tail' := by simpa [hr] using hr'
  rcases hcase with ⟨_, _, _, -, -, -, he⟩ | ⟨_, _, _, -, -, -, he⟩ | ⟨k, -, hk⟩ |
    ⟨_, _, _, -, -, -, -, he⟩ | hleaf
  · cases he
  · cases he
  · exact absurd rfl (taggedInteger_eq_some hk).2.ne_null
  · cases he
  · cases header with
    | simple n =>
      simp only [leaf] at hleaf
      split_ifs at hleaf with hfalse htrue hnull
      · simp at hleaf
      · simp at hleaf
      · exact hnull.imp (congrArg _) (congrArg _)
    | bytes length =>
      obtain ⟨_, -, h⟩ := map_eq_ok.mp hleaf
      simp at h
    | text length =>
      obtain ⟨_, -, h⟩ := map_eq_ok.mp hleaf
      simp at h
    | _ => simp [leaf] at hleaf

/-- A short byte string under a tag for large integers was read from chunks, or it would be an integer. -/
theorem tagSettled_of_value {n : UInt64} {depth : Nat} {input tail rest : Bytes} {item : Value}
    (hin : input <:+ whole) (hr : Header.read input = .ok (.tag n, tail))
    (ht : taggedInteger n tail = .ok (none, tail)) (hv : value depth tail = .ok (item, rest))
    (hc : Unchunked whole) : (Value.tag n item).TagSettled := by
  rintro _ _ ⟨⟩ hd
  obtain ⟨digits, hd⟩ := Option.isSome_iff_exists.mp hd
  obtain ⟨rfl, hn, hlen⟩ := Value.integerDigits?_eq_some hd
  obtain ⟨header, tail', hr', hcase⟩ := value_eq_ok hv
  rcases hcase with ⟨_, _, _, -, -, -, he⟩ | ⟨_, _, _, -, -, -, he⟩ | ⟨k, rfl, hk⟩ |
    ⟨_, _, _, -, -, -, -, he⟩ | hleaf
  · cases he
  · cases he
  · obtain ⟨i, -, -, hi⟩ := (taggedInteger_eq_some hk).2
    rcases Value.ofInt_cases i with ⟨_, ho⟩ | ⟨-, ho⟩ | ⟨-, ho⟩
    all_goals simp [ho] at hi
  · cases he
  · obtain ⟨length, rfl, hb⟩ := leaf_eq_bytes hleaf
    cases length with
    | some k =>
      have hk := (taggedInteger_eq_none ht).2 hn k tail' hr'
      rw [length_of_bytesBody hb] at hlen
      omega
    | none =>
      -- The only way left: a tag, and behind it chunks.
      have hchunked := hc input ((List.mem_tails _ _).mpr hin)
      have hplain : ¬(n = Value.positiveTag ∨ n = Value.negativeTag) := by
        simpa [chunkedInteger, hr, hr'] using hchunked
      exact absurd hn hplain

/-! ## Everything that is read -/

theorem times_gives {α : Type} {P : α → Prop} {item : Reader α} (h : Gives whole P item) (n : Nat) :
    Gives whole (fun xs => xs.length = n ∧ ∀ x ∈ xs, P x) (times item n) := by
  intro input xs rest hin hr
  induction n generalizing input xs with
  | zero =>
    obtain ⟨rfl, rfl⟩ := by simpa [times] using hr
    exact ⟨hin, rfl, by simp⟩
  | succ n ih =>
    obtain ⟨⟨x, tail⟩, hx, hr⟩ := bind_eq_ok.mp hr
    obtain ⟨⟨xs', tail'⟩, hxs, hr⟩ := bind_eq_ok.mp hr
    obtain ⟨rfl, rfl⟩ := by simpa using hr
    obtain ⟨htail, hp⟩ := h hin hx
    obtain ⟨hrest, hl, hall⟩ := ih htail hxs
    exact ⟨hrest, by simp [hl], List.forall_mem_cons.mpr ⟨hp, hall⟩⟩

theorem untilStop_gives {α : Type} {P : α → Prop} {item : Reader α} (h : Gives whole P item)
    (fuel : Nat) : Gives whole (fun xs => xs.length < fuel ∧ ∀ x ∈ xs, P x) (untilStop item fuel) := by
  intro input xs rest hin hr
  induction fuel generalizing input xs with
  | zero => simp [untilStop] at hr
  | succ fuel ih =>
    obtain ⟨⟨header, tail⟩, hh, hr⟩ := bind_eq_ok.mp hr
    simp only at hr
    split_ifs at hr with hstop
    · obtain ⟨rfl, rfl⟩ := by simpa using hr
      exact ⟨(Header.read_suffix hh).1.trans hin, Nat.succ_pos _, by simp⟩
    · obtain ⟨⟨x, tail⟩, hx, hr⟩ := bind_eq_ok.mp hr
      obtain ⟨⟨xs', tail'⟩, hxs, hr⟩ := bind_eq_ok.mp hr
      obtain ⟨rfl, rfl⟩ := by simpa using hr
      obtain ⟨htail, hp⟩ := h hin hx
      obtain ⟨hrest, hl, hall⟩ := ih htail hxs
      exact ⟨hrest, Nat.succ_lt_succ hl, List.forall_mem_cons.mpr ⟨hp, hall⟩⟩

/-- A definite number of items fits 64 bits since its header does, an indefinite one since there is no more
than one item for each byte. -/
theorem repeated_gives {α : Type} {P : α → Prop} {item : Reader α} (h : Gives whole P item)
    {length : Option Nat} (hl : ∀ n, length = some n → n < UInt64.size) :
    Gives whole (fun xs => (whole.length < UInt64.size → xs.length < UInt64.size) ∧ ∀ x ∈ xs, P x)
      (repeated item length) := by
  intro input xs rest hin hr
  cases length with
  | some n =>
    obtain ⟨hrest, rfl, hall⟩ := times_gives h n hin hr
    exact ⟨hrest, fun _ => hl _ rfl, hall⟩
  | none =>
    obtain ⟨hrest, hlt, hall⟩ := untilStop_gives h _ hin hr
    have := hin.length_le
    exact ⟨hrest, fun _ => by omega, hall⟩

theorem pair_gives {α β : Type} {P : α → Prop} {Q : β → Prop} {first : Reader α} {second : Reader β}
    (hp : Gives whole P first) (hq : Gives whole Q second) :
    Gives whole (fun p => P p.1 ∧ Q p.2) (pair first second) := by
  intro input p rest hin hr
  obtain ⟨⟨a, tail⟩, ha, hr⟩ := bind_eq_ok.mp hr
  obtain ⟨⟨b, tail'⟩, hb, hr⟩ := bind_eq_ok.mp hr
  obtain ⟨rfl, rfl⟩ := by simpa using hr
  obtain ⟨htail, hpa⟩ := hp hin ha
  obtain ⟨hrest, hqb⟩ := hq htail hb
  exact ⟨hrest, hpa, hqb⟩

theorem leaf_gives (header : Header) (depth : Nat) :
    Gives whole (Value.Decoded whole depth) (leaf header) := by
  intro input v rest hin h
  have hle := hin.length_le
  cases header with
  | natural n =>
    obtain ⟨rfl, rfl⟩ := by simpa [leaf] using h
    exact ⟨hin, .integer _⟩
  | negative n =>
    obtain ⟨rfl, rfl⟩ := by simpa [leaf] using h
    exact ⟨hin, .integer _⟩
  | float x =>
    obtain ⟨rfl, rfl⟩ := by simpa [leaf] using h
    exact ⟨hin, .float x⟩
  | bytes length =>
    obtain ⟨⟨b, rest'⟩, hb, h⟩ := map_eq_ok.mp h
    obtain ⟨rfl, rfl⟩ := by simpa using h
    obtain ⟨hs, hl⟩ := bytesBody_bound hb
    exact ⟨hs.trans hin, .bytes fun hw => by omega⟩
  | text length =>
    obtain ⟨⟨s, rest'⟩, ht, h⟩ := map_eq_ok.mp h
    obtain ⟨rfl, rfl⟩ := by simpa using h
    obtain ⟨hs, hl⟩ := textBody_bound ht
    exact ⟨hs.trans hin, .text fun hw => by omega⟩
  | simple n =>
    simp only [leaf] at h
    split_ifs at h
    · obtain ⟨rfl, rfl⟩ := by simpa using h
      exact ⟨hin, .bool _⟩
    · obtain ⟨rfl, rfl⟩ := by simpa using h
      exact ⟨hin, .bool _⟩
    · obtain ⟨rfl, rfl⟩ := by simpa using h
      exact ⟨hin, .null⟩
  | _ => simp [leaf] at h

theorem value_gives (depth : Nat) : Gives whole (Value.Decoded whole depth) (value depth) := by
  induction depth with
  | zero =>
    intro input v rest hin h
    obtain ⟨header, tail, hr, hcase⟩ := value_eq_ok h
    have htail := (Header.read_suffix hr).1.trans hin
    rcases hcase with ⟨_, _, _, -, hd, -⟩ | ⟨_, _, _, -, hd, -⟩ | ⟨n, -, hn⟩ | ⟨_, _, _, -, hd, -⟩ | hleaf
    · cases hd
    · cases hd
    · obtain ⟨hs, hv⟩ := taggedInteger_eq_some hn
      exact ⟨hs.trans htail, .of_standsBelow hv⟩
    · cases hd
    · exact leaf_gives header 0 htail hleaf
  | succ depth ih =>
    intro input v rest hin h
    obtain ⟨header, tail, hr, hcase⟩ := value_eq_ok h
    have htail := (Header.read_suffix hr).1.trans hin
    have hfits := Header.fits_of_read hr
    rcases hcase with ⟨length, _, items, rfl, ⟨⟩, hi, rfl⟩ | ⟨length, _, entries, rfl, ⟨⟩, he, rfl⟩ |
      ⟨n, -, hn⟩ | ⟨n, _, item, rfl, ⟨⟩, ht, hi, rfl⟩ | hleaf
    · obtain ⟨hs, hl, hall⟩ := repeated_gives ih (by rintro n rfl; exact hfits) htail hi
      exact ⟨hs, .array hl hall⟩
    · obtain ⟨hs, hl, hall⟩ := repeated_gives (pair_gives ih ih) (by rintro n rfl; exact hfits) htail he
      exact ⟨hs, .map hl hall⟩
    · obtain ⟨hs, hv⟩ := taggedInteger_eq_some hn
      exact ⟨hs.trans htail, .of_standsBelow hv⟩
    · obtain ⟨hs, hv⟩ := ih htail hi
      exact ⟨hs, .tag hv (tagSettled_of_value hin hr ht hi)⟩
    · exact leaf_gives header _ htail hleaf

/-! ## Maps, variants and values that may be missing -/

variable {σ : Type} {I : Nat → σ → Prop}

theorem stepTimes_gives {step : σ → Reader σ} (hstep : ∀ k s, I k s → Gives whole (I (k + 1)) (step s))
    {k : Nat} {s : σ} (h : I k s) (n : Nat) : Gives whole (I (k + n)) (stepTimes step n s) := by
  intro input s' rest hin hr
  induction n generalizing k s input with
  | zero =>
    obtain ⟨rfl, rfl⟩ := by simpa [stepTimes] using hr
    exact ⟨hin, h⟩
  | succ n ih =>
    obtain ⟨⟨s₁, tail⟩, hs, hr⟩ := bind_eq_ok.mp hr
    obtain ⟨htail, h₁⟩ := hstep k s h hin hs
    obtain ⟨hrest, h'⟩ := ih h₁ htail hr
    exact ⟨hrest, by rwa [Nat.add_right_comm] at h'⟩

theorem stepUntilStop_gives {step : σ → Reader σ}
    (hstep : ∀ k s, I k s → Gives whole (I (k + 1)) (step s)) {k : Nat} {s : σ} (h : I k s)
    (fuel : Nat) : Gives whole (fun s => ∃ n, n < fuel ∧ I (k + n) s) (stepUntilStop step fuel s) := by
  intro input s' rest hin hr
  induction fuel generalizing k s input with
  | zero => simp [stepUntilStop] at hr
  | succ fuel ih =>
    obtain ⟨⟨header, tail⟩, hh, hr⟩ := bind_eq_ok.mp hr
    simp only at hr
    split_ifs at hr with hstop
    · obtain ⟨rfl, rfl⟩ := by simpa using hr
      exact ⟨(Header.read_suffix hh).1.trans hin, 0, Nat.succ_pos _, h⟩
    · obtain ⟨⟨s₁, tail⟩, hs, hr⟩ := bind_eq_ok.mp hr
      obtain ⟨htail, h₁⟩ := hstep k s h hin hs
      obtain ⟨hrest, n, hn, h'⟩ := ih h₁ htail hr
      exact ⟨hrest, n + 1, by omega, by rwa [Nat.add_right_comm] at h'⟩

/-- An invariant that each entry keeps holds of what a map is read into; it may count the entries. -/
theorem mapInto_gives {step : Nat → σ → Reader σ} {start : σ} {depth : Nat} (hstart : I 0 start)
    (hstep : ∀ k s, I k s → Gives whole (I (k + 1)) (step depth s)) :
    Gives whole (fun s => ∃ k, (whole.length < UInt64.size → k < UInt64.size) ∧ I k s)
      (mapInto (depth + 1) step start) := by
  intro input s rest hin hr
  obtain ⟨⟨header, tail⟩, hh, hr⟩ := bind_eq_ok.mp hr
  have htail := (skipTags_suffix hh).trans hin
  cases header with
  | map length =>
    cases length with
    | some n =>
      obtain ⟨hrest, h⟩ := stepTimes_gives hstep hstart n htail hr
      exact ⟨hrest, n, fun _ => fits_of_skipTags hh, by rwa [Nat.zero_add] at h⟩
    | none =>
      obtain ⟨hrest, n, hn, h⟩ := stepUntilStop_gives hstep hstart _ htail hr
      have := htail.length_le
      exact ⟨hrest, n, fun _ => by omega, by rwa [Nat.zero_add] at h⟩
  | _ => simp at hr

theorem variant_gives {α : Type} {P : α → Prop} {body : Nat → Option String → Reader α} {depth : Nat}
    (hbody : ∀ tag, Gives whole P (body depth tag)) : Gives whole P (variant (depth + 1) body) := by
  intro input a rest hin hr
  obtain ⟨⟨header, tail⟩, hh, hr⟩ := bind_eq_ok.mp hr
  have later {start : Bytes} (hstart : start <:+ whole)
      (hr : (name start >>= fun p => body depth p.1 p.2) = .ok (a, rest)) : rest <:+ whole ∧ P a := by
    obtain ⟨⟨tag, tail'⟩, hn, hr⟩ := bind_eq_ok.mp hr
    exact hbody tag ((name_suffix hn).trans hstart) hr
  simp only at hr
  split at hr
  · exact later ((skipTags_suffix hh).trans hin) hr
  · exact later hin hr
  · simp at hr

theorem optional_gives (depth : Nat) :
    Gives whole (fun v => v ≠ some .null ∧ ∀ w, v = some w → w.Decoded whole depth) (optional depth) := by
  intro input v rest hin hr
  obtain ⟨⟨header, tail⟩, hh, hr⟩ := bind_eq_ok.mp hr
  simp only at hr
  split_ifs at hr with hnull
  · obtain ⟨rfl, rfl⟩ := by simpa using hr
    exact ⟨(Header.read_suffix hh).1.trans hin, by simp, by simp⟩
  · obtain ⟨⟨w, tail'⟩, hv, hr⟩ := bind_eq_ok.mp hr
    obtain ⟨rfl, rfl⟩ := by simpa using hr
    obtain ⟨hrest, hw⟩ := value_gives depth hin hv
    refine ⟨hrest, ?_, by rintro _ ⟨⟩; exact hw⟩
    rintro ⟨⟩
    exact hnull (header_of_null hh hv)

end Reader

end PluginRelay.Cbor
