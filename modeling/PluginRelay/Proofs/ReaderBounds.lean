import PluginRelay.Proofs.HeaderRoundTrip
import PluginRelay.Proofs.Utf8Pieces

/-!
# What readers take and leave

A reader leaves an end of its input. The bodies of strings are no longer than the bytes that they are
read from, however the input is cut into chunks.
-/
namespace PluginRelay.Cbor.Reader

variable {α : Type}

/-! ## Strings -/

/-- The chunk leaves an end of its input, and adds no more to what was read than it takes. -/
def Conserves (size : α → Nat) (chunk : α → Reader α) : Prop :=
  ∀ ⦃a input b rest⦄, chunk a input = .ok (b, rest) →
    rest <:+ input ∧ size b + rest.length ≤ size a + input.length

theorem exactly_eq_ok {n : Nat} {input front rest : Bytes} (h : exactly n input = .ok (front, rest)) :
    input = front ++ rest ∧ front.length = n := by
  unfold exactly at h
  split at h
  · next front' rest' ht =>
    obtain ⟨rfl, rfl⟩ := by simpa using h
    exact Bytes.take?_eq_some ht
  · simp at h

theorem bytesChunk_conserves (n : Nat) : Conserves List.length (bytesChunk n) := by
  intro front input b rest h
  obtain ⟨⟨piece, rest'⟩, hp, h⟩ := bind_eq_ok.mp h
  obtain ⟨rfl, rfl⟩ := by simpa using h
  obtain ⟨rfl, -⟩ := exactly_eq_ok hp
  exact ⟨List.suffix_append _ _, by simp only [List.length_append]; omega⟩

theorem textPieces_bound {fuel unread : Nat} {pending : Bytes} {chars read : List Char}
    {input rest : Bytes} (h : textPieces fuel unread pending chars input = .ok (read, rest)) :
    rest <:+ input ∧ (Utf8.encodeChars read).length + rest.length ≤
      (Utf8.encodeChars chars).length + pending.length + input.length := by
  -- What is pending came from the piece before, so it counts with the characters that are read already.
  induction fuel generalizing unread pending chars input with
  | zero => simp [textPieces] at h
  | succ fuel ih =>
    simp only [textPieces] at h
    split_ifs at h with hz hp
    · obtain ⟨rfl, rfl⟩ := by simpa using h
      exact ⟨List.suffix_refl _, by omega⟩
    · obtain ⟨⟨piece, tail⟩, he, hnext⟩ := bind_eq_ok.mp h
      simp only at hnext
      split_ifs at hnext with hb
      obtain ⟨rfl, -⟩ := exactly_eq_ok he
      obtain ⟨hs, hl⟩ := ih hnext
      have hgood := Utf8.length_encodeChars_lossyChars (Nat.zero_le (pending ++ piece).length)
      have hle := Utf8.validUpTo_le 0 (pending ++ piece)
      refine ⟨hs.trans (List.suffix_append _ _), ?_⟩
      simp only [Utf8.encodeChars_append, List.length_append, List.length_drop] at hl hgood hle ⊢
      omega

theorem textChunk_conserves (n : Nat) :
    Conserves (fun chars => (Utf8.encodeChars chars).length) (textChunk n) := by
  intro chars input read rest h
  simpa using textPieces_bound h

theorem chunks_conserves {size : α → Nat} {chunk : Nat → α → Reader α}
    {length? : Header → Option (Option Nat)} (hc : ∀ n, Conserves size (chunk n)) (fuel nested : Nat) :
    Conserves size (chunks chunk length? fuel nested) := by
  intro read input read' rest h
  induction fuel generalizing nested read input with
  | zero => simp [chunks] at h
  | succ fuel ih =>
    obtain ⟨⟨header, tail⟩, hr, h⟩ := bind_eq_ok.mp h
    obtain ⟨hsuffix, hshort⟩ := Header.read_suffix hr
    have later {nested : Nat} (h : chunks chunk length? fuel nested read tail = .ok (read', rest)) :
        rest <:+ input ∧ size read' + rest.length ≤ size read + input.length := by
      obtain ⟨hs, hl⟩ := ih _ h
      exact ⟨hs.trans hsuffix, by omega⟩
    simp only at h
    split_ifs at h with hstop hnested
    · obtain ⟨rfl, rfl⟩ := by simpa using h
      exact ⟨hsuffix, by omega⟩
    · exact later h
    · split at h
      · simp at h
      · exact later h
      · obtain ⟨⟨read₁, tail₁⟩, hchunk, h⟩ := bind_eq_ok.mp h
        obtain ⟨hs₁, hl₁⟩ := hc _ hchunk
        simp only at h
        obtain ⟨hs, hl⟩ := ih _ h
        exact ⟨hs.trans (hs₁.trans hsuffix), by omega⟩

theorem bytesBody_bound {length : Option Nat} {input b rest : Bytes}
    (h : bytesBody length input = .ok (b, rest)) :
    rest <:+ input ∧ b.length + rest.length ≤ input.length := by
  cases length with
  | some n => simpa using bytesChunk_conserves n h
  | none => simpa using chunks_conserves bytesChunk_conserves _ _ h

theorem textBody_bound {length : Option Nat} {input rest : Bytes} {s : String}
    (h : textBody length input = .ok (s, rest)) :
    rest <:+ input ∧ (Utf8.encode s).length + rest.length ≤ input.length := by
  cases length with
  | some n =>
    obtain ⟨⟨chars, tail⟩, hc, h⟩ := bind_eq_ok.mp h
    obtain ⟨rfl, rfl⟩ := by simpa using h
    simpa [Utf8.encode_ofList] using textChunk_conserves n hc
  | none =>
    obtain ⟨⟨chars, tail⟩, hc, h⟩ := bind_eq_ok.mp h
    obtain ⟨rfl, rfl⟩ := by simpa using h
    simpa [Utf8.encode_ofList] using chunks_conserves textChunk_conserves _ _ hc

/-- A byte string in one piece is as long as its header says. -/
theorem length_of_bytesBody {n : Nat} {input b rest : Bytes}
    (h : bytesBody (some n) input = .ok (b, rest)) : b.length = n := by
  obtain ⟨⟨piece, tail⟩, hp, h⟩ := bind_eq_ok.mp h
  obtain ⟨rfl, rfl⟩ := by simpa using h
  exact (exactly_eq_ok hp).2

/-! ## Fields -/

theorem untagged_suffix {fuel : Nat} {input rest : Bytes} {header : Header}
    (h : untagged fuel input = .ok (header, rest)) : rest <:+ input := by
  induction fuel generalizing input with
  | zero => simp [untagged] at h
  | succ fuel ih =>
    obtain ⟨⟨header', tail⟩, hr, hnext⟩ := bind_eq_ok.mp h
    have htail := (Header.read_suffix hr).1
    cases header' with
    | tag n => exact (ih hnext).trans htail
    | _ =>
      obtain ⟨rfl, rfl⟩ := by simpa using hnext
      exact htail

theorem fits_of_untagged {fuel : Nat} {input rest : Bytes} {header : Header}
    (h : untagged fuel input = .ok (header, rest)) : header.Fits := by
  induction fuel generalizing input with
  | zero => simp [untagged] at h
  | succ fuel ih =>
    obtain ⟨⟨header', tail⟩, hr, hnext⟩ := bind_eq_ok.mp h
    cases header' with
    | tag n => exact ih hnext
    | _ =>
      obtain ⟨rfl, rfl⟩ := by simpa using hnext
      exact Header.fits_of_read hr

theorem skipTags_suffix {input rest : Bytes} {header : Header}
    (h : skipTags input = .ok (header, rest)) : rest <:+ input := untagged_suffix h

theorem fits_of_skipTags {input rest : Bytes} {header : Header}
    (h : skipTags input = .ok (header, rest)) : header.Fits := fits_of_untagged h

theorem text_bound {input rest : Bytes} {s : String} (h : text input = .ok (s, rest)) :
    rest <:+ input ∧ (Utf8.encode s).length ≤ input.length := by
  obtain ⟨⟨header, tail⟩, hr, hnext⟩ := bind_eq_ok.mp h
  have htail := skipTags_suffix hr
  cases header with
  | text length =>
    obtain ⟨hs, hl⟩ := textBody_bound hnext
    have := htail.length_le
    exact ⟨hs.trans htail, by omega⟩
  | _ => simp at hnext

theorem bool_suffix {input rest : Bytes} {b : Bool} (h : bool input = .ok (b, rest)) :
    rest <:+ input := by
  obtain ⟨⟨header, tail⟩, hr, hnext⟩ := bind_eq_ok.mp h
  cases header with
  | simple n =>
    simp only at hnext
    split_ifs at hnext
    all_goals
      obtain ⟨-, rfl⟩ := by simpa using hnext
      exact skipTags_suffix hr
  | _ => simp at hnext

theorem exactly_suffix {n : Nat} {input front rest : Bytes}
    (h : exactly n input = .ok (front, rest)) : rest <:+ input := by
  obtain ⟨rfl, -⟩ := exactly_eq_ok h
  exact List.suffix_append _ _

theorem shortBytes_suffix {input rest b : Bytes} (h : shortBytes input = .ok (b, rest)) :
    rest <:+ input := by
  obtain ⟨⟨header, tail⟩, hr, hnext⟩ := bind_eq_ok.mp h
  cases header with
  | bytes length =>
    cases length with
    | some n =>
      simp only at hnext
      split_ifs at hnext
      exact (exactly_suffix hnext).trans (skipTags_suffix hr)
    | none => simp at hnext
  | _ => simp at hnext

theorem name_suffix {input rest : Bytes} {s : Option String} (h : name input = .ok (s, rest)) :
    rest <:+ input := by
  obtain ⟨⟨header, tail⟩, hr, hnext⟩ := bind_eq_ok.mp h
  have htail := skipTags_suffix hr
  cases header with
  | text length =>
    cases length with
    | some n =>
      simp only at hnext
      split_ifs at hnext
      obtain ⟨⟨bytes, tail'⟩, he, hnext⟩ := bind_eq_ok.mp hnext
      simp only at hnext
      split at hnext
      · obtain ⟨-, rfl⟩ := by simpa using hnext
        exact (exactly_suffix he).trans htail
      · simp at hnext
    | none => simp at hnext
  | bytes length =>
    cases length with
    | some n =>
      simp only at hnext
      split_ifs at hnext
      obtain ⟨⟨bytes, tail'⟩, he, hnext⟩ := bind_eq_ok.mp hnext
      obtain ⟨-, rfl⟩ := by simpa using hnext
      exact (exactly_suffix he).trans htail
    | none => simp at hnext
  | _ => simp at hnext

theorem digitsChunk_suffix {fuel unread : Nat} {ds digits input rest : Bytes}
    (h : digitsChunk fuel unread ds input = .ok (digits, rest)) : rest <:+ input := by
  induction fuel generalizing unread ds input with
  | zero => simp [digitsChunk] at h
  | succ fuel ih =>
    simp only [digitsChunk] at h
    split_ifs at h with hz
    · obtain ⟨-, rfl⟩ := by simpa using h
      exact List.suffix_refl _
    all_goals
      obtain ⟨⟨piece, tail⟩, he, hnext⟩ := bind_eq_ok.mp h
      simp only at hnext
      split_ifs at hnext
      exact (ih hnext).trans (exactly_suffix he)

theorem digits_suffix {input rest : Bytes} {n : Nat} (h : digits input = .ok (n, rest)) :
    rest <:+ input := by
  have hchunk (n : Nat) : Conserves (fun _ => 0) fun ds input => digitsChunk (input.length + 1) n ds input := by
    intro ds input ds' rest h
    have hs := digitsChunk_suffix h
    exact ⟨hs, by simpa using hs.length_le⟩
  obtain ⟨⟨header, tail⟩, hr, hnext⟩ := bind_eq_ok.mp h
  have htail := (Header.read_suffix hr).1
  cases header with
  | bytes length =>
    cases length with
    | some k =>
      obtain ⟨⟨ds, tail'⟩, hd, hnext⟩ := bind_eq_ok.mp hnext
      obtain ⟨-, rfl⟩ := by simpa using hnext
      exact (hchunk k hd).1.trans htail
    | none =>
      obtain ⟨⟨ds, tail'⟩, hd, hnext⟩ := bind_eq_ok.mp hnext
      obtain ⟨-, rfl⟩ := by simpa using hnext
      exact (chunks_conserves hchunk _ _ hd).1.trans htail
  | _ => simp at hnext

theorem naturalFrom_suffix {fuel : Nat} {input rest : Bytes} {n : Nat}
    (h : naturalFrom fuel input = .ok (n, rest)) : rest <:+ input := by
  induction fuel generalizing input with
  | zero => simp [naturalFrom] at h
  | succ fuel ih =>
    obtain ⟨⟨header, tail⟩, hr, hnext⟩ := bind_eq_ok.mp h
    have htail := (Header.read_suffix hr).1
    cases header with
    | natural k =>
      obtain ⟨-, rfl⟩ := by simpa using hnext
      exact htail
    | tag k =>
      simp only at hnext
      split_ifs at hnext
      · exact (digits_suffix hnext).trans htail
      · obtain ⟨-, -, hnext⟩ := bind_eq_ok.mp hnext
        simp at hnext
      · exact (ih hnext).trans htail
    | _ => simp at hnext

theorem natural_suffix {input rest : Bytes} {n : Nat} (h : natural input = .ok (n, rest)) :
    rest <:+ input := naturalFrom_suffix h

end PluginRelay.Cbor.Reader
