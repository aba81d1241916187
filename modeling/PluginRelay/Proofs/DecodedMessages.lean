import PluginRelay.Proofs.DecodedValues
import PluginRelay.Proofs.RequestRoundTrip
import PluginRelay.Proofs.ResponseRoundTrip

/-!
# What messages decoding can give

Fields may come in any order and among others; what has been read of a message so far satisfies an
invariant that each field keeps. A message that was read has its keys in order, and the value it is written
as is no deeper than the limit. An error that was read has neither a source nor a detail that is null.
-/
namespace PluginRelay.Message

open Cbor

variable {whole : Bytes}

theorem once_eq_ok {α : Type} {slot : Option α} {field : Reader α} {input rest : Bytes} {a : α}
    (h : once slot field input = .ok (a, rest)) : field input = .ok (a, rest) := by
  cases slot with
  | none => exact h
  | some b => simp [once] at h

theorem uuid_suffix {input rest : Bytes} {id : Uuid} (h : uuid input = .ok (id, rest)) :
    rest <:+ input := by
  obtain ⟨⟨b, tail⟩, hb, h⟩ := bind_eq_ok.mp h
  simp only at h
  split at h
  · obtain ⟨-, rfl⟩ := by simpa using h
    exact Reader.shortBytes_suffix hb
  · simp at h

theorem text_decoded {depth : Nat} {input rest : Bytes} {s : String} (hin : input <:+ whole)
    (h : Reader.text input = .ok (s, rest)) :
    rest <:+ whole ∧ (Value.text s).Decoded whole depth := by
  obtain ⟨hs, hl⟩ := Reader.text_bound h
  have := hin.length_le
  exact ⟨hs.trans hin, .text fun hw => by omega⟩

theorem ignored_suffix {depth : Nat} {input rest : Bytes} (hin : input <:+ whole)
    (h : ignored depth input = .ok ((), rest)) : rest <:+ whole := by
  obtain ⟨⟨v, tail⟩, hv, h⟩ := map_eq_ok.mp h
  obtain rfl := by simpa using h
  exact (Reader.value_gives depth hin hv).1

/-! ## Further values by key -/

/-- Values by key as reading leaves them. -/
structure MetaDecoded (whole : Bytes) (depth : Nat) (entries : Meta) : Prop where
  sorted : Keyed.Sorted entries
  value : (metaValue entries).Decoded whole (depth + 1)

/-- The same after some entries, which can only have been fewer than the steps that read them. -/
def MetaRead (whole : Bytes) (depth steps : Nat) (entries : Meta) : Prop :=
  Keyed.Sorted entries ∧ entries.length ≤ steps ∧
    ∀ e ∈ entries, (Value.text e.1).Decoded whole depth ∧ e.2.Decoded whole depth

theorem metaEntry_gives {depth steps : Nat} {entries : Meta} (h : MetaRead whole depth steps entries) :
    Reader.Gives whole (MetaRead whole depth (steps + 1)) (metaEntry depth entries) := by
  intro input entries' rest hin hr
  obtain ⟨hsorted, hlen, hall⟩ := h
  obtain ⟨⟨key, tail⟩, hk, hr⟩ := bind_eq_ok.mp hr
  obtain ⟨⟨v, tail'⟩, hv, hr⟩ := bind_eq_ok.mp hr
  obtain ⟨rfl, rfl⟩ := by simpa using hr
  obtain ⟨htail, hkey⟩ := text_decoded hin hk
  obtain ⟨hrest, hvalue⟩ := Reader.value_gives depth htail hv
  refine ⟨hrest, Keyed.sorted_insert _ _ hsorted, ?_, fun e he => ?_⟩
  · exact (Keyed.length_insert_le _ _ _).trans (Nat.succ_le_succ hlen)
  · rcases Keyed.mem_insert he with rfl | he
    · exact ⟨hkey, hvalue⟩
    · exact hall e he

theorem metaMap_gives (depth : Nat) :
    Reader.Gives whole (MetaDecoded whole depth) (metaMap (depth + 1)) := by
  intro input entries rest hin hr
  have hstart : MetaRead whole depth 0 [] := ⟨Keyed.sorted_nil, Nat.le_refl 0, by simp⟩
  obtain ⟨hrest, steps, hsteps, hsorted, hlen, hall⟩ :=
    Reader.mapInto_gives hstart (fun _ _ h => metaEntry_gives h) hin hr
  refine ⟨hrest, hsorted, .map (fun hw => ?_) (List.forall_mem_map.mpr hall)⟩
  rw [List.length_map]
  exact hlen.trans_lt (hsteps hw)

/-! ## Requests -/

/-- What the fields that are there already are known to be. -/
structure RequestFields.Decoded (whole : Bytes) (depth : Nat) (fields : RequestFields) : Prop where
  entries : ∀ m, fields.entries = some m → MetaDecoded whole depth m
  endpoint : ∀ s, fields.endpoint = some s → (Value.text s).Decoded whole (depth + 1)
  payload : ∀ v, fields.payload = some v → v.Decoded whole (depth + 1)

theorem requestField_gives {depth : Nat} {fields : RequestFields} (h : fields.Decoded whole depth) :
    Reader.Gives whole (RequestFields.Decoded whole depth) (requestField (depth + 1) fields) := by
  intro input fields' rest hin hr
  obtain ⟨⟨name, tail⟩, hn, hr⟩ := bind_eq_ok.mp hr
  have htail := (Reader.name_suffix hn).trans hin
  simp only at hr
  split_ifs at hr with hid hmeta hflag hendpoint hpayload
  · obtain ⟨⟨id, tail'⟩, ho, hr⟩ := bind_eq_ok.mp hr
    obtain ⟨rfl, rfl⟩ := by simpa using hr
    exact ⟨(uuid_suffix (once_eq_ok ho)).trans htail, h.entries, h.endpoint, h.payload⟩
  · obtain ⟨⟨entries, tail'⟩, ho, hr⟩ := bind_eq_ok.mp hr
    obtain ⟨rfl, rfl⟩ := by simpa using hr
    obtain ⟨hrest, hm⟩ := metaMap_gives depth htail (once_eq_ok ho)
    exact ⟨hrest, by rintro _ ⟨⟩; exact hm, h.endpoint, h.payload⟩
  · obtain ⟨⟨flag, tail'⟩, ho, hr⟩ := bind_eq_ok.mp hr
    obtain ⟨rfl, rfl⟩ := by simpa using hr
    exact ⟨(Reader.bool_suffix (once_eq_ok ho)).trans htail, h.entries, h.endpoint, h.payload⟩
  · obtain ⟨⟨endpoint, tail'⟩, ho, hr⟩ := bind_eq_ok.mp hr
    obtain ⟨rfl, rfl⟩ := by simpa using hr
    obtain ⟨hrest, he⟩ := text_decoded htail (once_eq_ok ho)
    exact ⟨hrest, h.entries, by rintro _ ⟨⟩; exact he, h.payload⟩
  · obtain ⟨⟨payload, tail'⟩, ho, hr⟩ := bind_eq_ok.mp hr
    obtain ⟨rfl, rfl⟩ := by simpa using hr
    obtain ⟨hrest, hp⟩ := Reader.value_gives _ htail (once_eq_ok ho)
    exact ⟨hrest, h.entries, h.endpoint, by rintro _ ⟨⟩; exact hp⟩
  · obtain ⟨⟨⟨⟩, tail'⟩, hi, hr⟩ := bind_eq_ok.mp hr
    obtain ⟨rfl, rfl⟩ := by simpa using hr
    exact ⟨ignored_suffix htail hi, h⟩

theorem decoded_uuid (depth : Nat) (id : Uuid) : (Value.bytes id.bytes).Decoded whole depth :=
  .bytes fun _ => sized_uuid id

theorem request_gives :
    Reader.Gives whole (fun r => Keyed.Sorted r.entries ∧ r.toValue.Decoded whole depthLimit) request := by
  intro input r rest hin hr
  obtain ⟨⟨fields, tail⟩, hf, hr⟩ := bind_eq_ok.mp hr
  have hstart : RequestFields.Decoded whole 254 ⟨none, none, none, none, none⟩ := by
    constructor <;> simp
  obtain ⟨hrest, -, -, hfields⟩ := Reader.mapInto_gives (I := fun _ f => RequestFields.Decoded whole 254 f)
    hstart (fun _ _ h => requestField_gives h) hin hf
  obtain ⟨_ | id, _ | entries, _ | flag, _ | endpoint, _ | payload⟩ := fields
  case some.some.some.some.some =>
    obtain ⟨rfl, rfl⟩ := by simpa using hr
    have hmeta := hfields.entries _ rfl
    refine ⟨hrest, hmeta.sorted, .map (fun _ => by simp +decide) ?_⟩
    simp only [List.forall_mem_cons, List.not_mem_nil, false_implies, implies_true, and_true]
    exact ⟨⟨.text fun _ => by decide, decoded_uuid 255 id⟩, ⟨.text fun _ => by decide, hmeta.value⟩,
      ⟨.text fun _ => by decide, .bool flag⟩, ⟨.text fun _ => by decide, hfields.endpoint _ rfl⟩,
      ⟨.text fun _ => by decide, hfields.payload _ rfl⟩⟩
  all_goals simp at hr

/-! ## Errors -/

theorem word32_suffix {input rest : Bytes} {code : UInt32} (h : word32 input = .ok (code, rest)) :
    rest <:+ input := by
  obtain ⟨⟨n, tail⟩, hn, h⟩ := bind_eq_ok.mp h
  simp only at h
  split_ifs at h
  obtain ⟨-, rfl⟩ := by simpa using h
  exact Reader.natural_suffix hn

theorem kind_suffix {depth : Nat} {input rest : Bytes} {k : Kind} (hin : input <:+ whole)
    (h : kind (depth + 1) input = .ok (k, rest)) : rest <:+ whole := by
  have hbody (tag : Option String) : Reader.Gives whole (fun _ => True) (kindBody depth tag) := by
    intro input k rest hin h
    have named {k' : Kind} (h : (Except.ok (k', input) : Except Fault _) = .ok (k, rest)) :
        rest <:+ whole ∧ True := by
      obtain ⟨-, rfl⟩ := by simpa using h
      exact ⟨hin, trivial⟩
    simp only [kindBody] at h
    split_ifs at h with hunknown hinternal hserialization hother
    · exact named h
    · exact named h
    · exact named h
    · obtain ⟨⟨code, tail⟩, hc, h⟩ := map_eq_ok.mp h
      obtain ⟨-, rfl⟩ := by simpa using h
      exact ⟨(word32_suffix hc).trans hin, trivial⟩
  exact (Reader.variant_gives hbody hin h).1

theorem decoded_kind (depth : Nat) (k : Kind) : k.toValue.Decoded whole (depth + 1) := by
  cases k with
  | other code =>
    refine .map (fun _ => by simp +decide) ?_
    simp only [List.forall_mem_cons, List.not_mem_nil, false_implies, implies_true, and_true]
    exact ⟨.text fun _ => by decide, .integer _⟩
  | _ => exact .text fun _ => by decide

structure ErrorFields.Decoded (whole : Bytes) (depth : Nat) (fields : ErrorFields) : Prop where
  description : ∀ s, fields.description = some s → (Value.text s).Decoded whole (depth + 1)
  detail_ne : fields.detail ≠ some (some .null)
  detail : ∀ v, fields.detail = some (some v) → v.Decoded whole (depth + 1)

theorem errorField_gives {depth : Nat} {fields : ErrorFields} (h : fields.Decoded whole depth) :
    Reader.Gives whole (ErrorFields.Decoded whole depth) (errorField (depth + 1) fields) := by
  intro input fields' rest hin hr
  obtain ⟨⟨name, tail⟩, hn, hr⟩ := bind_eq_ok.mp hr
  have htail := (Reader.name_suffix hn).trans hin
  simp only at hr
  split_ifs at hr with hkind hdescription hdetail
  · obtain ⟨⟨k, tail'⟩, ho, hr⟩ := bind_eq_ok.mp hr
    obtain ⟨rfl, rfl⟩ := by simpa using hr
    exact ⟨kind_suffix htail (once_eq_ok ho), h.description, h.detail_ne, h.detail⟩
  · obtain ⟨⟨s, tail'⟩, ho, hr⟩ := bind_eq_ok.mp hr
    obtain ⟨rfl, rfl⟩ := by simpa using hr
    obtain ⟨hrest, hs⟩ := text_decoded htail (once_eq_ok ho)
    exact ⟨hrest, by rintro _ ⟨⟩; exact hs, h.detail_ne, h.detail⟩
  · obtain ⟨⟨v, tail'⟩, ho, hr⟩ := bind_eq_ok.mp hr
    obtain ⟨rfl, rfl⟩ := by simpa using hr
    obtain ⟨hrest, hne, hv⟩ := Reader.optional_gives _ htail (once_eq_ok ho)
    exact ⟨hrest, h.description, by simpa using hne, fun w hw => hv w (by simpa using hw)⟩
  · obtain ⟨⟨⟨⟩, tail'⟩, hi, hr⟩ := bind_eq_ok.mp hr
    obtain ⟨rfl, rfl⟩ := by simpa using hr
    exact ⟨ignored_suffix htail hi, h⟩

/-- An error that was read has lost what an error loses on the way. -/
theorem error_gives (depth : Nat) :
    Reader.Gives whole (fun e => e.received = e ∧ e.toValue.Decoded whole (depth + 2))
      (error (depth + 2)) := by
  intro input e rest hin hr
  obtain ⟨⟨fields, tail⟩, hf, hr⟩ := bind_eq_ok.mp hr
  have hstart : ErrorFields.Decoded whole depth ⟨none, none, none⟩ := by
    constructor <;> simp
  obtain ⟨hrest, -, -, hfields⟩ := Reader.mapInto_gives (I := fun _ f => ErrorFields.Decoded whole depth f)
    hstart (fun _ _ h => errorField_gives h) hin hf
  obtain ⟨_ | k, _ | description, detail⟩ := fields
  case some.some =>
    obtain ⟨rfl, rfl⟩ := by simpa using hr
    have hne : detail.getD none ≠ some .null := by
      cases detail with
      | none => simp
      | some v => simpa using hfields.detail_ne
    have hdetail : ((detail.getD none).getD .null).Decoded whole (depth + 1) := by
      rcases detail with _ | _ | v
      · exact .null
      · exact .null
      · exact hfields.detail v rfl
    refine ⟨hrest, Error.received_eq_self_iff.mpr ⟨rfl, hne⟩, .map (fun _ => by simp +decide) ?_⟩
    simp only [List.forall_mem_cons, List.not_mem_nil, false_implies, implies_true, and_true]
    exact ⟨⟨.text fun _ => by decide, decoded_kind depth k⟩,
      ⟨.text fun _ => by decide, hfields.description _ rfl⟩, ⟨.text fun _ => by decide, hdetail⟩⟩
  all_goals simp at hr

/-! ## Responses -/

theorem result_gives (depth : Nat) :
    Reader.Gives whole
      (fun payload => payload.mapError Error.received = payload ∧
        (resultValue payload).Decoded whole (depth + 3))
      (result (depth + 3)) := by
  refine Reader.variant_gives fun tag => ?_
  intro input payload rest hin h
  simp only [resultBody] at h
  split_ifs at h
  · obtain ⟨⟨v, tail⟩, hv, h⟩ := map_eq_ok.mp h
    obtain ⟨rfl, rfl⟩ := by simpa using h
    obtain ⟨hrest, hv⟩ := Reader.value_gives _ hin hv
    refine ⟨hrest, rfl, .map (fun _ => by simp +decide) ?_⟩
    simp only [List.forall_mem_cons, List.not_mem_nil, false_implies, implies_true, and_true]
    exact ⟨.text fun _ => by decide, hv⟩
  · obtain ⟨⟨e, tail⟩, he, h⟩ := map_eq_ok.mp h
    obtain ⟨rfl, rfl⟩ := by simpa using h
    obtain ⟨hrest, hself, he⟩ := error_gives _ hin he
    refine ⟨hrest, by simp [hself], .map (fun _ => by simp +decide) ?_⟩
    simp only [List.forall_mem_cons, List.not_mem_nil, false_implies, implies_true, and_true]
    exact ⟨.text fun _ => by decide, he⟩

structure ResponseFields.Decoded (whole : Bytes) (depth : Nat) (fields : ResponseFields) : Prop where
  entries : ∀ m, fields.entries = some m → MetaDecoded whole (depth + 2) m
  received : ∀ p, fields.payload = some p → p.mapError Error.received = p
  payload : ∀ p, fields.payload = some p → (resultValue p).Decoded whole (depth + 3)

theorem responseField_gives {depth : Nat} {fields : ResponseFields} (h : fields.Decoded whole depth) :
    Reader.Gives whole (ResponseFields.Decoded whole depth) (responseField (depth + 3) fields) := by
  intro input fields' rest hin hr
  obtain ⟨⟨name, tail⟩, hn, hr⟩ := bind_eq_ok.mp hr
  have htail := (Reader.name_suffix hn).trans hin
  simp only at hr
  split_ifs at hr with hid hmeta hpayload
  · obtain ⟨⟨id, tail'⟩, ho, hr⟩ := bind_eq_ok.mp hr
    obtain ⟨rfl, rfl⟩ := by simpa using hr
    exact ⟨(uuid_suffix (once_eq_ok ho)).trans htail, h.entries, h.received, h.payload⟩
  · obtain ⟨⟨entries, tail'⟩, ho, hr⟩ := bind_eq_ok.mp hr
    obtain ⟨rfl, rfl⟩ := by simpa using hr
    obtain ⟨hrest, hm⟩ := metaMap_gives _ htail (once_eq_ok ho)
    exact ⟨hrest, by rintro _ ⟨⟩; exact hm, h.received, h.payload⟩
  · obtain ⟨⟨payload, tail'⟩, ho, hr⟩ := bind_eq_ok.mp hr
    obtain ⟨rfl, rfl⟩ := by simpa using hr
    obtain ⟨hrest, hself, hp⟩ := result_gives _ htail (once_eq_ok ho)
    exact ⟨hrest, h.entries, by rintro _ ⟨⟩; exact hself, by rintro _ ⟨⟩; exact hp⟩
  · obtain ⟨⟨⟨⟩, tail'⟩, hi, hr⟩ := bind_eq_ok.mp hr
    obtain ⟨rfl, rfl⟩ := by simpa using hr
    exact ⟨ignored_suffix htail hi, h⟩

theorem response_gives :
    Reader.Gives whole
      (fun r => Keyed.Sorted r.entries ∧ r.received = r ∧ r.toValue.Decoded whole depthLimit)
      response := by
  intro input r rest hin hr
  obtain ⟨⟨fields, tail⟩, hf, hr⟩ := bind_eq_ok.mp hr
  have hstart : ResponseFields.Decoded whole 252 ⟨none, none, none⟩ := by
    constructor <;> simp
  obtain ⟨hrest, -, -, hfields⟩ := Reader.mapInto_gives (I := fun _ f => ResponseFields.Decoded whole 252 f)
    hstart (fun _ _ h => responseField_gives h) hin hf
  obtain ⟨_ | id, _ | entries, _ | payload⟩ := fields
  case some.some.some =>
    obtain ⟨rfl, rfl⟩ := by simpa using hr
    have hmeta := hfields.entries _ rfl
    have hself := hfields.received _ rfl
    refine ⟨hrest, hmeta.sorted, by simp [Response.received, hself], .map (fun _ => by simp +decide) ?_⟩
    simp only [List.forall_mem_cons, List.not_mem_nil, false_implies, implies_true, and_true]
    exact ⟨⟨.text fun _ => by decide, decoded_uuid 255 id⟩, ⟨.text fun _ => by decide, hmeta.value⟩,
      ⟨.text fun _ => by decide, hfields.payload _ rfl⟩⟩
  all_goals simp at hr

end PluginRelay.Message
