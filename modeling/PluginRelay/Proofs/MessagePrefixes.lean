import PluginRelay.Proofs.SelfDelimiting
import PluginRelay.Proofs.RequestRoundTrip
import PluginRelay.Proofs.ResponseRoundTrip
import PluginRelay.Proofs.Invocation

/-!
# Beginnings of messages

A message ends where its value ends: bytes behind it change nothing, and of a beginning that stops
short of the end nothing can be read. A response that was written only in part is therefore none.
-/
namespace PluginRelay.Message

open Cbor Cbor.Reader

/-! ## Fields -/

theorem once_selfDelimiting {α : Type} {field : Reader α} (h : SelfDelimiting field) (slot : Option α) :
    SelfDelimiting (once slot field) := by
  cases slot with
  | none => exact h
  | some a => exact fun _ _ => .error _

theorem ignored_selfDelimiting (depth : Nat) : SelfDelimiting (ignored depth) :=
  fun _ _ => .map (fun _ => ()) (value_selfDelimiting _ _ _)

theorem uuid_selfDelimiting : SelfDelimiting uuid := by
  intro input s
  unfold uuid
  refine .bind (shortBytes_selfDelimiting _ _) fun bytes rest => ?_
  dsimp only
  split
  · exact .ok _ _
  · exact .error _

theorem metaMap_selfDelimiting (depth : Nat) : SelfDelimiting (metaMap depth) := by
  refine mapInto_selfDelimiting (fun depth entries input s => ?_) _ _
  unfold metaEntry
  exact .bind (text_selfDelimiting _ _) fun key rest =>
    .bind (value_selfDelimiting _ _ _) fun v rest => .ok _ _

theorem word32_selfDelimiting : SelfDelimiting word32 := by
  intro input s
  unfold word32
  refine .bind (natural_selfDelimiting _ _) fun n rest => ?_
  dsimp only
  split_ifs
  · exact .ok _ _
  · exact .error _

theorem kind_selfDelimiting (depth : Nat) : SelfDelimiting (kind depth) := by
  refine variant_selfDelimiting (fun depth tag input s => ?_) _
  unfold kindBody
  split_ifs
  · exact .ok _ _
  · exact .ok _ _
  · exact .ok _ _
  · exact .map _ (word32_selfDelimiting _ _)
  · exact .error _

theorem errorField_selfDelimiting (depth : Nat) (fields : ErrorFields) :
    SelfDelimiting (errorField depth fields) := by
  intro input s
  unfold errorField
  refine .bind (name_selfDelimiting _ _) fun name rest => ?_
  dsimp only
  split_ifs
  · exact .bind (once_selfDelimiting (kind_selfDelimiting _) _ _ _) fun v rest => .ok _ _
  · exact .bind (once_selfDelimiting text_selfDelimiting _ _ _) fun v rest => .ok _ _
  · exact .bind (once_selfDelimiting (optional_selfDelimiting _) _ _ _) fun v rest => .ok _ _
  · exact .bind (ignored_selfDelimiting _ _ _) fun v rest => .ok _ _

theorem error_selfDelimiting (depth : Nat) : SelfDelimiting (error depth) := by
  intro input s
  unfold error
  refine .bind (mapInto_selfDelimiting errorField_selfDelimiting _ _ _ _) fun fields rest => ?_
  dsimp only
  split
  · exact .ok _ _
  · exact .error _

theorem result_selfDelimiting (depth : Nat) : SelfDelimiting (result depth) := by
  refine variant_selfDelimiting (fun depth tag input s => ?_) _
  unfold resultBody
  split_ifs
  · exact .map _ (value_selfDelimiting _ _ _)
  · exact .map _ (error_selfDelimiting _ _ _)
  · exact .error _

/-! ## Messages -/

theorem requestField_selfDelimiting (depth : Nat) (fields : RequestFields) :
    SelfDelimiting (requestField depth fields) := by
  intro input s
  unfold requestField
  refine .bind (name_selfDelimiting _ _) fun name rest => ?_
  dsimp only
  split_ifs
  · exact .bind (once_selfDelimiting uuid_selfDelimiting _ _ _) fun v rest => .ok _ _
  · exact .bind (once_selfDelimiting (metaMap_selfDelimiting _) _ _ _) fun v rest => .ok _ _
  · exact .bind (once_selfDelimiting bool_selfDelimiting _ _ _) fun v rest => .ok _ _
  · exact .bind (once_selfDelimiting text_selfDelimiting _ _ _) fun v rest => .ok _ _
  · exact .bind (once_selfDelimiting (value_selfDelimiting _) _ _ _) fun v rest => .ok _ _
  · exact .bind (ignored_selfDelimiting _ _ _) fun v rest => .ok _ _

theorem request_selfDelimiting : SelfDelimiting request := by
  intro input s
  unfold request
  refine .bind (mapInto_selfDelimiting requestField_selfDelimiting _ _ _ _) fun fields rest => ?_
  dsimp only
  split
  · exact .ok _ _
  · exact .error _

theorem responseField_selfDelimiting (depth : Nat) (fields : ResponseFields) :
    SelfDelimiting (responseField depth fields) := by
  intro input s
  unfold responseField
  refine .bind (name_selfDelimiting _ _) fun name rest => ?_
  dsimp only
  split_ifs
  · exact .bind (once_selfDelimiting uuid_selfDelimiting _ _ _) fun v rest => .ok _ _
  · exact .bind (once_selfDelimiting (metaMap_selfDelimiting _) _ _ _) fun v rest => .ok _ _
  · exact .bind (once_selfDelimiting (result_selfDelimiting _) _ _ _) fun v rest => .ok _ _
  · exact .bind (ignored_selfDelimiting _ _ _) fun v rest => .ok _ _

theorem response_selfDelimiting : SelfDelimiting response := by
  intro input s
  unfold response
  refine .bind (mapInto_selfDelimiting responseField_selfDelimiting _ _ _ _) fun fields rest => ?_
  dsimp only
  split
  · exact .ok _ _
  · exact .error _

section

variable {input s : Bytes}

theorem Request.decode_append {r : Request} (h : Request.decode input = .ok r) :
    Request.decode (input ++ s) = .ok r := by
  unfold Request.decode at h ⊢
  split at h
  · next read rest hread =>
    rw [request_selfDelimiting.append hread]
    exact h
  · simp at h

theorem Response.decode_append {r : Response} (h : Response.decode input = .ok r) :
    Response.decode (input ++ s) = .ok r := by
  unfold Response.decode at h ⊢
  split at h
  · next read rest hread =>
    rw [response_selfDelimiting.append hread]
    exact h
  · simp at h

theorem Request.decode_cut {r : Request} (hs : r.toValue.Sized) (hk : Keyed.Sorted r.entries)
    (hok : (Request.decode r.encode).isOk) (hcut : r.encode = input ++ s) (hne : s ≠ []) :
    Request.decode input = .error (.undecodable .request .ended) := by
  have hread := request_encode hs hk []
  rw [decode_encode hs hk] at hok
  cases hr : r.reread with
  | error fault => simp [hr, Except.isOk, Except.toBool] at hok
  | ok r' =>
    rw [List.append_nil, hr, map_ok, hcut] at hread
    rw [Request.decode, request_selfDelimiting.ended hread hne]

theorem Response.decode_cut {r : Response} (hs : r.toValue.Sized) (hk : Keyed.Sorted r.entries)
    (hok : (Response.decode r.encode).isOk) (hcut : r.encode = input ++ s) (hne : s ≠ []) :
    Response.decode input = .error (.undecodable .response .ended) := by
  have hread := response_encode hs hk []
  rw [decode_encode hs hk] at hok
  cases hr : r.reread with
  | error fault => simp [hr, Except.isOk, Except.toBool] at hok
  | ok r' =>
    rw [List.append_nil, hr, map_ok, hcut] at hread
    rw [Response.decode, response_selfDelimiting.ended hread hne]

/-- Output that stops within a response answers no request. -/
theorem invoke_of_cut {p : Plugin} {request : Request} {r : Response} (hs : r.toValue.Sized)
    (hk : Keyed.Sorted r.entries) (hok : (Response.decode r.encode).isOk)
    (hcut : r.encode = (p.call (p.streamsFor request)).1.output ++ s) (hne : s ≠ [])
    (answer : Response) : (p.invoke request).1 ≠ .ok (some answer) := by
  intro h
  obtain ⟨-, output, hc, hd, -⟩ := Plugin.invoke_eq_some_iff.mp h
  rw [(Plugin.call_of_completes hc).2] at hcut
  rw [Response.decode_cut hs hk hok hcut hne] at hd
  simp at hd

end

theorem exists_cut {p w : Bytes} (h : p <+: w) (hne : p ≠ w) : ∃ s, w = p ++ s ∧ s ≠ [] := by
  obtain ⟨s, rfl⟩ := h
  exact ⟨s, rfl, by rintro rfl; simp at hne⟩

/-- Bytes behind a message change nothing of what is read. Of a beginning that stops short of the end
nothing is read but that the input ended, so that no plugin that stops while it writes its response is
taken to have answered. -/
theorem decode_of_prefix :
    (∀ input s r, Request.decode input = .ok r → Request.decode (input ++ s) = .ok r) ∧
    (∀ input s r, Response.decode input = .ok r → Response.decode (input ++ s) = .ok r) ∧
    (∀ r : Request, r.toValue.Sized → Keyed.Sorted r.entries → (Request.decode r.encode).isOk →
      ∀ p, p <+: r.encode → p ≠ r.encode →
        Request.decode p = .error (.undecodable .request .ended)) ∧
    ∀ r : Response, r.toValue.Sized → Keyed.Sorted r.entries → (Response.decode r.encode).isOk →
      (∀ p, p <+: r.encode → p ≠ r.encode →
        Response.decode p = .error (.undecodable .response .ended)) ∧
      ∀ (plugin : Plugin) (request : Request),
        (plugin.call (plugin.streamsFor request)).1.output <+: r.encode →
        (plugin.call (plugin.streamsFor request)).1.output ≠ r.encode →
        ∀ answer, (plugin.invoke request).1 ≠ .ok (some answer) := by
  refine ⟨fun _ _ _ => Request.decode_append, fun _ _ _ => Response.decode_append, ?_, ?_⟩
  · intro r hs hk hok p hp hne
    obtain ⟨s, hcut, hne⟩ := exists_cut hp hne
    exact Request.decode_cut hs hk hok hcut hne
  · intro r hs hk hok
    constructor
    · intro p hp hne
      obtain ⟨s, hcut, hne⟩ := exists_cut hp hne
      exact Response.decode_cut hs hk hok hcut hne
    · intro plugin request hp hne
      obtain ⟨s, hcut, hne⟩ := exists_cut hp hne
      exact invoke_of_cut hs hk hok hcut hne

/-- A request cut within a character of its endpoint, and a response of which nothing was written. -/
theorem decode_of_prefix_within_character :
    let r : Request := ⟨.zero, [], false, "gr\u00FC\u00DFe", .null⟩
    let answer : Response := ⟨.zero, [], .ok (.text "hello")⟩
    let plugin : Plugin := ⟨.default, .empty, .bare⟩
    Request.decode (r.encode.take 57) = .error (.undecodable .request .ended) ∧
      Response.decode (answer.encode.take 40) = .error (.undecodable .response .ended) ∧
      (plugin.invoke r).1 ≠ .ok (some answer) := by
  intro r answer plugin
  have hs : r.toValue.Sized := by
    simp +decide [r, Request.sized_toValue, sized_metaValue, Cbor.Value.sized_text,
      Cbor.Value.sized_null]
  have hok : (Request.decode r.encode).isOk := by
    decide +kernel
  have hs' : answer.toValue.Sized := by
    simp +decide [answer, Response.sized_toValue, sized_metaValue, resultValue,
      Cbor.Value.sized_map, Cbor.Value.sized_text]
  have hok' : (Response.decode answer.encode).isOk := by
    decide +kernel
  have hcut := decode_of_prefix.2.2.1 r hs List.Pairwise.nil hok
  have hanswer := decode_of_prefix.2.2.2 answer hs' List.Pairwise.nil hok'
  refine ⟨hcut _ (List.take_prefix _ _) (by decide +kernel),
    hanswer.1 _ (List.take_prefix _ _) (by decide +kernel),
    hanswer.2 plugin r ?_ (by decide +kernel) answer⟩
  have hnothing : (plugin.call (plugin.streamsFor r)).1.output = [] := by decide +kernel
  rw [hnothing]
  exact List.nil_prefix

end PluginRelay.Message
