import PluginRelay.Message.Wire
import PluginRelay.Proofs.KeyedOrder
import PluginRelay.Proofs.WrittenFields

/-!
# What both messages have in common

A message is written as a value, and what is read back of it is what is read back of that value. Both
messages carry an identifier and values by key. The keys are written in their order, so each entry that
is read goes behind those before it.
-/
namespace PluginRelay.Message

open Cbor

/-! ## Messages as values -/

section

variable {α : Type} {toValue : α → Value} {reread : α → Except Fault α} {limit : Nat} {a : α}

theorem exists_reread_of_settled (hv : (toValue a).reread limit = (reread a).map toValue)
    (h : (toValue a).Settled) (hd : (toValue a).depth ≤ limit) :
    ∃ a', reread a = .ok a' ∧ toValue a' = toValue a := by
  rw [Value.reread_of_settled h, Value.within, if_pos hd] at hv
  exact map_eq_ok.mp hv.symm

theorem settled_of_reread (hv : (toValue a).reread limit = (reread a).map toValue)
    (h : reread a = .ok a) : (toValue a).Settled := by
  rw [h] at hv
  exact Value.settled_of_reread hv

theorem reread_eq_tooDeep (hv : (toValue a).reread limit = (reread a).map toValue)
    (h : (toValue a).Settled) (hd : ¬(toValue a).depth ≤ limit) : reread a = .error .tooDeep := by
  rw [Value.reread_of_settled h, Value.within, if_neg hd] at hv
  cases hr : reread a with
  | error fault => simpa [hr] using hv.symm
  | ok a' => simp [hr] at hv

theorem reread_ne_tooDeep (hv : (toValue a).reread limit = (reread a).map toValue)
    (hd : (toValue a).depth ≤ limit) : reread a ≠ .error .tooDeep := by
  intro h
  rw [h] at hv
  exact Value.reread_ne_tooDeep hd hv

end

theorem Error.undecodable_injective {carrier : Carrier} {a b : Fault}
    (h : undecodable carrier a = undecodable carrier b) : a = b := by
  simpa [undecodable, withSource] using h

/-! ## Identifiers and values by key -/

theorem uuid_bytes_inj {id id' : Uuid} : id.bytes = id'.bytes ↔ id = id' := by
  cases id
  cases id'
  simp

theorem uuid_encode (id : Uuid) (rest : Bytes) :
    uuid (Value.encode (.bytes id.bytes) ++ rest) = .ok (id, rest) := by
  have hl : id.bytes.length ≤ Reader.pieceLength := by
    rw [id.length_bytes]
    decide
  rw [uuid, Reader.shortBytes_encode hl]
  simp [Uuid.ofBytes?, id.length_bytes]

theorem sized_uuid (id : Uuid) : (Value.bytes id.bytes).Sized := by
  rw [Value.sized_bytes, id.length_bytes]
  decide

theorem sized_metaValue {entries : Meta} : (metaValue entries).Sized ↔
    entries.length < UInt64.size ∧ ∀ e ∈ entries, (Value.text e.1).Sized ∧ e.2.Sized := by
  simp only [metaValue, Value.sized_map, List.length_map, List.forall_mem_map]

theorem plain_uuid (id : Uuid) : (Value.bytes id.bytes).Plain := by rintro _ _ ⟨⟩

theorem plain_metaValue {entries : Meta} :
    (metaValue entries).Plain ↔ ∀ e ∈ entries, e.2.Plain := by
  simp only [metaValue, Value.plain_map, List.forall_mem_map, Value.plain_text, true_and]

/-- What is read back of values by key that were written. -/
def rereadMeta (depth : Nat) : Meta → Except Fault Meta
  | [] => .ok []
  | (k, v) :: rest => do
    let v ← v.reread depth
    let rest ← rereadMeta depth rest
    return (k, v) :: rest

theorem stepTimes_metaEntry {depth : Nat} {entries : Meta} (hk : Keyed.Sorted entries)
    (hs : ∀ e ∈ entries, (Value.text e.1).Sized ∧ e.2.Sized) {front : Meta}
    (hf : ∀ e ∈ front, ∀ f ∈ entries, e.1 < f.1) (rest : Bytes) :
    Reader.stepTimes (metaEntry depth) entries.length front
        (Value.encodeEntries (entries.map fun (k, v) => (.text k, v)) ++ rest) =
      (rereadMeta depth entries).map fun entries => (front ++ entries, rest) := by
  -- The entries before are in `front`; all their keys are smaller, so that the next one goes behind them.
  induction entries generalizing front with
  | nil => simp [Reader.stepTimes, rereadMeta, Value.encodeEntries]
  | cons e entries ih =>
    obtain ⟨k, v⟩ := e
    obtain ⟨hlt, hk⟩ := Keyed.sorted_cons.mp hk
    obtain ⟨hkey, hv⟩ := hs (k, v) List.mem_cons_self
    have hins (w : Value) : Keyed.insert k w front = front ++ [(k, w)] :=
      Keyed.insert_append (fun e he => hf e he (k, v) List.mem_cons_self) w
    simp only [List.length_cons, List.map_cons, Value.encodeEntries, List.append_assoc,
      Reader.stepTimes, metaEntry, Reader.text_encode hkey, ok_bind, Value.value_encode hv,
      rereadMeta]
    cases hr : v.reread depth with
    | error e => rfl
    | ok w =>
      have hfront : ∀ e ∈ front ++ [(k, w)], ∀ f ∈ entries, e.1 < f.1 := by
        intro e he f hf'
        rcases List.mem_append.mp he with he | he
        · exact hf e he f (List.mem_cons_of_mem _ hf')
        · obtain rfl := List.mem_singleton.mp he
          exact hlt f hf'
      simp only [map_ok, ok_bind, pure_eq_ok, hins]
      rw [ih hk (fun e he => hs e (List.mem_cons_of_mem _ he)) hfront]
      cases rereadMeta depth entries with
      | error e => rfl
      | ok entries => simp

theorem metaMap_encode {entries : Meta} (hs : (metaValue entries).Sized)
    (hk : Keyed.Sorted entries) (depth : Nat) (rest : Bytes) :
    metaMap (depth + 1) ((metaValue entries).encode ++ rest) =
      (rereadMeta depth entries).map fun entries => (entries, rest) := by
  obtain ⟨hl, hs⟩ := sized_metaValue.mp hs
  rw [metaMap, metaValue, Reader.mapInto_encode (by rwa [List.length_map]), List.length_map,
    stepTimes_metaEntry hk hs (by simp)]
  simp only [List.nil_append]

theorem rereadEntries_meta (depth : Nat) (entries : Meta) :
    Value.rereadEntries depth (entries.map fun (k, v) => (.text k, v)) =
      (rereadMeta depth entries).map (·.map fun (k, v) => (.text k, v)) := by
  induction entries with
  | nil => rfl
  | cons e entries ih =>
    obtain ⟨k, v⟩ := e
    rw [List.map_cons, Value.rereadEntries, ih, rereadMeta]
    cases v.reread depth with
    | error e => rfl
    | ok v =>
      cases rereadMeta depth entries with
      | error e => rfl
      | ok entries => rfl

/-- The same said of the value that the entries are written as. -/
theorem reread_metaValue (depth : Nat) (entries : Meta) :
    (metaValue entries).reread (depth + 1) = (rereadMeta depth entries).map metaValue := by
  rw [metaValue, Value.reread, rereadEntries_meta]
  cases rereadMeta depth entries with
  | error e => rfl
  | ok entries => rfl

theorem metaValue_injective {a b : Meta} (h : metaValue a = metaValue b) : a = b := by
  refine List.map_injective_iff.mpr ?_ (Value.map.inj h)
  rintro ⟨k, v⟩ ⟨l, w⟩ he
  obtain ⟨rfl, rfl⟩ := by simpa using he
  rfl

end PluginRelay.Message
