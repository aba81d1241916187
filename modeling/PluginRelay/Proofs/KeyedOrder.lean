import Mathlib.Data.String.Basic
import PluginRelay.Keyed

/-!
# Entries stay in the order of their keys

Inserting keeps the order, whatever was there under the key, and puts a key behind all smaller ones. Of a
sequence in any order, the last value under each key remains.
-/
namespace PluginRelay.Keyed

variable {α : Type}

/-- The keys increase strictly, so that no key is there twice. -/
def Sorted (entries : List (String × α)) : Prop := entries.Pairwise fun a b => a.1 < b.1

theorem sorted_nil : Sorted ([] : List (String × α)) := List.Pairwise.nil

theorem sorted_cons {e : String × α} {entries : List (String × α)} :
    Sorted (e :: entries) ↔ (∀ f ∈ entries, e.1 < f.1) ∧ Sorted entries := List.pairwise_cons

theorem sorted_iff_keys {entries : List (String × α)} :
    Sorted entries ↔ (entries.map (·.1)).Pairwise (· < ·) := List.pairwise_map.symm

theorem mem_insert {key : String} {value : α} {e : String × α} {entries : List (String × α)}
    (h : e ∈ insert key value entries) : e = (key, value) ∨ e ∈ entries := by
  induction entries with
  | nil => simpa [insert] using h
  | cons f rest ih =>
    obtain ⟨k, v⟩ := f
    simp only [insert] at h
    split_ifs at h with hlt heq
    · exact List.mem_cons.mp h
    · exact (List.mem_cons.mp h).imp_right (List.mem_cons_of_mem _)
    · rcases List.mem_cons.mp h with rfl | h
      · exact .inr List.mem_cons_self
      · exact (ih h).imp_right (List.mem_cons_of_mem _)

theorem sorted_insert (key : String) (value : α) {entries : List (String × α)}
    (h : Sorted entries) : Sorted (insert key value entries) := by
  induction entries with
  | nil => exact List.pairwise_singleton _ _
  | cons f rest ih =>
    obtain ⟨k, v⟩ := f
    obtain ⟨hhead, hrest⟩ := sorted_cons.mp h
    simp only [insert]
    split_ifs with hlt heq
    · refine sorted_cons.mpr ⟨fun e he => ?_, h⟩
      rcases List.mem_cons.mp he with rfl | he
      · exact hlt
      · exact hlt.trans (hhead e he)
    · subst heq
      exact sorted_cons.mpr ⟨hhead, hrest⟩
    · refine sorted_cons.mpr ⟨fun e he => ?_, ih hrest⟩
      rcases mem_insert he with rfl | he
      · exact lt_of_le_of_ne (not_lt.mp hlt) (Ne.symm heq)
      · exact hhead e he

theorem length_insert_le (key : String) (value : α) (entries : List (String × α)) :
    (insert key value entries).length ≤ entries.length + 1 := by
  induction entries with
  | nil => exact Nat.le_refl 1
  | cons f rest ih =>
    obtain ⟨k, v⟩ := f
    simp only [insert]
    split_ifs
    · exact Nat.le_refl _
    · exact Nat.le_succ _
    · exact Nat.succ_le_succ ih

theorem insert_append {key : String} {entries : List (String × α)} (h : ∀ e ∈ entries, e.1 < key)
    (value : α) : insert key value entries = entries ++ [(key, value)] := by
  induction entries with
  | nil => rfl
  | cons f rest ih =>
    obtain ⟨k, v⟩ := f
    have hk : k < key := h (k, v) List.mem_cons_self
    rw [insert, if_neg (not_lt.mpr hk.le), if_neg hk.ne', ih fun e he => h e (List.mem_cons_of_mem _ he)]
    rfl

/-! ## Sequences in any order -/

/-- The values under a key, in their order. -/
def occurrences (key : String) (entries : List (String × α)) : List α :=
  (entries.filter (·.1 = key)).map (·.2)

@[simp] theorem occurrences_nil (key : String) : occurrences key ([] : List (String × α)) = [] := rfl

theorem occurrences_cons (key other : String) (value : α) (entries : List (String × α)) :
    occurrences key ((other, value) :: entries) =
      if other = key then value :: occurrences key entries else occurrences key entries := by
  by_cases h : other = key
  · simp [occurrences, h]
  · simp [occurrences, h]

theorem mem_occurrences {key : String} {value : α} {entries : List (String × α)} :
    value ∈ occurrences key entries ↔ (key, value) ∈ entries := by
  simp [occurrences]

theorem find?_foldl_insert (key : String) (entries start : List (String × α)) :
    find? key (entries.foldl (fun sorted (k, v) => insert k v sorted) start) =
      (occurrences key entries).getLast?.or (find? key start) := by
  induction entries generalizing start with
  | nil => rfl
  | cons e rest ih =>
    obtain ⟨k, v⟩ := e
    rw [List.foldl_cons, ih]
    by_cases hk : k = key
    · subst hk
      rw [find?_insert_self, occurrences_cons, if_pos rfl, List.getLast?_cons]
      cases (occurrences k rest).getLast? <;> rfl
    · rw [find?_insert_other (Ne.symm hk), occurrences_cons, if_neg hk]

/-- A later entry replaces an earlier one of its key. -/
theorem find?_ofList (key : String) (entries : List (String × α)) :
    find? key (ofList entries) = (occurrences key entries).getLast? := by
  rw [ofList, find?_foldl_insert]
  simp [find?]

section

variable {entries start : List (String × α)}

theorem sorted_foldl_insert (h : Sorted start) :
    Sorted (entries.foldl (fun sorted (k, v) => insert k v sorted) start) := by
  induction entries generalizing start with
  | nil => exact h
  | cons e rest ih => exact ih (sorted_insert _ _ h)

theorem mem_foldl_insert {e : String × α}
    (h : e ∈ entries.foldl (fun sorted (k, v) => insert k v sorted) start) : e ∈ entries ∨ e ∈ start := by
  induction entries generalizing start with
  | nil => exact .inr h
  | cons f rest ih =>
    rcases ih h with hrest | hinsert
    · exact .inl (List.mem_cons_of_mem _ hrest)
    · rcases mem_insert hinsert with rfl | hstart
      · exact .inl List.mem_cons_self
      · exact .inr hstart

theorem length_foldl_insert_le (entries start : List (String × α)) :
    (entries.foldl (fun sorted (k, v) => insert k v sorted) start).length ≤
      start.length + entries.length := by
  induction entries generalizing start with
  | nil => exact Nat.le_refl _
  | cons e rest ih =>
    have hinsert := length_insert_le e.1 e.2 start
    have hrest := ih (insert e.1 e.2 start)
    simp only [List.foldl_cons, List.length_cons] at hrest ⊢
    omega

theorem foldl_insert_of_sorted (h : Sorted entries) (hs : ∀ e ∈ start, ∀ f ∈ entries, e.1 < f.1) :
    entries.foldl (fun sorted (k, v) => insert k v sorted) start = start ++ entries := by
  induction entries generalizing start with
  | nil => simp
  | cons e rest ih =>
    obtain ⟨k, v⟩ := e
    obtain ⟨hhead, hrest⟩ := sorted_cons.mp h
    have hbefore : ∀ f ∈ start, f.1 < k := fun f hf => hs f hf (k, v) List.mem_cons_self
    simp only [List.foldl_cons, insert_append hbefore]
    rw [ih hrest]
    · simp
    · intro f hf g hg
      rcases List.mem_append.mp hf with hf | hf
      · exact hs f hf g (List.mem_cons_of_mem _ hg)
      · obtain rfl := List.mem_singleton.mp hf
        exact hhead g hg

end

theorem sorted_ofList (entries : List (String × α)) : Sorted (ofList entries) :=
  sorted_foldl_insert sorted_nil

theorem mem_of_mem_ofList {e : String × α} {entries : List (String × α)} (h : e ∈ ofList entries) :
    e ∈ entries := by
  simpa using mem_foldl_insert h

theorem length_ofList_le (entries : List (String × α)) : (ofList entries).length ≤ entries.length :=
  (length_foldl_insert_le entries []).trans (by simp)

theorem ofList_of_sorted {entries : List (String × α)} (h : Sorted entries) : ofList entries = entries :=
  foldl_insert_of_sorted h (by simp)

end PluginRelay.Keyed
