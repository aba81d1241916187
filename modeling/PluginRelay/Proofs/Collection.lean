import Mathlib.Algebra.GroupWithZero.Nat
import Mathlib.Data.List.Nodup
import Mathlib.Data.List.Perm.Basic
import PluginRelay.Proofs.ReferenceBalance

/-!
# Collections spare what can be reached

The search for what can be reached has as much fuel as there are references, and each step of it uses up one: so it
ends by itself, with all that the holders and the jobs lead to. What the program has a value for is among that, and
outlives every collection.
-/
namespace PluginRelay

open Script

namespace Script.Machine

variable {σ : Type}

/-! ### Fuel -/

theorem referenceTotal_eq (c : Counts) : referenceTotal c = (c.toList.map (·.2)).sum := by
  rw [referenceTotal, Std.HashMap.fold_eq_foldl_toList, List.sum_eq_foldl, List.foldl_map]

/-- The total is what is counted for one reference and what is counted for the others. -/
theorem referenceTotal_split (counts : Counts) (r : Reference) :
    referenceTotal counts =
      counts.getD r 0 + ((counts.toList.filter fun entry => ¬(r == entry.1) = true).map (·.2)).sum := by
  rw [referenceTotal_eq]
  cases hr : counts[r]? with
  | none =>
    have hall : ∀ entry ∈ counts.toList, (decide ¬(r == entry.1) = true) = true := by
      intro entry hentry
      have hsome := Std.HashMap.mem_toList_iff_getElem?_eq_some.mp hentry
      have hne : r ≠ entry.1 := fun heq => by simp [heq, hsome] at hr
      simpa using hne
    rw [List.filter_eq_self.mpr hall, Std.HashMap.getD_eq_getD_getElem?, hr, Option.getD_none, Nat.zero_add]
  | some n =>
    have hmem : (r, n) ∈ counts.toList := Std.HashMap.mem_toList_iff_getElem?_eq_some.mpr hr
    have hnodup : counts.toList.Nodup := by
      refine List.Nodup.of_map Prod.fst ?_
      rw [Std.HashMap.map_fst_toList_eq_keys]
      exact Std.HashMap.nodup_keys
    have hothers : counts.toList.erase (r, n) = counts.toList.filter fun entry => ¬(r == entry.1) = true := by
      rw [hnodup.erase_eq_filter]
      refine List.filter_congr fun entry hentry => ?_
      have hsome := Std.HashMap.mem_toList_iff_getElem?_eq_some.mp hentry
      by_cases heq : r = entry.1
      · have hn : entry.2 = n := by simpa [← heq, hr, eq_comm] using hsome
        simp [heq, ← hn]
      · have hne : entry ≠ (r, n) := fun h => heq (by rw [h])
        simp [heq, hne]
    rw [((List.perm_cons_erase hmem).map (·.2)).sum_nat, hothers, Std.HashMap.getD_eq_getD_getElem?, hr]
    simp

theorem referenceTotal_add (c : Counts) (r : Reference) : referenceTotal (c.add r) = referenceTotal c + 1 := by
  have hperm := (Std.HashMap.toList_insert_perm (m := c) (k := r) (v := c.getD r 0 + 1)).map (·.2)
  rw [referenceTotal_split c r, referenceTotal_eq, Counts.add, hperm.sum_nat, List.map_cons, List.sum_cons]
  omega

theorem referenceTotal_foldl_add (rs : List Reference) (c : Counts) :
    referenceTotal (rs.foldl Counts.add c) = referenceTotal c + rs.length := by
  induction rs generalizing c with
  | nil => rfl
  | cons r rest ih =>
    rw [List.foldl_cons, ih, referenceTotal_add, List.length_cons]
    omega

theorem referenceTotal_foldl_nodes (m : Machine σ) (nodes : List Reference) (c : Counts) :
    referenceTotal (nodes.foldl (fun c n => (m.references n).foldl Counts.add c) c) =
      referenceTotal c + (nodes.flatMap m.references).length := by
  induction nodes generalizing c with
  | nil => rfl
  | cons n rest ih =>
    rw [List.foldl_cons, ih, referenceTotal_foldl_add, List.flatMap_cons, List.length_append]
    omega

/-- Every reference that the holders, the jobs or the heap have is counted once. -/
theorem referenceTotal_counts (m : Machine σ) (holders : List Reference) :
    referenceTotal (m.counts holders) =
      (holders ++ m.jobReferences).length + (m.nodes.flatMap m.references).length := by
  rw [counts, referenceTotal_foldl_nodes, referenceTotal_foldl_add, referenceTotal_eq]
  simp

/-! ### Reaching -/

/-- What some references lead to. -/
inductive Reaches (m : Machine σ) (roots : List Reference) : Reference → Prop
  | root {r : Reference} (h : r ∈ roots) : Reaches m roots r
  | next {r s : Reference} (h : Reaches m roots r) (hs : s ∈ m.references r) : Reaches m roots s

/-- What is left to be looked at, beside what has been seen. -/
def unseen (m : Machine σ) (nodes : List Reference) (seen : Std.HashSet Reference) : Nat :=
  ((nodes.filter fun n => !seen.contains n).flatMap m.references).length

theorem unseen_insert_le (m : Machine σ) (nodes : List Reference) (seen : Std.HashSet Reference) (r : Reference) :
    m.unseen nodes (seen.insert r) ≤ m.unseen nodes seen := by
  induction nodes with
  | nil => exact Nat.le_refl _
  | cons n rest ih =>
    unfold unseen at ih ⊢
    by_cases hn : seen.contains n <;> by_cases hr : r = n <;> simp [hn, hr] at ih ⊢ <;> omega

/-- To look at something new takes its references from what is left. -/
theorem unseen_insert (m : Machine σ) {nodes : List Reference} {seen : Std.HashSet Reference} {r : Reference}
    (hr : r ∈ nodes) (hnew : seen.contains r = false) :
    m.unseen nodes (seen.insert r) + (m.references r).length ≤ m.unseen nodes seen := by
  induction nodes with
  | nil => cases hr
  | cons n rest ih =>
    have hle := m.unseen_insert_le rest seen r
    unfold unseen at ih hle ⊢
    by_cases heq : r = n
    · subst heq
      simp [hnew] at hle ⊢
      omega
    · have ih := ih (List.mem_of_ne_of_mem heq hr)
      by_cases hn : seen.contains n <;> simp [hn, heq] at ih ⊢ <;> omega

theorem references_eq_nil {m : Machine σ} {r : Reference} (h : r ∉ m.nodes) : m.references r = [] := by
  cases r with
  | object id =>
    have hid : m.objects.size ≤ id := by simpa [nodes] using h
    simp [references, Array.getElem?_eq_none hid]
  | cell id =>
    have hid : m.cells.size ≤ id := by simpa [nodes] using h
    simp [references, Array.getElem?_eq_none hid]
  | realm id =>
    have hid : m.realms.size ≤ id := by simpa [nodes] using h
    simp [references, Array.getElem?_eq_none hid]
  | _ => rfl

/-- A search that has fuel for all that is left finds what it started with, and with each new thing all that this
refers to. -/
theorem reach_closed (m : Machine σ) {fuel : Nat} (work : List Reference) (seen : Std.HashSet Reference)
    (hfuel : work.length + m.unseen m.nodes seen ≤ fuel) :
    (∀ r, seen.contains r → (m.reach fuel work seen).contains r) ∧
    (∀ r ∈ work, (m.reach fuel work seen).contains r) ∧
    ∀ r, (m.reach fuel work seen).contains r → seen.contains r ∨
      ∀ s ∈ m.references r, (m.reach fuel work seen).contains s := by
  -- Each step takes one reference off the work. It puts others on only for a reference that is new, and then all of
  -- them are in the share of the fuel that was kept for what is not seen yet.
  induction fuel generalizing work seen with
  | zero =>
    obtain rfl : work = [] := List.eq_nil_of_length_eq_zero (by omega)
    exact ⟨fun _ h => h, List.forall_mem_nil _, fun _ h => .inl h⟩
  | succ fuel ih =>
    match work with
    | [] => exact ⟨fun _ h => h, List.forall_mem_nil _, fun _ h => .inl h⟩
    | first :: rest =>
      rw [List.length_cons] at hfuel
      rw [reach]
      split
      · next hold =>
        obtain ⟨hseen, hwork, hclosed⟩ := ih rest seen (by omega)
        exact ⟨hseen, List.forall_mem_cons.mpr ⟨hseen first hold, hwork⟩, hclosed⟩
      · next hnew =>
        have hspent : (m.references first).length + m.unseen m.nodes (seen.insert first) ≤
            m.unseen m.nodes seen := by
          by_cases hnode : first ∈ m.nodes
          · have := m.unseen_insert hnode (Bool.eq_false_iff.mpr hnew)
            omega
          · rw [references_eq_nil hnode, List.length_nil, Nat.zero_add]
            exact m.unseen_insert_le _ _ _
        obtain ⟨hseen, hwork, hclosed⟩ := ih (m.references first ++ rest) (seen.insert first)
          (by rw [List.length_append]; omega)
        obtain ⟨hreferred, hrest⟩ := List.forall_mem_append.mp hwork
        refine ⟨fun r hr => hseen r ?_, List.forall_mem_cons.mpr ⟨hseen first ?_, hrest⟩, fun r hr => ?_⟩
        · simp [hr]
        · simp
        · by_cases heq : first = r
          · subst heq
            exact .inr hreferred
          · have hinsert : (seen.insert first).contains r = seen.contains r := by simp [heq]
            rw [← hinsert]
            exact hclosed r hr

theorem reach_of_reaches {m : Machine σ} {fuel : Nat} {roots : List Reference} {r : Reference}
    (hfuel : roots.length + m.unseen m.nodes ∅ ≤ fuel) (h : m.Reaches roots r) :
    (m.reach fuel roots ∅).contains r := by
  obtain ⟨-, hroots, hclosed⟩ := m.reach_closed _ _ hfuel
  induction h with
  | root hmem => exact hroots _ hmem
  | next _ hs ih =>
    obtain hempty | hreferred := hclosed _ ih
    · simp at hempty
    · exact hreferred _ hs

/-! ### Removing -/

/-- A place of the heap holds the same in both machines. -/
def SamePlace (m m' : Machine σ) : Reference → Prop
  | .object id => m'.objects[id]? = m.objects[id]?
  | .cell id => m'.cells[id]? = m.cells[id]?
  | .realm id => m'.realms[id]? = m.realms[id]?
  | _ => True

theorem SamePlace.refl (m : Machine σ) (r : Reference) : m.SamePlace m r := by
  cases r <;> first | rfl | trivial

theorem SamePlace.trans {m m' m'' : Machine σ} {r : Reference} (h : m.SamePlace m' r) (h' : m'.SamePlace m'' r) :
    m.SamePlace m'' r := by
  cases r with
  | object id | cell id | realm id => exact Eq.trans h' h
  | _ => trivial

theorem samePlace_remove {r s : Reference} (h : s ≠ r) (m : Machine σ) : m.SamePlace (m.remove s) r := by
  cases s <;> cases r <;> first
    | trivial
    | rfl
    | (have hne := fun heq => h (congrArg _ heq)
       exact Array.getElem?_setIfInBounds_ne hne)

theorem samePlace_foldl_remove {idle : List Reference} {r : Reference} (h : r ∉ idle) (m : Machine σ) :
    m.SamePlace (idle.foldl remove m) r := by
  induction idle generalizing m with
  | nil => exact .refl m r
  | cons s rest ih =>
    rw [List.mem_cons, not_or] at h
    exact (samePlace_remove (Ne.symm h.1) m).trans (ih h.2 _)

/-- Removing empties places and takes none away. -/
theorem size_foldl_remove (idle : List Reference) (m : Machine σ) :
    (idle.foldl remove m).objects.size = m.objects.size := by
  induction idle generalizing m with
  | nil => rfl
  | cons s rest ih =>
    rw [List.foldl_cons, ih]
    cases s with
    | object id => exact Array.size_setIfInBounds
    | _ => rfl

/-- A collection leaves alone what the holders and the jobs lead to. -/
theorem samePlace_collect (m : Machine σ) (holders : List Reference) {r : Reference}
    (h : m.Reaches (holders ++ m.jobReferences) r) : m.SamePlace (m.collect holders) r := by
  have hfuel : (holders ++ m.jobReferences).length + m.unseen m.nodes ∅ ≤
      referenceTotal (m.counts holders) + (holders ++ m.jobReferences).length + 1 := by
    rw [referenceTotal_counts]
    simp only [unseen, Std.HashSet.contains_empty, Bool.not_false, List.filter_true]
    omega
  have hseen := reach_of_reaches hfuel h
  unfold collect
  refine samePlace_foldl_remove (fun hidle => ?_) m
  have hunseen := (List.mem_filter.mp hidle).2
  rw [hseen] at hunseen
  exact Bool.noConfusion hunseen

end Script.Machine

namespace Embedding

variable {κ τ ε : Type} [Holding τ]

/-- What the program has a value for, it holds. -/
theorem World.mem_holders {w : World κ τ} {hands : List Handle} {h : Handle} {r : Reference}
    (hbalanced : w.Balanced []) (htidy : w.Tidy hands) (hmem : h ∈ Holding.values w.own ++ hands)
    (hr : h.value.reference? = some r) : r ∈ w.holders :=
  List.mem_append_left _ (Ledger.mem_holders (hbalanced.engine_nonneg r) (htidy.count_pos hbalanced hmem hr))

/-- What was put off spares what the program holds. -/
theorem Operation.settle_spares (env : Env (World κ τ)) (m : Engine κ τ) :
    ∃ m', (settle : Task ε κ τ Unit) env m = .ok () m' ∧ m'.host.own = m.host.own ∧
      m'.objects.size = m.objects.size ∧
      ∀ r, m.Reaches (m.host.holders ++ m.jobReferences) r → m.SamePlace m' r := by
  unfold settle
  rw [Task.run_bind_ok (show (world : Task ε κ τ (World κ τ)) env m = .ok m.host m from rfl)]
  split
  · refine ⟨{ m.collect m.host.holders with
      host := { (m.collect m.host.holders).host with collectLater := false } }, rfl, ?_, ?_, fun r hr => ?_⟩
    · change (m.collect m.host.holders).host.own = m.host.own
      rw [m.host_collect]
    · exact Machine.size_foldl_remove _ m
    · have hsame := m.samePlace_collect m.host.holders hr
      cases r <;> exact hsame
  · exact ⟨m, rfl, rfl, rfl, fun r _ => .refl m r⟩

end Embedding

end PluginRelay
