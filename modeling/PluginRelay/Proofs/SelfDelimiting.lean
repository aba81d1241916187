import Mathlib.Tactic.SplitIfs
import PluginRelay.Proofs.Readers

/-!
# Readers and longer inputs

A reader that comes to a result before its input ends comes to the same result on every longer input,
and leaves what was added unread. Only a reader that runs out of bytes may go on differently. Repetitions
are given fuel by the length of their input, so one with less fuel is compared to one with more.
-/
namespace PluginRelay.Cbor

variable {α β : Type}

theorem Bytes.take?_append_right {n : Nat} {input front rest : Bytes} (s : Bytes)
    (h : Bytes.take? n input = some (front, rest)) :
    Bytes.take? n (input ++ s) = some (front, rest ++ s) := by
  obtain ⟨rfl, rfl⟩ := Bytes.take?_eq_some h
  rw [List.append_assoc, Bytes.take?_append]

/-- What a reader may give once `s` stands behind an input, given its result without it. -/
inductive Extends (s : Bytes) : Except Fault (α × Bytes) → Except Fault (α × Bytes) → Prop
  | ok (a : α) (rest : Bytes) : Extends s (.ok (a, rest)) (.ok (a, rest ++ s))
  | ended (y : Except Fault (α × Bytes)) : Extends s (.error .ended) y
  | error (fault : Fault) : Extends s (.error fault) (.error fault)

namespace Extends

variable {s : Bytes} {x y : Except Fault (α × Bytes)}

theorem bind {f g : α × Bytes → Except Fault (β × Bytes)} (h : Extends s x y)
    (hf : ∀ a rest, Extends s (f (a, rest)) (g (a, rest ++ s))) : Extends s (x >>= f) (y >>= g) := by
  cases h with
  | ok a rest => exact hf a rest
  | ended y => exact .ended _
  | error fault => exact .error fault

/-- A step that reads nothing is the same for both inputs. -/
theorem bind_same (x : Except Fault β) {f g : β → Except Fault (α × Bytes)}
    (hf : ∀ b, Extends s (f b) (g b)) : Extends s (x >>= f) (x >>= g) := by
  cases x with
  | ok b => exact hf b
  | error fault => exact .error fault

theorem map (f : α → β) (h : Extends s x y) :
    Extends s (x.map fun (a, rest) => (f a, rest)) (y.map fun (a, rest) => (f a, rest)) := by
  cases h with
  | ok a rest => exact .ok _ _
  | ended y => exact .ended _
  | error fault => exact .error fault

end Extends

/-- What `r` finds in an input, `r'` finds in every longer one. -/
def Continues (r r' : Reader α) : Prop := ∀ input s, Extends s (r input) (r' (input ++ s))

/-- A reader takes no notice of what stands behind the item that it reads. -/
def SelfDelimiting (r : Reader α) : Prop := Continues r r

namespace SelfDelimiting

variable {r : Reader α} {a : α} {input rest s : Bytes}

theorem append (hr : SelfDelimiting r) (h : r input = .ok (a, rest)) :
    r (input ++ s) = .ok (a, rest ++ s) := by
  have hext := hr input s
  rw [h] at hext
  generalize r (input ++ s) = y at hext
  cases hext with
  | ok => rfl

/-- What was taken to the last byte cannot be read of fewer bytes. -/
theorem ended (hr : SelfDelimiting r) (h : r (input ++ s) = .ok (a, [])) (hs : s ≠ []) :
    r input = .error .ended := by
  have hext := hr input s
  rw [h] at hext
  cases hread : r input with
  | error fault =>
    rw [hread] at hext
    cases hext with
    | ended => rfl
  | ok read =>
    obtain ⟨a', rest⟩ := read
    have happend := hr.append (s := s) hread
    rw [h] at happend
    have hrest : rest ++ s = [] := by simpa using (congrArg Prod.snd (Except.ok.inj happend)).symm
    exact absurd (List.append_eq_nil_iff.mp hrest).2 hs

end SelfDelimiting

theorem Header.readArgument_selfDelimiting (low : Nat) : SelfDelimiting (readArgument low) := by
  have hwide (width : Nat) : SelfDelimiting (readWide width) := by
    intro input s
    unfold readWide
    cases h : Bytes.take? width input with
    | none => exact .ended _
    | some taken =>
      obtain ⟨front, rest⟩ := taken
      rw [Bytes.take?_append_right s h]
      exact .ok _ _
  intro input s
  unfold readArgument
  split_ifs
  · exact .ok _ _
  · split
    all_goals first | exact hwide _ _ _ | exact .ok _ _ | exact .error _

theorem Header.read_selfDelimiting : SelfDelimiting Header.read := by
  intro input s
  cases input with
  | nil => exact .ended _
  | cons first rest =>
    refine .bind (readArgument_selfDelimiting _ _ _) fun argument rest => ?_
    exact .bind_same _ fun header => .ok _ _

namespace Reader

open Header (read_selfDelimiting)

/-- Two amounts of fuel go down together, until the smaller one is used up. -/
@[elab_as_elim]
theorem fuel_induction {motive : (fuel fuel' : Nat) → fuel ≤ fuel' → Prop}
    (zero : ∀ fuel', motive 0 fuel' fuel'.zero_le)
    (succ : ∀ fuel fuel' (h : fuel ≤ fuel'), motive fuel fuel' h →
      motive (fuel + 1) (fuel' + 1) (Nat.succ_le_succ h))
    {fuel fuel' : Nat} (h : fuel ≤ fuel') : motive fuel fuel' h := by
  induction fuel generalizing fuel' with
  | zero => exact zero fuel'
  | succ fuel ih =>
    cases fuel' with
    | zero => exact absurd h (Nat.not_succ_le_zero fuel)
    | succ fuel' => exact succ fuel fuel' (Nat.le_of_succ_le_succ h) (ih _)

theorem exactly_selfDelimiting (n : Nat) : SelfDelimiting (exactly n) := by
  intro input s
  unfold exactly
  cases h : Bytes.take? n input with
  | none => exact .ended _
  | some taken =>
    obtain ⟨front, rest⟩ := taken
    rw [Bytes.take?_append_right s h]
    exact .ok _ _

/-! ## Strings -/

theorem textPieces_continues {fuel fuel' : Nat} (hf : fuel ≤ fuel') (unread : Nat) (pending : Bytes)
    (chars : List Char) :
    Continues (textPieces fuel unread pending chars) (textPieces fuel' unread pending chars) := by
  induction hf using fuel_induction generalizing unread pending chars with
  | zero fuel' => exact fun _ _ => .ended _
  | succ fuel fuel' _ ih =>
    intro input s
    simp only [textPieces]
    split_ifs
    · exact .ok _ _
    · exact .error _
    · refine .bind (exactly_selfDelimiting _ _ _) fun piece rest => ?_
      dsimp only
      split_ifs
      · exact .error _
      · exact ih _ _ _ _ _

/-- A reader whose fuel is the length of its input. -/
theorem fuelled {r : Nat → Reader α} (h : ∀ fuel fuel', fuel ≤ fuel' → Continues (r fuel) (r fuel')) :
    SelfDelimiting fun input => r (input.length + 1) input :=
  fun input s => h _ _ (by simp) input s

theorem textChunk_selfDelimiting (length : Nat) (chars : List Char) :
    SelfDelimiting (textChunk length chars) :=
  fuelled (r := fun fuel => textPieces fuel length [] chars) fun _ _ hf => textPieces_continues hf _ _ _

theorem bytesChunk_selfDelimiting (length : Nat) (front : Bytes) :
    SelfDelimiting (bytesChunk length front) :=
  fun _ _ => .bind (exactly_selfDelimiting _ _ _) fun _ _ => .ok _ _

theorem chunks_continues {chunk : Nat → α → Reader α} {length? : Header → Option (Option Nat)}
    (hc : ∀ n a, SelfDelimiting (chunk n a)) {fuel fuel' : Nat} (hf : fuel ≤ fuel') (nested : Nat)
    (read : α) :
    Continues (chunks chunk length? fuel nested read) (chunks chunk length? fuel' nested read) := by
  induction hf using fuel_induction generalizing nested read with
  | zero fuel' => exact fun _ _ => .ended _
  | succ fuel fuel' _ ih =>
    intro input s
    refine .bind (read_selfDelimiting _ _) fun header rest => ?_
    dsimp only
    split_ifs
    · exact .ok _ _
    · exact ih _ _ _ _
    · split
      · exact .error _
      · exact ih _ _ _ _
      · exact .bind (hc _ _ _ _) fun read rest => ih _ _ _ _

theorem textBody_selfDelimiting (length : Option Nat) : SelfDelimiting (textBody length) := by
  intro input s
  cases length with
  | some n => exact .bind (textChunk_selfDelimiting _ _ _ _) fun chars rest => .ok _ _
  | none =>
    exact .bind (chunks_continues textChunk_selfDelimiting (by simp) _ _ _ _) fun chars rest => .ok _ _

theorem bytesBody_selfDelimiting (length : Option Nat) : SelfDelimiting (bytesBody length) := by
  intro input s
  cases length with
  | some n => exact bytesChunk_selfDelimiting _ _ _ _
  | none => exact chunks_continues bytesChunk_selfDelimiting (by simp) _ _ _ _

theorem digitsChunk_continues {fuel fuel' : Nat} (hf : fuel ≤ fuel') (unread : Nat) (ds : Bytes) :
    Continues (digitsChunk fuel unread ds) (digitsChunk fuel' unread ds) := by
  induction hf using fuel_induction generalizing unread ds with
  | zero fuel' => exact fun _ _ => .ended _
  | succ fuel fuel' _ ih =>
    intro input s
    simp only [digitsChunk]
    split_ifs
    · exact .ok _ _
    all_goals
      refine .bind (exactly_selfDelimiting _ _ _) fun piece rest => ?_
      dsimp only
      split_ifs
      · exact .error _
      · exact ih _ _ _ _

theorem digits_selfDelimiting : SelfDelimiting digits := by
  have hchunk (n : Nat) (ds : Bytes) :
      SelfDelimiting fun input => digitsChunk (input.length + 1) n ds input :=
    fuelled (r := fun fuel => digitsChunk fuel n ds) fun _ _ hf => digitsChunk_continues hf _ _
  intro input s
  refine .bind (read_selfDelimiting _ _) fun header rest => ?_
  cases header with
  | bytes length =>
    cases length with
    | some n => exact .bind (hchunk _ _ _ _) fun _ _ => .ok _ _
    | none => exact .bind (chunks_continues hchunk (by simp) _ _ _ _) fun _ _ => .ok _ _
  | _ => exact .error _

/-! ## Values -/

theorem leaf_selfDelimiting (header : Header) : SelfDelimiting (leaf header) := by
  intro input s
  cases header with
  | natural n => exact .ok _ _
  | negative n => exact .ok _ _
  | float x => exact .ok _ _
  | bytes length => exact .map _ (bytesBody_selfDelimiting _ _ _)
  | text length => exact .map _ (textBody_selfDelimiting _ _ _)
  | simple n =>
    simp only [leaf]
    split_ifs
    all_goals first | exact .ok _ _ | exact .error _
  | _ => exact .error _

theorem taggedInteger_selfDelimiting (number : UInt64) : SelfDelimiting (taggedInteger number) := by
  intro input s
  unfold taggedInteger
  split_ifs
  · refine .bind (read_selfDelimiting _ _) fun header rest => ?_
    cases header with
    | bytes length =>
      cases length with
      | some n =>
        dsimp only
        split_ifs
        · exact .bind (exactly_selfDelimiting _ _ _) fun ds rest => .bind_same _ fun v => .ok _ _
        · exact .ok _ _
      | none => exact .ok _ _
    | _ => exact .ok _ _
  · exact .ok _ _

section

variable {item : Reader α}

theorem times_selfDelimiting (h : SelfDelimiting item) (count : Nat) :
    SelfDelimiting (times item count) := by
  induction count with
  | zero => exact fun _ _ => .ok _ _
  | succ count ih =>
    exact fun input s => .bind (h _ _) fun x rest => .bind (ih _ _) fun xs rest => .ok _ _

theorem untilStop_continues (h : SelfDelimiting item) {fuel fuel' : Nat} (hf : fuel ≤ fuel') :
    Continues (untilStop item fuel) (untilStop item fuel') := by
  induction hf using fuel_induction with
  | zero fuel' => exact fun _ _ => .ended _
  | succ fuel fuel' _ ih =>
    intro input s
    refine .bind (read_selfDelimiting _ _) fun header rest => ?_
    dsimp only
    split_ifs
    · exact .ok _ _
    · exact .bind (h _ _) fun x rest => .bind (ih _ _) fun xs rest => .ok _ _

theorem repeated_selfDelimiting (h : SelfDelimiting item) (length : Option Nat) :
    SelfDelimiting (repeated item length) := by
  cases length with
  | some n => exact times_selfDelimiting h n
  | none => exact fuelled (r := untilStop item) fun _ _ hf => untilStop_continues h hf

theorem pair_selfDelimiting {second : Reader β} (h : SelfDelimiting item)
    (h' : SelfDelimiting second) : SelfDelimiting (pair item second) :=
  fun _ _ => .bind (h _ _) fun _ _ => .bind (h' _ _) fun _ _ => .ok _ _

end

theorem value_selfDelimiting (depth : Nat) : SelfDelimiting (value depth) := by
  induction depth with
  | zero =>
    intro input s
    unfold value
    refine .bind (read_selfDelimiting _ _) fun header rest => ?_
    cases header with
    | array length => exact .error _
    | map length => exact .error _
    | tag n =>
      refine .bind (taggedInteger_selfDelimiting _ _ _) fun v rest => ?_
      cases v with
      | some v => exact .ok _ _
      | none => exact .error _
    | _ => exact leaf_selfDelimiting _ _ _
  | succ depth ih =>
    intro input s
    unfold value
    refine .bind (read_selfDelimiting _ _) fun header rest => ?_
    cases header with
    | array length => exact .bind (repeated_selfDelimiting ih _ _ _) fun items rest => .ok _ _
    | map length =>
      exact .bind (repeated_selfDelimiting (pair_selfDelimiting ih ih) _ _ _) fun entries rest => .ok _ _
    | tag n =>
      refine .bind (taggedInteger_selfDelimiting _ _ _) fun v rest => ?_
      cases v with
      | some v => exact .ok _ _
      | none => exact .bind (ih _ _) fun item rest => .ok _ _
    | _ => exact leaf_selfDelimiting _ _ _

theorem optional_selfDelimiting (depth : Nat) : SelfDelimiting (optional depth) := by
  intro input s
  refine .bind (read_selfDelimiting _ _) fun header rest => ?_
  dsimp only
  split_ifs
  · exact .ok _ _
  · exact .bind (value_selfDelimiting _ _ _) fun v rest => .ok _ _

/-! ## Fields -/

theorem untagged_continues {fuel fuel' : Nat} (hf : fuel ≤ fuel') :
    Continues (untagged fuel) (untagged fuel') := by
  induction hf using fuel_induction with
  | zero fuel' => exact fun _ _ => .ended _
  | succ fuel fuel' _ ih =>
    intro input s
    refine .bind (read_selfDelimiting _ _) fun header rest => ?_
    cases header with
    | tag n => exact ih _ _
    | _ => exact .ok _ _

theorem skipTags_selfDelimiting : SelfDelimiting skipTags :=
  fuelled fun _ _ => untagged_continues

theorem naturalFrom_continues {fuel fuel' : Nat} (hf : fuel ≤ fuel') :
    Continues (naturalFrom fuel) (naturalFrom fuel') := by
  induction hf using fuel_induction with
  | zero fuel' => exact fun _ _ => .ended _
  | succ fuel fuel' _ ih =>
    intro input s
    refine .bind (read_selfDelimiting _ _) fun header rest => ?_
    cases header with
    | natural n => exact .ok _ _
    | tag n =>
      dsimp only
      split_ifs
      · exact digits_selfDelimiting _ _
      · exact .bind (digits_selfDelimiting _ _) fun _ _ => .error _
      · exact ih _ _
    | _ => exact .error _

theorem natural_selfDelimiting : SelfDelimiting natural :=
  fuelled fun _ _ => naturalFrom_continues

theorem bool_selfDelimiting : SelfDelimiting bool := by
  intro input s
  refine .bind (skipTags_selfDelimiting _ _) fun header rest => ?_
  cases header with
  | simple n =>
    dsimp only
    split_ifs
    all_goals first | exact .ok _ _ | exact .error _
  | _ => exact .error _

theorem text_selfDelimiting : SelfDelimiting text := by
  intro input s
  refine .bind (skipTags_selfDelimiting _ _) fun header rest => ?_
  cases header with
  | text length => exact textBody_selfDelimiting _ _ _
  | _ => exact .error _

theorem shortBytes_selfDelimiting : SelfDelimiting shortBytes := by
  intro input s
  refine .bind (skipTags_selfDelimiting _ _) fun header rest => ?_
  cases header with
  | bytes length =>
    cases length with
    | some n =>
      dsimp only
      split_ifs
      · exact exactly_selfDelimiting _ _ _
      · exact .error _
    | none => exact .error _
  | _ => exact .error _

theorem name_selfDelimiting : SelfDelimiting name := by
  intro input s
  refine .bind (skipTags_selfDelimiting _ _) fun header rest => ?_
  cases header with
  | text length =>
    cases length with
    | some n =>
      dsimp only
      split_ifs
      · refine .bind (exactly_selfDelimiting _ _ _) fun bytes rest => ?_
        dsimp only
        split
        · exact .ok _ _
        · exact .error _
      · exact .error _
    | none => exact .error _
  | bytes length =>
    cases length with
    | some n =>
      dsimp only
      split_ifs
      · exact .bind (exactly_selfDelimiting _ _ _) fun bytes rest => .ok _ _
      · exact .error _
    | none => exact .error _
  | _ => exact .error _

section

variable {σ : Type} {step : σ → Reader σ}

theorem stepTimes_selfDelimiting (h : ∀ state, SelfDelimiting (step state)) (count : Nat) (state : σ) :
    SelfDelimiting (stepTimes step count state) := by
  induction count generalizing state with
  | zero => exact fun _ _ => .ok _ _
  | succ count ih => exact fun input s => .bind (h _ _ _) fun state rest => ih _ _ _

theorem stepUntilStop_continues (h : ∀ state, SelfDelimiting (step state)) {fuel fuel' : Nat}
    (hf : fuel ≤ fuel') (state : σ) :
    Continues (stepUntilStop step fuel state) (stepUntilStop step fuel' state) := by
  induction hf using fuel_induction generalizing state with
  | zero fuel' => exact fun _ _ => .ended _
  | succ fuel fuel' _ ih =>
    intro input s
    refine .bind (read_selfDelimiting _ _) fun header rest => ?_
    dsimp only
    split_ifs
    · exact .ok _ _
    · exact .bind (h _ _ _) fun state rest => ih _ _ _

end

theorem mapInto_selfDelimiting {σ : Type} {step : Nat → σ → Reader σ}
    (h : ∀ depth state, SelfDelimiting (step depth state)) (depth : Nat) (start : σ) :
    SelfDelimiting (mapInto depth step start) := by
  intro input s
  refine .bind (skipTags_selfDelimiting _ _) fun header rest => ?_
  cases header with
  | map length =>
    cases depth with
    | zero => exact .error _
    | succ depth =>
      cases length with
      | some n => exact stepTimes_selfDelimiting (h depth) _ _ _ _
      | none => exact stepUntilStop_continues (h depth) (by simp) _ _ _
  | _ => exact .error _

theorem variant_selfDelimiting {body : Nat → Option String → Reader α}
    (h : ∀ depth tag, SelfDelimiting (body depth tag)) (depth : Nat) :
    SelfDelimiting (variant depth body) := by
  -- A name alone is read from the input again, one in a map from what stands behind its header.
  have hstart (depth : Nat) (start s : Bytes) : Extends s
      (name start >>= fun p => body depth p.1 p.2) (name (start ++ s) >>= fun p => body depth p.1 p.2) :=
    .bind (name_selfDelimiting _ _) fun tag rest => h _ _ _ _
  intro input s
  refine .bind (skipTags_selfDelimiting _ _) fun header rest => ?_
  cases header with
  | text length =>
    cases depth with
    | zero => exact .error _
    | succ depth => exact hstart _ _ _
  | map length =>
    rcases length with _ | _ | _ | n
    · exact .error _
    · exact .error _
    · cases depth with
      | zero => exact .error _
      | succ depth => exact hstart _ _ _
    · exact .error _
  | _ => exact .error _

end Reader

end PluginRelay.Cbor
