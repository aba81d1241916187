import PluginRelay.Proofs.ExactNumbers
import PluginRelay.Proofs.ListedMembers
import PluginRelay.Proofs.PairedUnits

/-!
# Texts that the program passes on

A text that the program passes on reads the same in all ways, at any time. The other way round, a value has a text
unless a surrogate stands alone in it, and that text gives the units of the value again. The lossy reading always gives
something, which differs from the value only in surrogates that stand alone.
-/
namespace PluginRelay.Embedding

open Script

variable {κ τ ε : Type} [Holding τ]

/-- In all ways and at any time, the program reads the value as the text `s` with a length of `n`. -/
structure ReadsAs (κ τ : Type) [Holding τ] (h : Handle) (s : String) (n : ℕ) : Prop where
  text : ∀ env (m : Engine κ τ), ∃ m', (Operation.text h) env m = .ok s m'
  lossyText : ∀ env (m : Engine κ τ), ∃ m', (Operation.lossyText h : Task Failure κ τ String) env m = .ok s m'
  primitive : ∀ env (m : Engine κ τ), ∃ m',
    (Operation.asPrimitive? h : Task Failure κ τ (Option Primitive)) env m = .ok (some (.str s)) m'
  length : ∀ env (m : Engine κ τ), ∃ m',
    (Operation.length? h : Task Failure κ τ (Option ℕ)) env m = .ok (some n) m'

namespace Operation

/-! ### Reading -/

/-- What succeeds on every machine succeeds after what was put off, too. -/
theorem perform_ok {α : Type} {context : ContextId} {a : Env (World κ τ) → Action (World κ τ) α} {x : α}
    {env : Env (World κ τ)} (h : ∀ m, ∃ m', a env m = .ok x m') (m : Engine κ τ) :
    ∃ m', (perform context a) env m = .ok x m' := by
  obtain ⟨m₁, hsettle, -⟩ := settle_spares (ε := Failure) env m
  obtain ⟨m₂, hrun⟩ := h { m₁ with realm := context }
  refine ⟨{ m₂ with realm := m₁.realm }, ?_⟩
  unfold perform
  rw [Task.run_bind_ok hsettle, Task.run_bind_ok (within_ok hrun)]
  rfl

variable {h : Handle} {t : Text}

theorem units_text (hvalue : h.value = .string t) (env : Env (World κ τ)) (m : Engine κ τ) :
    ∃ m', (units h) env m = .ok t.units m' := by
  refine perform_ok (fun m => ⟨m, ?_⟩) m
  rw [hvalue]
  rfl

theorem lossyText_text (hvalue : h.value = .string t) (env : Env (World κ τ)) (m : Engine κ τ) :
    ∃ m', (lossyText h : Task ε κ τ String) env m = .ok t.units.toStringLossy m' := by
  obtain ⟨m', hunits⟩ := units_text hvalue env m
  refine ⟨m', ?_⟩
  unfold lossyText
  rw [Task.run_bind_ok (attempt_ok hunits)]
  rfl

/-- A value has the text whose units it has, and no other. -/
theorem text_ok (hvalue : h.value = .string t) {s : String} (hs : Units.ofString s = t.units)
    (env : Env (World κ τ)) (m : Engine κ τ) : ∃ m', (text h) env m = .ok s m' := by
  obtain ⟨m', hunits⟩ := units_text hvalue env m
  have hdecode := (Units.decode?_toBytes t.units s).mpr hs
  refine ⟨m', ?_⟩
  unfold text
  rw [Task.run_bind_ok hunits, hdecode]
  rfl

theorem text_error (hvalue : h.value = .string t) (hlone : ¬t.units.IsPaired) (env : Env (World κ τ))
    (m : Engine κ τ) : ∃ m', (text h) env m = .error (.illFormed (Utf8.validUpTo 0 0 t.units.toBytes)) m' := by
  obtain ⟨m', hunits⟩ := units_text hvalue env m
  have hdecode : Utf8.decode? t.units.toBytes = none := by
    refine Option.eq_none_iff_forall_ne_some.mpr fun s hs => hlone ?_
    exact (Units.exists_ofString_iff t.units).mp ⟨s, (Units.decode?_toBytes t.units s).mp hs⟩
  refine ⟨m', ?_⟩
  unfold text
  rw [Task.run_bind_ok hunits, hdecode]
  rfl

theorem asPrimitive?_text (hvalue : h.value = .string t) (env : Env (World κ τ)) (m : Engine κ τ) :
    ∃ m', (asPrimitive? h : Task ε κ τ (Option Primitive)) env m = .ok (some (.str t.units.toStringLossy)) m' := by
  obtain ⟨m', htext⟩ := lossyText_text (ε := ε) hvalue env m
  refine ⟨m', ?_⟩
  unfold asPrimitive?
  rw [hvalue]
  dsimp only
  rw [Task.run_bind_ok htext]
  rfl

/-! ### Length -/

theorem getProperty_length (hvalue : h.value = .string t) (env : Env (World κ τ)) (m : Engine κ τ) :
    ∃ n m', (getProperty h "length") env m = .ok n m' ∧ n.value = .ofNat t.units.size := by
  have hnul : nulPosition? "length" = none := by decide
  have hkey : PropertyKey.ofString "length" = Access.lengthKey := by decide
  have hmember (m : Engine κ τ) :
      (Convert.getMember env h.value (.ofString "length")) m = .ok (.ofNat t.units.size) m := by
    rw [hvalue, hkey]
    rfl
  obtain ⟨m₁, hperform⟩ : ∃ m₁, (perform h.context fun env => Convert.getMember env h.value (.ofString "length")) env
      m = .ok (.ofNat t.units.size) m₁ := perform_ok (fun m => ⟨m, hmember m⟩) m
  obtain ⟨n, m', hreceive, hn⟩ := receive_ofInt (ε := Failure) h.context t.units.size env m₁
  refine ⟨n, m', ?_, hn⟩
  unfold getProperty performValue checkNul
  rw [hnul, Task.run_bind_ok (show (pure () : Operation κ τ Unit) env m = .ok () m from rfl),
    Task.run_bind_ok hperform]
  exact hreceive

theorem asLength?_ofNat {n : ℕ} (h : n < 2 ^ 31) : asLength? (.ofNat n) = some n := by
  have hshort : Value.isShort n = true := (isShort_iff n).mpr ⟨by omega, by omega⟩
  rw [Value.ofNat, Value.ofInt, if_pos hshort, asLength?, asLong?, Option.filter_some, if_pos (by simp)]
  rfl

theorem length?_text (hvalue : h.value = .string t) (hsize : t.units.size < 2 ^ 31) (env : Env (World κ τ))
    (m : Engine κ τ) : ∃ m', (length? h : Task ε κ τ (Option ℕ)) env m = .ok (some t.units.size) m' := by
  obtain ⟨n, m₁, hget, hn⟩ := getProperty_length hvalue env m
  have hlength : asLength? n.value = some t.units.size := by rw [hn, asLength?_ofNat hsize]
  refine ⟨{ m₁ with host := m₁.host.drop n }, ?_⟩
  unfold length?
  rw [hvalue]
  change ((attempt (getProperty h "length") : Task ε κ τ (Except Failure Handle)) >>= _) env m = _
  rw [Task.run_bind_ok (attempt_ok hget)]
  refine thenDrop_ok ?_
  rw [hlength]
  rfl

/-! ### Passing on -/

/-- The value made of a text has its units. -/
theorem ofPrimitive_text (context : ContextId) (s : String) (env : Env (World κ τ)) (m : Engine κ τ) :
    ∃ h m' t, (ofPrimitive context (.str s)) env m = .ok h m' ∧ h.value = .string t ∧ t.units = Units.ofString s := by
  obtain ⟨h, m', hreceive, hvalue, -, -⟩ := receive_spec (ε := Failure) context (.ofString s) env m
  have hs : (Value.ofString s).unnumbered = .string ⟨Units.ofString s, 0⟩ := rfl
  rw [hs] at hvalue
  cases hh : h.value with
  | string t =>
    rw [hh] at hvalue
    have hunits := congrArg Text.units (Value.string.inj hvalue)
    exact ⟨h, m', t, hreceive, hh, hunits⟩
  | _ =>
    rw [hh] at hvalue
    cases hvalue

end Operation

/-- Texts that the program passes on come back, and their length is that of their units. A value has a text if and only
if no surrogate stands alone in it, and the text then gives the same units; if not, reading fails for the form of the
text. The units are divided into characters and surrogates that stand alone in one way, and the lossy reading shows
these parts in their order, with replacements for the surrogates. -/
theorem texts_come_back :
    (∀ s : String, (Units.ofString s).size ≤ Builtin.StringFunctions.maxLength →
      ∀ context env (m : Engine κ τ), ∃ h m', (Operation.ofPrimitive context (.str s)) env m = .ok h m' ∧
        ReadsAs κ τ h s (s.toList.map fun c => if c.toNat < 0x10000 then 1 else 2).sum) ∧
    ∀ (t : Text) context env (m : Engine κ τ),
      (t.units.IsPaired → ∃ s m', (Operation.text ⟨context, .string t⟩) env m = .ok s m' ∧
        ∀ context' env' (m₁ : Engine κ τ), ∃ h m₂ t', (Operation.ofPrimitive context' (.str s)) env' m₁ = .ok h m₂ ∧
          h.value = .string t' ∧ t'.units = t.units) ∧
      (¬t.units.IsPaired → ∃ position m',
        (Operation.text ⟨context, .string t⟩) env m = .error (.illFormed position) m') ∧
      ∃ parts m', Units.Divides [] t.units.toList parts ∧
        (∀ others, Units.Divides [] t.units.toList others → others = parts) ∧
        (Operation.lossyText ⟨context, .string t⟩ : Task Failure κ τ String) env m =
          .ok (String.ofList (parts.flatMap Units.Part.shown)) m' := by
  refine ⟨fun s hsize context env m => ?_, fun t context env m => ⟨fun hpaired => ?_, fun hlone => ?_, ?_⟩⟩
  · obtain ⟨h, m', t, hmade, hvalue, ht⟩ := Operation.ofPrimitive_text context s env m
    have hlossy : t.units.toStringLossy = s := by rw [ht, Units.toStringLossy_ofString]
    have hlength : t.units.size = (s.toList.map fun c => if c.toNat < 0x10000 then 1 else 2).sum := by
      rw [ht, Units.size_ofString]
    have hshort : t.units.size < 2 ^ 31 := by
      rw [ht]
      exact lt_of_le_of_lt hsize (by decide)
    refine ⟨h, m', hmade, Operation.text_ok hvalue ht.symm, fun env m => ?_, fun env m => ?_, fun env m => ?_⟩
    · rw [← hlossy]
      exact Operation.lossyText_text hvalue env m
    · rw [← hlossy]
      exact Operation.asPrimitive?_text hvalue env m
    · rw [← hlength]
      exact Operation.length?_text hvalue hshort env m
  · obtain ⟨s, hs⟩ := (Units.exists_ofString_iff t.units).mpr hpaired
    obtain ⟨m', htext⟩ := Operation.text_ok (h := ⟨context, .string t⟩) rfl hs env m
    refine ⟨s, m', htext, fun context' env' m₁ => ?_⟩
    obtain ⟨h, m₂, t', hmade, hvalue, ht'⟩ := Operation.ofPrimitive_text context' s env' m₁
    exact ⟨h, m₂, t', hmade, hvalue, ht'.trans hs⟩
  · obtain ⟨m', htext⟩ := Operation.text_error (h := ⟨context, .string t⟩) rfl hlone env m
    exact ⟨_, m', htext⟩
  · obtain ⟨m', htext⟩ := Operation.lossyText_text (ε := Failure) (h := ⟨context, .string t⟩) rfl env m
    have hdivides := Units.divides_codePoints t.units
    rw [Units.toStringLossy_of_divides hdivides] at htext
    exact ⟨_, m', hdivides, fun _ hothers => hothers.eq_map, htext⟩

/-- A text with a NUL and a character of two units comes back, units that are paired have a text, and a lead at the end
of a text has none. -/
theorem text_with_nul_comes_back : ∃ (m m₁ m₂ m₃ : Engine Empty Unit) (env : Env (World Empty Unit)) (h : Handle)
    (s : String) (position : ℕ),
    (Units.ofString "a\x00😀").size ≤ Builtin.StringFunctions.maxLength ∧
    (Operation.ofPrimitive 0 (.str "a\x00😀")) env m = .ok h m₁ ∧ ReadsAs Empty Unit h "a\x00😀" 4 ∧
    Units.IsPaired #[0xD83D, 0xDE00] ∧
    (Operation.text ⟨0, .string ⟨#[0xD83D, 0xDE00], 0⟩⟩) env m = .ok s m₂ ∧
    ¬Units.IsPaired #[97, 0xD83D] ∧
    (Operation.text ⟨0, .string ⟨#[97, 0xD83D], 0⟩⟩) env m = .error (.illFormed position) m₃ := by
  let env := environment (⟨fun k _ => k.elim, fun k _ => k.elim⟩ : Respond Empty Unit) .default
  obtain ⟨m, -⟩ := exists_object (Object.single (.name #[97]) (.plain (.int 1)))
  have hsize : (Units.ofString "a\x00😀").size ≤ Builtin.StringFunctions.maxLength := by decide
  have hpaired : Units.IsPaired #[0xD83D, 0xDE00] := (Units.isWellFormed_iff _).mp (by decide)
  have hlone : ¬Units.IsPaired #[97, 0xD83D] := fun h => absurd ((Units.isWellFormed_iff _).mpr h) (by decide)
  have hall := texts_come_back (κ := Empty) (τ := Unit)
  obtain ⟨h, m₁, hmade, hreads⟩ := hall.1 "a\x00😀" hsize 0 env m
  obtain ⟨s, m₂, htext, -⟩ := (hall.2 ⟨#[0xD83D, 0xDE00], 0⟩ 0 env m).1 hpaired
  obtain ⟨position, m₃, hfails⟩ := (hall.2 ⟨#[97, 0xD83D], 0⟩ 0 env m).2.1 hlone
  exact ⟨m, m₁, m₂, m₃, env, h, s, position, hsize, hmade, hreads, hpaired, htext, hlone, hfails⟩

end PluginRelay.Embedding
