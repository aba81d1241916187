import PluginRelay.Proofs.PairedUnits
import PluginRelay.Proofs.Rethrowing

/-!
# Messages that are cut

A function of the program that refuses throws a new error with its message. The engine has room for a message of 255
bytes. A text that needs no more is shown as it is. A longer one is cut, and a character that does not fit as a whole is
replaced.
-/
namespace PluginRelay.Embedding

open Script Utf8

namespace HostError

/-! ### What is shown -/

theorem escaped_eq {text : String} (hnul : '\x00' ∉ text.toList) : escaped text = text := by
  have hchars : (text.toList.flatMap fun c => if c = '\x00' then ['\\', '0'] else [c]) = text.toList := by
    have hkept : ∀ c ∈ text.toList, (if c = '\x00' then ['\\', '0'] else [c]) = [c] :=
      fun c hc => if_neg fun (heq : c = '\x00') => hnul (heq ▸ hc)
    rw [List.flatMap_congr hkept, List.flatMap_singleton']
  rw [escaped, hchars, String.ofList_toList]

/-- Whole characters are shown as they are, and the beginning of another one as a replacement. -/
theorem shown_of_begins {text : String} {whole left : List Char} {part : Bytes}
    (hcut : (encode (escaped text)).take limit = encodeChars whole ++ part) (hpart : Begins part left) :
    shown text = if part = [] then Units.ofChars whole else (Units.ofChars whole).push 0xFFFD := by
  have hvalid : validUpTo 0 0 (encodeChars whole ++ part) = (encodeChars whole).length := by
    rw [validUpTo_encodeChars whole hpart, Nat.zero_add]
  have hunits : Units.ofString (decodeLossy (encodeChars whole)) = Units.ofChars whole := by
    rw [decodeLossy, lossyChars_encodeChars, Units.ofString, String.toList_ofList]
  have hwhole : (encodeChars whole).length < (encodeChars whole ++ part).length ↔ part ≠ [] := by
    rw [List.length_append, ← List.length_pos_iff]
    omega
  unfold shown
  simp only [hcut, hvalid, List.take_left, hunits, hwhole, ite_not]

theorem shown_of_fits {text : String} (hnul : '\x00' ∉ text.toList) (hfits : (encode text).length ≤ limit) :
    shown text = Units.ofString text := by
  have hcut : (encode (escaped text)).take limit = encodeChars text.toList ++ [] := by
    rw [escaped_eq hnul, List.take_of_length_le hfits, encode_eq_encodeChars, List.append_nil]
  rw [shown_of_begins hcut (show Begins [] [] from rfl), if_pos rfl]
  rfl

/-- A text that is too long is shown up to the first character that does not fit. -/
theorem shown_of_cut {text : String} (hnul : '\x00' ∉ text.toList) (hlong : limit < (encode text).length) :
    ∃ whole c rest, text.toList = whole ++ c :: rest ∧ (encodeChars whole).length ≤ limit ∧
      limit < (encodeChars whole).length + c.utf8Size ∧
      shown text = if (encodeChars whole).length = limit then Units.ofChars whole
        else (Units.ofChars whole).push 0xFFFD := by
  rw [encode_eq_encodeChars] at hlong
  have hprefix : (encodeChars text.toList).take limit <+: encodeChars text.toList := List.take_prefix _ _
  obtain ⟨whole, left, part, htext, hcut, hpart⟩ := exists_whole_of_prefix hprefix
  have hlength : (encodeChars whole).length + part.length = limit := by
    rw [← List.length_append, ← hcut, List.length_take]
    omega
  have hempty : part = [] ↔ (encodeChars whole).length = limit := by
    rw [← List.length_eq_zero_iff]
    omega
  have hshown : shown text = if part = [] then Units.ofChars whole else (Units.ofChars whole).push 0xFFFD := by
    refine shown_of_begins ?_ hpart
    rw [escaped_eq hnul, encode_eq_encodeChars, hcut]
  cases left with
  | nil =>
    have hnothing : part = [] := hpart
    rw [htext, List.append_nil, hempty.mp hnothing] at hlong
    exact absurd hlong (Nat.lt_irrefl _)
  | cons c rest =>
    have hsize : part.length < c.utf8Size := hpart.2
    refine ⟨whole, c, rest, htext, by omega, by omega, ?_⟩
    simp only [hshown, hempty]

/-- No character has more units than bytes. -/
theorem units_le_utf8Size (c : Char) : (if c.toNat < 0x10000 then 1 else 2) ≤ c.utf8Size := by
  unfold Char.utf8Size
  simp only [UInt32.le_iff_toNat_le]
  change _ ≤ if c.toNat ≤ 127 then 1 else if c.toNat ≤ 2047 then 2 else if c.toNat ≤ 65535 then 3 else 4
  split_ifs <;> omega

theorem size_ofChars_le (cs : List Char) : (Units.ofChars cs).size ≤ (encodeChars cs).length := by
  have hsize := Units.size_ofString (String.ofList cs)
  rw [Units.ofString, String.toList_ofList] at hsize
  rw [hsize]
  clear hsize
  induction cs with
  | nil => exact Nat.le_refl 0
  | cons c cs ih =>
    rw [List.map_cons, List.sum_cons, encodeChars_cons, List.length_append, String.length_utf8EncodeChar]
    exact Nat.add_le_add (units_le_utf8Size c) ih

theorem size_shown_le {text : String} (hnul : '\x00' ∉ text.toList) : (shown text).size ≤ limit := by
  obtain hlong | hfits := Nat.lt_or_ge limit (encode text).length
  · obtain ⟨whole, c, rest, -, hle, -, hshown⟩ := shown_of_cut hnul hlong
    have hsize := size_ofChars_le whole
    rw [hshown]
    split
    · exact hsize.trans hle
    · rw [Array.size_push]
      omega
  · rw [shown_of_fits hnul hfits]
    rw [encode_eq_encodeChars] at hfits
    exact (size_ofChars_le _).trans hfits

theorem shown_ne {text : String} (hnul : '\x00' ∉ text.toList) (hlong : limit < (Units.ofString text).size) :
    shown text ≠ Units.ofString text := by
  intro heq
  have hle := size_shown_le hnul
  rw [heq] at hle
  omega

end HostError

/-! ### What is thrown -/

variable {κ τ : Type} [Holding τ] {respond : Respond κ τ} {env : Env (World κ τ)} {function : FunctionId}
  {call : Call} {code : HostCode κ} {m m' : Engine κ τ}

/-- A function that fails otherwise than with an exception throws a new error. -/
theorem answer_failed {f : Failure} (hmanages : m.host.manages m.realm = true)
    (hcode : m.host.functions[function]? = some code) (hother : ∀ e, f ≠ .thrown e)
    (hfails : (runHolding respond code (.ofCall m.realm function call) : Task Value κ τ _) env
      { m with host := m.host.enterContext m.realm } = .ok (.error f) m') :
    ∃ m'' o, answer respond env function call m = .error (.object m'.objects.size) m'' ∧
      m''.objects[m'.objects.size]? = some (some o) ∧ o.IsError m' .internalError (HostError.shown f.message) := by
  have hconclude : (conclude m.realm (.error f) : Task Value κ τ Conclusion) env m' =
      .ok (.error f.message) { m' with host := m'.host } := by
    cases f with
    | thrown e => exact absurd rfl (hother e)
    | _ => rfl
  obtain ⟨w, hinvoke⟩ := invoke_spec hfails hconclude
  rw [answer_spec hmanages hcode hinvoke]
  obtain ⟨o, m'', hthrow, hget, ho⟩ := Action.throwUnits_spec (α := Value) .internalError
    (HostError.shown f.message) { m' with host := w }
  exact ⟨m'', o, hthrow, hget, ho.payload, ho.prototype, ho.message⟩

/-- A function that refuses with a text throws a new `InternalError`, whatever the engine is doing. The message is the
text if that has at most 255 bytes. Of a longer text the characters are shown that fit as a whole, and a replacement for
the one behind them if a part of it would fit. -/
theorem refused_texts {text : String} (hnul : '\x00' ∉ text.toList) (hmanages : m.host.manages m.realm = true)
    (hcode : m.host.functions[function]? = some code)
    (hfails : (runHolding respond code (.ofCall m.realm function call) : Task Value κ τ _) env
      { m with host := m.host.enterContext m.realm } = .ok (.error (.refused text)) m') :
    ∃ m'' o message, answer respond env function call m = .error (.object m'.objects.size) m'' ∧
      m''.objects[m'.objects.size]? = some (some o) ∧ o.IsError m' .internalError message ∧
      if (encode text).length ≤ 255 then message = Units.ofString text
      else ∃ whole c rest, text.toList = whole ++ c :: rest ∧ (encodeChars whole).length ≤ 255 ∧
        255 < (encodeChars whole).length + c.utf8Size ∧
        message = if (encodeChars whole).length = 255 then Units.ofChars whole
          else (Units.ofChars whole).push 0xFFFD := by
  obtain ⟨m'', o, hanswer, hget, ho⟩ := answer_failed hmanages hcode (fun e heq => by cases heq) hfails
  refine ⟨m'', o, HostError.shown text, hanswer, hget, ho, ?_⟩
  split
  · next hfits => exact HostError.shown_of_fits hnul hfits
  · next hlong => exact HostError.shown_of_cut hnul (Nat.not_le.mp hlong)

/-- A function that refuses with a text. -/
def refusing : Respond String Unit := ⟨fun text _ => throw (.refused text), fun _ _ => .throw _⟩

/-- A program whose only function refuses with a text. -/
def refusingWith (text : String) : Engine String Unit :=
  .start { (World.new .default () : World String Unit) with
    contexts := #[⟨1, 0⟩]
    functions := #[.custom text] }

theorem runHolding_refusing (text : String) (env : Env (World String Unit)) :
    ∃ m', (runHolding refusing (.custom text) (.ofCall (refusingWith text).realm 0 default) : Task Value String Unit _)
      env { refusingWith text with host := (refusingWith text).host.enterContext (refusingWith text).realm } =
        .ok (.error (.refused text)) m' :=
  ⟨_, rfl⟩

theorem short_text_is_shown : ∃ (m m' : Engine String Unit) (o : Object),
    answer refusing (environment refusing .default) 0 default (refusingWith "no such thing") =
      .error (.object m.objects.size) m' ∧
    m'.objects[m.objects.size]? = some (some o) ∧ o.IsError m .internalError (Units.ofString "no such thing") := by
  obtain ⟨m, hfails⟩ := runHolding_refusing "no such thing" (environment refusing .default)
  obtain ⟨m', o, message, hanswer, hget, ho, hmessage⟩ := refused_texts (by decide) rfl rfl hfails
  rw [if_pos (by decide)] at hmessage
  exact ⟨m, m', o, hanswer, hget, hmessage ▸ ho⟩

/-- A message of 300 bytes is not shown as it is. -/
theorem long_text_is_cut : ∃ (m m' : Engine String Unit) (o : Object) (message : Units),
    answer refusing (environment refusing .default) 0 default
      (refusingWith (String.ofList (List.replicate 300 'x'))) = .error (.object m.objects.size) m' ∧
    '\x00' ∉ (String.ofList (List.replicate 300 'x')).toList ∧
    m'.objects[m.objects.size]? = some (some o) ∧ o.IsError m .internalError message ∧
    message ≠ Units.ofString (String.ofList (List.replicate 300 'x')) := by
  have hnul : '\x00' ∉ (String.ofList (List.replicate 300 'x')).toList := by
    rw [String.toList_ofList]
    exact fun hmem => absurd (List.eq_of_mem_replicate hmem) (by decide)
  obtain ⟨m, hfails⟩ := runHolding_refusing (String.ofList (List.replicate 300 'x')) (environment refusing .default)
  obtain ⟨m', o, hanswer, hget, ho⟩ := answer_failed rfl rfl (fun e heq => by cases heq) hfails
  have hlong := Units.size_ofString (String.ofList (List.replicate 300 'x'))
  rw [String.toList_ofList, List.map_replicate, List.sum_replicate_nat, if_pos (by decide)] at hlong
  have hcut : HostError.limit < (Units.ofString (String.ofList (List.replicate 300 'x'))).size := by
    rw [hlong]
    decide
  exact ⟨m, m', o, _, hanswer, hnul, hget, ho, HostError.shown_ne hnul hcut⟩

end PluginRelay.Embedding
