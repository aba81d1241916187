import PluginRelay.Proofs.UnitsRoundTrip

/-!
# Surrogates that stand alone

Whether a surrogate stands alone is a matter of its neighbours: a lead wants a trail behind it, and a trail a lead in
front of it. Units without such surrogates are those that have a text. In all others each of their bytes is replaced,
and the characters around them stay.
-/
namespace PluginRelay.Units

/-- The unit is a surrogate that lacks its other half between what stands before and after it. -/
def IsUnpaired (before : List UInt16) (u : UInt16) (after : List UInt16) : Prop :=
  isLead u = true ∧ (∀ v ∈ after.head?, isTrail v = false) ∨
    isTrail u = true ∧ ∀ v ∈ before.getLast?, isLead v = false

/-- No surrogate stands alone in units that follow others. -/
def PairedAfter (front us : List UInt16) : Prop :=
  ∀ before u after, us = before ++ u :: after → ¬IsUnpaired (front ++ before) u after

/-- No surrogate stands alone. -/
def IsPaired (s : Units) : Prop := PairedAfter [] s.toList

inductive Part where
  | char (c : Char)
  /-- A surrogate that stands alone. -/
  | lone (u : UInt16)

/-- What a lossy reading shows. The three bytes of a surrogate can stand nowhere, so each of them is replaced. -/
def Part.shown : Part → List Char
  | .char c => [c]
  | .lone _ => List.replicate 3 '\uFFFD'

/-- The parts of units that follow others. -/
inductive Divides : List UInt16 → List UInt16 → List Part → Prop
  | nil (front : List UInt16) : Divides front [] []
  | char {front rest : List UInt16} {parts : List Part} (c : Char)
    (h : Divides (front ++ ofCodePoint c.toNat) rest parts) :
    Divides front (ofCodePoint c.toNat ++ rest) (.char c :: parts)
  | lone {front rest : List UInt16} {parts : List Part} {u : UInt16} (hu : IsUnpaired front u rest)
    (h : Divides (front ++ [u]) rest parts) : Divides front (u :: rest) (.lone u :: parts)

/-! ### Surrogates -/

theorem isSurrogate_iff (u : UInt16) : isSurrogate u.toNat = true ↔ isLead u = true ∨ isTrail u = true := by
  rw [isLead_iff, isTrail_iff, isSurrogate, Bool.and_eq_true, decide_eq_true_iff, decide_eq_true_iff]
  omega

theorem isTrail_of_isLead {u : UInt16} (h : isLead u = true) : isTrail u = false := by
  refine Bool.eq_false_iff.mpr fun htrail => ?_
  rw [isLead_iff] at h
  rw [isTrail_iff] at htrail
  omega

theorem isLead_of_isTrail {u : UInt16} (h : isTrail u = true) : isLead u = false := by
  refine Bool.eq_false_iff.mpr fun hlead => ?_
  rw [isTrail_of_isLead hlead] at h
  cases h

theorem ofCodePoint_pair {u v : UInt16} (hlead : isLead u = true) (htrail : isTrail v = true) :
    ofCodePoint (pair u v) = [u, v] := by
  have hone : codePointsOf [u, v] = [pair u v] := codePointsOf_pair hlead htrail []
  have h := flatMap_codePointsOf [u, v]
  rwa [hone, List.flatMap_singleton] at h

theorem isSurrogate_toNat (c : Char) : isSurrogate c.toNat = false := by
  have hvalid : c.toNat < 0xD800 ∨ 0xDFFF < c.toNat ∧ c.toNat < 0x110000 := c.valid
  refine Bool.eq_false_iff.mpr fun h => ?_
  simp only [isSurrogate, Bool.and_eq_true, decide_eq_true_iff] at h
  omega

theorem isSurrogate_pair (u v : UInt16) : isSurrogate (pair u v) = false := by
  refine Bool.eq_false_iff.mpr fun h => ?_
  simp only [isSurrogate, Bool.and_eq_true, decide_eq_true_iff] at h
  unfold pair at h
  omega

/-- A character has one unit that is no surrogate, or both halves of a pair. -/
theorem ofCodePoint_cases (c : Char) :
    (∃ u, ofCodePoint c.toNat = [u] ∧ isLead u = false ∧ isTrail u = false) ∨
      ∃ u v, ofCodePoint c.toNat = [u, v] ∧ isLead u = true ∧ isTrail v = true := by
  have hvalid : c.toNat < 0xD800 ∨ 0xDFFF < c.toNat ∧ c.toNat < 0x110000 := c.valid
  unfold ofCodePoint
  split
  · next hsmall =>
    have hn := toNat_ofNat_lt hsmall
    refine .inl ⟨_, rfl, Bool.eq_false_iff.mpr fun hlead => ?_, Bool.eq_false_iff.mpr fun htrail => ?_⟩
    · rw [isLead_iff, hn] at hlead
      omega
    · rw [isTrail_iff, hn] at htrail
      omega
  · next hlarge =>
    refine .inr ⟨_, _, rfl, ?_, ?_⟩
    · rw [isLead_iff, toNat_ofNat_lt (by omega)]
      omega
    · rw [isTrail_iff, toNat_ofNat_lt (by omega)]
      omega

/-! ### Pairs -/

theorem not_isUnpaired_of_plain {u : UInt16} (hlead : isLead u = false) (htrail : isTrail u = false)
    (before after : List UInt16) : ¬IsUnpaired before u after := by
  rintro (⟨h, -⟩ | ⟨h, -⟩)
  · rw [hlead] at h
    cases h
  · rw [htrail] at h
    cases h

theorem not_isUnpaired_lead {u v : UInt16} (hlead : isLead u = true) (htrail : isTrail v = true)
    (before after : List UInt16) : ¬IsUnpaired before u (v :: after) := by
  rintro (⟨-, h⟩ | ⟨h, -⟩)
  · rw [h v rfl] at htrail
    cases htrail
  · rw [isTrail_of_isLead hlead] at h
    cases h

theorem not_isUnpaired_trail {u v : UInt16} (hlead : isLead u = true) (htrail : isTrail v = true)
    (before after : List UInt16) : ¬IsUnpaired (before ++ [u]) v after := by
  rintro (⟨h, -⟩ | ⟨-, h⟩)
  · rw [isLead_of_isTrail htrail] at h
    cases h
  · rw [h u List.getLast?_concat] at hlead
    cases hlead

theorem pairedAfter_cons (front rest : List UInt16) (u : UInt16) :
    PairedAfter front (u :: rest) ↔ ¬IsUnpaired front u rest ∧ PairedAfter (front ++ [u]) rest := by
  constructor
  · intro h
    refine ⟨?_, fun before v after hrest => ?_⟩
    · have hu := h [] u rest rfl
      rwa [List.append_nil] at hu
    · have hv := h (u :: before) v after (congrArg (u :: ·) hrest)
      rwa [List.append_cons] at hv
  · rintro ⟨hu, hrest⟩ before v after hall
    cases before with
    | nil =>
      obtain ⟨rfl, rfl⟩ := List.cons.inj hall
      rwa [List.append_nil]
    | cons w before =>
      obtain ⟨rfl, htail⟩ := List.cons.inj hall
      rw [List.append_cons]
      exact hrest before v after htail

/-- The units of a character belong together, whatever is around them. -/
theorem pairedAfter_ofCodePoint (c : Char) (front rest : List UInt16) :
    PairedAfter front (ofCodePoint c.toNat ++ rest) ↔ PairedAfter (front ++ ofCodePoint c.toNat) rest := by
  rcases ofCodePoint_cases c with ⟨u, hc, hlead, htrail⟩ | ⟨u, v, hc, hlead, htrail⟩
  · have hu := not_isUnpaired_of_plain hlead htrail front rest
    rw [hc, List.singleton_append, pairedAfter_cons]
    exact and_iff_right hu
  · have hu := not_isUnpaired_lead hlead htrail front rest
    have hv := not_isUnpaired_trail hlead htrail front rest
    rw [hc, List.cons_append, List.singleton_append, pairedAfter_cons, pairedAfter_cons, List.append_assoc,
      and_iff_right hu, and_iff_right hv]
    rfl

/-! ### Parts -/

/-- The part that a number of the scan stands for. -/
def partOf (n : Nat) : Part := if isSurrogate n then .lone (UInt16.ofNat n) else .char (Char.ofNat n)

/-- A lead at the end of some units does not begin a pair with those that follow. -/
def Ends (front rest : List UInt16) : Prop :=
  ∀ u ∈ front.getLast?, isLead u = true → ∀ v ∈ rest.head?, isTrail v = false

theorem ends_concat (front rest : List UInt16) (u : UInt16) :
    Ends (front ++ [u]) rest ↔ (isLead u = true → ∀ v ∈ rest.head?, isTrail v = false) := by
  unfold Ends
  rw [List.getLast?_concat]
  simp

/-- A number that is no surrogate is the part of its units. -/
theorem Divides.plain {front us rest : List UInt16} {parts : List Part} {n : Nat} (hlt : n < 0x110000)
    (hplain : isSurrogate n = false) (hunits : ofCodePoint n = us) (h : Divides (front ++ us) rest parts) :
    Divides front (us ++ rest) (partOf n :: parts) := by
  have hpart : partOf n = .char (Char.ofNat n) := by
    rw [partOf, hplain]
    rfl
  have hchar : ofCodePoint (Char.ofNat n).toNat = us := by rw [toNat_ofNat hlt hplain, hunits]
  rw [← hchar] at h
  rw [hpart, ← hchar]
  exact .char (Char.ofNat n) h

/-- A unit that begins no pair is a part of its own. -/
theorem Divides.single {front rest : List UInt16} {parts : List Part} {u : UInt16} (hfront : Ends front (u :: rest))
    (hrest : Ends (front ++ [u]) rest) (h : Divides (front ++ [u]) rest parts) :
    Divides front (u :: rest) (partOf u.toNat :: parts) := by
  cases hsurrogate : isSurrogate u.toNat with
  | true =>
    have hu : IsUnpaired front u rest := by
      rcases (isSurrogate_iff u).mp hsurrogate with hlead | htrail
      · exact .inl ⟨hlead, (ends_concat front rest u).mp hrest hlead⟩
      · refine .inr ⟨htrail, fun v hv => Bool.eq_false_iff.mpr fun hlead => ?_⟩
        rw [hfront v hv hlead u rfl] at htrail
        cases htrail
    rw [partOf, hsurrogate, UInt16.ofNat_toNat]
    exact .lone hu h
  | false =>
    have hlt : u.toNat < 0x110000 := Nat.lt_trans u.toNat_lt (by decide)
    exact .plain hlt hsurrogate (ofCodePoint_toNat u) h

/-- The scan divides units into their parts. -/
theorem divides_codePointsOf {front us : List UInt16} (h : Ends front us) :
    Divides front us ((codePointsOf us).map partOf) := by
  fun_induction codePointsOf us generalizing front with
  | case1 => exact .nil front
  | case2 u =>
    have hrest : Ends (front ++ [u]) [] := by
      rw [ends_concat]
      intro _ v hv
      cases hv
    exact .single h hrest (.nil _)
  | case3 u v rest hpair ih =>
    obtain ⟨hlead, htrail⟩ := Bool.and_eq_true_iff.mp hpair
    have hmem : pair u v ∈ codePointsOf (u :: v :: rest) := by
      rw [codePointsOf_pair hlead htrail]
      exact List.mem_cons_self
    have hends : Ends (front ++ [u, v]) rest := by
      rw [List.append_cons, ends_concat]
      intro hlead'
      rw [isLead_of_isTrail htrail] at hlead'
      cases hlead'
    exact .plain (codePointsOf_lt _ _ hmem) (isSurrogate_pair u v) (ofCodePoint_pair hlead htrail) (ih hends)
  | case4 u v rest hpair ih =>
    have hends : Ends (front ++ [u]) (v :: rest) := by
      rw [ends_concat]
      rintro hlead w ⟨⟩
      rw [hlead, Bool.true_and, Bool.not_eq_true] at hpair
      exact hpair
    exact .single h hends (ih hends)

/-- No surrogate stands alone if and only if all parts are characters. -/
theorem Divides.pairedAfter_iff {front us : List UInt16} {parts : List Part} (h : Divides front us parts) :
    PairedAfter front us ↔ ∀ part ∈ parts, ∃ c, part = .char c := by
  induction h with
  | nil front =>
    have hpaired : PairedAfter front [] := fun before u after h => by simp at h
    exact iff_of_true hpaired (List.forall_mem_nil _)
  | char c h ih =>
    rw [pairedAfter_ofCodePoint, ih, List.forall_mem_cons]
    exact (and_iff_right ⟨c, rfl⟩).symm
  | lone hu h ih =>
    rw [pairedAfter_cons, List.forall_mem_cons]
    refine iff_of_false (fun hall => hall.1 hu) fun hall => ?_
    obtain ⟨c, hc⟩ := hall.1
    cases hc

theorem codePointsOf_unpaired {front rest : List UInt16} {u : UInt16} (h : IsUnpaired front u rest) :
    codePointsOf (u :: rest) = u.toNat :: codePointsOf rest := by
  rcases h with ⟨-, hnone⟩ | ⟨htrail, -⟩
  · cases rest with
    | nil => rfl
    | cons v rest => rw [codePointsOf, hnone v rfl, Bool.and_false, if_neg Bool.false_ne_true]
  · exact codePointsOf_cons (isLead_of_isTrail htrail) rest

/-- The parts are those that the scan finds, so there is one division only. -/
theorem Divides.eq_map {front us : List UInt16} {parts : List Part} (h : Divides front us parts) :
    parts = (codePointsOf us).map partOf := by
  induction h with
  | nil front => rfl
  | char c h ih =>
    have hpart : partOf c.toNat = .char c := by
      rw [partOf, isSurrogate_toNat, Char.ofNat_toNat]
      rfl
    rw [codePointsOf_ofCodePoint (n := c.toNat) c.valid, List.map_cons, hpart, ih]
  | @lone front rest parts u hu h ih =>
    have hsurrogate : isSurrogate u.toNat = true := (isSurrogate_iff u).mpr (hu.imp And.left And.left)
    have hpart : partOf u.toNat = .lone u := by
      rw [partOf, hsurrogate, UInt16.ofNat_toNat]
      rfl
    rw [codePointsOf_unpaired hu, List.map_cons, hpart, ih]

theorem divides_codePoints (s : Units) : Divides [] s.toList (s.codePoints.map partOf) := by
  refine divides_codePointsOf fun u hu => ?_
  cases hu

theorem isWellFormed_iff (s : Units) : s.isWellFormed = true ↔ s.IsPaired := by
  rw [IsPaired, (divides_codePoints s).pairedAfter_iff, List.forall_mem_map, isWellFormed, List.all_eq_true]
  refine forall₂_congr fun n _ => ?_
  unfold partOf
  cases isSurrogate n with
  | false => exact iff_of_true rfl ⟨_, rfl⟩
  | true =>
    refine iff_of_false Bool.false_ne_true ?_
    rintro ⟨c, hc⟩
    cases hc

/-! ### Bytes -/

theorem codePointBytes_of_plain {n : Nat} (hlt : n < 0x110000) (h : isSurrogate n = false) :
    codePointBytes n = String.utf8EncodeChar (Char.ofNat n) := by
  rw [← codePointBytes_toNat, toNat_ofNat hlt h]

/-- A surrogate has three bytes. The first one is followed only by smaller ones, and the others begin nothing. -/
theorem codePointBytes_of_surrogate {n : Nat} (h : isSurrogate n = true) :
    ∃ b c : UInt8, codePointBytes n = [0xED, b, c] ∧ 0x9F < b.toNat ∧ b.toNat < 0xC0 ∧ 0x80 ≤ c.toNat ∧
      c.toNat < 0xC0 := by
  simp only [isSurrogate, Bool.and_eq_true, decide_eq_true_iff] at h
  have hlead : 0xE0 + n / 4096 = 0xED := by omega
  refine ⟨UInt8.ofNat (0x80 + n / 64 % 64), UInt8.ofNat (0x80 + n % 64), ?_, ?_⟩
  · rw [codePointBytes, if_neg (by omega), if_neg (by omega), if_pos (by omega), hlead]
    rfl
  · rw [UInt8.toNat_ofNat', UInt8.toNat_ofNat']
    omega

theorem lossyChars_of_broken {b : UInt8} {rest : Bytes} (h : Utf8.piece b rest = .broken 1) :
    Utf8.lossyChars 0 (b :: rest) = '�' :: Utf8.lossyChars 0 rest := by
  rw [Utf8.lossyChars, h]
  rfl

theorem piece_of_continuation {b : UInt8} (hlow : 0x80 ≤ b.toNat) (hhigh : b.toNat < 0xC0) (rest : Bytes) :
    Utf8.piece b rest = .broken 1 := by
  have hlead : Utf8.lead? b.toNat = none := if_pos (by omega)
  rw [Utf8.piece, if_neg (by omega), hlead]

theorem piece_of_surrogate {b : UInt8} (h : 0x9F < b.toNat) (rest : Bytes) :
    Utf8.piece 0xED (b :: rest) = .broken 1 := by
  have hpiece : Utf8.piece 0xED (b :: rest) = Utf8.continuation 2 1 0x80 0x9F 13 (b :: rest) := rfl
  rw [hpiece, Utf8.continuation, if_neg (by omega)]

theorem lossyChars_codePointBytes {n : Nat} (hlt : n < 0x110000) (rest : Bytes) :
    Utf8.lossyChars 0 (codePointBytes n ++ rest) = (partOf n).shown ++ Utf8.lossyChars 0 rest := by
  unfold partOf
  cases h : isSurrogate n with
  | true =>
    obtain ⟨b, c, hbytes, hblow, hbhigh, hclow, hchigh⟩ := codePointBytes_of_surrogate h
    have hfirst := lossyChars_of_broken (piece_of_surrogate hblow (c :: rest))
    have hsecond := lossyChars_of_broken (piece_of_continuation (by omega) hbhigh (c :: rest))
    have hthird := lossyChars_of_broken (piece_of_continuation hclow hchigh rest)
    rw [hbytes]
    exact hfirst.trans (congrArg _ (hsecond.trans (congrArg _ hthird)))
  | false =>
    rw [codePointBytes_of_plain hlt h, Utf8.lossyChars_encodeChar]
    rfl

/-- A lossy reading shows the parts one after the other. -/
theorem toStringLossy_of_divides {s : Units} {parts : List Part} (h : Divides [] s.toList parts) :
    s.toStringLossy = String.ofList (parts.flatMap Part.shown) := by
  have hparts : parts = s.codePoints.map partOf := h.eq_map
  have hlt : ∀ n ∈ s.codePoints, n < 0x110000 := codePointsOf_lt s.toList
  rw [toStringLossy, Utf8.decodeLossy, toBytes, hparts]
  refine congrArg String.ofList ?_
  clear hparts h
  generalize s.codePoints = ns at hlt
  induction ns with
  | nil => rfl
  | cons n ns ih =>
    obtain ⟨hn, hns⟩ := List.forall_mem_cons.mp hlt
    rw [List.flatMap_cons, lossyChars_codePointBytes hn, ih hns, List.map_cons, List.flatMap_cons]

/-- The bytes of characters have no surrogates in them. -/
theorem isSurrogate_of_bytes {ns : List Nat} (hlt : ∀ n ∈ ns, n < 0x110000) {cs : List Char}
    (h : ns.flatMap codePointBytes = Utf8.encodeChars cs) : ∀ n ∈ ns, isSurrogate n = false := by
  induction ns generalizing cs with
  | nil => exact List.forall_mem_nil _
  | cons n ns ih =>
    obtain ⟨hn, hns⟩ := List.forall_mem_cons.mp hlt
    rw [List.flatMap_cons] at h
    have hcs : (partOf n).shown ++ Utf8.lossyChars 0 (ns.flatMap codePointBytes) = cs := by
      rw [← lossyChars_codePointBytes hn, h, Utf8.lossyChars_encodeChars]
    cases hsurrogate : isSurrogate n with
    | true =>
      -- The replacement begins with another byte than the surrogate that it stands for.
      obtain ⟨b, c, hbytes, -⟩ := codePointBytes_of_surrogate hsurrogate
      rw [partOf, hsurrogate] at hcs
      have hreplaced : String.utf8EncodeChar '�' = [0xEF, 0xBF, 0xBD] := by decide
      rw [← hcs, hbytes] at h
      change _ = String.utf8EncodeChar '�' ++ _ at h
      rw [hreplaced] at h
      cases h
    | false =>
      rw [partOf, hsurrogate] at hcs
      rw [← hcs, codePointBytes_of_plain hn hsurrogate] at h
      have hrest := List.append_cancel_left h
      exact List.forall_mem_cons.mpr ⟨hsurrogate, ih hns hrest⟩

theorem encode_of_decode? {bytes : Bytes} {text : String} (h : Utf8.decode? bytes = some text) :
    Utf8.encode text = bytes := by
  rw [Utf8.decode?, String.fromUTF8?] at h
  split at h
  · cases h
    exact rfl
  · cases h

/-- Units have a text if and only if they are the units of it. -/
theorem decode?_toBytes (s : Units) (text : String) : Utf8.decode? s.toBytes = some text ↔ ofString text = s := by
  constructor
  · intro h
    have hbytes := encode_of_decode? h
    rw [Utf8.encode_eq_encodeChars] at hbytes
    have hplain := isSurrogate_of_bytes (codePointsOf_lt s.toList) hbytes.symm
    have hwellFormed : s.isWellFormed = true := List.all_eq_true.mpr fun n hn => by
      rw [hplain n hn]
      rfl
    rw [← ofString_toStringLossy hwellFormed]
    refine congrArg ofString ?_
    rw [toStringLossy, ← hbytes, Utf8.decodeLossy, Utf8.lossyChars_encodeChars, String.ofList_toList]
  · rintro rfl
    rw [toBytes_ofString, Utf8.decode?_encode]

theorem exists_ofString_iff (s : Units) : (∃ text, ofString text = s) ↔ s.IsPaired := by
  rw [← isWellFormed_iff]
  constructor
  · rintro ⟨text, rfl⟩
    rw [isWellFormed, ofString, codePoints_ofChars, List.all_eq_true, List.forall_mem_map]
    intro c _
    rw [isSurrogate_toNat]
    rfl
  · intro h
    exact ⟨_, ofString_toStringLossy h⟩

/-- Characters beyond the first 65536 have two units. -/
theorem size_ofString (text : String) :
    (ofString text).size = (text.toList.map fun c => if c.toNat < 0x10000 then 1 else 2).sum := by
  have hone (c : Char) : (ofCodePoint c.toNat).length = if c.toNat < 0x10000 then 1 else 2 := by
    unfold ofCodePoint
    split
    · rfl
    · rfl
  rw [ofString, ofChars, List.size_toArray, List.length_flatMap]
  simp only [hone]

end PluginRelay.Units
