import MoeNG.Contracts.BoundedJson
import MoeNG.Kernel.JsonReading
import MoeNG.Lib.Run
import MoeNG.Store.TextLength

/-!
# Strings of bounded JSON

The scanner accepts exactly the string bodies of the grammar that decode to
well-formed Unicode within the byte limit.
-/

namespace MoeNG.Contracts
open MoeNG.Kernel MoeNG.Lib

/-- The body of a JSON string and the string it stands for. -/
inductive Chars : JsString → JsString → Prop where
  | nil : Chars [] []
  | plain {c : CodeUnit} {s t : JsString} (hlow : 0x20 ≤ c) (hquote : c ≠ 34) (hslash : c ≠ 92) (h : Chars s t) :
    Chars (c :: s) (c :: t)
  | escape {e unit : CodeUnit} {s t : JsString} (he : escapeOf e = some unit) (h : Chars s t) : Chars (92 :: e :: s) (unit :: t)
  | hex {a b c d unit : CodeUnit} {s t : JsString} (hu : hexUnit a b c d = some unit) (h : Chars s t) :
    Chars (92 :: 117 :: a :: b :: c :: d :: s) (unit :: t)

/-! ### Bytes of units -/

theorem utf8_cons_length (c : CodeUnit) (t : JsString) (hc : isSurrogate c = false) :
    (utf8 (c :: t)).length = utf8ByteLength c + (utf8 t).length := by
  have hval : (unitPoint c).val = c.val := by
    rw [unitPoint_eq c hc]
    exact Nat.mod_eq_of_lt (by omega)
  have hbytes : (pointBytes (unitPoint c)).length = utf8ByteLength c := by
    have hlt := c.isLt
    unfold pointBytes utf8ByteLength
    dsimp only
    rw [hval]
    split_ifs <;> first | rfl | omega
  rw [utf8, codePoints_cons c t hc, List.flatMap_cons, List.length_append, hbytes]
  rfl

theorem pair_cons (high low : CodeUnit) (t : JsString) (hh : isHighSurrogate high = true) (hl : isLowSurrogate low = true) :
    wellFormed (high :: low :: t) = wellFormed t ∧ (utf8 (high :: low :: t)).length = 4 + (utf8 t).length := by
  have hpair : (isHighSurrogate high && isLowSurrogate low) = true := by rw [hh, hl]; rfl
  refine ⟨by rw [wellFormed, if_pos hpair], ?_⟩
  rw [utf8, codePoints, if_pos hpair, List.flatMap_cons, List.length_append, Store.pointBytes_length_pairPoint high low hh hl]
  rfl

theorem isSurrogate_low (c : CodeUnit) (h : isLowSurrogate c = true) : isSurrogate c = true := by
  rw [isSurrogate, h, Bool.or_true]

theorem isSurrogate_of_neither (c : CodeUnit) (hh : isHighSurrogate c = false) (hl : isLowSurrogate c = false) :
    isSurrogate c = false := by rw [isSurrogate, hh, hl]; rfl

/-! ### Escapes (`bounded-json-string.ts:71-112`) -/

theorem escapeOf_ascii (e unit : CodeUnit) (h : escapeOf e = some unit) : unit.val < 0x80 := by
  unfold escapeOf at h
  split_ifs at h with h1
  · obtain rfl := Option.some.inj h
    rcases h1 with rfl | rfl | rfl <;> decide
  all_goals
    obtain rfl := Option.some.inj h
    decide

theorem readHexCodeUnit_some (s : JsString) (unit : CodeUnit) (rest : JsString) (h : readHexCodeUnit s = some (unit, rest)) :
    ∃ a b c d, s = a :: b :: c :: d :: rest ∧ hexUnit a b c d = some unit := by
  unfold readHexCodeUnit at h
  split at h
  · rename_i a b c d tail
    obtain ⟨found, hfound, heq⟩ := Option.map_eq_some_iff.mp h
    obtain ⟨rfl, rfl⟩ := Prod.mk.inj heq
    exact ⟨a, b, c, d, rfl, hfound⟩
  · cases h

/-- What a scanned escape adds to a string. -/
structure Escaped (source units : JsString) (byteLength : ℕ) : Prop where
  chars : ∀ s t, Chars s t → Chars (92 :: source ++ s) (units ++ t)
  wellFormed : ∀ t, wellFormed (units ++ t) = wellFormed t
  length : ∀ t, (utf8 (units ++ t)).length = byteLength + (utf8 t).length

theorem scanEscape_sound (s units rest : JsString) (byteLength : ℕ) (h : scanEscape s = .ok (units, byteLength, rest)) :
    ∃ source, s = source ++ rest ∧ Escaped source units byteLength := by
  cases s with
  | nil => cases h
  | cons e tail =>
    unfold scanEscape at h
    cases hsimple : escapeOf e with
    | some simple =>
      simp only [hsimple, Except.ok.injEq, Prod.mk.injEq] at h
      obtain ⟨rfl, rfl, rfl⟩ := h
      have hascii := escapeOf_ascii e simple hsimple
      have hplain := isSurrogate_of_lt simple (by omega)
      have hone : utf8ByteLength simple = 1 := if_pos (by omega)
      refine ⟨[e], rfl, fun s t hs => hs.escape hsimple, fun t => wellFormed_cons simple t hplain, fun t => ?_⟩
      rw [List.singleton_append, utf8_cons_length simple t hplain, hone]
    | none =>
      simp only [hsimple] at h
      split_ifs at h with hu
      obtain rfl : e = 117 := not_not.mp hu
      cases hhex : readHexCodeUnit tail with
      | none => simp [hhex] at h
      | some found =>
        obtain ⟨high, after⟩ := found
        obtain ⟨a, b, c, d, rfl, hunit⟩ := readHexCodeUnit_some tail high after hhex
        simp only [hhex] at h
        split_ifs at h with hlow hhigh
        · simp only [Except.ok.injEq, Prod.mk.injEq] at h
          obtain ⟨rfl, rfl, rfl⟩ := h
          have hplain := isSurrogate_of_neither high (by simpa using hhigh) (by simpa using hlow)
          exact ⟨[117, a, b, c, d], rfl, fun s t hs => hs.hex hunit, fun t => wellFormed_cons high t hplain,
            fun t => utf8_cons_length high t hplain⟩
        · have hhigh' : isHighSurrogate high = true := by simpa using hhigh
          split at h
          · rename_i tail
            cases hhex' : readHexCodeUnit tail with
            | none => simp [hhex'] at h
            | some found =>
              obtain ⟨low, after⟩ := found
              obtain ⟨a', b', c', d', rfl, hunit'⟩ := readHexCodeUnit_some tail low after hhex'
              simp only [hhex'] at h
              split_ifs at h with hlow'
              simp only [Except.ok.injEq, Prod.mk.injEq] at h
              obtain ⟨rfl, rfl, rfl⟩ := h
              have hpair (t : JsString) := pair_cons high low t hhigh' (by simpa using hlow')
              exact ⟨[117, a, b, c, d, 92, 117, a', b', c', d'], rfl, fun s t hs => (hs.hex hunit').hex hunit,
                fun t => (hpair t).1, fun t => (hpair t).2⟩
          · cases h

/-! ### The scanner (`bounded-json-string.ts:114-161`) -/

theorem scanUnits_sound (fuel decodedBytes : ℕ) (s t rest : JsString) (hbytes : decodedBytes ≤ maxJsonStringUtf8Bytes)
    (h : scanUnits fuel decodedBytes s = .ok (t, rest)) :
    ∃ body, s = body ++ 34 :: rest ∧ Chars body t ∧ wellFormed t = true
      ∧ decodedBytes + (utf8 t).length ≤ maxJsonStringUtf8Bytes := by
  induction fuel generalizing decodedBytes s t rest with
  | zero => cases h
  | succ fuel ih =>
    cases s with
    | nil => cases h
    | cons c tail =>
      unfold scanUnits at h
      split_ifs at h with hquote hslash hlow hhigh hnext hlimit hlone hlimit
      · simp only [Except.ok.injEq, Prod.mk.injEq] at h
        obtain ⟨rfl, rfl⟩ := h
        exact ⟨[], by rw [hquote]; rfl, Chars.nil, rfl, hbytes⟩
      · obtain ⟨⟨units, byteLength, after⟩, hescape, h⟩ := except_bind_ok _ _ _ h
        obtain ⟨hlimit, h⟩ := (ite_error_ok_iff _ _ _ _).mp h
        obtain ⟨⟨t', rest'⟩, hrest, heq⟩ := except_map_ok _ _ _ h
        obtain ⟨rfl, rfl⟩ : t = units ++ t' ∧ rest = rest' := Prod.mk.inj heq
        obtain ⟨source, rfl, hescaped⟩ := scanEscape_sound tail units after byteLength hescape
        obtain ⟨body, rfl, hchars, hwell, hlength⟩ := ih _ _ _ _ (not_lt.mp hlimit) hrest
        refine ⟨92 :: source ++ body, ?_, hescaped.chars body t' hchars, ?_, ?_⟩
        · rw [hslash, List.append_assoc]
          rfl
        · rw [hescaped.wellFormed]
          exact hwell
        · rw [hescaped.length]
          omega
      · obtain ⟨⟨t', rest'⟩, hrest, heq⟩ := except_map_ok _ _ _ h
        obtain ⟨rfl, rfl⟩ : t = c :: tail.take 1 ++ t' ∧ rest = rest' := Prod.mk.inj heq
        obtain ⟨body, hsplit, hchars, hwell, hlength⟩ := ih _ _ _ _ (not_lt.mp hlimit) hrest
        cases tail with
        | nil => simp at hsplit
        | cons low tail =>
          have hlowUnit : isLowSurrogate low = true := by simpa using hnext
          obtain ⟨hpairWell, hpairLength⟩ := pair_cons c low t' hhigh hlowUnit
          have hval := (isSurrogate_iff low).mp (isSurrogate_low low hlowUnit)
          obtain rfl : tail = body ++ 34 :: rest := hsplit
          refine ⟨c :: low :: body, rfl, Chars.plain (not_lt.mp hlow) hquote hslash (Chars.plain ?_ ?_ ?_ hchars), ?_, ?_⟩
          · rw [Fin.le_def]
            show 32 ≤ low.val
            omega
          · rintro rfl
            exact absurd hval.1 (by decide)
          · rintro rfl
            exact absurd hval.1 (by decide)
          · show wellFormed (c :: low :: t') = true
            rw [hpairWell]
            exact hwell
          · show decodedBytes + (utf8 (c :: low :: t')).length ≤ _
            rw [hpairLength]
            omega
      · obtain ⟨⟨t', rest'⟩, hrest, heq⟩ := except_map_ok _ _ _ h
        obtain ⟨rfl, rfl⟩ : t = c :: t' ∧ rest = rest' := Prod.mk.inj heq
        obtain ⟨body, rfl, hchars, hwell, hlength⟩ := ih _ _ _ _ (not_lt.mp hlimit) hrest
        have hplain := isSurrogate_of_neither c (by simpa using hhigh) (by simpa using hlone)
        refine ⟨c :: body, rfl, Chars.plain (not_lt.mp hlow) hquote hslash hchars, ?_, ?_⟩
        · rw [wellFormed_cons c t' hplain]
          exact hwell
        · rw [utf8_cons_length c t' hplain]
          omega

theorem wellFormed_surrogate (c : CodeUnit) (s : JsString) (hc : isSurrogate c = true) (h : wellFormed (c :: s) = true) :
    ∃ low rest, s = low :: rest ∧ isHighSurrogate c = true ∧ isLowSurrogate low = true ∧ wellFormed rest = true := by
  cases s with
  | nil => simp [wellFormed, hc] at h
  | cons low rest =>
    unfold wellFormed at h
    split at h
    · rename_i hpair
      obtain ⟨hhigh, hlow⟩ := Bool.and_eq_true_iff.mp hpair
      exact ⟨low, rest, rfl, hhigh, hlow, h⟩
    · simp [hc] at h

theorem wellFormed_ascii (s t : JsString) (hs : ∀ c ∈ s, c.val < 0x80) : wellFormed (s ++ t) = wellFormed t := by
  induction s with
  | nil => rfl
  | cons c rest ih =>
    obtain ⟨hc, hrest⟩ := List.forall_mem_cons.mp hs
    rw [List.cons_append, wellFormed_cons c _ (isSurrogate_of_lt c (by omega)), ih hrest]

theorem hexOf_ascii (c : CodeUnit) (n : ℕ) (h : hexOf c = some n) : c.val < 0x80 := by
  unfold hexOf at h
  simp only [Fin.le_def] at h
  split_ifs at h with h1 h2 h3
  · exact h1.2.trans_lt (by decide)
  · exact h2.2.trans_lt (by decide)
  · exact h3.2.trans_lt (by decide)

theorem hexUnit_ascii (a b c d unit : CodeUnit) (h : hexUnit a b c d = some unit) : ∀ x ∈ [92, 117, a, b, c, d],
    x.val < 0x80 := by
  simp only [hexUnit, ↓bind_some_iff] at h
  obtain ⟨_, ha, _, hb, _, hc, _, hd, -⟩ := h
  simp only [List.forall_mem_cons, hexOf_ascii _ _ ha, hexOf_ascii _ _ hb, hexOf_ascii _ _ hc, hexOf_ascii _ _ hd, true_and]
  exact ⟨by decide, by decide, nofun⟩

theorem escapeOf_source_ascii (e unit : CodeUnit) (h : escapeOf e = some unit) : ∀ x ∈ [92, e], x.val < 0x80 := by
  have he : e.val < 0x80 := by
    unfold escapeOf at h
    split_ifs at h with h1 h2 h3 h4 h5 h6
    · rcases h1 with rfl | rfl | rfl <;> decide
    all_goals
      subst e
      decide
  simp only [List.forall_mem_cons, he, true_and]
  exact ⟨by decide, nofun⟩

theorem not_high_of_low (c : CodeUnit) (h : isLowSurrogate c = true) : isHighSurrogate c = false := by
  simp only [isLowSurrogate, decide_eq_true_eq, Fin.le_def] at h
  simp only [isHighSurrogate, decide_eq_false_iff_not, not_and, Fin.le_def]
  intro _ hle
  have hlow : 0xDC00 ≤ c.val := h.1
  have hhigh : c.val ≤ 0xDBFF := hle
  omega

theorem wellFormed_low (c : CodeUnit) (s : JsString) (hc : isLowSurrogate c = true) : wellFormed (c :: s) = false := by
  by_contra h
  obtain ⟨_, _, -, hhigh, -, -⟩ := wellFormed_surrogate c s (isSurrogate_low c hc) (by simpa using h)
  rw [not_high_of_low c hc] at hhigh
  cases hhigh

theorem scanEscape_hex_eq (a b c d unit : CodeUnit) (s : JsString) (hu : hexUnit a b c d = some unit) :
    scanEscape (117 :: a :: b :: c :: d :: s) =
      if isLowSurrogate unit then .error .JSON_UNICODE_INVALID
      else if !isHighSurrogate unit then .ok ([unit], utf8ByteLength unit, s)
      else match s with
        | 92 :: 117 :: rest =>
          match readHexCodeUnit rest with
          | none => .error .JSON_SYNTAX_INVALID
          | some (low, rest) => if !isLowSurrogate low then .error .JSON_UNICODE_INVALID else .ok ([unit, low], 4, rest)
        | _ => .error .JSON_UNICODE_INVALID := by
  have h117 : escapeOf 117 = none := by decide
  have hread : readHexCodeUnit (a :: b :: c :: d :: s) = some (unit, s) := by simp [readHexCodeUnit, hu]
  simp only [scanEscape, h117, hread]
  rfl

/-- An escape is scanned when what it adds leaves the string well formed. -/
theorem scanEscape_hex (a b c d unit : CodeUnit) (s t rest : JsString) (hu : hexUnit a b c d = some unit) (hchars : Chars s t)
    (hwell : wellFormed (unit :: t) = true) (htext : wellFormed (s ++ 34 :: rest) = true) :
    ∃ units s' t' byteLength, scanEscape (117 :: a :: b :: c :: d :: (s ++ 34 :: rest))
      = .ok (units, byteLength, s' ++ 34 :: rest)
      ∧ unit :: t = units ++ t' ∧ Chars s' t' ∧ wellFormed t' = true ∧ wellFormed (s' ++ 34 :: rest) = true
      ∧ s'.length ≤ s.length ∧ (utf8 (unit :: t)).length = byteLength + (utf8 t').length := by
  rw [scanEscape_hex_eq a b c d unit _ hu]
  cases hsurrogate : isSurrogate unit with
  | false =>
    have hneither : isHighSurrogate unit = false ∧ isLowSurrogate unit = false := by
      simpa [isSurrogate] using hsurrogate
    refine ⟨[unit], s, t, utf8ByteLength unit, ?_, rfl, hchars, ?_, htext, le_refl _, utf8_cons_length unit t hsurrogate⟩
    · simp [hneither]
    · rwa [wellFormed_cons unit t hsurrogate] at hwell
  | true =>
    obtain ⟨low, t', rfl, hhigh, hlow, hwell'⟩ := wellFormed_surrogate unit t hsurrogate hwell
    have hnotLow : isLowSurrogate unit = false := by
      by_contra h
      rw [not_high_of_low unit (by simpa using h)] at hhigh
      cases hhigh
    cases hchars with
    | plain _ _ _ h =>
      rw [List.cons_append, wellFormed_low low _ hlow] at htext
      cases htext
    | escape he h =>
      have hascii := escapeOf_ascii _ _ he
      have hval := (isSurrogate_iff low).mp (isSurrogate_low low hlow)
      omega
    | @hex a' b' c' d' _ s' _ hu' h =>
      have hread : readHexCodeUnit (a' :: b' :: c' :: d' :: (s' ++ 34 :: rest)) = some (low, s' ++ 34 :: rest) := by
        simp [readHexCodeUnit, hu']
      refine ⟨[unit, low], s', t', 4, ?_, rfl, h, hwell', ?_, by simp only [List.length_cons]; omega,
        (pair_cons unit low t' hhigh hlow).2⟩
      · simp only [List.cons_append, hread]
        simp [hnotLow, hhigh, hlow]
      · exact (wellFormed_ascii [92, 117, a', b', c', d'] _ (hexUnit_ascii _ _ _ _ _ hu')).symm.trans htext

theorem scanUnits_escape (fuel decodedBytes : ℕ) (s units t rest after : JsString) (byteLength : ℕ)
    (hscan : scanEscape s = .ok (units, byteLength, after)) (hlimit : decodedBytes + byteLength ≤ maxJsonStringUtf8Bytes)
    (hrest : scanUnits fuel (decodedBytes + byteLength) after = .ok (t, rest)) :
    scanUnits (fuel + 1) decodedBytes (92 :: s) = .ok (units ++ t, rest) := by
  rw [scanUnits, if_neg (by decide), if_pos rfl, hscan]
  show (if _ then _ else _) = _
  rw [if_neg (not_lt.mpr hlimit), hrest]
  rfl

theorem scanUnits_complete (fuel decodedBytes : ℕ) (body t rest : JsString) (hchars : Chars body t) (hwell : wellFormed t = true)
    (htext : wellFormed (body ++ 34 :: rest) = true) (hlength : decodedBytes + (utf8 t).length ≤ maxJsonStringUtf8Bytes)
    (hfuel : body.length < fuel) : scanUnits fuel decodedBytes (body ++ 34 :: rest) = .ok (t, rest) := by
  induction fuel generalizing decodedBytes body t with
  | zero => cases hfuel
  | succ fuel ih =>
    cases hchars with
    | nil => rfl
    | @plain c s t hlow hquote hslash h =>
      rw [List.cons_append] at htext ⊢
      rw [scanUnits, if_neg hquote, if_neg hslash, if_neg (not_lt.mpr hlow)]
      cases hsurrogate : isSurrogate c with
      | false =>
        have hneither : isHighSurrogate c = false ∧ isLowSurrogate c = false := by simpa [isSurrogate] using hsurrogate
        rw [wellFormed_cons c _ hsurrogate] at htext hwell
        rw [utf8_cons_length c t hsurrogate] at hlength
        have hrest := ih (decodedBytes + utf8ByteLength c) s t h hwell htext (by omega) (Nat.lt_of_succ_lt_succ hfuel)
        rw [if_neg (by simp [hneither.1]), if_neg (by simp [hneither.2]), if_neg (by omega), hrest]
        rfl
      | true =>
        -- the next unit of the text is the low half, so it is the next unit of the string as well
        obtain ⟨low, tail, hsplit, hhigh, hlowUnit, htail⟩ := wellFormed_surrogate c _ hsurrogate htext
        have hval := (isSurrogate_iff low).mp (isSurrogate_low low hlowUnit)
        cases h with
        | nil =>
          obtain rfl := (List.cons.inj hsplit).1
          exact absurd hval.1 (by decide)
        | escape he h =>
          obtain rfl := (List.cons.inj hsplit).1
          exact absurd hval.1 (by decide)
        | hex hu h =>
          obtain rfl := (List.cons.inj hsplit).1
          exact absurd hval.1 (by decide)
        | @plain d s t _ _ _ h =>
          obtain ⟨rfl, rfl⟩ := List.cons.inj hsplit
          obtain ⟨hpairWell, hpairLength⟩ := pair_cons c d t hhigh hlowUnit
          rw [hpairWell] at hwell
          rw [hpairLength] at hlength
          simp only [List.length_cons] at hfuel
          have hrest := ih (decodedBytes + 4) s t h hwell htail (by omega) (by omega)
          rw [if_pos hhigh, if_neg (by simp [hlowUnit]), if_neg (by omega)]
          show (scanUnits fuel (decodedBytes + 4) (s ++ 34 :: rest)).map _ = _
          rw [hrest]
          rfl
    | @escape e unit s t he h =>
      have hascii := escapeOf_ascii e unit he
      have hplain := isSurrogate_of_lt unit (by omega)
      have hone : utf8ByteLength unit = 1 := if_pos (by omega)
      have hafter : wellFormed (s ++ 34 :: rest) = true :=
        (wellFormed_ascii [92, e] _ (escapeOf_source_ascii e unit he)).symm.trans htext
      rw [wellFormed_cons unit t hplain] at hwell
      rw [utf8_cons_length unit t hplain, hone] at hlength
      simp only [List.length_cons] at hfuel
      have hrest := ih (decodedBytes + 1) s t h hwell hafter (by omega) (by omega)
      refine scanUnits_escape fuel decodedBytes _ [unit] t rest (s ++ 34 :: rest) 1 ?_ (by omega) hrest
      simp [scanEscape, he]
    | @hex a b c d unit s t hu h =>
      have hafter : wellFormed (s ++ 34 :: rest) = true :=
        (wellFormed_ascii [92, 117, a, b, c, d] _ (hexUnit_ascii _ _ _ _ _ hu)).symm.trans htext
      obtain ⟨units, s', t', byteLength, hscan, hunits, hchars', hwell', htext', hshort, hbytes⟩ :=
        scanEscape_hex a b c d unit s t rest hu h hwell hafter
      simp only [List.length_cons] at hfuel
      have hrest := ih (decodedBytes + byteLength) s' t' hchars' hwell' htext' (by omega) (by omega)
      rw [hunits]
      exact scanUnits_escape fuel decodedBytes _ units t' rest _ byteLength hscan (by omega) hrest

theorem scanBoundedJsonString_sound (s t rest : JsString) (h : scanBoundedJsonString s = .ok (t, rest)) :
    ∃ body, s = body ++ 34 :: rest ∧ Chars body t ∧ wellFormed t = true ∧ (utf8 t).length ≤ maxJsonStringUtf8Bytes := by
  obtain ⟨body, hsplit, hchars, hwell, hlength⟩ := scanUnits_sound _ 0 s t rest (Nat.zero_le _) h
  exact ⟨body, hsplit, hchars, hwell, by omega⟩

theorem scanBoundedJsonString_complete (body t rest : JsString) (hchars : Chars body t) (hwell : wellFormed t = true)
    (htext : wellFormed (body ++ 34 :: rest) = true) (hlength : (utf8 t).length ≤ maxJsonStringUtf8Bytes) :
    scanBoundedJsonString (body ++ 34 :: rest) = .ok (t, rest) := by
  refine scanUnits_complete _ 0 body t rest hchars hwell htext (by omega) ?_
  rw [List.length_append]
  omega

end MoeNG.Contracts
