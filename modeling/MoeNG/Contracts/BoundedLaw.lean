import MoeNG.Contracts.BoundedParse

/-!
# The bounded decoder accepts exactly its grammar

Bytes are decoded when they are the encoding of a text that spells a value
within the limits, no key twice in one of its objects, and are no longer than a
body. A key met twice is told of only when nothing else is wrong.
-/

namespace MoeNG.Contracts
open MoeNG.Kernel MoeNG.Lib MoeNG.Kernel.Json

variable {N : Type} (number : JsString → Option N)

/-! ### Texts -/

/-- A text of one value within the limits, with blanks around it. -/
def SpellsText (v : Json N) (s : JsString) : Prop :=
  ∃ before text after, Blank before ∧ Spells number v text ∧ Blank after ∧ Fits 0 v ∧ s = before ++ (text ++ after)

theorem parseBoundedJsonText_ok (s : JsString) (v : Json N) (h : parseBoundedJsonText number s = .ok v) :
    SpellsText number v s ∧ KeysDistinct v := by
  unfold parseBoundedJsonText at h
  obtain ⟨⟨w, found, rest⟩, hread, h⟩ := except_bind_ok _ _ _ h
  obtain ⟨hblank, h⟩ := (ite_error_ok_iff _ _ _ _).mp h
  obtain ⟨hfound, h⟩ := (ite_error_ok_iff _ _ _ _).mp h
  obtain rfl : w = v := Except.ok.inj h
  obtain ⟨v, text, hv⟩ := (parse_sound (2 * s.length)).value 0 _ w found rest (Nat.zero_le _) hread
  obtain ⟨before, hbefore, hs⟩ := skipSpace_split s
  obtain ⟨after, hafter, hrest⟩ := skipSpace_split rest
  have htold := hv.told
  rw [Told, if_neg hfound] at htold
  obtain ⟨rfl, hkeys⟩ := htold
  refine ⟨⟨before, text, after, hbefore, hv.spells, hafter, hv.fits, ?_⟩, hkeys⟩
  rw [not_not.mp hblank, List.append_nil] at hrest
  rw [← hrest, ← hv.split]
  exact hs

theorem Blank.skip {s : JsString} (h : Blank s) : skipSpace s = [] := List.dropWhile_eq_nil_iff.mpr h

theorem parseBoundedJsonText_spelled (s : JsString) (v : Json N) (h : SpellsText number v s) (hkeys : KeysDistinct v)
    (hwell : wellFormed s = true) : parseBoundedJsonText number s = .ok v := by
  obtain ⟨before, text, after, hbefore, hv, hafter, hfits, rfl⟩ := h
  rw [hbefore.wellFormed] at hwell
  have hread := (parse_complete (2 * (before ++ (text ++ after)).length)).value 0 v text after hv hfits hkeys hwell hafter.ends
    (by simp only [List.length_append]; omega)
  unfold parseBoundedJsonText
  rw [hv.skipSpace before after hbefore, hread, Except.bind]
  dsimp only
  rw [hafter.skip, if_neg (not_not.mpr rfl), if_neg (by decide)]

/-! ### Refusals of a key met twice -/

/-- Whatever went wrong, it was no key met twice. -/
def Otherwise {A : Type} (result : Except BoundedJsonErrorCode A) : Prop := result ≠ .error .JSON_DUPLICATE_KEY

theorem otherwise_ok {A : Type} (a : A) : Otherwise (.ok a) := nofun

theorem Otherwise.bind {A B : Type} {result : Except BoundedJsonErrorCode A} {f : A → Except BoundedJsonErrorCode B}
    (h : Otherwise result) (hf : ∀ a, Otherwise (f a)) : Otherwise (result.bind f) := by
  cases result with
  | error e => exact fun he => h (congrArg Except.error (Except.error.inj he))
  | ok a => exact hf a

theorem Otherwise.map {A B : Type} {result : Except BoundedJsonErrorCode A} {f : A → B} (h : Otherwise result) :
    Otherwise (result.map f) := by
  cases result with
  | error e => exact fun he => h (congrArg Except.error (Except.error.inj he))
  | ok a => exact otherwise_ok _

theorem scanEscape_otherwise (s : JsString) : Otherwise (scanEscape s) := by
  unfold scanEscape
  repeat' split
  all_goals exact nofun

theorem scanUnits_otherwise (fuel decodedBytes : ℕ) (s : JsString) : Otherwise (scanUnits fuel decodedBytes s) := by
  induction fuel generalizing decodedBytes s with
  | zero => rintro ⟨⟩
  | succ fuel ih =>
    cases s with
    | nil => rintro ⟨⟩
    | cons c rest =>
      unfold scanUnits
      split_ifs
      · exact otherwise_ok _
      · refine (scanEscape_otherwise rest).bind fun p => ?_
        dsimp only
        split
        · rintro ⟨⟩
        · exact (ih _ _).map
      · rintro ⟨⟩
      · rintro ⟨⟩
      · rintro ⟨⟩
      · exact (ih _ _).map
      · rintro ⟨⟩
      · rintro ⟨⟩
      · exact (ih _ _).map

theorem parseLiteral_otherwise (source : String) (value : Json N) (s : JsString) : Otherwise (parseLiteral source value s) := by
  unfold parseLiteral
  split <;> exact nofun

theorem parseNumber_otherwise (s : JsString) : Otherwise (parseNumber number s) := by
  unfold parseNumber
  repeat' split
  all_goals exact nofun

theorem parse_otherwise (fuel : ℕ) :
    (∀ depth s, Otherwise (parseValue number fuel depth s)) ∧ (∀ depth s, Otherwise (parseItems number fuel depth s))
      ∧ ∀ depth keys s, Otherwise (parseEntries number fuel depth keys s) := by
  induction fuel with
  | zero => exact ⟨fun _ _ h => (by cases h), fun _ _ h => (by cases h), fun _ _ _ h => (by cases h)⟩
  | succ fuel ih =>
    obtain ⟨hvalue, hitems, hentries⟩ := ih
    refine ⟨fun depth s => ?_, fun depth s => ?_, fun depth keys s => ?_⟩
    · cases s with
      | nil => rintro ⟨⟩
      | cons c rest =>
        unfold parseValue
        split_ifs
        · exact (scanUnits_otherwise _ _ _).map
        · rintro ⟨⟩
        · split
          · rintro ⟨⟩
          · exact (hitems _ _).map
        · rintro ⟨⟩
        · split
          · rintro ⟨⟩
          · exact (hentries _ _ _).map
        · exact parseLiteral_otherwise _ _ _
        · exact parseLiteral_otherwise _ _ _
        · exact parseLiteral_otherwise _ _ _
        · exact parseNumber_otherwise number _
        · rintro ⟨⟩
    · unfold parseItems
      refine (hvalue _ _).bind fun p => ?_
      dsimp only
      split
      · rintro ⟨⟩
      · exact (hitems _ _).map
      · rintro ⟨⟩
    · unfold parseEntries
      split
      · refine Otherwise.bind (scanUnits_otherwise _ _ _) fun p => ?_
        dsimp only
        split
        · refine (hvalue _ _).bind fun q => ?_
          split
          · rintro ⟨⟩
          · exact (hentries _ _ _).map
          · rintro ⟨⟩
        · rintro ⟨⟩
      · rintro ⟨⟩

theorem parseBoundedJsonText_duplicate (s : JsString) (h : parseBoundedJsonText number s = .error .JSON_DUPLICATE_KEY) :
    ∃ v, SpellsText number v s ∧ ¬ KeysDistinct v := by
  unfold parseBoundedJsonText at h
  cases hread : parseValue number (2 * s.length) 0 (skipSpace s) with
  | error e =>
    rw [hread] at h
    obtain rfl : e = .JSON_DUPLICATE_KEY := Except.error.inj h
    exact absurd hread ((parse_otherwise number _).1 0 _)
  | ok p =>
    obtain ⟨w, found, rest⟩ := p
    rw [hread, Except.bind] at h
    dsimp only at h
    have hblank : skipSpace rest = [] := by
      by_contra hne
      rw [if_pos hne] at h
      cases h
    have hfound : found = true := by
      by_contra hne
      rw [if_neg (not_not.mpr hblank), if_neg hne] at h
      cases h
    obtain ⟨v, text, hv⟩ := (parse_sound (2 * s.length)).value 0 _ w found rest (Nat.zero_le _) hread
    obtain ⟨before, hbefore, hs⟩ := skipSpace_split s
    obtain ⟨after, hafter, hrest⟩ := skipSpace_split rest
    have htold := hv.told
    rw [Told, if_pos hfound] at htold
    refine ⟨v, ⟨before, text, after, hbefore, hv.spells, hafter, hv.fits, ?_⟩, htold⟩
    rw [hblank, List.append_nil] at hrest
    rw [← hrest, ← hv.split]
    exact hs

/-! ### Bytes -/

/-- Well-formed UTF-8 of a text of one value within the limits. -/
def SpellsBytes (v : Json N) (bytes : List Byte) : Prop := ∃ s, wellFormed s = true ∧ utf8 s = bytes ∧ SpellsText number v s

/-- What the decoder accepts, and when it tells of a key met twice. -/
structure AcceptsGrammar : Prop where
  ok_iff : ∀ bytes v, decodeBoundedJsonBytes number bytes = .ok v ↔
    bytes.length ≤ maxJsonBodyBytes ∧ SpellsBytes number v bytes ∧ KeysDistinct v
  duplicate : ∀ bytes, decodeBoundedJsonBytes number bytes = .error .JSON_DUPLICATE_KEY →
    ∃ v, SpellsBytes number v bytes ∧ ¬ KeysDistinct v

theorem decodeBoundedJsonBytes_ok_iff (bytes : List Byte) (v : Json N) :
    decodeBoundedJsonBytes number bytes = .ok v ↔
      bytes.length ≤ maxJsonBodyBytes ∧ SpellsBytes number v bytes ∧ KeysDistinct v := by
  unfold decodeBoundedJsonBytes
  constructor
  · intro h
    obtain ⟨hlength, h⟩ := (ite_error_ok_iff _ _ _ _).mp h
    split at h
    · cases h
    · rename_i s hdecode
      obtain ⟨hwell, hbytes⟩ := (decodeText_eq_some_iff bytes s).mp hdecode
      obtain ⟨htext, hkeys⟩ := parseBoundedJsonText_ok number s v h
      exact ⟨not_lt.mp hlength, ⟨s, hwell, hbytes, htext⟩, hkeys⟩
  · rintro ⟨hlength, ⟨s, hwell, hbytes, htext⟩, hkeys⟩
    rw [if_neg (not_lt.mpr hlength), (decodeText_eq_some_iff bytes s).mpr ⟨hwell, hbytes⟩]
    exact parseBoundedJsonText_spelled number s v htext hkeys hwell

theorem decodeBoundedJsonBytes_duplicate (bytes : List Byte)
    (h : decodeBoundedJsonBytes number bytes = .error .JSON_DUPLICATE_KEY) : ∃ v, SpellsBytes number v bytes
      ∧ ¬ KeysDistinct v := by
  unfold decodeBoundedJsonBytes at h
  split at h
  · cases h
  split at h
  · cases h
  · rename_i s hdecode
    obtain ⟨hwell, hbytes⟩ := (decodeText_eq_some_iff bytes s).mp hdecode
    obtain ⟨v, htext, hkeys⟩ := parseBoundedJsonText_duplicate number s h
    exact ⟨v, ⟨s, hwell, hbytes, htext⟩, hkeys⟩

theorem decoder_accepts_grammar : ∀ {N : Type} (number : JsString → Option N), AcceptsGrammar number := fun number =>
  ⟨decodeBoundedJsonBytes_ok_iff number, decodeBoundedJsonBytes_duplicate number⟩

/-! A body of one byte too many is refused, though it spells a number. -/

def overlongBody : JsString := List.replicate maxJsonBodyBytes 32 ++ [49]

theorem overlong_body_refused :
    ¬ ∀ (bytes : List Byte) (v : Json JsString),
      decodeBoundedJsonBytes some bytes = .ok v ↔ SpellsBytes some v bytes ∧ KeysDistinct v := by
  intro h
  have hblank : Blank (List.replicate maxJsonBodyBytes 32) := fun c hc => by
    rw [(List.mem_replicate.mp hc).2]
    decide
  have hlexeme : IsLexeme [49] :=
    ⟨[], [49], [], [], .inl rfl, .inr ⟨⟨nofun, List.forall_mem_singleton.mpr (by decide)⟩, by decide⟩, .inl rfl, .inl rfl, rfl⟩
  have hwell : wellFormed overlongBody = true := by
    rw [overlongBody, hblank.wellFormed]
    decide
  have hlength : (utf8 overlongBody).length = maxJsonBodyBytes + 1 := by
    have hascii : ∀ c ∈ overlongBody, c.val < 0x80 := by
      refine List.forall_mem_append.mpr ⟨fun c hc => isSpace_ascii c (hblank c hc), List.forall_mem_singleton.mpr (by decide)⟩
    rw [utf8_ascii_length _ hascii, overlongBody, List.length_append, List.length_replicate]
    rfl
  have hfits : Fits 0 (.number [49] : Json JsString) := fits_scalar (Nat.zero_le _) rfl nofun
  have hspelled : SpellsBytes some (.number [49] : Json JsString) (utf8 overlongBody) :=
    ⟨_, hwell, rfl, _, [49], [], hblank, .number hlexeme rfl, blank_nil, hfits, rfl⟩
  have hdecode := (h (utf8 overlongBody) _).mpr ⟨hspelled, trivial⟩
  unfold decodeBoundedJsonBytes at hdecode
  rw [if_pos (by omega)] at hdecode
  cases hdecode

end MoeNG.Contracts
