import Mathlib.Data.List.TakeWhile
import MoeNG.Kernel.JsonParse

/-!
# What is printed is read back

A printed JSON value followed by a comma, a closing bracket or nothing is read
as that value, so that printing is injective.
-/

namespace MoeNG.Kernel
open MoeNG.Lib

/-! ### Strings -/

theorem hexOf_hexDigit (n : ℕ) (h : n < 16) : hexOf (hexDigit n) = some n := by
  revert n
  decide

theorem readChars_quote (rest : JsString) : readChars (34 :: rest) = some ([], rest) := by
  rw [readChars.eq_def]
  rfl

theorem readChars_plain (c : CodeUnit) (rest : JsString) (hquote : c ≠ 34) (hslash : c ≠ 92) (hlow : ¬ c < 32) :
    readChars (c :: rest) = (readChars rest).map fun p => (c :: p.1, p.2) := by
  rw [readChars.eq_def]
  dsimp only
  rw [if_neg hquote, if_neg hslash, if_neg hlow]

theorem readChars_escape (e unit : CodeUnit) (rest : JsString) (he : e ≠ 117) (hunit : escapeOf e = some unit) :
    readChars (92 :: e :: rest) = (readChars rest).map fun p => (unit :: p.1, p.2) := by
  rw [readChars.eq_def]
  dsimp only
  rw [if_neg (by decide), if_pos rfl, if_neg he, hunit]
  rfl

theorem hexUnit_hexDigit (c : CodeUnit) :
    hexUnit (hexDigit (c.val / 4096)) (hexDigit (c.val / 256 % 16)) (hexDigit (c.val / 16 % 16)) (hexDigit (c.val % 16))
      = some c := by
  have hc : c.val < 65536 := c.isLt
  unfold hexUnit
  rw [hexOf_hexDigit _ (by omega), hexOf_hexDigit _ (by omega), hexOf_hexDigit _ (by omega), hexOf_hexDigit _ (by omega)]
  exact congrArg some (ofNat_unit _ c (by omega))

theorem readChars_hex (c : CodeUnit) (rest : JsString) :
    readChars (lit "\\u" ++ [hexDigit (c.val / 4096), hexDigit (c.val / 256 % 16), hexDigit (c.val / 16 % 16),
      hexDigit (c.val % 16)] ++ rest) = (readChars rest).map fun p => (c :: p.1, p.2) := by
  show readChars (92 :: 117 :: _ :: _ :: _ :: _ :: rest) = _
  rw [readChars.eq_def]
  dsimp only
  rw [if_neg (by decide), if_pos rfl, if_pos rfl, hexUnit_hexDigit]
  rfl

theorem readChars_jsonUnit (c : CodeUnit) (rest : JsString) :
    readChars (jsonUnit c ++ rest) = (readChars rest).map fun p => (c :: p.1, p.2) := by
  unfold jsonUnit
  split_ifs with h1 h2 h3 h4 h5 h6 h7 h8
  · subst h1
    exact readChars_escape 34 34 rest (by decide) rfl
  · subst h2
    exact readChars_escape 92 92 rest (by decide) rfl
  · subst h3
    exact readChars_escape 98 8 rest (by decide) rfl
  · subst h4
    exact readChars_escape 102 12 rest (by decide) rfl
  · subst h5
    exact readChars_escape 110 10 rest (by decide) rfl
  · subst h6
    exact readChars_escape 114 13 rest (by decide) rfl
  · subst h7
    exact readChars_escape 116 9 rest (by decide) rfl
  · have hlt : c.val < 32 := h8
    have hhex := readChars_hex c rest
    rw [show c.val / 4096 = 0 by omega, show c.val / 256 % 16 = 0 by omega, show c.val / 16 % 16 = c.val / 16 by omega] at hhex
    exact hhex
  · exact readChars_plain c rest h1 h2 h8

theorem readChars_jsonLone (c : CodeUnit) (rest : JsString) :
    readChars (jsonLone c ++ rest) = (readChars rest).map fun p => (c :: p.1, p.2) := by
  unfold jsonLone
  split
  · exact readChars_hex c rest
  · exact readChars_jsonUnit c rest

theorem readChars_surrogate (c : CodeUnit) (rest : JsString) (h : isSurrogate c = true) :
    readChars (c :: rest) = (readChars rest).map fun p => (c :: p.1, p.2) := by
  obtain ⟨hquote, hslash⟩ := surrogate_plain c h
  refine readChars_plain c rest hquote hslash fun hlow => ?_
  have hlt : c.val < 32 := hlow
  rw [isSurrogate_of_lt c (by omega)] at h
  cases h

theorem readChars_jsonUnits (s rest : JsString) : readChars (jsonUnits s ++ 34 :: rest) = some (s, rest) := by
  induction s using jsonUnits.induct with
  | case1 => exact readChars_quote rest
  | case2 c =>
    rw [jsonUnits, readChars_jsonLone, readChars_quote]
    rfl
  | case3 high low tail hpair ih =>
    have hboth := Bool.and_eq_true_iff.mp hpair
    have hhigh : isSurrogate high = true := by rw [isSurrogate, hboth.1, Bool.true_or]
    have hlow : isSurrogate low = true := by rw [isSurrogate, hboth.2, Bool.or_true]
    rw [jsonUnits, if_pos hpair, List.cons_append, List.cons_append, readChars_surrogate high _ hhigh,
      readChars_surrogate low _ hlow, ih]
    rfl
  | case4 high low tail hpair ih =>
    rw [jsonUnits, if_neg hpair, List.append_assoc, readChars_jsonLone, ih]
    rfl

theorem jsonText_append (s rest : JsString) : jsonText s ++ rest = 34 :: (jsonUnits s ++ 34 :: rest) := by
  show [34] ++ jsonUnits s ++ [34] ++ rest = _
  simp

/-! ### Number texts -/

/-- Nothing that continues a number text. -/
def Ends (rest : JsString) : Prop := ∀ c ∈ rest.head?, isDigitUnit c = false ∧ c ≠ 46 ∧ c ≠ 101 ∧ c ≠ 69

theorem Stops.ends {rest : JsString} (h : Stops rest) : Ends rest := by
  intro c hc
  obtain rfl | rfl | rfl := h c hc <;> decide

theorem Ends.takeWhile {rest : JsString} (h : Ends rest) : rest.takeWhile isDigitUnit = [] := by
  cases rest with
  | nil => rfl
  | cons c rest => rw [List.takeWhile_cons_of_neg (by rw [(h c rfl).1]; decide)]

theorem Ends.dropWhile {rest : JsString} (h : Ends rest) : rest.dropWhile isDigitUnit = rest := by
  cases rest with
  | nil => rfl
  | cons c rest => rw [List.dropWhile_cons_of_neg (by rw [(h c rfl).1]; decide)]

theorem readDigits_append (s digits r rest : JsString) (hrest : Ends rest) (h : readDigits s = some (digits, r)) :
    readDigits (s ++ rest) = some (digits, r ++ rest) := by
  have htake : (s ++ rest).takeWhile isDigitUnit = s.takeWhile isDigitUnit := by
    rw [List.takeWhile_append]
    split
    · rename_i hall
      rw [hrest.takeWhile, List.append_nil]
      exact ((List.takeWhile_prefix isDigitUnit).eq_of_length hall).symm
    · rfl
  have hdrop : (s ++ rest).dropWhile isDigitUnit = s.dropWhile isDigitUnit ++ rest := by
    rw [List.dropWhile_append]
    split
    · rename_i hall
      rw [List.isEmpty_iff.mp hall, hrest.dropWhile, List.nil_append]
    · rfl
  unfold readDigits at h ⊢
  rw [htake, hdrop]
  split at h
  · cases h
  · rename_i hne
    obtain ⟨rfl, rfl⟩ := Prod.mk.inj (Option.some.inj h)
    rw [if_neg hne]

theorem readInteger_append (s digits r rest : JsString) (hrest : Ends rest) (h : readInteger s = some (digits, r)) :
    readInteger (s ++ rest) = some (digits, r ++ rest) := by
  unfold readInteger at h
  split at h
  · obtain ⟨rfl, rfl⟩ := Prod.mk.inj (Option.some.inj h)
    rfl
  · rename_i hne
    have hdigits := readDigits_append s digits r rest hrest h
    unfold readInteger
    split
    · rename_i t ht
      cases s with
      | nil => cases h
      | cons c s => exact absurd (congrArg (· :: s) (List.cons.inj ht).1) (fun hc => hne s hc)
    · exact hdigits

theorem readFraction_append (s digits r rest : JsString) (hrest : Ends rest) (h : readFraction s = some (digits, r)) :
    readFraction (s ++ rest) = some (digits, r ++ rest) := by
  unfold readFraction at h
  split at h
  · rename_i s
    obtain ⟨p, hp, heq⟩ := Option.map_eq_some_iff.mp h
    obtain ⟨rfl, rfl⟩ := Prod.mk.inj heq
    show (readDigits (s ++ rest)).map _ = _
    rw [readDigits_append s p.1 p.2 rest hrest hp]
    rfl
  · rename_i hne
    obtain ⟨rfl, rfl⟩ := Prod.mk.inj (Option.some.inj h)
    unfold readFraction
    split
    · rename_i t ht
      cases s with
      | nil => exact absurd rfl (hrest 46 (by rw [show rest = 46 :: t from ht]; rfl)).2.1
      | cons c s => exact absurd (congrArg (· :: s) (List.cons.inj ht).1) (fun hc => hne s hc)
    · rfl

theorem readSign_append (s rest : JsString) (hs : (readDigits (readSign s).2).isSome) :
    readSign (s ++ rest) = ((readSign s).1, (readSign s).2 ++ rest) := by
  cases s with
  | nil => cases hs
  | cons c s =>
    unfold readSign
    split
    · rename_i t ht
      obtain ⟨rfl, rfl⟩ := List.cons.inj ht
      rfl
    · rename_i t ht
      obtain ⟨rfl, rfl⟩ := List.cons.inj ht
      rfl
    · rename_i h43 h45
      split
      · rename_i t ht
        exact absurd (congrArg (· :: (s ++ rest)) (List.cons.inj ht).1) (h43 (s ++ rest))
      · rename_i t ht
        exact absurd (congrArg (· :: (s ++ rest)) (List.cons.inj ht).1) (h45 (s ++ rest))
      · rfl

theorem readExponent_append (s digits r rest : JsString) (hrest : Ends rest) (h : readExponent s = some (digits, r)) :
    readExponent (s ++ rest) = some (digits, r ++ rest) := by
  cases s with
  | nil =>
    obtain ⟨rfl, rfl⟩ := Prod.mk.inj (Option.some.inj h)
    cases rest with
    | nil => rfl
    | cons c rest =>
      show (if c = 101 ∨ c = 69 then _ else _) = _
      obtain ⟨_, _, h101, h69⟩ := hrest c rfl
      rw [if_neg (not_or.mpr ⟨h101, h69⟩)]
      rfl
  | cons e s =>
    rw [List.cons_append]
    unfold readExponent at h ⊢
    dsimp only at h ⊢
    split at h
    · rename_i he
      obtain ⟨p, hp, heq⟩ := Option.map_eq_some_iff.mp h
      obtain ⟨rfl, rfl⟩ := Prod.mk.inj heq
      rw [if_pos he, readSign_append s rest (by rw [hp]; rfl)]
      dsimp only
      rw [readDigits_append _ p.1 p.2 rest hrest hp]
      rfl
    · rename_i he
      obtain ⟨rfl, rfl⟩ := Prod.mk.inj (Option.some.inj h)
      rw [if_neg he, List.cons_append]

theorem readMinus_append (s rest : JsString) (hs : (readInteger (readMinus s).2).isSome) :
    readMinus (s ++ rest) = ((readMinus s).1, (readMinus s).2 ++ rest) := by
  cases s with
  | nil => cases hs
  | cons c s =>
    unfold readMinus
    split
    · rename_i t ht
      obtain ⟨rfl, rfl⟩ := List.cons.inj ht
      rfl
    · rename_i h45
      split
      · rename_i t ht
        exact absurd (congrArg (· :: (s ++ rest)) (List.cons.inj ht).1) (h45 (s ++ rest))
      · rfl

theorem readLexeme_append (s lexeme rest : JsString) (hrest : Ends rest) (h : readLexeme s = some (lexeme, [])) :
    readLexeme (s ++ rest) = some (lexeme, rest) := by
  unfold readLexeme at h ⊢
  obtain ⟨⟨whole, afterWhole⟩, hwhole, h⟩ := Option.bind_eq_some_iff.mp h
  obtain ⟨⟨fraction, afterFraction⟩, hfraction, h⟩ := Option.bind_eq_some_iff.mp h
  obtain ⟨⟨exponent, final⟩, hexponent, h⟩ := Option.bind_eq_some_iff.mp h
  obtain ⟨rfl, rfl⟩ := Prod.mk.inj (Option.some.inj h)
  rw [readMinus_append s rest (by rw [hwhole]; rfl)]
  dsimp only
  rw [readInteger_append _ _ _ rest hrest hwhole]
  refine Option.bind_eq_some_iff.mpr ⟨_, rfl, ?_⟩
  dsimp only
  rw [readFraction_append _ _ _ rest hrest hfraction]
  refine Option.bind_eq_some_iff.mpr ⟨_, rfl, ?_⟩
  dsimp only
  rw [readExponent_append _ _ _ rest hrest hexponent]
  rfl

theorem readDigits_head (s : JsString) (h : (readDigits s).isSome) : ∃ c rest, s = c :: rest ∧ isDigitUnit c = true := by
  cases s with
  | nil => cases h
  | cons c rest =>
    refine ⟨c, rest, rfl, ?_⟩
    by_contra hc
    unfold readDigits at h
    rw [List.takeWhile_cons_of_neg hc, if_pos rfl] at h
    cases h

theorem readInteger_head (s : JsString) (h : (readInteger s).isSome) : ∃ c rest, s = c :: rest ∧ isDigitUnit c = true := by
  unfold readInteger at h
  split at h
  · exact ⟨48, _, rfl, by decide⟩
  · exact readDigits_head s h

theorem readLexeme_head (s : JsString) (h : (readLexeme s).isSome) :
    ∃ c rest, s = c :: rest ∧ (c = 45 ∨ isDigitUnit c = true) := by
  obtain ⟨p, hp⟩ := Option.isSome_iff_exists.mp h
  obtain ⟨whole, hwhole, -⟩ := Option.bind_eq_some_iff.mp hp
  unfold readMinus at hwhole
  split at hwhole
  · exact ⟨45, _, rfl, .inl rfl⟩
  · obtain ⟨c, rest, hs, hc⟩ := readInteger_head s (by rw [hwhole]; rfl)
    exact ⟨c, rest, hs, .inr hc⟩

/-! ### Decimal texts -/

theorem decimal_head_ne_zero (n : ℕ) (hn : n ≠ 0) : ∃ c rest, decimal n = c :: rest ∧ c ≠ 48 ∧ c ≠ 45 := by
  have hne : Nat.digits 10 n ≠ [] := by simpa [Nat.digits_eq_nil_iff_eq_zero] using hn
  have hlast := Nat.getLast_digit_ne_zero 10 hn
  have hlt := Nat.digits_lt_base (by decide) (List.getLast_mem hne)
  have hreverse : (Nat.digits 10 n).reverse = (Nat.digits 10 n).getLast hne :: (Nat.digits 10 n).dropLast.reverse := by
    conv_lhs => rw [← List.dropLast_append_getLast hne, List.reverse_append]
    rfl
  unfold decimal
  rw [if_neg hn, hreverse, List.map_cons]
  refine ⟨_, _, rfl, ?_, ?_⟩
  · intro h
    have hval : (48 + (Nat.digits 10 n).getLast hne) % 65536 = 48 := congrArg Fin.val h
    omega
  · intro h
    have hval : (48 + (Nat.digits 10 n).getLast hne) % 65536 = 45 := congrArg Fin.val h
    omega

theorem readDigits_all (s : JsString) (hne : s ≠ []) (h : ∀ c ∈ s, isDigitUnit c = true) : readDigits s = some (s, []) := by
  unfold readDigits
  rw [List.takeWhile_eq_self_iff.mpr h, List.dropWhile_eq_nil_iff.mpr h, if_neg hne]

theorem isDigitUnit_decimal (n : ℕ) : ∀ c ∈ decimal n, isDigitUnit c = true := by
  intro c hc
  obtain ⟨hlow, hhigh⟩ := decimal_digit n c hc
  simp [isDigitUnit, Fin.le_def, hlow, hhigh]

theorem readInteger_decimal (n : ℕ) : readInteger (decimal n) = some (decimal n, []) := by
  by_cases hn : n = 0
  · subst hn
    rfl
  · have hread := readDigits_all (decimal n) (decimal_ne_nil n) (isDigitUnit_decimal n)
    obtain ⟨c, rest, htext, hc, -⟩ := decimal_head_ne_zero n hn
    rw [htext] at hread ⊢
    unfold readInteger
    split
    · rename_i heq
      exact absurd (List.cons.inj heq).1 hc
    · exact hread

theorem readMinus_decimal (n : ℕ) : readMinus (decimal n) = ([], decimal n) := by
  unfold readMinus
  split
  · rename_i rest heq
    have hmem : (45 : CodeUnit) ∈ decimal n := heq ▸ List.mem_cons_self ..
    exact absurd (decimal_digit n 45 hmem).1 (by decide)
  · rfl

theorem readLexeme_decimal (n : ℕ) : readLexeme (decimal n) = some (decimal n, []) := by
  unfold readLexeme
  rw [readMinus_decimal]
  refine Option.bind_eq_some_iff.mpr ⟨_, readInteger_decimal n, ?_⟩
  show some ([] ++ decimal n ++ [] ++ [], []) = _
  simp

theorem readLexeme_decimalInt (z : ℤ) : readLexeme (decimalInt z) = some (decimalInt z, []) := by
  unfold decimalInt
  split
  · show readLexeme (45 :: decimal z.natAbs) = _
    unfold readLexeme
    refine Option.bind_eq_some_iff.mpr ⟨_, readInteger_decimal _, ?_⟩
    show some ([45] ++ decimal z.natAbs ++ [] ++ [], []) = _
    simp [lit_eq]
  · exact readLexeme_decimal _

/-! ### The units of a number text -/

def isLexemeUnit (c : CodeUnit) : Bool := isDigitUnit c || c = 43 || c = 45 || c = 46 || c = 69 || c = 101

theorem readDigits_units (s digits r : JsString) (h : readDigits s = some (digits, r)) :
    ∀ c ∈ digits, isLexemeUnit c = true := by
  unfold readDigits at h
  split at h
  · cases h
  · obtain ⟨rfl, rfl⟩ := Prod.mk.inj (Option.some.inj h)
    intro c hc
    simp [isLexemeUnit, List.mem_takeWhile_imp hc]

theorem readLexeme_units (s lexeme r : JsString) (h : readLexeme s = some (lexeme, r)) :
    ∀ c ∈ lexeme, isLexemeUnit c = true := by
  unfold readLexeme at h
  obtain ⟨⟨whole, afterWhole⟩, hwhole, h⟩ := Option.bind_eq_some_iff.mp h
  obtain ⟨⟨fraction, afterFraction⟩, hfraction, h⟩ := Option.bind_eq_some_iff.mp h
  obtain ⟨⟨exponent, final⟩, hexponent, h⟩ := Option.bind_eq_some_iff.mp h
  obtain ⟨rfl, rfl⟩ := Prod.mk.inj (Option.some.inj h)
  have hminus : ∀ c ∈ (readMinus s).1, isLexemeUnit c = true := by
    unfold readMinus
    split <;> simp [isLexemeUnit]
  have hunits : ∀ c ∈ whole, isLexemeUnit c = true := by
    unfold readInteger at hwhole
    split at hwhole
    · obtain ⟨rfl, rfl⟩ := Prod.mk.inj (Option.some.inj hwhole)
      exact List.forall_mem_singleton.mpr (by decide)
    · exact readDigits_units _ _ _ hwhole
  have hfractional : ∀ c ∈ fraction, isLexemeUnit c = true := by
    unfold readFraction at hfraction
    split at hfraction
    · obtain ⟨p, hp, heq⟩ := Option.map_eq_some_iff.mp hfraction
      obtain ⟨rfl, rfl⟩ := Prod.mk.inj heq
      intro c hc
      obtain rfl | hc := List.mem_cons.mp hc
      · decide
      · exact readDigits_units _ _ _ hp c hc
    · obtain ⟨rfl, rfl⟩ := Prod.mk.inj (Option.some.inj hfraction)
      exact nofun
  have hsign (t : JsString) : ∀ c ∈ (readSign t).1, isLexemeUnit c = true := by
    unfold readSign
    split <;> simp [isLexemeUnit]
  have hexponential : ∀ c ∈ exponent, isLexemeUnit c = true := by
    unfold readExponent at hexponent
    split at hexponent
    · obtain ⟨rfl, rfl⟩ := Prod.mk.inj (Option.some.inj hexponent)
      exact nofun
    split at hexponent
    · rename_i e rest he
      obtain ⟨p, hp, heq⟩ := Option.map_eq_some_iff.mp hexponent
      obtain ⟨rfl, rfl⟩ := Prod.mk.inj heq
      intro c hc
      obtain hc | hc := List.mem_append.mp hc
      · obtain rfl | hc := List.mem_cons.mp hc
        · obtain rfl | rfl := he <;> decide
        · exact hsign rest c hc
      · exact readDigits_units _ _ _ hp c hc
    · obtain ⟨rfl, rfl⟩ := Prod.mk.inj (Option.some.inj hexponent)
      exact nofun
  intro c hc
  obtain hc | hc := List.mem_append.mp hc
  · obtain hc | hc := List.mem_append.mp hc
    · obtain hc | hc := List.mem_append.mp hc
      · exact hminus c hc
      · exact hunits c hc
    · exact hfractional c hc
  · exact hexponential c hc

theorem isSurrogate_lexeme (c : CodeUnit) (h : isLexemeUnit c = true) : isSurrogate c = false := by
  simp only [isLexemeUnit, isDigitUnit, Bool.or_eq_true, Bool.and_eq_true, decide_eq_true_eq] at h
  obtain ((((⟨-, h⟩ | rfl) | rfl) | rfl) | rfl) | rfl := h
  · have hlt : c.val ≤ 57 := h
    exact isSurrogate_of_lt c (by omega)
  all_goals decide

/-! ### Values -/

theorem skipSpace_cons (c : CodeUnit) (rest : JsString) (h : isSpace c = false) : skipSpace (c :: rest) = c :: rest :=
  List.dropWhile_cons_of_neg (by rw [h]; decide)

namespace Json
variable {N : Type} {text : N → JsString} {value : JsString → Option N}

/-- The number is printed as a JSON number and read back. -/
structure Reads (text : N → JsString) (value : JsString → Option N) (x : N) : Prop where
  lexeme : readLexeme (text x) = some (text x, [])
  value_text : value (text x) = some x

mutual

/-- Every number in the value is read back. -/
def Readable (text : N → JsString) (value : JsString → Option N) : Json N → Prop
  | .number x => Reads text value x
  | .array items => ReadableItems text value items
  | .object entries => ReadableEntries text value entries
  | _ => True

def ReadableItems (text : N → JsString) (value : JsString → Option N) : List (Json N) → Prop
  | [] => True
  | v :: rest => Readable text value v ∧ ReadableItems text value rest

def ReadableEntries (text : N → JsString) (value : JsString → Option N) : List (JsString × Json N) → Prop
  | [] => True
  | (_, v) :: rest => Readable text value v ∧ ReadableEntries text value rest

end

mutual

theorem readable_of_reads (h : ∀ x, Reads text value x) : ∀ v : Json N, Readable text value v
  | .null => trivial
  | .boolean _ => trivial
  | .number x => h x
  | .string _ => trivial
  | .array items => readableItems_of_reads h items
  | .object entries => readableEntries_of_reads h entries

theorem readableItems_of_reads (h : ∀ x, Reads text value x) : ∀ items : List (Json N), ReadableItems text value items
  | [] => trivial
  | v :: rest => ⟨readable_of_reads h v, readableItems_of_reads h rest⟩

theorem readableEntries_of_reads (h : ∀ x, Reads text value x) :
    ∀ entries : List (JsString × Json N), ReadableEntries text value entries
  | [] => trivial
  | (_, v) :: rest => ⟨readable_of_reads h v, readableEntries_of_reads h rest⟩

end

theorem Reads.head {x : N} (h : Reads text value x) : ∃ c rest, text x = c :: rest ∧ (c = 45 ∨ isDigitUnit c = true) :=
  readLexeme_head _ (by rw [h.lexeme]; rfl)

theorem isDigitUnit_iff (c : CodeUnit) : isDigitUnit c = true ↔ 48 ≤ c.val ∧ c.val ≤ 57 := by
  simp [isDigitUnit, Fin.le_def]

theorem digit_ne (c n : CodeUnit) (hc : isDigitUnit c = true) (hn : n.val < 48 ∨ 57 < n.val) : c ≠ n := by
  rintro rfl
  have h := (isDigitUnit_iff c).mp hc
  omega

theorem isSpace_digit (c : CodeUnit) (hc : isDigitUnit c = true) : isSpace c = false := by
  unfold isSpace
  simp [digit_ne c 32 hc (by decide), digit_ne c 9 hc (by decide), digit_ne c 10 hc (by decide),
    digit_ne c 13 hc (by decide)]

theorem print_head (v : Json N) (h : Readable text value v) :
    ∃ c rest, print text v = c :: rest ∧ isSpace c = false ∧ c ≠ 93 ∧ c ≠ 125 := by
  cases v with
  | null => exact ⟨110, _, rfl, by decide, by decide, by decide⟩
  | boolean b =>
    cases b with
    | true => exact ⟨116, _, rfl, by decide, by decide, by decide⟩
    | false => exact ⟨102, _, rfl, by decide, by decide, by decide⟩
  | string s => exact ⟨34, _, rfl, by decide, by decide, by decide⟩
  | array items => exact ⟨91, _, rfl, by decide, by decide, by decide⟩
  | object entries => exact ⟨123, _, rfl, by decide, by decide, by decide⟩
  | number x =>
    obtain ⟨c, rest, htext, hc⟩ := Reads.head h
    refine ⟨c, rest, htext, ?_⟩
    obtain rfl | hc := hc
    · exact ⟨by decide, by decide, by decide⟩
    · exact ⟨isSpace_digit c hc, digit_ne c 93 hc (by decide), digit_ne c 125 hc (by decide)⟩

mutual

def weight : Json N → ℕ
  | .array items => 1 + weightItems items
  | .object entries => 1 + weightEntries entries
  | _ => 1

def weightItems : List (Json N) → ℕ
  | [] => 0
  | value :: rest => weight value + 1 + weightItems rest

def weightEntries : List (JsString × Json N) → ℕ
  | [] => 0
  | (_, value) :: rest => weight value + 1 + weightEntries rest

end

theorem weight_pos (v : Json N) : 0 < weight v := by
  cases v with
  | array items => exact Nat.add_pos_left Nat.one_pos _
  | object entries => exact Nat.add_pos_left Nat.one_pos _
  | _ => exact Nat.one_pos

theorem readWord_append (word : String) (result : Json N) (rest : JsString) :
    readWord word result (lit word ++ rest) = some (result, rest) := by
  unfold readWord
  rw [if_pos (List.isPrefixOf_iff_prefix.mpr (List.prefix_append ..)), List.drop_left]

theorem readNumber_append (x : N) (h : Reads text value x) (rest : JsString) (hrest : Stops rest) :
    readNumber value (text x ++ rest) = some (.number x, rest) := by
  unfold readNumber
  refine Option.bind_eq_some_iff.mpr ⟨_, readLexeme_append _ _ rest hrest.ends h.lexeme, ?_⟩
  exact Option.bind_eq_some_iff.mpr ⟨x, h.value_text, rfl⟩

theorem readValue_number (x : N) (h : Reads text value x) (fuel : ℕ) (rest : JsString) (hrest : Stops rest) :
    readValue value (fuel + 1) (text x ++ rest) = some (.number x, rest) := by
  have hread := readNumber_append x h rest hrest
  obtain ⟨c, tail, htext, hc⟩ := h.head
  rw [htext, List.cons_append] at hread ⊢
  have hspace : isSpace c = false := by
    obtain rfl | hc := hc
    · decide
    · exact isSpace_digit c hc
  have hne (n : CodeUnit) (hn : n.val < 45 ∨ 57 < n.val) : c ≠ n := by
    obtain rfl | hc := hc
    · rintro rfl
      exact absurd hn (by decide)
    · exact digit_ne c n hc (by omega)
  unfold readValue
  rw [skipSpace_cons c _ hspace]
  dsimp only
  rw [if_neg (hne 34 (by decide)), if_neg (hne 91 (by decide)), if_neg (hne 123 (by decide)), if_neg (hne 110 (by decide)),
    if_neg (hne 116 (by decide)), if_neg (hne 102 (by decide))]
  exact hread

theorem readValue_open (fuel : ℕ) (c : CodeUnit) (rest : JsString) (hc : isSpace c = false) (h93 : c ≠ 93) :
    readValue value (fuel + 1) (91 :: c :: rest) = (readItems value fuel (c :: rest)).map fun p => (.array p.1, p.2) := by
  unfold readValue
  rw [skipSpace_cons 91 _ (by decide)]
  dsimp only
  rw [if_neg (by decide), if_pos rfl, skipSpace_cons c rest hc]
  split
  · rename_i heq
    exact absurd (List.cons.inj heq).1 h93
  · rfl

theorem readValue_brace (fuel : ℕ) (c : CodeUnit) (rest : JsString) (hc : isSpace c = false) (h125 : c ≠ 125) :
    readValue value (fuel + 1) (123 :: c :: rest)
      = (readEntries value fuel (c :: rest)).map fun p => (.object p.1, p.2) := by
  unfold readValue
  rw [skipSpace_cons 123 _ (by decide)]
  dsimp only
  rw [if_neg (by decide), if_neg (by decide), if_pos rfl, skipSpace_cons c rest hc]
  split
  · rename_i heq
    exact absurd (List.cons.inj heq).1 h125
  · rfl

theorem readValue_string (fuel : ℕ) (s rest : JsString) :
    readValue value (fuel + 1) (jsonText s ++ rest) = some (.string s, rest) := by
  rw [jsonText_append]
  unfold readValue
  rw [skipSpace_cons 34 _ (by decide)]
  dsimp only
  rw [if_pos rfl, readChars_jsonUnits]
  rfl

theorem property_append (key : JsString) (x rest : JsString) :
    property (key, x) ++ rest = 34 :: (jsonUnits key ++ 34 :: 58 :: (x ++ rest)) := by
  unfold property
  rw [List.append_assoc, List.append_assoc, jsonText_append]
  rfl

mutual

/-- A printed value is read back, whatever follows it. -/
theorem readValue_print : ∀ (v : Json N) (fuel : ℕ) (rest : JsString), Readable text value v → weight v ≤ fuel →
    Stops rest → readValue value fuel (print text v ++ rest) = some (v, rest)
  | v, 0, rest, _, hfuel, _ => absurd hfuel (Nat.not_le.mpr (weight_pos v))
  | .null, fuel + 1, rest, _, _, _ => readWord_append "null" .null rest
  | .boolean true, fuel + 1, rest, _, _, _ => readWord_append "true" (.boolean true) rest
  | .boolean false, fuel + 1, rest, _, _, _ => readWord_append "false" (.boolean false) rest
  | .number x, fuel + 1, rest, h, _, hrest => readValue_number x h fuel rest hrest
  | .string s, fuel + 1, rest, _, _, _ => readValue_string fuel s rest
  | .array [], fuel + 1, rest, _, _, _ => rfl
  | .array (v :: items), fuel + 1, rest, h, hfuel, _ => by
    have hitems := readItems_print v items fuel rest h (by rw [weight] at hfuel; omega)
    obtain ⟨c, tail, hv, hc, h93, -⟩ := print_head v h.1
    have htext : print text (.array (v :: items)) ++ rest
        = 91 :: ((lit ",").intercalate (printItems text (v :: items)) ++ 93 :: rest) := by
      show [91] ++ _ ++ [93] ++ rest = _
      simp
    rw [htext]
    rw [printItems, intercalate_eq, hv] at hitems ⊢
    simp only [List.cons_append] at hitems ⊢
    rw [readValue_open fuel c _ hc h93, hitems]
    rfl
  | .object [], fuel + 1, rest, _, _, _ => rfl
  | .object (e :: entries), fuel + 1, rest, h, hfuel, _ => by
    have hentries := readEntries_print e entries fuel rest h (by rw [weight] at hfuel; omega)
    have htext : print text (.object (e :: entries)) ++ rest
        = 123 :: ((lit ",").intercalate ((printEntries text (e :: entries)).map property) ++ 125 :: rest) := by
      show [123] ++ _ ++ [125] ++ rest = _
      simp
    obtain ⟨key, v⟩ := e
    rw [htext]
    rw [printEntries, List.map_cons, intercalate_eq, List.append_assoc, property_append] at hentries ⊢
    rw [readValue_brace fuel 34 _ (by decide) (by decide), hentries]
    rfl

theorem readItems_print : ∀ (v : Json N) (items : List (Json N)) (fuel : ℕ) (rest : JsString),
    ReadableItems text value (v :: items) → weightItems (v :: items) ≤ fuel →
    readItems value fuel ((lit ",").intercalate (printItems text (v :: items)) ++ 93 :: rest) = some (v :: items, rest)
  | v, items, 0, rest, _, hfuel => by
    rw [weightItems] at hfuel
    omega
  | v, [], fuel + 1, rest, h, hfuel => by
    rw [weightItems, weightItems] at hfuel
    have hv := readValue_print v fuel (93 :: rest) h.1 (by omega) (stops_commaTexts [] 93 rest (.inl rfl))
    rw [printItems, intercalate_eq, List.append_assoc]
    unfold readItems
    show (readValue value fuel (print text v ++ (93 :: rest))).bind _ = _
    rw [hv]
    rfl
  | v, w :: items, fuel + 1, rest, h, hfuel => by
    rw [weightItems] at hfuel
    have hv := readValue_print v fuel (commaTexts (printItems text (w :: items)) ++ 93 :: rest) h.1 (by omega)
      (stops_commaTexts _ 93 rest (.inl rfl))
    have hitems := readItems_print w items fuel rest h.2 (by omega)
    rw [printItems, intercalate_eq, List.append_assoc]
    unfold readItems
    rw [hv]
    rw [printItems, intercalate_eq] at hitems
    show (readItems value fuel (print text w ++ commaTexts (printItems text items) ++ 93 :: rest)).map _ = _
    rw [hitems]
    rfl

theorem readEntries_print : ∀ (e : JsString × Json N) (entries : List (JsString × Json N)) (fuel : ℕ) (rest : JsString),
    ReadableEntries text value (e :: entries) → weightEntries (e :: entries) ≤ fuel →
    readEntries value fuel ((lit ",").intercalate ((printEntries text (e :: entries)).map property) ++ 125 :: rest)
      = some (e :: entries, rest)
  | (key, v), entries, 0, rest, _, hfuel => by
    rw [weightEntries] at hfuel
    omega
  | (key, v), [], fuel + 1, rest, h, hfuel => by
    rw [weightEntries, weightEntries] at hfuel
    have hv := readValue_print v fuel (125 :: rest) h.1 (by omega) (stops_commaTexts [] 125 rest (.inr rfl))
    rw [printEntries, List.map_cons, intercalate_eq, List.append_assoc, property_append]
    unfold readEntries
    rw [skipSpace_cons 34 _ (by decide)]
    show (readChars (jsonUnits key ++ 34 :: 58 :: _)).bind _ = _
    rw [readChars_jsonUnits]
    show (readValue value fuel (print text v ++ (125 :: rest))).bind _ = _
    rw [hv]
    rfl
  | (key, v), e :: entries, fuel + 1, rest, h, hfuel => by
    rw [weightEntries] at hfuel
    have hv := readValue_print v fuel
      (commaTexts ((printEntries text (e :: entries)).map property) ++ 125 :: rest) h.1 (by omega)
      (stops_commaTexts _ 125 rest (.inr rfl))
    have hentries := readEntries_print e entries fuel rest h.2 (by omega)
    rw [printEntries, List.map_cons, intercalate_eq, List.append_assoc, property_append]
    unfold readEntries
    rw [skipSpace_cons 34 _ (by decide)]
    show (readChars (jsonUnits key ++ 34 :: 58 :: _)).bind _ = _
    rw [readChars_jsonUnits]
    show (readValue value fuel (print text v ++ (commaTexts _ ++ 125 :: rest))).bind _ = _
    rw [hv]
    obtain ⟨key', w⟩ := e
    rw [printEntries, List.map_cons, intercalate_eq] at hentries
    show (readEntries value fuel (property (key', print text w) ++ commaTexts ((printEntries text entries).map property)
      ++ 125 :: rest)).map _ = _
    rw [hentries]
    rfl

end

/-! ### Printing is injective -/

theorem print_inj (v w : Json N) (hv : Readable text value v) (hw : Readable text value w) (r q : JsString) (hr : Stops r)
    (hq : Stops q) (h : print text v ++ r = print text w ++ q) : v = w ∧ r = q := by
  have hv := readValue_print v (weight v + weight w) r hv (Nat.le_add_right ..) hr
  rw [h, readValue_print w _ q hw (Nat.le_add_left ..) hq] at hv
  obtain ⟨rfl, rfl⟩ := Prod.mk.inj (Option.some.inj hv)
  exact ⟨rfl, rfl⟩

mutual

/-- The text of a value has no surrogate that stands alone. -/
theorem wellFormed_print : ∀ v : Json N, Readable text value v → wellFormed (print text v) = true
  | .null, _ => wellFormed_lit "null" (by decide)
  | .boolean true, _ => wellFormed_lit "true" (by decide)
  | .boolean false, _ => wellFormed_lit "false" (by decide)
  | .number _, h => wellFormed_plain _ fun c hc => isSurrogate_lexeme c (readLexeme_units _ _ _ (Reads.lexeme h) c hc)
  | .string s, _ => wellFormed_jsonText s
  | .array items, h => wellFormed_append _ _ (wellFormed_append _ _ (wellFormed_lit _ (by decide))
      (wellFormed_intercalate _ (wellFormed_printItems items h))) (wellFormed_lit _ (by decide))
  | .object entries, h => wellFormed_append _ _ (wellFormed_append _ _ (wellFormed_lit _ (by decide))
      (wellFormed_intercalate _ (by
        intro t ht
        obtain ⟨e, he, rfl⟩ := List.mem_map.mp ht
        exact wellFormed_append _ _ (wellFormed_append _ _ (wellFormed_jsonText e.1) (wellFormed_lit _ (by decide)))
          (wellFormed_printEntries entries h e he)))) (wellFormed_lit _ (by decide))

theorem wellFormed_printItems : ∀ items : List (Json N), ReadableItems text value items →
    ∀ t ∈ printItems text items, wellFormed t = true
  | [], _ => nofun
  | v :: rest, h => List.forall_mem_cons.mpr ⟨wellFormed_print v h.1, wellFormed_printItems rest h.2⟩

theorem wellFormed_printEntries : ∀ entries : List (JsString × Json N), ReadableEntries text value entries →
    ∀ e ∈ printEntries text entries, wellFormed e.2 = true
  | [], _ => nofun
  | (_, v) :: rest, h => List.forall_mem_cons.mpr ⟨wellFormed_print v h.1, wellFormed_printEntries rest h.2⟩

end

theorem stops_nil : Stops [] := nofun

theorem print_injective (hreads : ∀ x, Reads text value x) : Function.Injective (print text) := fun v w h =>
  (print_inj v w (readable_of_reads hreads v) (readable_of_reads hreads w) [] [] stops_nil stops_nil (congrArg (· ++ []) h)).1

/-! ### Parsing a printed value -/

section Map
variable {M : Type} (f : M → N)

mutual

theorem readable_map (h : ∀ x, Reads text value (f x)) : ∀ v : Json M, Readable text value (map f v)
  | .null => trivial
  | .boolean _ => trivial
  | .number x => h x
  | .string _ => trivial
  | .array items => readableItems_map h items
  | .object entries => readableEntries_map h entries

theorem readableItems_map (h : ∀ x, Reads text value (f x)) : ∀ items : List (Json M), ReadableItems text value (mapItems f items)
  | [] => trivial
  | v :: rest => ⟨readable_map h v, readableItems_map h rest⟩

theorem readableEntries_map (h : ∀ x, Reads text value (f x)) :
    ∀ entries : List (JsString × Json M), ReadableEntries text value (mapEntries f entries)
  | [] => trivial
  | (_, v) :: rest => ⟨readable_map h v, readableEntries_map h rest⟩

end

end Map

theorem jsonArray_length_cons (x : JsString) (rest : List JsString) :
    (jsonArray (x :: rest)).length = x.length + (commaTexts rest).length + 2 := by
  unfold jsonArray
  rw [intercalate_eq, List.length_append, List.length_append, List.length_append, show (lit "[").length = 1 from rfl,
    show (lit "]").length = 1 from rfl]
  omega

theorem commaTexts_length_cons (x : JsString) (rest : List JsString) :
    (commaTexts (x :: rest)).length = x.length + (commaTexts rest).length + 1 := by
  show (44 :: x ++ commaTexts rest).length = _
  rw [List.length_append, List.length_cons]
  omega

mutual

theorem weight_le : ∀ v : Json N, Readable text value v → weight v ≤ 2 * (print text v).length
  | .null, _ => show 1 ≤ 8 by decide
  | .boolean true, _ => show 1 ≤ 8 by decide
  | .boolean false, _ => show 1 ≤ 10 by decide
  | .number x, h => by
    obtain ⟨c, rest, htext, -⟩ := Reads.head h
    show 1 ≤ 2 * (text x).length
    rw [htext, List.length_cons]
    omega
  | .string s, _ => by
    show 1 ≤ 2 * (jsonText s).length
    rw [jsonText, List.length_append, show (lit "\"").length = 1 from rfl]
    omega
  | .array [], _ => by
    rw [weight, weightItems]
    exact Nat.le_add_left 1 3
  | .array (v :: items), h => by
    have hv := weight_le v h.1
    have hitems := weightItems_le items h.2
    rw [weight, weightItems, print, printItems, jsonArray_length_cons]
    omega
  | .object [], _ => by
    rw [weight, weightEntries]
    exact Nat.le_add_left 1 3
  | .object ((key, v) :: entries), h => by
    have hv := weight_le v h.1
    have hentries := weightEntries_le entries h.2
    rw [weight, weightEntries, print, printEntries, printObject, List.map_cons, intercalate_eq, property]
    simp only [List.length_append]
    rw [show (lit "\x7b").length = 1 from rfl]
    omega

theorem weightItems_le : ∀ items : List (Json N), ReadableItems text value items →
    weightItems items ≤ 2 * (commaTexts (printItems text items)).length
  | [], _ => Nat.le_refl 0
  | v :: rest, h => by
    have hv := weight_le v h.1
    have hrest := weightItems_le rest h.2
    rw [weightItems, printItems, commaTexts_length_cons]
    omega

theorem weightEntries_le : ∀ entries : List (JsString × Json N), ReadableEntries text value entries →
    weightEntries entries ≤ 2 * (commaTexts ((printEntries text entries).map property)).length
  | [], _ => Nat.le_refl 0
  | (key, v) :: rest, h => by
    have hv := weight_le v h.1
    have hrest := weightEntries_le rest h.2
    rw [weightEntries, printEntries, List.map_cons, commaTexts_length_cons, property]
    simp only [List.length_append]
    omega

end

mutual

/-- No object of the value has two entries with one key. -/
def KeysDistinct : Json N → Prop
  | .array items => KeysDistinctItems items
  | .object entries => (entries.map Prod.fst).Nodup ∧ KeysDistinctEntries entries
  | _ => True

def KeysDistinctItems : List (Json N) → Prop
  | [] => True
  | v :: rest => KeysDistinct v ∧ KeysDistinctItems rest

def KeysDistinctEntries : List (JsString × Json N) → Prop
  | [] => True
  | (_, v) :: rest => KeysDistinct v ∧ KeysDistinctEntries rest

end

theorem keysDistinctItems_of_forall (items : List (Json N)) (h : ∀ v ∈ items, KeysDistinct v) : KeysDistinctItems items := by
  induction items with
  | nil => trivial
  | cons v rest ih =>
    obtain ⟨hv, hrest⟩ := List.forall_mem_cons.mp h
    exact ⟨hv, ih hrest⟩

theorem assign_new {A : Type} (entries : List (JsString × A)) (entry : JsString × A) (h : entry.1 ∉ entries.map Prod.fst) :
    assign entries entry = entries ++ [entry] := by
  unfold assign
  refine if_neg fun hany => ?_
  obtain ⟨e, he, hkey⟩ := List.any_eq_true.mp hany
  exact h (of_decide_eq_true hkey ▸ List.mem_map_of_mem he)

theorem foldl_assign {A : Type} (done entries : List (JsString × A)) (h : ((done ++ entries).map Prod.fst).Nodup) :
    entries.foldl assign done = done ++ entries := by
  induction entries generalizing done with
  | nil => rw [List.foldl_nil, List.append_nil]
  | cons e rest ih =>
    have hnew : e.1 ∉ done.map Prod.fst := by
      intro he
      rw [List.map_append, List.map_cons, List.nodup_append] at h
      exact h.2.2 e.1 he e.1 (List.mem_cons_self ..) rfl
    rw [List.foldl_cons, assign_new done e hnew, ih _ (by rwa [List.append_assoc]), List.append_assoc]
    rfl

theorem assignAll_of_nodup {A : Type} (entries : List (JsString × A)) (h : (entries.map Prod.fst).Nodup) :
    assignAll entries = entries := foldl_assign [] entries h

mutual

theorem settled_of_distinct : ∀ v : Json N, KeysDistinct v → settled v = v
  | .null, _ => rfl
  | .boolean _, _ => rfl
  | .number _, _ => rfl
  | .string _, _ => rfl
  | .array items, h => by rw [settled, settledItems_of_distinct items h]
  | .object entries, h => by rw [settled, settledEntries_of_distinct entries h.2, assignAll_of_nodup entries h.1]

theorem settledItems_of_distinct : ∀ items : List (Json N), KeysDistinctItems items → settledItems items = items
  | [], _ => rfl
  | v :: rest, h => by rw [settledItems, settled_of_distinct v h.1, settledItems_of_distinct rest h.2]

theorem settledEntries_of_distinct : ∀ entries : List (JsString × Json N), KeysDistinctEntries entries →
    settledEntries entries = entries
  | [], _ => rfl
  | (key, v) :: rest, h => by rw [settledEntries, settled_of_distinct v h.1, settledEntries_of_distinct rest h.2]

end

theorem keysDistinctEntries_iff (entries : List (JsString × Json N)) :
    KeysDistinctEntries entries ↔ ∀ e ∈ entries, KeysDistinct e.2 := by
  induction entries with
  | nil => exact ⟨fun _ => nofun, fun _ => trivial⟩
  | cons e rest ih =>
    obtain ⟨key, v⟩ := e
    rw [KeysDistinctEntries, ih, List.forall_mem_cons]

theorem orderedEntries_keys (entries : List (JsString × Json N)) : (orderedEntries entries).map Prod.fst
    = entries.map Prod.fst := by
  rw [orderedEntries_eq, List.map_map]
  rfl

mutual

theorem keysDistinct_ordered : ∀ v : Json N, KeysDistinct v → KeysDistinct (ordered v)
  | .null, _ => trivial
  | .boolean _, _ => trivial
  | .number _, _ => trivial
  | .string _, _ => trivial
  | .array items, h => keysDistinctItems_ordered items h
  | .object entries, h => by
    refine ⟨((sortByKey_perm _).map Prod.fst).nodup_iff.mpr ?_, ?_⟩
    · rw [orderedEntries_keys]
      exact h.1
    · refine (keysDistinctEntries_iff _).mpr fun e he => ?_
      exact (keysDistinctEntries_iff _).mp (keysDistinctEntries_ordered entries h.2) e ((sortByKey_perm _).mem_iff.mp he)

theorem keysDistinctItems_ordered : ∀ items : List (Json N), KeysDistinctItems items → KeysDistinctItems (orderedItems items)
  | [], _ => trivial
  | v :: rest, h => ⟨keysDistinct_ordered v h.1, keysDistinctItems_ordered rest h.2⟩

theorem keysDistinctEntries_ordered : ∀ entries : List (JsString × Json N), KeysDistinctEntries entries →
    KeysDistinctEntries (orderedEntries entries)
  | [], _ => trivial
  | (_, v) :: rest, h => ⟨keysDistinct_ordered v h.1, keysDistinctEntries_ordered rest h.2⟩

end

/-- `JSON.parse` gives back what `JSON.stringify` printed. -/
theorem parse_print (v : Json N) (h : Readable text value v) (hkeys : KeysDistinct v) : parse value (print text v) = some v := by
  have hread := readValue_print v (2 * (print text v).length + 1) [] h ((weight_le v h).trans (Nat.le_succ _)) stops_nil
  rw [List.append_nil] at hread
  unfold parse
  rw [hread]
  show some (settled v) = some v
  rw [settled_of_distinct v hkeys]

end Json

end MoeNG.Kernel
