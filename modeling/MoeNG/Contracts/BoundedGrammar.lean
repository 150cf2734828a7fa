import Mathlib.Data.List.DropRight
import MoeNG.Contracts.BoundedStrings

/-!
# The grammar of bounded JSON

A text spells a JSON value. Depth, the texts of a value and the distinctness of
keys are read off the value.
-/

namespace MoeNG.Contracts
open MoeNG.Kernel MoeNG.Lib

/-! ### Numbers -/

structure Digits (s : JsString) : Prop where
  nonempty : s ≠ []
  digits : ∀ c ∈ s, isDigitUnit c = true

def Whole (s : JsString) : Prop := s = [48] ∨ (Digits s ∧ s.head? ≠ some 48)

def Fraction (s : JsString) : Prop := s = [] ∨ ∃ digits, Digits digits ∧ s = 46 :: digits

def Sign (s : JsString) : Prop := s = [] ∨ s = [43] ∨ s = [45]

def Exponent (s : JsString) : Prop :=
  s = [] ∨ ∃ e sign digits, (e = 101 ∨ e = 69) ∧ Sign sign ∧ Digits digits ∧ s = e :: (sign ++ digits)

def IsLexeme (s : JsString) : Prop :=
  ∃ minus whole fraction exponent, (minus = [] ∨ minus = [45]) ∧ Whole whole ∧ Fraction fraction ∧ Exponent exponent
    ∧ s = minus ++ whole ++ fraction ++ exponent

theorem readDigits_split (s digits rest : JsString) (h : readDigits s = some (digits, rest)) :
    s = digits ++ rest ∧ Digits digits := by
  unfold readDigits at h
  split at h
  · cases h
  · rename_i hne
    obtain ⟨rfl, rfl⟩ := Prod.mk.inj (Option.some.inj h)
    exact ⟨List.takeWhile_append_dropWhile.symm, hne, fun c hc => List.mem_takeWhile_imp hc⟩

theorem readMinus_split (s : JsString) :
    s = (readMinus s).1 ++ (readMinus s).2 ∧ ((readMinus s).1 = [] ∨ (readMinus s).1 = [45]) := by
  unfold readMinus
  split
  · exact ⟨rfl, .inr rfl⟩
  · exact ⟨rfl, .inl rfl⟩

theorem readSign_split (s : JsString) : s = (readSign s).1 ++ (readSign s).2 ∧ Sign (readSign s).1 := by
  unfold readSign
  split
  · exact ⟨rfl, .inr (.inl rfl)⟩
  · exact ⟨rfl, .inr (.inr rfl)⟩
  · exact ⟨rfl, .inl rfl⟩

theorem readInteger_split (s whole rest : JsString) (h : readInteger s = some (whole, rest)) : s = whole ++ rest
    ∧ Whole whole := by
  unfold readInteger at h
  split at h
  · obtain ⟨rfl, rfl⟩ := Prod.mk.inj (Option.some.inj h)
    exact ⟨rfl, .inl rfl⟩
  · rename_i hzero
    obtain ⟨rfl, hdigits⟩ := readDigits_split s whole rest h
    refine ⟨rfl, .inr ⟨hdigits, fun hhead => ?_⟩⟩
    obtain ⟨tail, rfl⟩ := List.head?_eq_some_iff.mp hhead
    exact hzero _ rfl

theorem readFraction_split (s fraction rest : JsString) (h : readFraction s = some (fraction, rest)) :
    s = fraction ++ rest ∧ Fraction fraction := by
  unfold readFraction at h
  split at h
  · rename_i tail
    obtain ⟨⟨digits, rest'⟩, hread, heq⟩ := Option.map_eq_some_iff.mp h
    obtain ⟨rfl, rfl⟩ := Prod.mk.inj heq
    obtain ⟨rfl, hdigits⟩ := readDigits_split tail digits rest' hread
    exact ⟨rfl, .inr ⟨digits, hdigits, rfl⟩⟩
  · obtain ⟨rfl, rfl⟩ := Prod.mk.inj (Option.some.inj h)
    exact ⟨rfl, .inl rfl⟩

theorem readExponent_split (s exponent rest : JsString) (h : readExponent s = some (exponent, rest)) :
    s = exponent ++ rest ∧ Exponent exponent := by
  unfold readExponent at h
  split at h
  · obtain ⟨rfl, rfl⟩ := Prod.mk.inj (Option.some.inj h)
    exact ⟨rfl, .inl rfl⟩
  · rename_i e tail
    split at h
    · rename_i he
      obtain ⟨⟨digits, rest'⟩, hread, heq⟩ := Option.map_eq_some_iff.mp h
      obtain ⟨rfl, rfl⟩ := Prod.mk.inj heq
      obtain ⟨hsplit, hsign⟩ := readSign_split tail
      obtain ⟨hrest, hdigits⟩ := readDigits_split _ digits rest' hread
      refine ⟨?_, .inr ⟨e, _, digits, he, hsign, hdigits, rfl⟩⟩
      rw [List.append_assoc, List.cons_append, ← hrest, ← hsplit]
    · obtain ⟨rfl, rfl⟩ := Prod.mk.inj (Option.some.inj h)
      exact ⟨rfl, .inl rfl⟩

theorem readLexeme_split (s lexeme rest : JsString) (h : readLexeme s = some (lexeme, rest)) :
    s = lexeme ++ rest ∧ IsLexeme lexeme := by
  unfold readLexeme at h
  obtain ⟨⟨whole, afterWhole⟩, hwhole, h⟩ := Option.bind_eq_some_iff.mp h
  obtain ⟨⟨fraction, afterFraction⟩, hfraction, h⟩ := Option.bind_eq_some_iff.mp h
  obtain ⟨⟨exponent, final⟩, hexponent, h⟩ := Option.bind_eq_some_iff.mp h
  obtain ⟨rfl, rfl⟩ := Prod.mk.inj (Option.some.inj h)
  obtain ⟨hminus, hsign⟩ := readMinus_split s
  obtain ⟨hafter, hw⟩ := readInteger_split _ _ _ hwhole
  obtain ⟨rfl, hf⟩ := readFraction_split _ _ _ hfraction
  obtain ⟨rfl, he⟩ := readExponent_split _ _ _ hexponent
  refine ⟨?_, _, whole, fraction, exponent, hsign, hw, hf, he, rfl⟩
  rw [List.append_assoc, List.append_assoc, List.append_assoc, ← hafter]
  exact hminus

/-! The reader takes all of a number text. -/

theorem readDigits_digits (s rest : JsString) (h : Digits s) (hrest : ∀ c ∈ rest.head?, isDigitUnit c = false) :
    readDigits (s ++ rest) = some (s, rest) := by
  have htake : rest.takeWhile isDigitUnit = [] := by
    cases rest with
    | nil => rfl
    | cons c rest => rw [List.takeWhile_cons_of_neg (by rw [hrest c rfl]; decide)]
  have hdrop : rest.dropWhile isDigitUnit = rest := by
    cases rest with
    | nil => rfl
    | cons c rest => rw [List.dropWhile_cons_of_neg (by rw [hrest c rfl]; decide)]
  unfold readDigits
  rw [List.takeWhile_append_of_pos h.digits, List.dropWhile_append_of_pos h.digits, htake, hdrop, List.append_nil,
    if_neg h.nonempty]

theorem Digits.head {s : JsString} (h : Digits s) : ∃ c rest, s = c :: rest ∧ isDigitUnit c = true := by
  obtain ⟨c, rest, rfl⟩ := List.exists_cons_of_ne_nil h.nonempty
  exact ⟨c, rest, rfl, h.digits c (List.mem_cons_self ..)⟩

theorem Whole.head {s : JsString} (h : Whole s) : ∃ c rest, s = c :: rest ∧ isDigitUnit c = true := by
  obtain rfl | ⟨hdigits, -⟩ := h
  · exact ⟨48, [], rfl, by decide⟩
  · exact hdigits.head

theorem readInteger_whole (s rest : JsString) (h : Whole s) (hrest : ∀ c ∈ rest.head?, isDigitUnit c = false) :
    readInteger (s ++ rest) = some (s, rest) := by
  obtain rfl | ⟨hdigits, hhead⟩ := h
  · rfl
  · obtain ⟨c, tail, rfl, -⟩ := hdigits.head
    unfold readInteger
    split
    · rename_i heq
      exact absurd (congrArg some (List.cons.inj heq).1) hhead
    · exact readDigits_digits _ rest hdigits hrest

theorem readFraction_fraction (s rest : JsString) (h : Fraction s)
    (hrest : ∀ c ∈ rest.head?, isDigitUnit c = false ∧ c ≠ 46) : readFraction (s ++ rest) = some (s, rest) := by
  obtain rfl | ⟨digits, hdigits, rfl⟩ := h
  · unfold readFraction
    split
    · rename_i heq
      exact absurd rfl (hrest 46 (by rw [← List.nil_append rest, heq]; rfl)).2
    · rfl
  · show (readDigits (digits ++ rest)).map _ = _
    rw [readDigits_digits digits rest hdigits fun c hc => (hrest c hc).1]
    rfl

theorem readSign_sign (s : JsString) (c : CodeUnit) (rest : JsString) (h : Sign s) (hc : isDigitUnit c = true) :
    readSign (s ++ c :: rest) = (s, c :: rest) := by
  obtain rfl | rfl | rfl := h
  · unfold readSign
    split
    · rename_i heq
      obtain rfl := (List.cons.inj heq).1
      exact absurd hc (by decide)
    · rename_i heq
      obtain rfl := (List.cons.inj heq).1
      exact absurd hc (by decide)
    · rfl
  · rfl
  · rfl

theorem readExponent_exponent (s rest : JsString) (h : Exponent s) (hrest : Ends rest) :
    readExponent (s ++ rest) = some (s, rest) := by
  obtain rfl | ⟨e, sign, digits, he, hsign, hdigits, rfl⟩ := h
  · cases rest with
    | nil => rfl
    | cons c rest =>
      obtain ⟨-, -, h101, h69⟩ := hrest c rfl
      exact if_neg (not_or.mpr ⟨h101, h69⟩)
  · obtain ⟨c, tail, rfl, hc⟩ := hdigits.head
    have hread := readDigits_digits (c :: tail) rest hdigits fun d hd => (hrest d hd).1
    rw [List.cons_append, List.append_assoc]
    unfold readExponent
    dsimp only
    rw [if_pos he, List.cons_append, readSign_sign sign c (tail ++ rest) hsign hc]
    dsimp only
    rw [← List.cons_append, hread]
    rfl

theorem Exponent.head {s : JsString} (h : Exponent s) (rest : JsString) (hrest : Ends rest) :
    ∀ c ∈ (s ++ rest).head?, isDigitUnit c = false ∧ c ≠ 46 := by
  obtain rfl | ⟨e, sign, digits, he, -, -, rfl⟩ := h
  · exact fun c hc => ⟨(hrest c hc).1, (hrest c hc).2.1⟩
  · intro c hc
    obtain rfl := Option.some.inj hc
    obtain rfl | rfl := he <;> decide

theorem Fraction.head {s : JsString} (h : Fraction s) (rest : JsString)
    (hrest : ∀ c ∈ rest.head?, isDigitUnit c = false ∧ c ≠ 46) : ∀ c ∈ (s ++ rest).head?, isDigitUnit c = false := by
  obtain rfl | ⟨digits, -, rfl⟩ := h
  · exact fun c hc => (hrest c hc).1
  · intro c hc
    obtain rfl := Option.some.inj hc
    decide

theorem readMinus_minus (s : JsString) (c : CodeUnit) (rest : JsString) (h : s = [] ∨ s = [45]) (hc : isDigitUnit c = true) :
    readMinus (s ++ c :: rest) = (s, c :: rest) := by
  obtain rfl | rfl := h
  · unfold readMinus
    split
    · rename_i heq
      obtain rfl := (List.cons.inj heq).1
      exact absurd hc (by decide)
    · rfl
  · rfl

theorem readLexeme_lexeme (s rest : JsString) (h : IsLexeme s) (hrest : Ends rest) :
    readLexeme (s ++ rest) = some (s, rest) ∧ scanNumber (s ++ rest) = some (s, rest) := by
  obtain ⟨minus, whole, fraction, exponent, hminus, hwhole, hfraction, hexponent, rfl⟩ := h
  have hexp := hexponent.head rest hrest
  have hfrac := hfraction.head (exponent ++ rest) hexp
  have hint := readInteger_whole whole _ hwhole hfrac
  obtain ⟨c, tail, htail, hc⟩ := hwhole.head
  have hsign : readMinus (minus ++ whole ++ fraction ++ exponent ++ rest)
      = (minus, whole ++ (fraction ++ (exponent ++ rest))) := by
    have hminus := readMinus_minus minus c (tail ++ (fraction ++ (exponent ++ rest))) hminus hc
    rw [← List.cons_append, ← htail] at hminus
    rw [← hminus]
    simp only [List.append_assoc]
  have hread : readLexeme (minus ++ whole ++ fraction ++ exponent ++ rest)
      = some (minus ++ whole ++ fraction ++ exponent, rest) := by
    unfold readLexeme
    rw [hsign]
    refine Option.bind_eq_some_iff.mpr ⟨_, hint, ?_⟩
    refine Option.bind_eq_some_iff.mpr ⟨_, readFraction_fraction fraction _ hfraction hexp, ?_⟩
    exact Option.bind_eq_some_iff.mpr ⟨_, readExponent_exponent exponent rest hexponent hrest, rfl⟩
  refine ⟨hread, ?_⟩
  unfold scanNumber
  rw [hsign]
  dsimp only
  split
  · rename_i d after heq
    -- the whole part is a single zero, and no digit stands behind it
    have hzero : whole = [48] := by
      obtain hzero | ⟨-, hhead⟩ := hwhole
      · exact hzero
      · rw [htail, List.cons_append] at heq
        rw [htail, (List.cons.inj heq).1] at hhead
        exact absurd rfl hhead
    rw [hzero] at heq
    have hafter : fraction ++ (exponent ++ rest) = d :: after := (List.cons.inj heq).2
    rw [hfrac d (by rw [hafter]; rfl), if_neg (by decide)]
    exact hread
  · exact hread

theorem scanNumber_split (s lexeme rest : JsString) (h : scanNumber s = some (lexeme, rest)) :
    s = lexeme ++ rest ∧ IsLexeme lexeme := by
  have hread : readLexeme s = some (lexeme, rest) := by
    unfold scanNumber at h
    split at h
    · split at h
      · cases h
      · exact h
    · exact h
  exact readLexeme_split s lexeme rest hread

/-! ### Blanks -/

def Blank (s : JsString) : Prop := ∀ c ∈ s, isSpace c = true

theorem skipSpace_split (s : JsString) : ∃ blank, Blank blank ∧ s = blank ++ skipSpace s :=
  ⟨s.takeWhile isSpace, fun _ hc => List.mem_takeWhile_imp hc, List.takeWhile_append_dropWhile.symm⟩

theorem skipSpace_blank (blank rest : JsString) (h : Blank blank) : skipSpace (blank ++ rest) = skipSpace rest :=
  List.dropWhile_append_of_pos h

theorem skipSpace_idem (s : JsString) : skipSpace (skipSpace s) = skipSpace s := List.dropWhile_idempotent ..

theorem skipSpace_to (s : JsString) (c : CodeUnit) (rest : JsString) (h : skipSpace s = c :: rest) :
    ∃ blank, Blank blank ∧ s = blank ++ c :: rest := by
  obtain ⟨blank, hblank, hs⟩ := skipSpace_split s
  exact ⟨blank, hblank, by rw [← h]; exact hs⟩

theorem Blank.append {s t : JsString} (hs : Blank s) (ht : Blank t) : Blank (s ++ t) :=
  List.forall_mem_append.mpr ⟨hs, ht⟩

theorem blank_nil : Blank [] := nofun

theorem isSpace_ascii (c : CodeUnit) (h : isSpace c = true) : c.val < 0x80 := by
  simp only [isSpace, Bool.or_eq_true, decide_eq_true_eq] at h
  obtain ((rfl | rfl) | rfl) | rfl := h <;> decide

theorem Blank.wellFormed {s : JsString} (h : Blank s) (t : JsString) : wellFormed (s ++ t) = wellFormed t :=
  wellFormed_ascii s t fun c hc => isSpace_ascii c (h c hc)

theorem skipSpace_behind (blank : JsString) (c : CodeUnit) (rest : JsString) (h : Blank blank) (hc : isSpace c = false) :
    skipSpace (blank ++ c :: rest) = c :: rest := by rw [skipSpace_blank blank _ h, skipSpace_cons c rest hc]

theorem ends_blank (blank : JsString) (c : CodeUnit) (rest : JsString) (h : Blank blank) (hc : c = 44 ∨ c = 93 ∨ c = 125) :
    Ends (blank ++ c :: rest) := by
  intro d hd
  cases blank with
  | nil =>
    obtain rfl := Option.some.inj hd
    obtain rfl | rfl | rfl := hc <;> decide
  | cons b blank =>
    obtain rfl := Option.some.inj hd
    have hspace := h b (List.mem_cons_self ..)
    simp only [isSpace, Bool.or_eq_true, decide_eq_true_eq] at hspace
    obtain ((rfl | rfl) | rfl) | rfl := hspace <;> decide

theorem Blank.ends {s : JsString} (h : Blank s) : Ends s := by
  cases s with
  | nil => nofun
  | cons b s =>
    intro d hd
    obtain rfl := Option.some.inj hd
    have hspace := h b (List.mem_cons_self ..)
    simp only [isSpace, Bool.or_eq_true, decide_eq_true_eq] at hspace
    obtain ((rfl | rfl) | rfl) | rfl := hspace <;> decide

/-! ### Values -/

section Spells
variable {N : Type} (number : JsString → Option N)

mutual

inductive Spells : Json N → JsString → Prop where
  | null : Spells .null (lit "null")
  | isTrue : Spells (.boolean true) (lit "true")
  | isFalse : Spells (.boolean false) (lit "false")
  | number {s : JsString} {x : N} (hs : IsLexeme s) (hx : number s = some x) : Spells (.number x) s
  | string {body t : JsString} (h : Chars body t) : Spells (.string t) (34 :: (body ++ [34]))
  | emptyArray {blank : JsString} (h : Blank blank) : Spells (.array []) (91 :: (blank ++ [93]))
  | array {items : List (Json N)} {body : JsString} (h : SpellsItems items body) : Spells (.array items) (91 :: (body ++ [93]))
  | emptyObject {blank : JsString} (h : Blank blank) : Spells (.object []) (123 :: (blank ++ [125]))
  | object {entries : List (JsString × Json N)} {body : JsString} (h : SpellsEntries entries body) :
    Spells (.object entries) (123 :: (body ++ [125]))

inductive SpellsItems : List (Json N) → JsString → Prop where
  | last {v : Json N} {before text after : JsString} (hbefore : Blank before) (hv : Spells v text) (hafter : Blank after) :
    SpellsItems [v] (before ++ (text ++ after))
  | cons {v : Json N} {items : List (Json N)} {before text after tail : JsString} (hbefore : Blank before)
    (hv : Spells v text) (hafter : Blank after) (h : SpellsItems items tail) :
    SpellsItems (v :: items) (before ++ (text ++ (after ++ 44 :: tail)))

inductive SpellsEntries : List (JsString × Json N) → JsString → Prop where
  | last {key : JsString} {v : Json N} {before body beforeColon afterColon text after : JsString} (hbefore : Blank before)
    (hkey : Chars body key) (hbeforeColon : Blank beforeColon) (hafterColon : Blank afterColon) (hv : Spells v text)
    (hafter : Blank after) :
    SpellsEntries [(key, v)] (before ++ 34 :: (body ++ 34 :: (beforeColon ++ 58 :: (afterColon ++ (text ++ after)))))
  | cons {key : JsString} {v : Json N} {entries : List (JsString × Json N)}
    {before body beforeColon afterColon text after tail : JsString} (hbefore : Blank before)
    (hkey : Chars body key) (hbeforeColon : Blank beforeColon) (hafterColon : Blank afterColon) (hv : Spells v text)
    (hafter : Blank after) (h : SpellsEntries entries tail) :
    SpellsEntries ((key, v) :: entries)
      (before ++ 34 :: (body ++ 34 :: (beforeColon ++ 58 :: (afterColon ++ (text ++ (after ++ 44 :: tail))))))

end

end Spells

/-! ### Limits -/

section Limits
variable {N : Type}

mutual

/-- How deep containers stand in each other. -/
def nesting : Json N → ℕ
  | .array items => nestingItems items + 1
  | .object entries => nestingEntries entries + 1
  | _ => 0

def nestingItems : List (Json N) → ℕ
  | [] => 0
  | v :: rest => max (nesting v) (nestingItems rest)

def nestingEntries : List (JsString × Json N) → ℕ
  | [] => 0
  | (_, v) :: rest => max (nesting v) (nestingEntries rest)

end

mutual

/-- The strings and the keys of a value. -/
def texts : Json N → List JsString
  | .string s => [s]
  | .array items => textsItems items
  | .object entries => textsEntries entries
  | _ => []

def textsItems : List (Json N) → List JsString
  | [] => []
  | v :: rest => texts v ++ textsItems rest

def textsEntries : List (JsString × Json N) → List JsString
  | [] => []
  | (key, v) :: rest => key :: (texts v ++ textsEntries rest)

end

/-- A string the scanner lets through. -/
structure TextFits (s : JsString) : Prop where
  wellFormed : wellFormed s = true
  length : (utf8 s).length ≤ maxJsonStringUtf8Bytes

/-- A value whose containers and strings are let through at a depth. -/
structure Fits (depth : ℕ) (v : Json N) : Prop where
  nesting : nesting v + depth ≤ maxJsonDepth
  texts : ∀ s ∈ texts v, TextFits s

structure FitsItems (depth : ℕ) (items : List (Json N)) : Prop where
  nesting : nestingItems items + depth ≤ maxJsonDepth
  texts : ∀ s ∈ textsItems items, TextFits s

structure FitsEntries (depth : ℕ) (entries : List (JsString × Json N)) : Prop where
  nesting : nestingEntries entries + depth ≤ maxJsonDepth
  texts : ∀ s ∈ textsEntries entries, TextFits s

theorem fitsItems_nil {depth : ℕ} (hdepth : depth ≤ maxJsonDepth) : FitsItems depth ([] : List (Json N)) :=
  ⟨by rwa [nestingItems, Nat.zero_add], nofun⟩

theorem fitsItems_cons {depth : ℕ} {v : Json N} {items : List (Json N)} :
    FitsItems depth (v :: items) ↔ Fits depth v ∧ FitsItems depth items := by
  refine ⟨fun h => ⟨⟨?_, ?_⟩, ⟨?_, ?_⟩⟩, fun ⟨hv, hitems⟩ => ⟨?_, ?_⟩⟩
  · have hmax := h.nesting
    rw [nestingItems] at hmax
    omega
  · exact fun s hs => h.texts s (List.mem_append_left _ hs)
  · have hmax := h.nesting
    rw [nestingItems] at hmax
    omega
  · exact fun s hs => h.texts s (List.mem_append_right _ hs)
  · have h1 := hv.nesting
    have h2 := hitems.nesting
    rw [nestingItems]
    omega
  · exact List.forall_mem_append.mpr ⟨hv.texts, hitems.texts⟩

theorem fitsEntries_nil {depth : ℕ} (hdepth : depth ≤ maxJsonDepth) : FitsEntries depth ([] : List (JsString × Json N)) :=
  ⟨by rwa [nestingEntries, Nat.zero_add], nofun⟩

theorem fitsEntries_cons {depth : ℕ} {key : JsString} {v : Json N} {entries : List (JsString × Json N)} :
    FitsEntries depth ((key, v) :: entries) ↔ TextFits key ∧ Fits depth v ∧ FitsEntries depth entries := by
  refine ⟨fun h => ⟨?_, ⟨?_, ?_⟩, ⟨?_, ?_⟩⟩, fun ⟨hkey, hv, hentries⟩ => ⟨?_, ?_⟩⟩
  · exact h.texts key (List.mem_cons_self ..)
  · have hmax := h.nesting
    rw [nestingEntries] at hmax
    omega
  · exact fun s hs => h.texts s (List.mem_cons_of_mem _ (List.mem_append_left _ hs))
  · have hmax := h.nesting
    rw [nestingEntries] at hmax
    omega
  · exact fun s hs => h.texts s (List.mem_cons_of_mem _ (List.mem_append_right _ hs))
  · have h1 := hv.nesting
    have h2 := hentries.nesting
    rw [nestingEntries]
    omega
  · exact List.forall_mem_cons.mpr ⟨hkey, List.forall_mem_append.mpr ⟨hv.texts, hentries.texts⟩⟩

theorem fits_array {depth : ℕ} {items : List (Json N)} : Fits depth (.array items) ↔ FitsItems (depth + 1) items := by
  refine ⟨fun h => ⟨?_, h.texts⟩, fun h => ⟨?_, h.texts⟩⟩
  · have hmax := h.nesting
    rw [nesting] at hmax
    omega
  · have hmax := h.nesting
    rw [nesting]
    omega

theorem fits_object {depth : ℕ} {entries : List (JsString × Json N)} :
    Fits depth (.object entries) ↔ FitsEntries (depth + 1) entries := by
  refine ⟨fun h => ⟨?_, h.texts⟩, fun h => ⟨?_, h.texts⟩⟩
  · have hmax := h.nesting
    rw [nesting] at hmax
    omega
  · have hmax := h.nesting
    rw [nesting]
    omega

end Limits

end MoeNG.Contracts
