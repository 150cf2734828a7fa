import MoeNG.Kernel.Object
import MoeNG.Kernel.Utf8
import MoeNG.Lib.Codes

/-!
# JSON texts determine what they print

A printed text has no surrogate that stands alone, so its UTF-8 bytes determine
it; a string text is read back unit by unit; and a value is read off its text
up to the first comma or closing bracket behind it.
-/

namespace MoeNG.Kernel
open MoeNG.Lib

/-! ### Strings without a lone surrogate -/

def wellFormed : JsString → Bool
  | [] => true
  | [c] => !isSurrogate c
  | high :: low :: rest =>
    if isHighSurrogate high && isLowSurrogate low then wellFormed rest else !isSurrogate high && wellFormed (low :: rest)

theorem wellFormed_cons (c : CodeUnit) (rest : JsString) (hc : isSurrogate c = false) :
    wellFormed (c :: rest) = wellFormed rest := by
  have hhigh : isHighSurrogate c = false := by
    rw [isSurrogate, Bool.or_eq_false_iff] at hc
    exact hc.1
  cases rest with
  | nil => simp [wellFormed, hc]
  | cons d rest => simp [wellFormed, hc, hhigh]

theorem wellFormed_append (s t : JsString) (hs : wellFormed s = true) (ht : wellFormed t = true) :
    wellFormed (s ++ t) = true := by
  induction s using codePoints.induct with
  | case1 => exact ht
  | case2 c =>
    have hc : isSurrogate c = false := by simpa [wellFormed] using hs
    rw [List.singleton_append, wellFormed_cons c t hc]
    exact ht
  | case3 high low rest hpair ih =>
    simp only [wellFormed, hpair, if_true] at hs
    simp only [List.cons_append, wellFormed, hpair, if_true]
    exact ih hs
  | case4 high low rest hpair ih =>
    simp only [wellFormed, hpair, if_false, Bool.and_eq_true, Bool.not_eq_true', Bool.false_eq_true] at hs
    rw [List.cons_append, wellFormed_cons high _ hs.1]
    exact ih hs.2

theorem wellFormed_plain (s : JsString) (h : ∀ c ∈ s, isSurrogate c = false) : wellFormed s = true := by
  induction s with
  | nil => rfl
  | cons c rest ih =>
    rw [wellFormed_cons c rest (h c (List.mem_cons_self ..))]
    exact ih fun d hd => h d (List.mem_cons_of_mem _ hd)

def pointUnits (p : CodePoint) : JsString :=
  if p.val < 0x10000 then [Fin.ofNat 65536 p]
  else [Fin.ofNat 65536 (0xD800 + (p.val - 0x10000) / 1024), Fin.ofNat 65536 (0xDC00 + (p.val - 0x10000) % 1024)]

theorem ofNat_unit (n : ℕ) (c : CodeUnit) (h : n = c.val) : Fin.ofNat 65536 n = c := by
  subst h
  exact Fin.ext (Nat.mod_eq_of_lt c.isLt)

theorem pointUnits_unitPoint (c : CodeUnit) (hc : isSurrogate c = false) : pointUnits (unitPoint c) = [c] := by
  have hval : (unitPoint c).val = c.val := by
    unfold unitPoint
    unfold isSurrogate at hc
    rw [hc]
    show c.val % 0x110000 = c.val
    omega
  unfold pointUnits
  rw [hval, if_pos c.isLt, ofNat_unit c.val c rfl]

theorem pointUnits_pairPoint (high low : CodeUnit) (hh : isHighSurrogate high = true) (hl : isLowSurrogate low = true) :
    pointUnits (pairPoint high low) = [high, low] := by
  simp only [isHighSurrogate, isLowSurrogate, decide_eq_true_eq] at hh hl
  have hhigh : 0xD800 ≤ high.val ∧ high.val ≤ 0xDBFF := hh
  have hlow : 0xDC00 ≤ low.val ∧ low.val ≤ 0xDFFF := hl
  have hval : (pairPoint high low).val = 0x10000 + (high.val - 0xD800) * 1024 + (low.val - 0xDC00) := by
    show (0x10000 + (high.val - 0xD800) * 1024 + (low.val - 0xDC00)) % 0x110000 = _
    omega
  unfold pointUnits
  rw [hval, if_neg (by omega), ofNat_unit _ high (by omega), ofNat_unit _ low (by omega)]

theorem codePoints_units (s : JsString) (h : wellFormed s = true) : (codePoints s).flatMap pointUnits = s := by
  induction s using codePoints.induct with
  | case1 => rfl
  | case2 c =>
    have hc : isSurrogate c = false := by simpa [wellFormed] using h
    simp [codePoints, pointUnits_unitPoint c hc]
  | case3 high low rest hpair ih =>
    simp only [wellFormed, hpair, if_true] at h
    have hboth := Bool.and_eq_true_iff.mp hpair
    simp [codePoints, hpair, pointUnits_pairPoint high low hboth.1 hboth.2, ih h]
  | case4 high low rest hpair ih =>
    simp only [wellFormed, hpair, if_false, Bool.and_eq_true, Bool.not_eq_true', Bool.false_eq_true] at h
    simp [codePoints, hpair, pointUnits_unitPoint high h.1, ih h.2]

/-- Bytes tell well-formed strings apart. -/
theorem utf8_wellFormed_inj (s t : JsString) (hs : wellFormed s = true) (ht : wellFormed t = true) (h : utf8 s = utf8 t) :
    s = t := by
  rw [← codePoints_units s hs, ← codePoints_units t ht, (utf8_eq_iff s t).mp h]

/-! ### String texts -/

def hexValue (c : CodeUnit) : ℕ := if c.val < 58 then c.val - 48 else c.val - 87

def unescape (c : CodeUnit) : CodeUnit :=
  if c = 98 then 8 else if c = 102 then 12 else if c = 110 then 10 else if c = 114 then 13 else if c = 116 then 9 else c

/-- The units of a string text behind its opening quote, and what follows the closing one. -/
def readUnits : JsString → Option (JsString × JsString)
  | [] => none
  | c :: rest =>
    if c = 34 then some ([], rest)
    else if c = 92 then
      match rest with
      | [] => none
      | e :: rest =>
        if e = 117 then
          match rest with
          | a :: b :: c :: d :: rest =>
            (readUnits rest).map fun p =>
              (Fin.ofNat 65536 (hexValue a * 4096 + hexValue b * 256 + hexValue c * 16 + hexValue d) :: p.1, p.2)
          | _ => none
        else (readUnits rest).map fun p => (unescape e :: p.1, p.2)
    else (readUnits rest).map fun p => (c :: p.1, p.2)

theorem hexValue_hexDigit (n : ℕ) (h : n < 16) : hexValue (hexDigit n) = n := by
  revert n
  decide

theorem readUnits_hex (c : CodeUnit) (rest : JsString) :
    readUnits (lit "\\u" ++ [hexDigit (c.val / 4096), hexDigit (c.val / 256 % 16), hexDigit (c.val / 16 % 16),
      hexDigit (c.val % 16)] ++ rest) = (readUnits rest).map fun p => (c :: p.1, p.2) := by
  have hc : c.val < 65536 := c.isLt
  show readUnits (92 :: 117 :: _ :: _ :: _ :: _ :: rest) = _
  rw [readUnits, if_neg (by decide), if_pos rfl, if_pos rfl, hexValue_hexDigit _ (by omega),
    hexValue_hexDigit _ (by omega), hexValue_hexDigit _ (by omega),
    hexValue_hexDigit _ (by omega), ofNat_unit _ c (by omega)]

theorem readUnits_plain (c : CodeUnit) (rest : JsString) (hquote : c ≠ 34) (hslash : c ≠ 92) :
    readUnits (c :: rest) = (readUnits rest).map fun p => (c :: p.1, p.2) := by
  rw [readUnits.eq_def]
  dsimp only
  rw [if_neg hquote, if_neg hslash]

theorem readUnits_quote (rest : JsString) : readUnits (34 :: rest) = some ([], rest) := by
  rw [readUnits.eq_def]
  rfl

theorem readUnits_escape (e : CodeUnit) (rest : JsString) (he : e ≠ 117) :
    readUnits (92 :: e :: rest) = (readUnits rest).map fun p => (unescape e :: p.1, p.2) := by
  rw [readUnits.eq_def]
  dsimp only
  rw [if_neg (by decide), if_pos rfl, if_neg he]

theorem readUnits_jsonUnit (c : CodeUnit) (rest : JsString) :
    readUnits (jsonUnit c ++ rest) = (readUnits rest).map fun p => (c :: p.1, p.2) := by
  unfold jsonUnit
  split_ifs with h1 h2 h3 h4 h5 h6 h7 h8
  · subst h1
    exact readUnits_escape 34 rest (by decide)
  · subst h2
    exact readUnits_escape 92 rest (by decide)
  · subst h3
    exact readUnits_escape 98 rest (by decide)
  · subst h4
    exact readUnits_escape 102 rest (by decide)
  · subst h5
    exact readUnits_escape 110 rest (by decide)
  · subst h6
    exact readUnits_escape 114 rest (by decide)
  · subst h7
    exact readUnits_escape 116 rest (by decide)
  · have hlt : c.val < 32 := h8
    have hhex := readUnits_hex c rest
    rw [show c.val / 4096 = 0 by omega, show c.val / 256 % 16 = 0 by omega, show c.val / 16 % 16 = c.val / 16 by omega] at hhex
    exact hhex
  · exact readUnits_plain c rest h1 h2

theorem readUnits_jsonLone (c : CodeUnit) (rest : JsString) :
    readUnits (jsonLone c ++ rest) = (readUnits rest).map fun p => (c :: p.1, p.2) := by
  unfold jsonLone
  split
  · exact readUnits_hex c rest
  · exact readUnits_jsonUnit c rest

theorem surrogate_plain (c : CodeUnit) (h : isSurrogate c = true) : c ≠ 34 ∧ c ≠ 92 := by
  constructor
  · rintro rfl
    exact absurd h (by decide)
  · rintro rfl
    exact absurd h (by decide)

theorem readUnits_jsonUnits (s rest : JsString) : readUnits (jsonUnits s ++ 34 :: rest) = some (s, rest) := by
  induction s using jsonUnits.induct with
  | case1 => exact readUnits_quote rest
  | case2 c =>
    rw [jsonUnits, readUnits_jsonLone, readUnits_quote]
    rfl
  | case3 high low tail hpair ih =>
    have hboth := Bool.and_eq_true_iff.mp hpair
    have hhigh := surrogate_plain high (by rw [isSurrogate, hboth.1]; rfl)
    have hlow := surrogate_plain low (by rw [isSurrogate, hboth.2, Bool.or_true])
    rw [jsonUnits, if_pos hpair, List.cons_append, List.cons_append, readUnits_plain high _ hhigh.1 hhigh.2,
      readUnits_plain low _ hlow.1 hlow.2, ih]
    rfl
  | case4 high low tail hpair ih =>
    rw [jsonUnits, if_neg hpair, List.append_assoc, readUnits_jsonLone, ih]
    rfl

theorem jsonText_prefixCode : PrefixCode jsonText := by
  intro s t x y h
  have htext (s x : JsString) : jsonText s ++ x = 34 :: (jsonUnits s ++ 34 :: x) := by
    show [34] ++ jsonUnits s ++ [34] ++ x = _
    simp
  rw [htext, htext] at h
  have hread := congrArg readUnits (List.cons.inj h).2
  rw [readUnits_jsonUnits, readUnits_jsonUnits] at hread
  have hpair := Option.some.inj hread
  exact ⟨congrArg Prod.fst hpair, congrArg Prod.snd hpair⟩

/-! ### Number texts -/

def isNumeral (c : CodeUnit) : Prop := c = 45 ∨ 48 ≤ c.val ∧ c.val ≤ 57

theorem decimalInt_numeral (z : ℤ) : ∀ c ∈ decimalInt z, isNumeral c := by
  intro c hc
  unfold decimalInt at hc
  split at hc
  · obtain hc | hc := List.mem_append.mp hc
    · exact .inl (List.mem_singleton.mp hc)
    · exact .inr (decimal_digit _ c hc)
  · exact .inr (decimal_digit _ c hc)

theorem decimal_ne_nil (n : ℕ) : decimal n ≠ [] := by
  unfold decimal
  split
  · exact List.cons_ne_nil _ _
  · rename_i h
    simpa [Nat.digits_eq_nil_iff_eq_zero] using h

theorem decimalInt_head (z : ℤ) : ∃ c rest, decimalInt z = c :: rest ∧ isNumeral c := by
  have hne : decimalInt z ≠ [] := by
    unfold decimalInt
    split
    · exact List.append_ne_nil_of_right_ne_nil _ (decimal_ne_nil _)
    · exact decimal_ne_nil _
  obtain ⟨c, rest, h⟩ := List.exists_cons_of_ne_nil hne
  exact ⟨c, rest, h, decimalInt_numeral z c (h ▸ List.mem_cons_self ..)⟩

theorem decimalInt_injective : Function.Injective decimalInt := by
  have hminus (m n : ℕ) (h : lit "-" ++ decimal m = decimal n) : False := by
    have hmem : (45 : CodeUnit) ∈ decimal n := h ▸ List.mem_cons_self ..
    exact absurd (decimal_digit n 45 hmem).1 (by decide)
  intro a b h
  unfold decimalInt at h
  split at h
  · rename_i ha
    split at h
    · rename_i hb
      have habs := decimal_injective (List.append_cancel_left h)
      omega
    · exact (hminus _ _ h).elim
  · rename_i ha
    split at h
    · exact (hminus _ _ h.symm).elim
    · rename_i hb
      have habs := decimal_injective h
      omega

/-! ### Value texts -/

mutual

/-- What a canonical printer accepts: no `undefined`, no number but an integer, nothing exotic. -/
def plain : Value → Bool
  | .null => true
  | .bool _ => true
  | .string _ => true
  | .number (.integer _) => true
  | .array items => plainItems items
  | .record properties => plainProperties properties
  | _ => false

def plainItems : List Value → Bool
  | [] => true
  | value :: rest => plain value && plainItems rest

def plainProperties : List (JsString × Value) → Bool
  | [] => true
  | (_, value) :: rest => plain value && plainProperties rest

end

/-- A value text ends before a comma, a closing bracket or the end. -/
def Stops (rest : JsString) : Prop := ∀ c ∈ rest.head?, c = 44 ∨ c = 93 ∨ c = 125

inductive Kind where
  | null
  | bool
  | number
  | string
  | array
  | record
  | none
  deriving DecidableEq

def headKind (c : CodeUnit) : Kind :=
  if c = 110 then .null else if c = 116 ∨ c = 102 then .bool else if c = 34 then .string
  else if c = 91 then .array else if c = 123 then .record else if c = 45 ∨ (48 ≤ c ∧ c ≤ 57) then .number else .none

def valueKind : Value → Kind
  | .null => .null
  | .bool _ => .bool
  | .number _ => .number
  | .string _ => .string
  | .array _ => .array
  | .record _ => .record
  | _ => .none

theorem headKind_numeral (c : CodeUnit) (h : isNumeral c) : headKind c = .number := by
  obtain rfl | ⟨hlow, hhigh⟩ := h
  · rfl
  · have hc (n : CodeUnit) (hn : n.val < 48 ∨ 57 < n.val) : c ≠ n := by
      rintro rfl
      omega
    unfold headKind
    rw [if_neg (hc 110 (by decide)), if_neg (not_or.mpr ⟨hc 116 (by decide), hc 102 (by decide)⟩),
      if_neg (hc 34 (by decide)), if_neg (hc 91 (by decide)), if_neg (hc 123 (by decide)), if_pos (.inr ⟨hlow, hhigh⟩)]

/-- The first unit of a value text tells the kind of the value. -/
theorem stringify_head (value : Value) (h : plain value = true) :
    ∃ c rest, stringify value = c :: rest ∧ headKind c = valueKind value := by
  cases value with
  | null => exact ⟨_, _, rfl, rfl⟩
  | bool b => cases b <;> exact ⟨_, _, rfl, rfl⟩
  | string s => exact ⟨_, _, rfl, rfl⟩
  | array items => exact ⟨_, _, rfl, rfl⟩
  | record properties => exact ⟨_, _, rfl, rfl⟩
  | number n =>
    cases n with
    | integer z =>
      obtain ⟨c, rest, htext, hc⟩ := decimalInt_head z
      exact ⟨c, rest, by rw [stringify, htext], headKind_numeral c hc⟩
    | negativeZero => cases h
    | other => cases h
  | undefined => cases h
  | exotic => cases h

theorem stringify_kind (v w : Value) (hv : plain v = true) (hw : plain w = true) (r q : JsString)
    (h : stringify v ++ r = stringify w ++ q) : valueKind v = valueKind w := by
  obtain ⟨c, rest, hvtext, hvkind⟩ := stringify_head v hv
  obtain ⟨d, rest', hwtext, hwkind⟩ := stringify_head w hw
  rw [hvtext, hwtext] at h
  rw [← hvkind, ← hwkind, (List.cons.inj h).1]

/-- The texts behind the first one, each after its comma. -/
def commaTexts (texts : List JsString) : JsString := texts.flatMap fun text => 44 :: text

theorem intercalate_eq (text : JsString) (texts : List JsString) :
    (lit ",").intercalate (text :: texts) = text ++ commaTexts texts := by
  induction texts generalizing text with
  | nil => simp [commaTexts]
  | cons next rest ih =>
    rw [List.intercalate_cons_cons, ih next]
    simp [commaTexts, lit_eq]

theorem stops_commaTexts (texts : List JsString) (close : CodeUnit) (rest : JsString) (hclose : close = 93 ∨ close = 125) :
    Stops (commaTexts texts ++ close :: rest) := by
  intro c hc
  cases texts with
  | nil =>
    obtain rfl : close = c := by simpa [commaTexts] using hc
    exact .inr hclose
  | cons text texts =>
    obtain rfl : 44 = c := by simpa [commaTexts] using hc
    exact .inl rfl

theorem stringify_numeral (a b : ℤ) (r q : JsString) (hr : Stops r) (hq : Stops q)
    (h : decimalInt a ++ r = decimalInt b ++ q) : a = b ∧ r = q := by
  have hstop (x : JsString) (hx : Stops x) : ∀ c ∈ x.head?, ¬ isNumeral c := by
    intro c hc
    obtain rfl | rfl | rfl := hx c hc <;> simp [isNumeral]
  obtain ⟨htext, hrest⟩ := append_span_inj isNumeral _ _ _ _ (decimalInt_numeral a) (decimalInt_numeral b)
    (hstop r hr) (hstop q hq) h
  exact ⟨decimalInt_injective htext, hrest⟩

theorem valueKind_plain (value : Value) (h : plain value = true) : valueKind value ≠ .none := by
  cases value with
  | undefined => cases h
  | exotic => cases h
  | _ => exact nofun

/-- No value text starts with what ends one. -/
theorem stringify_ne_stop (value : Value) (h : plain value = true) (c : CodeUnit) (hc : c = 44 ∨ c = 93 ∨ c = 125)
    (rest x : JsString) : stringify value ++ x ≠ c :: rest := by
  obtain ⟨d, tail, htext, hd⟩ := stringify_head value h
  intro heq
  rw [htext] at heq
  have hkind : valueKind value = headKind c := by rw [← hd, (List.cons.inj heq).1]
  have hstop : headKind c = .none := by obtain rfl | rfl | rfl := hc <;> decide
  exact valueKind_plain value h (hkind.trans hstop)

theorem comma_inj (texts texts' : List JsString) (close : CodeUnit) (hclose : close ≠ 44) (r q : JsString)
    (h : commaTexts texts ++ close :: r = commaTexts texts' ++ close :: q) :
    (lit ",").intercalate texts ++ close :: r = (lit ",").intercalate texts' ++ close :: q := by
  cases texts with
  | nil =>
    cases texts' with
    | nil => exact h
    | cons text' rest' => exact absurd (List.cons.inj h).1 hclose
  | cons text rest =>
    cases texts' with
    | nil => exact absurd (List.cons.inj h).1.symm hclose
    | cons text' rest' =>
      rw [intercalate_eq, intercalate_eq]
      exact (List.cons.inj h).2

/-- A property text ends its key before its value starts. -/
theorem property_inj (key key' : JsString) (x y : JsString)
    (h : jsonText key ++ (lit ":" ++ x) = jsonText key' ++ (lit ":" ++ y)) : key = key' ∧ x = y := by
  obtain ⟨rfl, hrest⟩ := jsonText_prefixCode _ _ _ _ h
  exact ⟨rfl, List.append_cancel_left hrest⟩

theorem property_ne_stop (key : JsString) (x rest : JsString) : jsonText key ++ x ≠ 125 :: rest := by
  intro h
  exact absurd (List.cons.inj h).1 (by decide)

theorem bracket_inj (opening closing : String) (body body' r q : JsString)
    (h : lit opening ++ body ++ lit closing ++ r = lit opening ++ body' ++ lit closing ++ q) :
    body ++ (lit closing ++ r) = body' ++ (lit closing ++ q) := by
  simpa only [List.append_assoc, List.append_cancel_left_eq] using h

mutual

/-- Two values whose texts, up to what ends them, are the same. -/
theorem stringify_inj : ∀ (v w : Value) (r q : JsString), plain v = true → plain w = true → Stops r → Stops q →
    stringify v ++ r = stringify w ++ q → v = w ∧ r = q := by
  intro v w r q hv hw hr hq h
  have hkind := stringify_kind v w hv hw r q h
  cases v with
  | null =>
    cases w <;> cases hkind
    exact ⟨rfl, List.append_cancel_left h⟩
  | bool b =>
    cases w <;> cases hkind
    rename_i b'
    cases b <;> cases b' <;> first | exact ⟨rfl, List.append_cancel_left h⟩ | cases h
  | string s =>
    cases w <;> cases hkind
    rename_i t
    obtain ⟨rfl, hrest⟩ := jsonText_prefixCode _ _ _ _ h
    exact ⟨rfl, hrest⟩
  | number n =>
    cases w <;> cases hkind
    rename_i m
    cases n with
    | integer a =>
      cases m with
      | integer b =>
        obtain ⟨rfl, hrest⟩ := stringify_numeral a b r q hr hq h
        exact ⟨rfl, hrest⟩
      | negativeZero => cases hw
      | other => cases hw
    | negativeZero => cases hv
    | other => cases hv
  | array items =>
    cases w <;> cases hkind
    rename_i items'
    obtain ⟨rfl, hrest⟩ := stringifyItems_inj items items' r q hv hw (bracket_inj _ _ _ _ r q h)
    exact ⟨rfl, hrest⟩
  | record properties =>
    cases w <;> cases hkind
    rename_i properties'
    obtain ⟨rfl, hrest⟩ := stringifyProperties_inj properties properties' r q hv hw (bracket_inj _ _ _ _ r q h)
    exact ⟨rfl, hrest⟩
  | undefined => cases hv
  | exotic => cases hv

theorem stringifyItems_inj : ∀ (items items' : List Value) (r q : JsString), plainItems items = true →
    plainItems items' = true →
    (lit ",").intercalate (stringifyItems items) ++ (lit "]" ++ r)
      = (lit ",").intercalate (stringifyItems items') ++ (lit "]" ++ q) →
    items = items' ∧ r = q := by
  intro items items' r q hv hw h
  cases items with
  | nil =>
    cases items' with
    | nil => exact ⟨rfl, List.append_cancel_left h⟩
    | cons w rest' =>
      rw [plainItems, Bool.and_eq_true] at hw
      rw [stringifyItems, stringifyItems, intercalate_eq, List.append_assoc] at h
      exact absurd h.symm (stringify_ne_stop w hw.1 93 (by decide) _ _)
  | cons v rest =>
    rw [plainItems, Bool.and_eq_true] at hv
    rw [stringifyItems, intercalate_eq, List.append_assoc] at h
    cases items' with
    | nil => exact absurd h (stringify_ne_stop v hv.1 93 (by decide) _ _)
    | cons w rest' =>
      rw [plainItems, Bool.and_eq_true] at hw
      rw [stringifyItems, intercalate_eq, List.append_assoc] at h
      obtain ⟨rfl, htail⟩ := stringify_inj v w _ _ hv.1 hw.1 (stops_commaTexts _ 93 r (.inl rfl))
        (stops_commaTexts _ 93 q (.inl rfl)) h
      obtain ⟨rfl, hrest⟩ := stringifyItems_inj rest rest' r q hv.2 hw.2 (comma_inj _ _ 93 (by decide) r q htail)
      exact ⟨rfl, hrest⟩

theorem stringifyProperties_inj : ∀ (properties properties' : List (JsString × Value)) (r q : JsString),
    plainProperties properties = true → plainProperties properties' = true →
    (lit ",").intercalate (stringifyProperties properties) ++ (lit "\x7d" ++ r)
      = (lit ",").intercalate (stringifyProperties properties') ++ (lit "\x7d" ++ q) →
    properties = properties' ∧ r = q := by
  intro properties properties' r q hv hw h
  cases properties with
  | nil =>
    cases properties' with
    | nil => exact ⟨rfl, List.append_cancel_left h⟩
    | cons entry' rest' =>
      obtain ⟨key', w⟩ := entry'
      simp only [stringifyProperties, intercalate_eq, List.append_assoc] at h
      exact absurd h.symm (property_ne_stop key' _ _)
  | cons entry rest =>
    obtain ⟨key, v⟩ := entry
    rw [plainProperties, Bool.and_eq_true] at hv
    cases properties' with
    | nil =>
      simp only [stringifyProperties, intercalate_eq, List.append_assoc] at h
      exact absurd h (property_ne_stop key _ _)
    | cons entry' rest' =>
      obtain ⟨key', w⟩ := entry'
      rw [plainProperties, Bool.and_eq_true] at hw
      simp only [stringifyProperties, intercalate_eq, List.append_assoc] at h
      obtain ⟨rfl, hvalues⟩ := property_inj key key' _ _ h
      obtain ⟨rfl, htail⟩ := stringify_inj v w _ _ hv.1 hw.1 (stops_commaTexts _ 125 r (.inr rfl))
        (stops_commaTexts _ 125 q (.inr rfl)) hvalues
      obtain ⟨rfl, hrest⟩ := stringifyProperties_inj rest rest' r q hv.2 hw.2 (comma_inj _ _ 125 (by decide) r q htail)
      exact ⟨rfl, hrest⟩

end

/-! ### Printed texts are well formed -/

theorem wellFormed_lit (s : String) (h : (lit s).all (fun c => !isSurrogate c) = true) : wellFormed (lit s) = true :=
  wellFormed_plain _ fun c hc => by simpa using List.all_eq_true.mp h c hc

theorem hexDigit_plain (n : ℕ) (h : n < 16) : isSurrogate (hexDigit n) = false := by
  revert n
  decide

theorem wellFormed_jsonUnit (c : CodeUnit) (hc : isSurrogate c = false) : wellFormed (jsonUnit c) = true := by
  unfold jsonUnit
  split_ifs with h1 h2 h3 h4 h5 h6 h7 h8
  · decide
  · decide
  · decide
  · decide
  · decide
  · decide
  · decide
  · have hlt : c.val < 32 := h8
    refine wellFormed_append _ _ (by decide) (wellFormed_plain _ fun d hd => ?_)
    simp only [List.mem_cons, List.not_mem_nil, or_false] at hd
    obtain rfl | rfl := hd
    · exact hexDigit_plain _ (by omega)
    · exact hexDigit_plain _ (by omega)
  · rw [wellFormed_cons c [] hc]
    rfl

theorem wellFormed_jsonLone (c : CodeUnit) : wellFormed (jsonLone c) = true := by
  have hc : c.val < 65536 := c.isLt
  unfold jsonLone
  split
  · refine wellFormed_append _ _ (by decide) (wellFormed_plain _ fun d hd => ?_)
    simp only [List.mem_cons, List.not_mem_nil, or_false] at hd
    obtain rfl | rfl | rfl | rfl := hd <;> exact hexDigit_plain _ (by omega)
  · rename_i h
    exact wellFormed_jsonUnit c (Bool.eq_false_iff.mpr h)

theorem wellFormed_jsonUnits (s : JsString) : wellFormed (jsonUnits s) = true := by
  induction s using jsonUnits.induct with
  | case1 => rfl
  | case2 c => exact wellFormed_jsonLone c
  | case3 high low rest hpair ih =>
    rw [jsonUnits, if_pos hpair, wellFormed, if_pos hpair]
    exact ih
  | case4 high low rest hpair ih =>
    rw [jsonUnits, if_neg hpair]
    exact wellFormed_append _ _ (wellFormed_jsonLone high) ih

theorem wellFormed_jsonText (s : JsString) : wellFormed (jsonText s) = true :=
  wellFormed_append _ _ (wellFormed_append _ _ (by decide) (wellFormed_jsonUnits s)) (by decide)

theorem wellFormed_decimalInt (z : ℤ) : wellFormed (decimalInt z) = true := by
  refine wellFormed_plain _ fun c hc => ?_
  obtain rfl | ⟨-, hhigh⟩ := decimalInt_numeral z c hc
  · decide
  · exact isSurrogate_of_lt c (by omega)

theorem wellFormed_intercalate (texts : List JsString) (h : ∀ text ∈ texts, wellFormed text = true) :
    wellFormed ((lit ",").intercalate texts) = true := by
  induction texts with
  | nil => rfl
  | cons text rest ih =>
    have htext := h text (List.mem_cons_self ..)
    have hrest := ih fun t ht => h t (List.mem_cons_of_mem _ ht)
    cases rest with
    | nil =>
      rw [List.intercalate_singleton]
      exact htext
    | cons next tail =>
      rw [List.intercalate_cons_cons]
      exact wellFormed_append _ _ (wellFormed_append _ _ htext (by decide)) hrest

mutual

theorem wellFormed_stringify : ∀ value : Value, wellFormed (stringify value) = true
  | .undefined => rfl
  | .null => by decide
  | .bool true => by decide
  | .bool false => by decide
  | .string s => wellFormed_jsonText s
  | .number (.integer z) => wellFormed_decimalInt z
  | .number .negativeZero => by decide
  | .number .other => by decide
  | .array items => by
    rw [stringify]
    exact wellFormed_append _ _ (wellFormed_append _ _ (by decide)
      (wellFormed_intercalate _ (wellFormed_stringifyItems items))) (by decide)
  | .record properties => by
    rw [stringify]
    exact wellFormed_append _ _ (wellFormed_append _ _ (by decide)
      (wellFormed_intercalate _ (wellFormed_stringifyProperties properties))) (by decide)
  | .exotic => rfl

theorem wellFormed_stringifyItems : ∀ items : List Value, ∀ text ∈ stringifyItems items, wellFormed text = true
  | [], _, h => by cases h
  | value :: rest, text, h => by
    rw [stringifyItems] at h
    obtain rfl | h := List.mem_cons.mp h
    · exact wellFormed_stringify value
    · exact wellFormed_stringifyItems rest text h

theorem wellFormed_stringifyProperties :
    ∀ properties : List (JsString × Value), ∀ text ∈ stringifyProperties properties, wellFormed text = true
  | [], _, h => by cases h
  | (key, value) :: rest, text, h => by
    rw [stringifyProperties] at h
    obtain rfl | h := List.mem_cons.mp h
    · exact wellFormed_append _ _ (wellFormed_append _ _ (wellFormed_jsonText key) (by decide)) (wellFormed_stringify value)
    · exact wellFormed_stringifyProperties rest text h

end

/-- The bytes of a text determine the value. -/
theorem stringify_bytes_inj (v w : Value) (hv : plain v = true) (hw : plain w = true)
    (h : utf8 (stringify v) = utf8 (stringify w)) : v = w := by
  have htext := utf8_wellFormed_inj _ _ (wellFormed_stringify v) (wellFormed_stringify w) h
  refine (stringify_inj v w [] [] hv hw nofun nofun ?_).1
  rw [htext]

end MoeNG.Kernel

/-!
## Sequences of counted texts

A counted text ends where its count says, so a sequence of them is told apart
up to the code points of its members, also after the encoding.
-/

namespace MoeNG.Kernel
open MoeNG.Lib

theorem codePoints_append (s t : JsString) (h : ∀ c ∈ t.head?, isSurrogate c = false) :
    codePoints (s ++ t) = codePoints s ++ codePoints t := by
  cases t with
  | nil => simp [codePoints]
  | cons c rest =>
    have hc : isSurrogate c = false := h c rfl
    have hhead := codePoints_append_cons [] rest c hc
    rw [List.nil_append] at hhead
    rw [codePoints_append_cons s rest c hc, hhead]
    rfl

theorem decimal_head (n : ℕ) : ∃ c rest, decimal n = c :: rest ∧ isSurrogate c = false := by
  cases h : decimal n with
  | nil => exact absurd h (decimal_ne_nil n)
  | cons c rest =>
    have hc := decimal_digit n c (h ▸ List.mem_cons_self ..)
    exact ⟨c, rest, rfl, isSurrogate_of_lt c (by omega)⟩

theorem counted_head (s rest : JsString) : ∀ c ∈ (counted s ++ rest).head?, isSurrogate c = false := by
  obtain ⟨c, digits, hdecimal, hc⟩ := decimal_head s.length
  intro d hd
  rw [counted, hdecimal] at hd
  obtain rfl := Option.some.inj hd
  exact hc

theorem counted_flatMap_head (xs : List JsString) : ∀ c ∈ (xs.flatMap counted).head?, isSurrogate c = false := by
  cases xs with
  | nil => intro c hc; cases hc
  | cons x rest => exact counted_head x (rest.flatMap counted)

theorem codePoints_counted_append (s rest : JsString) (h : ∀ c ∈ rest.head?, isSurrogate c = false) :
    codePoints (counted s ++ rest)
      = (decimal s.length).map unitPoint ++ unitPoint 58 :: (codePoints s ++ codePoints rest) := by
  have hdecimal : ∀ d ∈ decimal s.length, d.val < 0xD800 := fun d hd => by
    have hdigit := decimal_digit s.length d hd
    omega
  have hsplit : counted s ++ rest = decimal s.length ++ 58 :: (s ++ rest) := by
    show decimal s.length ++ [58] ++ s ++ rest = _
    simp
  rw [hsplit, codePoints_append_cons _ _ 58 (by decide), codePoints_append s rest h, codePoints_plain _ hdecimal]

theorem counted_points_inj (xs ys : List JsString)
    (h : codePoints (xs.flatMap counted) = codePoints (ys.flatMap counted)) : xs.map codePoints = ys.map codePoints := by
  have hne (x : JsString) (rest : List JsString) : codePoints (counted x ++ rest.flatMap counted) ≠ [] := by
    rw [codePoints_counted_append x _ (counted_flatMap_head rest)]
    simp
  induction xs generalizing ys with
  | nil =>
    cases ys with
    | nil => rfl
    | cons y rest' => exact absurd h.symm (hne y rest')
  | cons x rest ih =>
    cases ys with
    | nil => exact absurd h (hne x rest)
    | cons y rest' =>
      rw [List.flatMap_cons, List.flatMap_cons, codePoints_counted_append x _ (counted_flatMap_head rest),
        codePoints_counted_append y _ (counted_flatMap_head rest')] at h
      obtain ⟨hdecimal, h⟩ := append_separator_inj _ _ _ _ _ (decimal_points_free _) (decimal_points_free _) h
      have hlength := decimal_points_inj _ _ hdecimal
      rw [← codePoints_length, ← codePoints_length] at hlength
      obtain ⟨hx, hrest⟩ := append_size_inj unitLength unitLength_pos _ _ _ _ hlength h
      rw [List.map_cons, List.map_cons, hx, ih rest' hrest]

end MoeNG.Kernel
