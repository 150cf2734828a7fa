import Mathlib.Algebra.BigOperators.Group.List.Basic
import Mathlib.Data.Nat.Digits.Lemmas
import MoeNG.Kernel.Primitives
import MoeNG.Lib.Codes
import MoeNG.Lib.Lists

/-!
# UTF-8 bytes of a string

What `Buffer.from(text)`, `TextEncoder.encode` and `hash.update(text, "utf8")`
give: a surrogate pair is one code point of four bytes, a surrogate that stands
alone is replaced by U+FFFD. The bytes determine the code points, and these
determine the string as far as no surrogate stood alone.
-/

namespace MoeNG.Kernel
open MoeNG.Lib

/-! ### Code points -/

abbrev Byte := Fin 256
abbrev CodePoint := Fin 0x110000

instance bytes_ne_zero : NeZero 256 := ⟨by decide⟩

instance codePoints_ne_zero : NeZero 0x110000 := ⟨by decide⟩

def isHighSurrogate (c : CodeUnit) : Bool := 0xD800 ≤ c ∧ c ≤ 0xDBFF
def isLowSurrogate (c : CodeUnit) : Bool := 0xDC00 ≤ c ∧ c ≤ 0xDFFF

def unitPoint (c : CodeUnit) : CodePoint :=
  if isHighSurrogate c || isLowSurrogate c then 0xFFFD else Fin.ofNat 0x110000 c

def pairPoint (high low : CodeUnit) : CodePoint :=
  Fin.ofNat 0x110000 (0x10000 + (high.val - 0xD800) * 1024 + (low.val - 0xDC00))

def codePoints : JsString → List CodePoint
  | [] => []
  | [c] => [unitPoint c]
  | high :: low :: rest =>
    if isHighSurrogate high && isLowSurrogate low then pairPoint high low :: codePoints rest
    else unitPoint high :: codePoints (low :: rest)

/-! ### Bytes -/

def octet (n : ℕ) : Byte := Fin.ofNat 256 n

def pointBytes (p : CodePoint) : List Byte :=
  let n := p.val
  if n < 0x80 then [octet n]
  else if n < 0x800 then [octet (0xC0 + n / 64), octet (0x80 + n % 64)]
  else if n < 0x10000 then [octet (0xE0 + n / 4096), octet (0x80 + n / 64 % 64), octet (0x80 + n % 64)]
  else [octet (0xF0 + n / 262144), octet (0x80 + n / 4096 % 64), octet (0x80 + n / 64 % 64), octet (0x80 + n % 64)]

def utf8 (s : JsString) : List Byte := (codePoints s).flatMap pointBytes

example : utf8 (lit "a") ++ utf8 [0xD83D, 0xDE00] = [97, 0xF0, 0x9F, 0x98, 0x80] := by decide

theorem octet_eq_iff (a b : ℕ) : octet a = octet b ↔ a % 256 = b % 256 := Fin.ext_iff

/-- A number below `256 ^ k` is its last `k` octets. -/
theorem octets_inj (k m n : ℕ) (hm : m < 256 ^ k) (hn : n < 256 ^ k)
    (h : ∀ i < k, octet (m / 256 ^ i) = octet (n / 256 ^ i)) : m = n := by
  induction k generalizing m n with
  | zero =>
    simp only [pow_zero, Nat.lt_one_iff] at hm hn
    rw [hm, hn]
  | succ k ih =>
    have hlow := (octet_eq_iff m n).mp (by simpa using h 0 (Nat.succ_pos k))
    have hhigh : m / 256 = n / 256 := by
      rw [pow_succ'] at hm hn
      refine ih _ _ (Nat.div_lt_of_lt_mul hm) (Nat.div_lt_of_lt_mul hn) fun i hi => ?_
      have hi' := h (i + 1) (Nat.succ_lt_succ hi)
      rwa [pow_succ', ← Nat.div_div_eq_div_mul, ← Nat.div_div_eq_div_mul] at hi'
    omega

theorem pointBytes_ne_nil (p : CodePoint) : pointBytes p ≠ [] := by
  unfold pointBytes
  dsimp only
  split_ifs <;> exact List.cons_ne_nil _ _

theorem pointBytes_prefixCode : PrefixCode pointBytes := by
  intro a b x y h
  have ha := a.isLt
  have hb := b.isLt
  rw [Fin.ext_iff]
  unfold pointBytes at h
  dsimp only at h
  split_ifs at h <;>
    simp only [List.cons_append, List.nil_append, List.cons.injEq, octet_eq_iff] at h
  all_goals first
    | exact ⟨by omega, h.2⟩
    | exact ⟨by omega, h.2.2⟩
    | exact ⟨by omega, h.2.2.2⟩
    | exact ⟨by omega, h.2.2.2.2⟩
    | omega

theorem utf8_eq_iff (s t : JsString) : utf8 s = utf8 t ↔ codePoints s = codePoints t := by
  constructor
  · exact pointBytes_prefixCode.flatMap_injective pointBytes_ne_nil _ _
  · intro h
    rw [utf8, utf8, h]

/-! ### Strings joined by a code unit that is no surrogate -/

def isSurrogate (c : CodeUnit) : Bool := isHighSurrogate c || isLowSurrogate c

theorem codePoints_append_cons (s t : JsString) (c : CodeUnit) (hc : isSurrogate c = false) :
    codePoints (s ++ c :: t) = codePoints s ++ unitPoint c :: codePoints t := by
  have hhigh : isHighSurrogate c = false := by
    simp only [isSurrogate, Bool.or_eq_false_iff] at hc
    exact hc.1
  have hlow : isLowSurrogate c = false := by
    simp only [isSurrogate, Bool.or_eq_false_iff] at hc
    exact hc.2
  fun_induction codePoints s with
  | case1 => cases t <;> simp [codePoints, hhigh]
  | case2 d => cases t <;> simp [codePoints, hhigh, hlow]
  | case3 high low rest hpair ih => simp only [List.cons_append, codePoints, hpair, if_true, ih]
  | case4 high low rest hpair ih =>
    simp only [List.cons_append, codePoints, hpair] at ih ⊢
    simp [ih]

/-- Code units of a code point. -/
def unitLength (p : CodePoint) : ℕ := if p.val < 0x10000 then 1 else 2

theorem unitLength_pos (p : CodePoint) : 0 < unitLength p := by
  unfold unitLength
  split <;> omega

theorem unitLength_unitPoint (c : CodeUnit) : unitLength (unitPoint c) = 1 := by
  have hc := c.isLt
  unfold unitLength unitPoint
  split
  · rfl
  · rw [Fin.val_ofNat, Nat.mod_eq_of_lt (by omega), if_pos hc]

theorem unitLength_pairPoint (high low : CodeUnit) (hh : isHighSurrogate high = true) (hl : isLowSurrogate low = true) :
    unitLength (pairPoint high low) = 2 := by
  simp only [isHighSurrogate, isLowSurrogate, decide_eq_true_eq] at hh hl
  have hhigh : high.val ≤ 0xDBFF := hh.2
  have hlow : low.val ≤ 0xDFFF := hl.2
  unfold unitLength pairPoint
  rw [Fin.val_ofNat, Nat.mod_eq_of_lt (by omega), if_neg (by omega)]

theorem codePoints_length (s : JsString) : ((codePoints s).map unitLength).sum = s.length := by
  fun_induction codePoints s with
  | case1 => rfl
  | case2 c => simp [unitLength_unitPoint]
  | case3 high low rest hpair ih =>
    rw [Bool.and_eq_true] at hpair
    simp only [List.map_cons, List.sum_cons, unitLength_pairPoint high low hpair.1 hpair.2, ih, List.length_cons]
    omega
  | case4 high low rest hpair ih =>
    simp only [List.map_cons, List.sum_cons, unitLength_unitPoint, ih, List.length_cons]
    omega

/-! ### Decimal texts -/

theorem decimal_digit (n : ℕ) (c : CodeUnit) (h : c ∈ decimal n) : 48 ≤ c.val ∧ c.val ≤ 57 := by
  unfold decimal at h
  split at h
  · rw [List.mem_singleton] at h
    subst h
    decide
  · obtain ⟨d, hd, rfl⟩ := List.mem_map.mp h
    have hlt : d < 10 := Nat.digits_lt_base (by decide) (List.mem_reverse.mp hd)
    show 48 ≤ (48 + d) % 65536 ∧ (48 + d) % 65536 ≤ 57
    omega

def decimalValue (s : JsString) : ℕ := Nat.ofDigits 10 (s.reverse.map fun c => c.val - 48)

theorem decimalValue_decimal (n : ℕ) : decimalValue (decimal n) = n := by
  unfold decimalValue decimal
  split
  · rename_i h
    rw [h]
    rfl
  · simp only [List.map_reverse, List.reverse_reverse, List.map_map]
    have hdigits : (Nat.digits 10 n).map ((fun c : CodeUnit => c.val - 48) ∘ fun d => Fin.ofNat 65536 (48 + d)) =
        Nat.digits 10 n := by
      refine (List.map_congr_left fun d hd => ?_).trans (List.map_id' _)
      have hlt : d < 10 := Nat.digits_lt_base (by decide) hd
      show (48 + d) % 65536 - 48 = d
      omega
    rw [hdigits, Nat.ofDigits_digits]

theorem decimal_injective : Function.Injective decimal := Function.LeftInverse.injective decimalValue_decimal

/-! ### Counted texts -/

theorem isSurrogate_of_lt (c : CodeUnit) (h : c.val < 0xD800) : isSurrogate c = false := by
  have hhigh : ¬ (0xD800 ≤ c ∧ c ≤ 0xDBFF) := fun hc => absurd (show 0xD800 ≤ c.val from hc.1) (by omega)
  have hlow : ¬ (0xDC00 ≤ c ∧ c ≤ 0xDFFF) := fun hc => absurd (show 0xDC00 ≤ c.val from hc.1) (by omega)
  simp only [isSurrogate, isHighSurrogate, isLowSurrogate, hhigh, hlow]
  rfl

theorem unitPoint_val (c : CodeUnit) (h : c.val < 0xD800) : (unitPoint c).val = c.val := by
  have hs := isSurrogate_of_lt c h
  unfold isSurrogate at hs
  unfold unitPoint
  rw [hs]
  show c.val % 0x110000 = c.val
  omega

theorem codePoints_plain (s : JsString) (h : ∀ c ∈ s, c.val < 0xD800) : codePoints s = s.map unitPoint := by
  induction s with
  | nil => rfl
  | cons c rest ih =>
    have hc := isSurrogate_of_lt c (h c (List.mem_cons_self ..))
    rw [List.map_cons, ← ih fun d hd => h d (List.mem_cons_of_mem _ hd)]
    exact codePoints_append_cons [] rest c hc

/-- The text of a string after its length: its code points are told apart from what follows. -/
def counted (s : JsString) : JsString := decimal s.length ++ lit ":" ++ s

theorem codePoints_counted (s rest : JsString) (c : CodeUnit) (hc : c.val < 0xD800) :
    codePoints (counted s ++ c :: rest)
      = (decimal s.length).map unitPoint ++ unitPoint 58 :: (codePoints s ++ unitPoint c :: codePoints rest) := by
  have hsplit : counted s ++ c :: rest = decimal s.length ++ 58 :: (s ++ c :: rest) := by
    show decimal s.length ++ [58] ++ s ++ c :: rest = _
    simp
  have hdecimal : ∀ d ∈ decimal s.length, d.val < 0xD800 := fun d hd => by
    have hdigit := decimal_digit s.length d hd
    omega
  rw [hsplit, codePoints_append_cons _ _ 58 (by decide), codePoints_append_cons s rest c (isSurrogate_of_lt c hc),
    codePoints_plain _ hdecimal]

theorem decimal_points_inj (m n : ℕ) (h : (decimal m).map unitPoint = (decimal n).map unitPoint) : m = n := by
  refine decimal_injective ?_
  have hval : ((decimal m).map unitPoint).map Fin.val = ((decimal n).map unitPoint).map Fin.val := by rw [h]
  rw [List.map_map, List.map_map] at hval
  have hdigits (k : ℕ) : (decimal k).map (Fin.val ∘ unitPoint) = (decimal k).map Fin.val :=
    List.map_congr_left fun d hd => unitPoint_val d (by have := decimal_digit k d hd; omega)
  rw [hdigits, hdigits] at hval
  exact List.map_injective_iff.mpr Fin.val_injective hval

theorem decimal_points_free (n : ℕ) : unitPoint 58 ∉ (decimal n).map unitPoint := by
  intro h
  obtain ⟨d, hd, heq⟩ := List.mem_map.mp h
  have hdigit := decimal_digit n d hd
  have hval := congrArg Fin.val heq
  rw [unitPoint_val d (by omega), unitPoint_val 58 (by decide)] at hval
  have h58 : (58 : CodeUnit).val = 58 := rfl
  omega

theorem counted_points_iff (s t x y : JsString) (c : CodeUnit) (hc : c.val < 0xD800) :
    codePoints (counted s ++ c :: x) = codePoints (counted t ++ c :: y) ↔
      codePoints s = codePoints t ∧ codePoints x = codePoints y := by
  rw [codePoints_counted s x c hc, codePoints_counted t y c hc]
  constructor
  · intro h
    obtain ⟨hdecimal, h⟩ := append_separator_inj _ _ _ _ _ (decimal_points_free _) (decimal_points_free _) h
    have hlength := decimal_points_inj _ _ hdecimal
    rw [← codePoints_length, ← codePoints_length] at hlength
    obtain ⟨hs, hrest⟩ := append_size_inj unitLength unitLength_pos _ _ _ _ hlength h
    exact ⟨hs, (List.cons.inj hrest).2⟩
  · rintro ⟨hs, hx⟩
    have hlength : s.length = t.length := by rw [← codePoints_length, ← codePoints_length, hs]
    rw [hs, hx, hlength]

end MoeNG.Kernel

/-!
## A hash known on a few texts

A table of texts and their digests, and some other injection elsewhere.
-/

namespace MoeNG.Kernel
open MoeNG.Lib

theorem byte_le_unit : 256 ≤ 65536 := by decide

def digestTable (table : List (List Byte × JsString)) (bytes : List Byte) : JsString :=
  match table.find? fun e => e.1 = bytes with
  | some e => e.2
  | none => 0 :: bytes.map (Fin.castLE byte_le_unit)

theorem digestTable_injective (table : List (List Byte × JsString)) (hdigests : (table.map Prod.snd).Nodup)
    (hhead : ∀ e ∈ table, e.2.head? ≠ some 0) : Function.Injective (digestTable table) := by
  intro x y h
  unfold digestTable at h
  cases hx : table.find? fun e => e.1 = x with
  | none =>
    cases hy : table.find? fun e => e.1 = y with
    | none =>
      rw [hx, hy] at h
      exact List.map_injective_iff.mpr (Fin.castLE_injective (by decide)) (List.cons.inj h).2
    | some e =>
      rw [hx, hy] at h
      exact absurd (congrArg List.head? h.symm) (hhead e (List.mem_of_find?_eq_some hy))
  | some e =>
    cases hy : table.find? fun e => e.1 = y with
    | none =>
      rw [hx, hy] at h
      exact absurd (congrArg List.head? h) (hhead e (List.mem_of_find?_eq_some hx))
    | some e' =>
      rw [hx, hy] at h
      have hsame := List.inj_on_of_nodup_map hdigests (List.mem_of_find?_eq_some hx) (List.mem_of_find?_eq_some hy) h
      have hkey : e.1 = x := by simpa using List.find?_some hx
      have hkey' : e'.1 = y := by simpa using List.find?_some hy
      rw [← hkey, ← hkey', hsame]

end MoeNG.Kernel

/-!
## JSON texts

What `JSON.stringify` prints for well-formed strings, arrays and records with a
fixed key order, and `jsonText` for strings in which a surrogate may stand
alone.
-/

namespace MoeNG.Kernel

def hexDigit (n : ℕ) : CodeUnit := Fin.ofNat 65536 (if n < 10 then 48 + n else 87 + n)

/-- `JSON.stringify` of one code unit of a well-formed string. -/
def jsonUnit (c : CodeUnit) : JsString :=
  if c = 34 then lit "\\\"" else if c = 92 then lit "\\\\" else if c = 8 then lit "\\b"
  else if c = 12 then lit "\\f" else if c = 10 then lit "\\n" else if c = 13 then lit "\\r"
  else if c = 9 then lit "\\t" else if c < 32 then lit "\\u00" ++ [hexDigit (c.val / 16), hexDigit (c.val % 16)]
  else [c]

def jsonString (s : JsString) : JsString := lit "\"" ++ s.flatMap jsonUnit ++ lit "\""

-- a surrogate that stands alone is escaped
def jsonLone (c : CodeUnit) : JsString :=
  if isSurrogate c then
    lit "\\u" ++ [hexDigit (c.val / 4096), hexDigit (c.val / 256 % 16), hexDigit (c.val / 16 % 16), hexDigit (c.val % 16)]
  else jsonUnit c

def jsonUnits : JsString → JsString
  | [] => []
  | [c] => jsonLone c
  | high :: low :: rest =>
    if isHighSurrogate high && isLowSurrogate low then high :: low :: jsonUnits rest
    else jsonLone high ++ jsonUnits (low :: rest)

def jsonText (s : JsString) : JsString := lit "\"" ++ jsonUnits s ++ lit "\""

def jsonArray (items : List JsString) : JsString := lit "[" ++ (lit ",").intercalate items ++ lit "]"

def jsonRecord (entries : List (String × JsString)) : JsString :=
  lit "\x7b" ++ (lit ",").intercalate (entries.map fun e => jsonString (lit e.1) ++ lit ":" ++ e.2) ++ lit "\x7d"

end MoeNG.Kernel
