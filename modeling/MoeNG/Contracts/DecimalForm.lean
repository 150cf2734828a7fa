import Mathlib.Data.Nat.Digits.Lemmas
import MoeNG.Contracts.BoundedNumber
import MoeNG.Lib.Scaled

/-!
# Normal forms of decimals (`packages/contracts/src/bounded-json-number.ts`)

A number text by its parts, the rational number it denotes, and the text of a
coefficient without zeros at either end that stands for that number alone.
-/

namespace MoeNG.Contracts
open MoeNG.Kernel MoeNG.Lib

/-! ### Digits -/

theorem decimalValue_append (s t : JsString) : decimalValue (s ++ t) = decimalValue s * 10 ^ t.length + decimalValue t := by
  unfold decimalValue
  rw [List.reverse_append, List.map_append, Nat.ofDigits_append, List.length_map, List.length_reverse]
  ring

theorem decimalValue_singleton (c : CodeUnit) : decimalValue [c] = c.val - 48 := by simp [decimalValue]

theorem decimalValue_zeros (s : JsString) (h : ∀ c ∈ s, c = 48) : decimalValue s = 0 := by
  induction s with
  | nil => rfl
  | cons c s ih =>
    obtain rfl := h c (List.mem_cons_self ..)
    have hsplit := decimalValue_append [48] s
    have hone : decimalValue [48] = 0 := by decide
    rw [ih fun d hd => h d (List.mem_cons_of_mem _ hd), hone] at hsplit
    simpa using hsplit

theorem decimalValue_strip (s : JsString) : decimalValue (s.dropWhile fun c => c = 48) = decimalValue s := by
  have hzero := decimalValue_zeros (s.takeWhile fun c => c = 48) fun c hc => by simpa using List.mem_takeWhile_imp hc
  conv_rhs => rw [← List.takeWhile_append_dropWhile (p := fun c : CodeUnit => decide (c = 48)) (l := s)]
  rw [decimalValue_append, hzero, Nat.zero_mul, Nat.zero_add]

theorem decimalValue_not_dvd (s : JsString) (h : Digits s) (hlast : s.getLast? ≠ some 48) : ¬ 10 ∣ decimalValue s := by
  obtain ⟨init, c, rfl⟩ : ∃ init c, s = init ++ [c] := ⟨_, _, (List.dropLast_append_getLast h.nonempty).symm⟩
  have hdigit := (Json.isDigitUnit_iff c).mp (h.digits c (by simp))
  have hne : c.val ≠ 48 := by
    intro heq
    have hc : c = 48 := Fin.ext heq
    exact hlast (by rw [hc, List.getLast?_concat])
  rw [decimalValue_append, decimalValue_singleton, List.length_singleton, pow_one]
  omega

theorem decimal_decimalValue (s : JsString) (h : Digits s) (hhead : s.head? ≠ some 48) : decimal (decimalValue s) = s := by
  obtain ⟨c, tail, rfl, hc⟩ := h.head
  have hdigit := (Json.isDigitUnit_iff c).mp hc
  have hne : c.val ≠ 48 := fun heq => hhead (congrArg some (Fin.ext heq))
  have hdigits : Nat.digits 10 (decimalValue (c :: tail)) = (c :: tail).reverse.map fun d => d.val - 48 := by
    refine Nat.digits_ofDigits 10 (by decide) _ (fun d hd => ?_) fun _ => ?_
    · obtain ⟨u, hu, rfl⟩ := List.mem_map.mp hd
      have hunit := (Json.isDigitUnit_iff u).mp (h.digits u (List.mem_reverse.mp hu))
      omega
    · rw [List.getLast_map, List.getLast_reverse]
      show c.val - 48 ≠ 0
      omega
  have hpos : decimalValue (c :: tail) ≠ 0 := by
    intro hzero
    rw [hzero, Nat.digits_zero] at hdigits
    simp at hdigits
  unfold decimal
  rw [if_neg hpos, hdigits]
  simp only [List.map_reverse, List.reverse_reverse, List.map_map]
  refine (List.map_congr_left fun u hu => ?_).trans (List.map_id _)
  have hunit := (Json.isDigitUnit_iff u).mp (h.digits u hu)
  refine Fin.ext ?_
  show (48 + (u.val - 48)) % 65536 = u.val
  have hlt := u.isLt
  omega

/-! ### Number texts -/

structure Lexeme where
  minus : JsString
  whole : JsString
  fraction : JsString
  exponent : JsString
  signs : minus = [] ∨ minus = [45]
  wholeSpelled : Whole whole
  fractionSpelled : Fraction fraction
  exponentSpelled : Exponent exponent

namespace Lexeme

def text (a : Lexeme) : JsString := a.minus ++ a.whole ++ a.fraction ++ a.exponent

def negative (a : Lexeme) : Bool := a.minus ≠ []

def digits (a : Lexeme) : JsString := a.whole ++ a.fraction.drop 1

/-- The power of ten of the last digit. -/
def scale (a : Lexeme) : ℤ := exponentValue a.exponent - (a.fraction.drop 1).length

/-- The rational number that the text denotes. -/
def value (a : Lexeme) : ℚ := signed a.negative (scaled 10 (decimalValue a.digits) a.scale)

def InRange (a : Lexeme) : Prop := |exponentValue a.exponent| + a.text.length ≤ maxSafeInteger

theorem whole_digits (a : Lexeme) : Digits a.whole := by
  obtain hzero | ⟨hdigits, -⟩ := a.wholeSpelled
  · rw [hzero]
    exact ⟨by decide, List.forall_mem_singleton.mpr rfl⟩
  · exact hdigits

theorem digits_digits (a : Lexeme) : Digits a.digits := by
  have hfraction : ∀ c ∈ a.fraction.drop 1, isDigitUnit c = true := by
    obtain hnil | ⟨digits, hdigits, heq⟩ := a.fractionSpelled
    · rw [hnil]
      exact nofun
    · rw [heq]
      exact hdigits.digits
  exact ⟨by simp [digits, a.whole_digits.nonempty], List.forall_mem_append.mpr ⟨a.whole_digits.digits, hfraction⟩⟩

/-! The pattern finds the parts of the text. -/

theorem readMinus_text (a : Lexeme) : readMinus a.text = (a.minus, a.whole ++ (a.fraction ++ a.exponent)) := by
  obtain ⟨c, tail, heq, hc⟩ := a.wholeSpelled.head
  have hread := readMinus_minus a.minus c (tail ++ (a.fraction ++ a.exponent)) a.signs hc
  rw [← List.cons_append, ← heq] at hread
  rw [← hread, text]
  simp only [List.append_assoc]

theorem exponent_head (a : Lexeme) : ∀ c ∈ a.exponent.head?, isDigitUnit c = false ∧ c ≠ 46 := by
  have hhead := a.exponentSpelled.head [] nofun
  rwa [List.append_nil] at hhead

theorem readExponent_text (a : Lexeme) : readExponent a.exponent = some (a.exponent, []) := by
  have hread := readExponent_exponent a.exponent [] a.exponentSpelled nofun
  rwa [List.append_nil] at hread

/-- The reader of doubles takes the same number from the text. -/
theorem magnitude_text (a : Lexeme) : magnitude (readMinus a.text).2 = some (scaled 10 (decimalValue a.digits) a.scale) := by
  have hinteger := readInteger_whole a.whole _ a.wholeSpelled (a.fractionSpelled.head a.exponent a.exponent_head)
  have hfraction := readFraction_fraction a.fraction a.exponent a.fractionSpelled a.exponent_head
  unfold magnitude
  rw [readMinus_text]
  refine Option.bind_eq_some_iff.mpr ⟨_, hinteger, ?_⟩
  refine Option.bind_eq_some_iff.mpr ⟨_, hfraction, ?_⟩
  refine Option.bind_eq_some_iff.mpr ⟨_, a.readExponent_text, ?_⟩
  simp [scaled, scale, digits]

/-! ### The form -/

def coefficient (a : Lexeme) : JsString := a.digits.dropWhile fun c => c = 48

def zeros (a : Lexeme) : ℕ := (a.coefficient.reverse.takeWhile fun c => c = 48).length

def core (a : Lexeme) : JsString := a.coefficient.take (a.coefficient.length - a.zeros)

def power (a : Lexeme) : ℤ := a.scale + a.zeros

def formText (a : Lexeme) : JsString := a.minus ++ a.core ++ lit "e" ++ decimalInt a.power

theorem normalizeDecimal_text (a : Lexeme) : normalizeDecimal a.text
    = if a.coefficient = [] then some (lit "0") else if !isSafeNumber a.scale then none else some a.formText := by
  have hinteger := readDigits_digits a.whole _ a.whole_digits (a.fractionSpelled.head a.exponent a.exponent_head)
  have hfraction := readFraction_fraction a.fraction a.exponent a.fractionSpelled a.exponent_head
  unfold normalizeDecimal
  rw [readMinus_text, hinteger, Option.bind_eq_bind, Option.bind_some]
  dsimp only
  rw [hfraction, Option.bind_some]
  dsimp only
  rw [a.readExponent_text, Option.bind_some]
  dsimp only
  rw [if_neg (not_not.mpr rfl)]
  rfl

/-! ### Zeros at the ends -/

theorem core_zeros (a : Lexeme) : a.coefficient = a.core ++ List.replicate a.zeros 48 := by
  have hback : a.coefficient.drop (a.coefficient.length - a.zeros) = List.replicate a.zeros 48 := by
    have htake : a.coefficient.reverse.take a.zeros = a.coefficient.reverse.takeWhile fun c => c = 48 :=
      (List.prefix_iff_eq_take.mp (List.takeWhile_prefix _)).symm
    rw [List.take_reverse] at htake
    refine List.eq_replicate_iff.mpr ⟨?_, fun c hc => ?_⟩
    · rw [← List.length_reverse, htake, zeros]
    · rw [← List.mem_reverse, htake] at hc
      simpa using List.mem_takeWhile_imp hc
  rw [core, ← hback, List.take_append_drop]

theorem coefficient_digits (a : Lexeme) : ∀ c ∈ a.coefficient, isDigitUnit c = true := fun c hc =>
  a.digits_digits.digits c ((List.dropWhile_suffix _).subset hc)

theorem coefficient_head (a : Lexeme) : a.coefficient.head? ≠ some 48 := by
  intro hhead
  have hnot := List.head?_dropWhile_not (fun c : CodeUnit => decide (c = 48)) a.digits
  rw [show a.digits.dropWhile (fun c => decide (c = 48)) = a.coefficient from rfl, hhead] at hnot
  simp at hnot

theorem core_last (a : Lexeme) : a.core.getLast? ≠ some 48 := by
  have hdrop : a.core.reverse = a.coefficient.reverse.dropWhile fun c => c = 48 := by
    have hzeros : a.coefficient.reverse.drop a.zeros = a.coefficient.reverse.dropWhile fun c => c = 48 := by
      conv_lhs => rw [← List.takeWhile_append_dropWhile (p := fun c : CodeUnit => decide (c = 48)) (l := a.coefficient.reverse)]
      exact List.drop_left
    rw [core, List.reverse_take, ← hzeros]
    congr 1
    have hle : a.zeros ≤ a.coefficient.length := by
      rw [← List.length_reverse]
      exact (List.takeWhile_prefix _).length_le
    omega
  intro hlast
  have hnot := List.head?_dropWhile_not (fun c : CodeUnit => decide (c = 48)) a.coefficient.reverse
  rw [← hdrop, List.head?_reverse, hlast] at hnot
  simp at hnot

section Nonzero
variable {a : Lexeme} (h : a.coefficient ≠ [])
include h

theorem core_ne_nil : a.core ≠ [] := by
  intro hnil
  have hsplit := a.core_zeros
  rw [hnil, List.nil_append] at hsplit
  have hhead := a.coefficient_head
  obtain ⟨k, hk⟩ : ∃ k, a.zeros = k + 1 := ⟨a.zeros - 1, by
    have hne : a.zeros ≠ 0 := fun hzero => h (by rw [hsplit, hzero]; rfl)
    omega⟩
  rw [hsplit, hk] at hhead
  exact hhead rfl

theorem core_digits : Digits a.core :=
  ⟨core_ne_nil h, fun c hc => a.coefficient_digits c (List.take_subset _ _ hc)⟩

theorem core_head : a.core.head? ≠ some 48 := by
  obtain ⟨c, tail, hc⟩ := List.exists_cons_of_ne_nil (core_ne_nil h)
  have hhead := a.coefficient_head
  rw [a.core_zeros, hc] at hhead
  rwa [hc]

theorem core_not_dvd : ¬ 10 ∣ decimalValue a.core := decimalValue_not_dvd a.core (core_digits h) a.core_last

end Nonzero

theorem decimalValue_digits (a : Lexeme) : decimalValue a.digits = decimalValue a.core * 10 ^ a.zeros := by
  have hzero := decimalValue_zeros (List.replicate a.zeros 48) fun c hc => List.eq_of_mem_replicate hc
  rw [← decimalValue_strip, show a.digits.dropWhile (fun c => decide (c = 48)) = a.coefficient from rfl, a.core_zeros,
    decimalValue_append, hzero, List.length_replicate, Nat.add_zero]

theorem value_core (a : Lexeme) : a.value = signed a.negative (scaled 10 (decimalValue a.core) a.power) := by
  rw [value, decimalValue_digits, scaled_shift (by decide)]
  rfl

theorem value_eq_zero (a : Lexeme) : a.value = 0 ↔ a.coefficient = [] := by
  refine ⟨fun hvalue => ?_, fun hnil => ?_⟩
  · by_contra h
    rw [value_core, signed_eq_zero] at hvalue
    exact absurd hvalue (scaled_pos (by decide) (pos_of_not_dvd (core_not_dvd h)) a.power).ne'
  · have hstrip := decimalValue_strip a.digits
    rw [show a.digits.dropWhile (fun c => decide (c = 48)) = a.coefficient from rfl, hnil] at hstrip
    rw [value, ← hstrip, show decimalValue [] = 0 from rfl, scaled_zero, signed_zero]

/-- The text has one reading. -/
theorem value_of_text {a b : Lexeme} (h : a.text = b.text) : a.value = b.value := by
  have hminus := congrArg Prod.fst a.readMinus_text
  rw [h, b.readMinus_text] at hminus
  have hmagnitude := a.magnitude_text
  rw [h, b.magnitude_text] at hmagnitude
  unfold value negative
  rw [show b.minus = a.minus from hminus, Option.some.inj hmagnitude]

/-! ### The form is a number text -/

theorem exponentValue_decimalInt (z : ℤ) : exponentValue (lit "e" ++ decimalInt z) = z := by
  unfold decimalInt
  split
  · show -(decimalValue (decimal z.natAbs) : ℤ) = z
    rw [decimalValue_decimal]
    omega
  · obtain ⟨c, rest, heq⟩ := List.exists_cons_of_ne_nil (decimal_ne_nil z.toNat)
    have hdigit := decimal_digit z.toNat c (heq ▸ List.mem_cons_self ..)
    have hvalue := decimalValue_decimal z.toNat
    rw [heq] at hvalue ⊢
    show exponentValue (101 :: c :: rest) = z
    unfold exponentValue
    split
    · rename_i heq'
      cases heq'
    · rename_i heq'
      obtain ⟨-, rfl, -⟩ := List.cons_eq_cons.mp heq' |>.imp_right List.cons_eq_cons.mp
      exact absurd hdigit.1 (by decide)
    · rename_i heq'
      obtain ⟨-, rfl, -⟩ := List.cons_eq_cons.mp heq' |>.imp_right List.cons_eq_cons.mp
      exact absurd hdigit.1 (by decide)
    · rename_i heq'
      obtain ⟨-, rfl⟩ := List.cons_eq_cons.mp heq'
      rw [hvalue]
      omega

theorem exponent_decimalInt (z : ℤ) : Exponent (lit "e" ++ decimalInt z) := by
  have hdigits : ∀ n, Digits (decimal n) := fun n => ⟨decimal_ne_nil n, isDigitUnit_decimal n⟩
  unfold decimalInt
  split
  · exact .inr ⟨101, [45], _, .inl rfl, .inr (.inr rfl), hdigits _, rfl⟩
  · exact .inr ⟨101, [], _, .inl rfl, .inl rfl, hdigits _, rfl⟩

def zero : Lexeme where
  minus := []
  whole := lit "0"
  fraction := []
  exponent := []
  signs := .inl rfl
  wholeSpelled := .inl rfl
  fractionSpelled := .inl rfl
  exponentSpelled := .inl rfl

def form (a : Lexeme) (h : a.coefficient ≠ []) : Lexeme where
  minus := a.minus
  whole := a.core
  fraction := []
  exponent := lit "e" ++ decimalInt a.power
  signs := a.signs
  wholeSpelled := .inr ⟨core_digits h, core_head h⟩
  fractionSpelled := .inl rfl
  exponentSpelled := exponent_decimalInt a.power

def normalForm (a : Lexeme) : Lexeme := if h : a.coefficient = [] then zero else a.form h

section Form
variable {a : Lexeme} (h : a.coefficient ≠ [])

theorem form_text : (a.form h).text = a.formText := by simp [text, form, formText]

theorem form_scale : (a.form h).scale = a.power := by
  show exponentValue (lit "e" ++ decimalInt a.power) - ((List.drop 1 ([] : JsString)).length : ℤ) = a.power
  rw [exponentValue_decimalInt]
  exact Int.sub_zero _

theorem form_coefficient : (a.form h).coefficient = a.core := by
  obtain ⟨c, tail, hc⟩ := List.exists_cons_of_ne_nil (core_ne_nil h)
  have hhead := core_head h
  have hdigits : (a.form h).digits = a.core := List.append_nil _
  rw [coefficient, hdigits]
  rw [hc] at hhead ⊢
  exact List.dropWhile_cons_of_neg (by simpa using hhead)

theorem form_zeros : (a.form h).zeros = 0 := by
  have hlast := a.core_last
  rw [zeros, form_coefficient]
  rw [← List.head?_reverse] at hlast
  cases hrev : a.core.reverse with
  | nil => rfl
  | cons c rest =>
    rw [hrev] at hlast
    rw [List.takeWhile_cons_of_neg (by simpa using hlast)]
    rfl

theorem form_core : (a.form h).core = a.core := by
  rw [core, form_zeros, form_coefficient, Nat.sub_zero, List.take_length]

theorem form_power : (a.form h).power = a.power := by
  rw [power, form_scale, form_zeros]
  exact Int.add_zero _

end Form

/-! ### Normal forms -/

theorem normalForm_value (a : Lexeme) : a.normalForm.value = a.value := by
  unfold normalForm
  split
  · rename_i hnil
    rw [(value_eq_zero a).mpr hnil]
    exact (value_eq_zero zero).mpr rfl
  · rename_i h
    rw [value_core, value_core, form_core, form_power]
    rfl

theorem core_length (a : Lexeme) : a.zeros ≤ a.digits.length := by
  have hcoefficient : a.coefficient.length ≤ a.digits.length := (List.dropWhile_suffix _).length_le
  have hlength := congrArg List.length a.core_zeros
  rw [List.length_append, List.length_replicate] at hlength
  omega

theorem text_length (a : Lexeme) : a.digits.length ≤ a.text.length := by
  simp only [digits, text, List.length_append, List.length_drop]
  omega

/-- No sum of the arithmetic of exponents leaves the safe integers. -/
theorem InRange.safe {a : Lexeme} (h : a.InRange) : isSafeNumber a.scale = true ∧ isSafeNumber a.power = true := by
  have hzeros := a.core_length
  have htext := a.text_length
  have hfraction : (a.fraction.drop 1).length ≤ a.digits.length := by simp [digits]
  have hrange : |exponentValue a.exponent| + a.text.length ≤ maxSafeInteger := h
  obtain ⟨hlow, hhigh⟩ := abs_le.mp (le_refl |exponentValue a.exponent|)
  have hscale : -maxSafeInteger ≤ a.scale ∧ a.scale ≤ maxSafeInteger := by
    unfold scale
    omega
  have hpower : -maxSafeInteger ≤ a.power ∧ a.power ≤ maxSafeInteger := by
    unfold power scale
    omega
  exact ⟨decide_eq_true hscale, decide_eq_true hpower⟩

theorem normalizeDecimal_normalForm {a : Lexeme} (h : a.InRange) : normalizeDecimal a.text = some a.normalForm.text := by
  rw [normalizeDecimal_text, normalForm]
  split
  · rfl
  · rename_i hne
    rw [h.safe.1, form_text hne]
    rfl

theorem normalForm_normal {a : Lexeme} (h : a.InRange) : normalizeDecimal a.normalForm.text = some a.normalForm.text := by
  unfold normalForm
  split
  · decide +kernel
  · rename_i hne
    have hcoefficient : (a.form hne).coefficient ≠ [] := by
      rw [form_coefficient]
      exact core_ne_nil hne
    have htext : (a.form hne).formText = (a.form hne).text := by
      rw [formText, form_core, form_power, form_text, formText]
      rfl
    rw [normalizeDecimal_text, if_neg hcoefficient, form_scale, h.safe.2, htext]
    rfl

theorem normalForm_of_value {a b : Lexeme} (h : a.value = b.value) : a.normalForm = b.normalForm := by
  unfold normalForm
  by_cases hzero : a.coefficient = []
  · have hzero' : b.coefficient = [] := (value_eq_zero b).mp (h ▸ (value_eq_zero a).mpr hzero)
    rw [dif_pos hzero, dif_pos hzero']
  · have hzero' : b.coefficient ≠ [] := fun hnil => hzero ((value_eq_zero a).mp (h.trans ((value_eq_zero b).mpr hnil)))
    rw [dif_neg hzero, dif_neg hzero']
    have hadvd := core_not_dvd hzero
    have hbdvd := core_not_dvd hzero'
    rw [value_core, value_core] at h
    obtain ⟨hsign, hscaled⟩ := signed_inj (scaled_pos (by decide) (pos_of_not_dvd hadvd) _)
      (scaled_pos (by decide) (pos_of_not_dvd hbdvd) _) h
    obtain ⟨hvalue, hpower⟩ := scaled_inj (by decide) hadvd hbdvd hscaled
    have hcore : a.core = b.core := by
      rw [← decimal_decimalValue a.core (core_digits hzero) (core_head hzero), hvalue,
        decimal_decimalValue b.core (core_digits hzero') (core_head hzero')]
    have hminus : a.minus = b.minus := by
      have hiff : a.minus = [] ↔ b.minus = [] := by simpa [negative] using hsign
      obtain ha | ha := a.signs <;> obtain hb | hb := b.signs <;> rw [ha, hb] at hiff ⊢
      · exact absurd (hiff.mp rfl) (by decide)
      · exact absurd (hiff.mpr rfl) (by decide)
    simp only [form, hminus, hcore, hpower]

end Lexeme

/-- Within the range two texts have the same normal form when they denote the same number,
and a normal form is its own, `0` for zero. -/
theorem normalizeDecimal_eq_iff (a b : Lexeme) (ha : a.InRange) (hb : b.InRange) :
    (normalizeDecimal a.text = normalizeDecimal b.text ↔ a.value = b.value)
      ∧ ∃ n, normalizeDecimal a.text = some n ∧ normalizeDecimal n = some n ∧ (n = lit "0" ↔ a.value = 0) := by
  rw [Lexeme.normalizeDecimal_normalForm ha, Lexeme.normalizeDecimal_normalForm hb]
  refine ⟨⟨fun h => ?_, fun h => ?_⟩, _, rfl, Lexeme.normalForm_normal ha, fun h => ?_, fun h => ?_⟩
  · rw [← a.normalForm_value, ← b.normalForm_value]
    exact Lexeme.value_of_text (Option.some.inj h)
  · rw [Lexeme.normalForm_of_value h]
  · have hvalue : a.normalForm.value = Lexeme.zero.value := Lexeme.value_of_text h
    rw [← a.normalForm_value, hvalue]
    exact (Lexeme.value_eq_zero _).mpr rfl
  · have hnil := (Lexeme.value_eq_zero a).mp h
    rw [Lexeme.normalForm, dif_pos hnil]
    rfl

theorem shifted_decimal : ∃ a b : Lexeme, a.text = lit "-12.50e1" ∧ b.text = lit "-125" ∧ a.value = b.value := by
  have hdigits : ∀ s : JsString, s ≠ [] → s.all isDigitUnit = true → Digits s := fun s hne hall =>
    ⟨hne, List.all_eq_true.mp hall⟩
  refine ⟨⟨lit "-", lit "12", lit ".50", lit "e1", .inr rfl, .inr ⟨hdigits _ (by decide) (by decide), by decide⟩,
      .inr ⟨lit "50", hdigits _ (by decide) (by decide), rfl⟩,
      .inr ⟨101, [], lit "1", .inl rfl, .inl rfl, hdigits _ (by decide) (by decide), rfl⟩⟩,
    ⟨lit "-", lit "125", [], [], .inr rfl, .inr ⟨hdigits _ (by decide) (by decide), by decide⟩, .inl rfl, .inl rfl⟩,
    rfl, rfl, ?_⟩
  have hform : normalizeDecimal (lit "-12.50e1") = normalizeDecimal (lit "-125") := by decide +kernel
  refine (normalizeDecimal_eq_iff _ _ ?_ ?_).1.mp hform
  · show |(1 : ℤ)| + 8 ≤ maxSafeInteger
    decide
  · show |(0 : ℤ)| + 4 ≤ maxSafeInteger
    decide

end MoeNG.Contracts
