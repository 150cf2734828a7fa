import MoeNG.Contracts.BoundedNumber

/-!
# Texts of doubles

`String` prints a finite double as a number text that `Number` reads back. One
such printer writes every double out in full.
-/

namespace MoeNG.Kernel
open MoeNG.Contracts

/-- A finite number is printed as a JSON number text, and that text denotes it. -/
structure ReadsBack (numberText : FiniteDouble → JsString) : Prop where
  lexeme : ∀ x, readLexeme (numberText x) = some (numberText x, [])
  value : ∀ x, numberValue (numberText x) = some (.finite x)

/-! ### A double as a multiple of the smallest one -/

theorem FiniteDouble.eq_of_value {x y : FiniteDouble} (h : x.value = y.value) : x = y := by
  cases x
  cases y
  cases h
  rfl

theorem ulpExponent_ge (q : ℚ) : -1074 ≤ ulpExponent q := le_max_right _ _

theorem FiniteDouble.bounded (x : FiniteDouble) : |x.value| < 2 ^ 1024 := by
  have h := x.exact
  unfold roundDouble at h
  split at h
  · rename_i hlarge
    rwa [Option.some.inj h] at hlarge
  · cases h

theorem FiniteDouble.dyadic (x : FiniteDouble) :
    x.value = roundHalfEven (x.value / 2 ^ ulpExponent x.value) * (2 : ℚ) ^ ulpExponent x.value := by
  have h := x.exact
  unfold roundDouble at h
  split at h
  · exact (Option.some.inj h).symm
  · cases h

theorem FiniteDouble.bits (x : FiniteDouble) : |roundHalfEven (x.value / 2 ^ ulpExponent x.value)| ≤ 2 ^ 53 := by
  have hbits : |x.value / 2 ^ ulpExponent x.value| ≤ (2 ^ 53 : ℕ) := by
    rw [abs_div, abs_of_pos (zpow_two_pos _), div_le_iff₀ (zpow_two_pos _)]
    have hlog := Int.lt_zpow_succ_log_self (b := 2) (by norm_num) |x.value|
    have hexp : Int.log 2 |x.value| + 1 ≤ 53 + ulpExponent x.value := by
      unfold ulpExponent
      omega
    calc |x.value| ≤ ((2 : ℕ) : ℚ) ^ (Int.log 2 |x.value| + 1) := hlog.le
      _ ≤ (2 : ℚ) ^ (53 + ulpExponent x.value) := by
        rw [Nat.cast_ofNat]
        exact zpow_le_zpow_right₀ (by norm_num) hexp
      _ = ((2 ^ 53 : ℕ) : ℚ) * 2 ^ ulpExponent x.value := by
        rw [zpow_add₀ (by norm_num)]
        norm_num
  exact_mod_cast roundHalfEven_abs_le _ _ hbits

theorem roundDouble_neg (x : FiniteDouble) : roundDouble (-x.value) = some (-x.value) := by
  have hdyadic := x.dyadic
  have hneg : -x.value = ((-roundHalfEven (x.value / 2 ^ ulpExponent x.value) : ℤ) : ℚ) * 2 ^ ulpExponent x.value := by
    rw [Int.cast_neg, neg_mul, ← hdyadic]
  have hlarge := x.bounded
  rw [← abs_neg] at hlarge
  rw [hneg] at hlarge ⊢
  exact roundDouble_dyadic _ _ (by rw [abs_neg]; exact x.bits) (ulpExponent_ge _) hlarge

theorem FiniteDouble.scaled (x : FiniteDouble) : ∃ m : ℤ, x.value * 10 ^ 1074 = m := by
  have hexp := ulpExponent_ge x.value
  refine ⟨roundHalfEven (x.value / 2 ^ ulpExponent x.value) * 2 ^ (ulpExponent x.value + 1074).toNat * 5 ^ 1074, ?_⟩
  have hpow : (2 : ℚ) ^ (ulpExponent x.value + 1074).toNat = 2 ^ ulpExponent x.value * 2 ^ 1074 := by
    rw [← zpow_natCast, Int.toNat_of_nonneg (by omega), zpow_add₀ (by norm_num)]
    exact congrArg (2 ^ ulpExponent x.value * ·) (zpow_ofNat 2 1074)
  have hten : (10 : ℚ) ^ 1074 = 2 ^ 1074 * 5 ^ 1074 := by rw [← mul_pow]; norm_num
  conv_lhs => rw [x.dyadic, hten]
  have hassoc (r a b c : ℚ) : r * a * (b * c) = r * (a * b) * c := by ring
  simp only [Int.cast_mul, Int.cast_pow, Int.cast_ofNat]
  rw [hpow]
  exact hassoc _ _ _ _

/-! ### Texts in full -/

/-- The multiple of the smallest double that the number is. -/
def FiniteDouble.units (x : FiniteDouble) : ℤ := (x.value * 10 ^ 1074).num

theorem FiniteDouble.units_eq (x : FiniteDouble) : x.value = x.units / 10 ^ 1074 := by
  obtain ⟨m, hm⟩ := x.scaled
  rw [FiniteDouble.units, hm, Rat.num_intCast, ← hm, mul_div_cancel_right₀ _ (by positivity)]

/-- Safe integers are printed in decimal digits, whatever else in units of the smallest double. -/
def exactText (x : FiniteDouble) : JsString :=
  if x.value.den = 1 ∧ |x.value.num| ≤ 2 ^ 53 then decimalInt x.value.num else decimalInt x.units ++ lit "e-1074"

theorem readInteger_scaled (n : ℕ) (tail : JsString) : readInteger (decimal n ++ 101 :: tail)
    = some (decimal n, 101 :: tail) := by
  have hread : readDigits (decimal n ++ 101 :: tail) = some (decimal n, 101 :: tail) := by
    have hstop : isDigitUnit 101 = false := by decide
    unfold readDigits
    rw [List.takeWhile_append_of_pos (isDigitUnit_decimal n), List.dropWhile_append_of_pos (isDigitUnit_decimal n),
      List.takeWhile_cons_of_neg (by rw [hstop]; decide), List.dropWhile_cons_of_neg (by rw [hstop]; decide),
      List.append_nil, if_neg (decimal_ne_nil n)]
  by_cases hn : n = 0
  · subst hn
    rfl
  · obtain ⟨c, rest, htext, hc, -⟩ := decimal_head_ne_zero n hn
    rw [htext] at hread ⊢
    unfold readInteger
    split
    · rename_i heq
      exact absurd (List.cons.inj heq).1 hc
    · exact hread

theorem readExponent_scaled : readExponent (lit "e-1074") = some (lit "e-1074", []) := by decide

theorem magnitude_scaled (n : ℕ) : magnitude (decimal n ++ lit "e-1074") = some ((n : ℚ) / 10 ^ 1074) := by
  unfold magnitude
  rw [show lit "e-1074" = 101 :: lit "-1074" from rfl, readInteger_scaled]
  refine Option.bind_eq_some_iff.mpr ⟨_, rfl, ?_⟩
  refine Option.bind_eq_some_iff.mpr ⟨([], 101 :: lit "-1074"), rfl, ?_⟩
  refine Option.bind_eq_some_iff.mpr ⟨_, readExponent_scaled, ?_⟩
  have hexponent : exponentValue (lit "e-1074") - (([] : JsString).length - 1 : ℕ) = -1074 := by decide
  dsimp only
  rw [hexponent, List.drop_nil, List.append_nil, decimalValue_decimal, zpow_neg, zpow_ofNat]
  rfl

theorem readMinus_scaled (n : ℕ) (tail : JsString) : readMinus (decimal n ++ tail) = ([], decimal n ++ tail) := by
  have hhead : ∃ c rest, decimal n = c :: rest ∧ c ≠ 45 := by
    by_cases hn : n = 0
    · exact ⟨48, [], by rw [hn]; rfl, by decide⟩
    · obtain ⟨c, rest, htext, -, hc⟩ := decimal_head_ne_zero n hn
      exact ⟨c, rest, htext, hc⟩
  obtain ⟨c, rest, htext, hc⟩ := hhead
  rw [htext, List.cons_append]
  unfold readMinus
  split
  · rename_i heq
    exact absurd (List.cons.inj heq).1 hc
  · rfl

theorem readLexeme_scaled (z : ℤ) : readLexeme (decimalInt z ++ lit "e-1074") = some (decimalInt z ++ lit "e-1074", []) := by
  have hread (minus : JsString) (n : ℕ) (h : readMinus (minus ++ decimal n ++ lit "e-1074")
    = (minus, decimal n ++ lit "e-1074")) :
      readLexeme (minus ++ decimal n ++ lit "e-1074") = some (minus ++ decimal n ++ lit "e-1074", []) := by
    unfold readLexeme
    rw [h]
    refine Option.bind_eq_some_iff.mpr ⟨_, readInteger_scaled n (lit "-1074"), ?_⟩
    refine Option.bind_eq_some_iff.mpr ⟨([], 101 :: lit "-1074"), rfl, ?_⟩
    refine Option.bind_eq_some_iff.mpr ⟨_, readExponent_scaled, ?_⟩
    dsimp only
    rw [List.append_nil]
  unfold decimalInt
  split
  · exact hread (lit "-") z.natAbs rfl
  · exact hread [] z.toNat (readMinus_scaled z.toNat _)

theorem numberValue_scaled (x : FiniteDouble) : numberValue (decimalInt x.units ++ lit "e-1074") = some (.finite x) := by
  have hvalue := x.units_eq
  unfold numberValue decimalInt
  split
  · rename_i hneg
    have habs : ((x.units.natAbs : ℚ)) = -x.units := by
      rw [← Int.cast_natCast, Int.ofNat_natAbs_of_nonpos hneg.le, Int.cast_neg]
    have hround : roundDouble ((x.units.natAbs : ℚ) / 10 ^ 1074) = some ((x.units.natAbs : ℚ) / 10 ^ 1074) := by
      rw [habs, neg_div, ← hvalue]
      exact roundDouble_neg x
    have hne : ¬ some ((x.units.natAbs : ℚ) / 10 ^ 1074) = some 0 := by
      intro heq
      rw [habs, neg_div, ← hvalue] at heq
      have hzero : x.value = 0 := neg_eq_zero.mp (Option.some.inj heq)
      rw [FiniteDouble.units, hzero, zero_mul] at hneg
      exact absurd hneg (by decide)
    show (magnitude (decimal x.units.natAbs ++ lit "e-1074")).map _ = _
    rw [magnitude_scaled, Option.map_some, hround, if_neg hne]
    refine congrArg some ?_
    rw [habs, neg_div, neg_neg, ← hvalue]
    exact asDouble_eq _ _ x.exact
  · rename_i hpos
    have habs : ((x.units.toNat : ℚ)) = x.units := by
      rw [← Int.cast_natCast, Int.toNat_of_nonneg (by omega)]
    rw [readMinus_scaled]
    dsimp only
    rw [magnitude_scaled, Option.map_some, if_pos rfl, habs, ← hvalue]
    exact congrArg some (asDouble_eq _ _ x.exact)

theorem exactText_readsBack : ReadsBack exactText where
  lexeme x := by
    unfold exactText
    split
    · exact readLexeme_decimalInt _
    · exact readLexeme_scaled _
  value x := by
    unfold exactText
    split
    · rename_i hint
      obtain ⟨hden, hbound⟩ := hint
      refine (numberValue_decimalInt _ hbound).trans (congrArg (fun y => some (Double.finite y)) ?_)
      exact FiniteDouble.eq_of_value ((Rat.den_eq_one_iff _).mp hden)
    · exact numberValue_scaled x

end MoeNG.Kernel
