import MoeNG.Contracts.BoundedGrammar
import MoeNG.Kernel.NumberValue

/-!
# Numbers of bounded JSON (`packages/contracts/src/bounded-json-number.ts`)

The source supports a number text when it has the normal form of what its
double prints as.
-/

namespace MoeNG.Contracts
open MoeNG.Kernel MoeNG.Lib

/-! ### Decimals (`bounded-json-number.ts:1-26`) -/

/-- The digits without zeros at either end, and the power of ten they are multiplied by. -/
def normalizeDecimal (source : JsString) : Option JsString := do
  let (integer, afterInteger) ← readDigits (readMinus source).2
  let (fraction, afterFraction) ← readFraction afterInteger
  let (exponent, rest) ← readExponent afterFraction
  let coefficient := (integer ++ fraction.drop 1).dropWhile fun c => c = 48
  let power := exponentValue exponent - (fraction.drop 1).length
  let zeros := (coefficient.reverse.takeWhile fun c => c = 48).length
  if rest ≠ [] then none
  else if coefficient = [] then some (lit "0")
  else if !isSafeNumber power then none
  else some ((readMinus source).1 ++ coefficient.take (coefficient.length - zeros) ++ lit "e" ++ decimalInt (power + zeros))

example : normalizeDecimal (lit "-012.50E+3") = some (lit "-125e2") := by decide +kernel

/-! ### Integers -/

theorem numberValue_negative (n : ℕ) (hn : n ≠ 0) (h : |(n : ℤ)| ≤ 2 ^ 53) :
    numberValue (45 :: decimal n) = some (asDouble (-(n : ℚ))) := by
  have hround : roundDouble (n : ℚ) = some (n : ℚ) := by exact_mod_cast roundDouble_int n h
  have hne : ¬ some (n : ℚ) = some 0 := fun heq => hn (by exact_mod_cast Option.some.inj heq)
  unfold numberValue
  show (magnitude (decimal n)).map _ = _
  rw [magnitude_decimal, Option.map_some, hround, if_neg hne]
  rfl

theorem numberValue_decimalInt (z : ℤ) (h : |z| ≤ 2 ^ 53) : numberValue (decimalInt z) = some (.finite (.ofInt z h)) := by
  unfold decimalInt
  split
  · rename_i hneg
    obtain ⟨n, rfl⟩ : ∃ n : ℕ, z = -n := ⟨z.natAbs, by omega⟩
    have hcast : -(n : ℚ) = ((-(n : ℤ) : ℤ) : ℚ) := by push_cast; rfl
    rw [Int.natAbs_neg, Int.natAbs_natCast]
    refine (numberValue_negative n (by omega) (by rwa [abs_neg] at h)).trans ?_
    rw [hcast]
    exact congrArg some (asDouble_eq _ _ (roundDouble_int _ h))
  · rename_i hpos
    obtain ⟨n, rfl⟩ : ∃ n : ℕ, z = n := ⟨z.toNat, by omega⟩
    exact numberValue_decimal n h

end MoeNG.Contracts
