import Mathlib.Data.Int.Log
import Mathlib.Data.Rat.Floor
import Mathlib.Tactic.FieldSimp
import Mathlib.Tactic.Linarith
import MoeNG.Kernel.Double
import MoeNG.Kernel.Value

/-!
# Doubles

The finite double next to a rational number, ties to the even one, and the
double that a number text denotes.
-/

namespace MoeNG.Kernel

/-! ### Rounding -/

def roundHalfEven (q : ℚ) : ℤ :=
  if q - ⌊q⌋ < 1 / 2 ∨ (q - ⌊q⌋ = 1 / 2 ∧ ⌊q⌋ % 2 = 0) then ⌊q⌋ else ⌊q⌋ + 1

/-- The exponent of the unit in the last place, of 53 bits or of the subnormal numbers. -/
def ulpExponent (q : ℚ) : ℤ := max (Int.log 2 |q| - 52) (-1074)

/-- The double next to `q`; `none` stands for an infinity. -/
def roundDouble (q : ℚ) : Option ℚ :=
  if |roundHalfEven (q / 2 ^ ulpExponent q) * (2 : ℚ) ^ ulpExponent q| < 2 ^ 1024 then
    some (roundHalfEven (q / 2 ^ ulpExponent q) * (2 : ℚ) ^ ulpExponent q)
  else none

example : roundDouble (2 ^ 53 + 1) = some (2 ^ 53) := by decide +kernel

theorem roundHalfEven_intCast (z : ℤ) : roundHalfEven z = z := by
  unfold roundHalfEven
  rw [Int.floor_intCast, if_pos (Or.inl (by norm_num))]

theorem roundHalfEven_abs_le (q : ℚ) (n : ℕ) (h : |q| ≤ n) : |roundHalfEven q| ≤ n := by
  obtain ⟨hlow, hhigh⟩ := abs_le.mp h
  have hfloor := Int.floor_le q
  have hfloor' := Int.lt_floor_add_one q
  have hle : ⌊q⌋ ≤ n := by exact_mod_cast hfloor.trans hhigh
  have hge : -(n : ℤ) ≤ ⌊q⌋ := Int.le_floor.mpr (by exact_mod_cast hlow)
  unfold roundHalfEven
  split
  · exact abs_le.mpr ⟨hge, hle⟩
  · rename_i hup
    refine abs_le.mpr ⟨by omega, ?_⟩
    by_contra hlarge
    have heq : ⌊q⌋ = n := by omega
    have hq : q = (⌊q⌋ : ℚ) := by
      rw [heq] at hfloor ⊢
      exact le_antisymm (by exact_mod_cast hhigh) (by exact_mod_cast hfloor)
    exact hup (Or.inl (by rw [← hq]; norm_num))

theorem zpow_two_pos (e : ℤ) : (0 : ℚ) < 2 ^ e := zpow_pos (by norm_num) e

theorem dyadic_div (m e f : ℤ) (h : f ≤ e) : (m : ℚ) * 2 ^ e / 2 ^ f = ((m * 2 ^ (e - f).toNat : ℤ) : ℚ) := by
  have hpow : ((2 : ℤ) ^ (e - f).toNat : ℚ) = (2 : ℚ) ^ (e - f) := by
    rw [← zpow_natCast, Int.toNat_of_nonneg (by omega)]
    norm_num
  rw [Int.cast_mul, Int.cast_pow, hpow, mul_div_assoc, zpow_sub₀ (by norm_num)]

theorem log_dyadic_lt (m e : ℤ) (hm : m ≠ 0) (k : ℕ) (hk : |m| < 2 ^ k) : Int.log 2 |(m : ℚ) * 2 ^ e| < e + k := by
  have hpos : 0 < |(m : ℚ) * 2 ^ e| := abs_pos.mpr (mul_ne_zero (by exact_mod_cast hm) (zpow_two_pos e).ne')
  refine (Int.lt_zpow_iff_log_lt (by norm_num) hpos).mp ?_
  have hm' : |(m : ℚ)| < 2 ^ k := by exact_mod_cast hk
  rw [abs_mul, abs_of_pos (zpow_two_pos e), Nat.cast_ofNat, zpow_add₀ (by norm_num), mul_comm, zpow_natCast]
  exact mul_lt_mul_of_pos_left hm' (zpow_two_pos e)

/-- A number of 53 bits is its own double. -/
theorem roundDouble_dyadic (m e : ℤ) (hm : |m| ≤ 2 ^ 53) (he : -1074 ≤ e) (hlarge : |(m : ℚ) * 2 ^ e| < 2 ^ 1024) :
    roundDouble (m * 2 ^ e) = some ((m : ℚ) * 2 ^ e) := by
  have hround : ∃ z : ℤ, (m : ℚ) * 2 ^ e / 2 ^ ulpExponent (m * 2 ^ e) = z := by
    by_cases hzero : m = 0
    · exact ⟨0, by rw [hzero]; norm_num⟩
    obtain hlt | heq := lt_or_eq_of_le hm
    · have hlog := log_dyadic_lt m e hzero 53 hlt
      exact ⟨_, dyadic_div m e _ (max_le (by omega) he)⟩
    · obtain ⟨n, rfl⟩ : (2 : ℤ) ∣ m := (dvd_abs 2 m).mp (heq ▸ ⟨2 ^ 52, by norm_num⟩)
      have hn : |n| < 2 ^ 53 := by
        rw [abs_mul] at heq
        norm_num at heq ⊢
        omega
      have hshift : ((2 * n : ℤ) : ℚ) * 2 ^ e = n * 2 ^ (e + 1) := by
        rw [zpow_add₀ (by norm_num)]
        push_cast
        ring
      have hlog := log_dyadic_lt n (e + 1) (by omega) 53 hn
      rw [hshift]
      exact ⟨_, dyadic_div n (e + 1) _ (max_le (by omega) (by omega))⟩
  obtain ⟨z, hz⟩ := hround
  have hback : (z : ℚ) * 2 ^ ulpExponent (m * 2 ^ e) = m * 2 ^ e := by
    rw [← hz, div_mul_cancel₀ _ (zpow_two_pos _).ne']
  unfold roundDouble
  rw [hz, roundHalfEven_intCast, hback, if_pos hlarge]

theorem roundDouble_fixed (q x : ℚ) (h : roundDouble q = some x) : roundDouble x = some x := by
  unfold roundDouble at h
  split at h
  · rename_i hlarge
    obtain rfl := Option.some.inj h
    have hbits : |q / 2 ^ ulpExponent q| ≤ (2 ^ 53 : ℕ) := by
      rw [abs_div, abs_of_pos (zpow_two_pos _), div_le_iff₀ (zpow_two_pos _)]
      have hlog := Int.lt_zpow_succ_log_self (b := 2) (by norm_num) |q|
      refine (hlog.trans_le ?_).le
      have hexp : Int.log 2 |q| + 1 ≤ 53 + ulpExponent q := by
        unfold ulpExponent
        omega
      calc ((2 : ℕ) : ℚ) ^ (Int.log 2 |q| + 1) ≤ (2 : ℚ) ^ (53 + ulpExponent q) := by
            rw [Nat.cast_ofNat]
            exact zpow_le_zpow_right₀ (by norm_num) hexp
        _ = ((2 ^ 53 : ℕ) : ℚ) * 2 ^ ulpExponent q := by
            rw [zpow_add₀ (by norm_num)]
            norm_num
    exact roundDouble_dyadic _ _ (by exact_mod_cast roundHalfEven_abs_le _ _ hbits) (le_max_right _ _) hlarge
  · cases h

/-! ### Number texts -/

/-- A finite double, `-0` apart. -/
structure FiniteDouble where
  value : ℚ
  exact : roundDouble value = some value
  deriving DecidableEq

def asDouble (q : ℚ) : Double FiniteDouble :=
  match h : roundDouble q with
  | some x => .finite ⟨x, roundDouble_fixed q x h⟩
  | none => if q < 0 then .negativeInfinity else .infinity

def exponentValue : JsString → ℤ
  | [] => 0
  | _ :: 45 :: digits => -decimalValue digits
  | _ :: 43 :: digits => decimalValue digits
  | _ :: digits => decimalValue digits

/-- The number text without its sign, as it is written. -/
def magnitude (s : JsString) : Option ℚ := do
  let (whole, afterWhole) ← readInteger s
  let (fraction, afterFraction) ← readFraction afterWhole
  let (exponent, _) ← readExponent afterFraction
  some (decimalValue (whole ++ fraction.drop 1) * 10 ^ (exponentValue exponent - (fraction.length - 1 : ℕ)))

/-- `Number` of a JSON number text. -/
def numberValue (s : JsString) : Option (Double FiniteDouble) :=
  (magnitude (readMinus s).2).map fun q =>
    if (readMinus s).1 = [] then asDouble q
    else if roundDouble q = some 0 then .negativeZero
    else asDouble (-q)

/-- The integer that the double is. -/
def Double.js : Double FiniteDouble → JsNumber
  | .finite x => if x.value.den = 1 then .integer x.value.num else .other
  | .negativeZero => .negativeZero
  | _ => .other

example : (numberValue (lit "-12.50e1")).map Double.js = some (.integer (-125)) := by decide +kernel
example : (numberValue (lit "-1e-400")).map Double.js = some .negativeZero := by decide +kernel

/-! ### Integers -/

theorem roundDouble_int (z : ℤ) (h : |z| ≤ 2 ^ 53) : roundDouble z = some (z : ℚ) := by
  have hlarge : |(z : ℚ) * 2 ^ (0 : ℤ)| < 2 ^ 1024 := by
    have hz : |(z : ℚ)| ≤ 2 ^ 53 := by exact_mod_cast h
    rw [zpow_zero, mul_one]
    exact hz.trans_lt (pow_lt_pow_right₀ (by norm_num) (by norm_num))
  simpa using roundDouble_dyadic z 0 h (by norm_num) hlarge

def FiniteDouble.ofInt (z : ℤ) (h : |z| ≤ 2 ^ 53) : FiniteDouble := ⟨z, roundDouble_int z h⟩

theorem asDouble_eq (q x : ℚ) (h : roundDouble q = some x) : asDouble q = .finite ⟨x, roundDouble_fixed q x h⟩ := by
  unfold asDouble
  split
  · rename_i y hy
    obtain rfl := Option.some.inj (hy.symm.trans h)
    rfl
  · rename_i hnone
    cases hnone.symm.trans h

theorem magnitude_decimal (n : ℕ) : magnitude (decimal n) = some (n : ℚ) := by
  unfold magnitude
  rw [readInteger_decimal]
  show some _ = _
  simp [exponentValue, decimalValue_decimal]

theorem numberValue_decimal (n : ℕ) (h : |(n : ℤ)| ≤ 2 ^ 53) :
    numberValue (decimal n) = some (.finite (.ofInt n h)) := by
  unfold numberValue
  rw [readMinus_decimal, magnitude_decimal, Option.map_some, if_pos rfl]
  exact congrArg some (asDouble_eq n n (roundDouble_int n h))

theorem js_ofInt (z : ℤ) (h : |z| ≤ 2 ^ 53) : (Double.finite (FiniteDouble.ofInt z h)).js = .integer z := by
  simp [Double.js, FiniteDouble.ofInt]

/-! ### Parsed values -/

mutual

/-- What `JSON.parse` returns, as a runtime value. -/
def Json.value : Json (Double FiniteDouble) → Value
  | .null => .null
  | .boolean b => .bool b
  | .number x => .number x.js
  | .string s => .string s
  | .array items => .array (Json.valueItems items)
  | .object entries => .record (Json.valueEntries entries)

def Json.valueItems : List (Json (Double FiniteDouble)) → List Value
  | [] => []
  | v :: rest => Json.value v :: Json.valueItems rest

def Json.valueEntries : List (JsString × Json (Double FiniteDouble)) → List (JsString × Value)
  | [] => []
  | (key, v) :: rest => (key, Json.value v) :: Json.valueEntries rest

end

theorem Json.valueItems_eq (items : List (Json (Double FiniteDouble))) : Json.valueItems items = items.map Json.value := by
  induction items with
  | nil => rfl
  | cons v rest ih => rw [Json.valueItems, ih, List.map_cons]

end MoeNG.Kernel
