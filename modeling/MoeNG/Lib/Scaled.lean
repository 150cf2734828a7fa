import Mathlib.Algebra.Order.Field.Rat
import Mathlib.Algebra.Order.Field.Power
import Mathlib.Tactic.Linarith
import Mathlib.Tactic.NormNum

/-!
# Coefficients and powers of a base

A number written as a natural coefficient and a power of the base. A coefficient
that the base does not divide, and the power, are those of one number only.
-/

namespace MoeNG.Lib

def scaled (base coefficient : ℕ) (power : ℤ) : ℚ := coefficient * (base : ℚ) ^ power

section Scaled
variable {base : ℕ}

theorem scaled_zero (power : ℤ) : scaled base 0 power = 0 := by simp [scaled]

theorem scaled_pos (hbase : 1 < base) {c : ℕ} (hc : 0 < c) (e : ℤ) : 0 < scaled base c e := by
  have hpow : (0 : ℚ) < (base : ℚ) ^ e := zpow_pos (by exact_mod_cast (by omega : 0 < base)) e
  exact mul_pos (by exact_mod_cast hc) hpow

theorem scaled_shift (hbase : 1 < base) (c k : ℕ) (e : ℤ) : scaled base (c * base ^ k) e = scaled base c (e + k) := by
  have hne : (base : ℚ) ≠ 0 := by exact_mod_cast (by omega : base ≠ 0)
  unfold scaled
  rw [Nat.cast_mul, Nat.cast_pow, zpow_add₀ hne, zpow_natCast, mul_assoc, mul_comm ((base : ℚ) ^ k)]

theorem pos_of_not_dvd {c : ℕ} (hc : ¬ base ∣ c) : 0 < c :=
  Nat.pos_of_ne_zero fun hzero => hc (hzero ▸ dvd_zero base)

theorem scaled_same_power (hbase : 1 < base) {c d : ℕ} (e : ℤ) (h : scaled base c e = scaled base d e) : c = d := by
  have hpow : (base : ℚ) ^ e ≠ 0 := zpow_ne_zero e (by exact_mod_cast (by omega : base ≠ 0))
  exact_mod_cast mul_right_cancel₀ hpow h

theorem scaled_power_le (hbase : 1 < base) {c d : ℕ} {e f : ℤ} (hc : ¬ base ∣ c) (h : scaled base c e = scaled base d f) :
    f ≤ e := by
  by_contra hlt
  obtain ⟨k, rfl⟩ : ∃ k : ℕ, f = e + (k + 1 : ℕ) := ⟨(f - e - 1).toNat, by omega⟩
  rw [← scaled_shift hbase] at h
  have heq : c = d * base ^ (k + 1) := scaled_same_power hbase e h
  exact hc (heq ▸ Dvd.dvd.mul_left (dvd_pow_self base (Nat.succ_ne_zero k)) d)

theorem scaled_inj (hbase : 1 < base) {c d : ℕ} {e f : ℤ} (hc : ¬ base ∣ c) (hd : ¬ base ∣ d)
    (h : scaled base c e = scaled base d f) : c = d ∧ e = f := by
  obtain rfl : e = f := le_antisymm (scaled_power_le hbase hd h.symm) (scaled_power_le hbase hc h)
  exact ⟨scaled_same_power hbase e h, rfl⟩

/-! ### Signs -/

def signed (negative : Bool) (q : ℚ) : ℚ := if negative then -q else q

theorem signed_zero (negative : Bool) : signed negative 0 = 0 := by cases negative <;> simp [signed]

theorem signed_inj {m n : Bool} {p q : ℚ} (hp : 0 < p) (hq : 0 < q) (h : signed m p = signed n q) : m = n ∧ p = q := by
  cases m <;> cases n <;> simp only [signed, Bool.false_eq_true, if_true, if_false] at h
  · exact ⟨rfl, h⟩
  · exact absurd h (by linarith)
  · exact absurd h (by linarith)
  · exact ⟨rfl, neg_injective h⟩

theorem signed_eq_zero {negative : Bool} {q : ℚ} : signed negative q = 0 ↔ q = 0 := by
  cases negative <;> simp [signed]

end Scaled

end MoeNG.Lib
