import Mathlib.Algebra.Order.Ring.Int
import Mathlib.Tactic.Positivity
import Mathlib.Tactic.Zify
import MoeNG.Lib.OrdMap

/-!
# Sums in floating point

A rounding keeps the order of the integers and every integer up to `2 ^ p`, so
a sum of counts is on the same side of the bound before and after it. The
roundings to a nearest member of a set are the ones that processors implement;
`nearestEven` is the one to `p` significant bits with ties to even.
-/

namespace MoeNG.Lib

structure Rounding (p : ℕ) where
  fl : ℤ → ℤ
  monotone : ∀ ⦃x y : ℤ⦄, x ≤ y → fl x ≤ fl y
  exact : ∀ z : ℤ, z.natAbs ≤ 2 ^ p → fl z = z

instance (p : ℕ) : CoeFun (Rounding p) fun _ => ℤ → ℤ := ⟨Rounding.fl⟩

namespace Rounding

/-- Arithmetic without rounding. -/
def exactly (p : ℕ) : Rounding p := ⟨id, fun _ _ h => h, fun _ _ => rfl⟩

@[simp] theorem exactly_apply (p : ℕ) (z : ℤ) : exactly p z = z := rfl

section Bounds
variable {p : ℕ} (fl : Rounding p)

theorem bound_le (z : ℤ) (h : 2 ^ p ≤ z) : 2 ^ p ≤ fl z := by
  have hmono := fl.monotone h
  rwa [fl.exact (2 ^ p) (by rw [Int.natAbs_pow]; rfl)] at hmono

theorem exact_of_le (z : ℤ) (h0 : 0 ≤ z) (h : z ≤ 2 ^ p) : fl z = z := by
  refine fl.exact z ?_
  zify
  rwa [abs_of_nonneg h0]

theorem nonneg_iff (z : ℤ) : 0 ≤ fl z ↔ 0 ≤ z := by
  constructor
  · intro h
    by_contra hneg
    have hmono := fl.monotone (show z ≤ -1 by omega)
    rw [fl.exact (-1) (Nat.one_le_two_pow)] at hmono
    omega
  · intro h
    have hmono := fl.monotone h
    rwa [fl.exact 0 (Nat.zero_le _)] at hmono

theorem lt_bound_iff (z : ℤ) : fl z < 2 ^ p ↔ z < 2 ^ p := by
  constructor
  · intro h
    by_contra hge
    exact absurd (fl.bound_le z (not_lt.mp hge)) (not_le.mpr h)
  · intro h
    by_cases h0 : 0 ≤ z
    · rwa [fl.exact_of_le z h0 h.le]
    · have hneg := (fl.nonneg_iff z).not.mpr h0
      have hpos : (0 : ℤ) < 2 ^ p := by positivity
      omega

end Bounds

/-! ### Tallies -/

section Tally
variable {p : ℕ} {K A : Type} [DecidableEq K] (fl : Rounding p) (key : A → K) (q : A → ℤ)

/-- `OrdMap.tallyInto` with every sum rounded. -/
def tallyInto (m : OrdMap K ℤ) (l : List A) : OrdMap K ℤ :=
  l.foldl (fun totals x => totals.set (key x) (fl ((totals.get (key x)).getD 0 + q x))) m

def tally (l : List A) : OrdMap K ℤ := fl.tallyInto key q OrdMap.empty l

theorem tally_exactly (l : List A) : (exactly p).tally key q l = OrdMap.tally key q l := rfl

/-- A total that has reached the bound stays there. -/
theorem tallyInto_bound_le (m : OrdMap K ℤ) (l : List A) (hq : ∀ x ∈ l, 0 ≤ q x) (k : K)
    (h : 2 ^ p ≤ (m.get k).getD 0) : 2 ^ p ≤ ((fl.tallyInto key q m l).get k).getD 0 := by
  induction l generalizing m with
  | nil => exact h
  | cons x rest ih =>
    have hx := hq x (List.mem_cons_self ..)
    refine ih (m.set (key x) (fl ((m.get (key x)).getD 0 + q x))) (fun y hy => hq y (List.mem_cons_of_mem _ hy)) ?_
    rw [OrdMap.get_set]
    split
    · rename_i hk
      rw [Option.getD_some]
      refine fl.bound_le _ ?_
      rw [← hk]
      omega
    · exact h

/-- Precision can only be lost in totals that have reached the bound. -/
theorem tallyInto_eq (m : OrdMap K ℤ) (l : List A) (hq : ∀ x ∈ l, 0 ≤ q x) (hm : ∀ k, 0 ≤ (m.get k).getD 0)
    (h : ∀ k, ((fl.tallyInto key q m l).get k).getD 0 < 2 ^ p) : fl.tallyInto key q m l = OrdMap.tallyInto key q m l := by
  induction l generalizing m with
  | nil => rfl
  | cons x rest ih =>
    have hx := hq x (List.mem_cons_self ..)
    have hrest : ∀ y ∈ rest, 0 ≤ q y := fun y hy => hq y (List.mem_cons_of_mem _ hy)
    have hsum : 0 ≤ (m.get (key x)).getD 0 + q x := add_nonneg (hm (key x)) hx
    have hexact : fl ((m.get (key x)).getD 0 + q x) = (m.get (key x)).getD 0 + q x := by
      refine fl.exact_of_le _ hsum ((fl.lt_bound_iff _).mp ?_).le
      by_contra hge
      refine absurd (h (key x)) (not_lt.mpr (fl.tallyInto_bound_le key q _ rest hrest (key x) ?_))
      rw [OrdMap.get_set, if_pos rfl, Option.getD_some]
      exact not_lt.mp hge
    have hstep : fl.tallyInto key q m (x :: rest)
        = fl.tallyInto key q (m.set (key x) ((m.get (key x)).getD 0 + q x)) rest := by
      show fl.tallyInto key q (m.set (key x) (fl ((m.get (key x)).getD 0 + q x))) rest = _
      rw [hexact]
    rw [hstep] at h ⊢
    refine ih _ hrest (fun k => ?_) h
    rw [OrdMap.get_set]
    split
    · exact hsum
    · exact hm k

theorem tally_eq (l : List A) (hq : ∀ x ∈ l, 0 ≤ q x) (h : ∀ k, ((fl.tally key q l).get k).getD 0 < 2 ^ p) :
    fl.tally key q l = OrdMap.tally key q l :=
  fl.tallyInto_eq key q _ l hq (fun _ => le_rfl) h

end Tally

/-! ### The nearest member of a set -/

/-- `fl` picks a nearest member of `S`. -/
structure NearestIn (S : Set ℤ) (fl : ℤ → ℤ) : Prop where
  mem : ∀ z, fl z ∈ S
  nearest : ∀ z, ∀ y ∈ S, (fl z - z).natAbs ≤ (y - z).natAbs

theorem NearestIn.fixed {S : Set ℤ} {fl : ℤ → ℤ} (h : NearestIn S fl) (z : ℤ) (hz : z ∈ S) : fl z = z := by
  have hle := h.nearest z z hz
  omega

theorem NearestIn.monotone {S : Set ℤ} {fl : ℤ → ℤ} (h : NearestIn S fl) ⦃x y : ℤ⦄ (hxy : x ≤ y) : fl x ≤ fl y := by
  by_contra hlt
  have hx := h.nearest x (fl y) (h.mem y)
  have hy := h.nearest y (fl x) (h.mem x)
  -- both distances meet in the middle, where the two arguments are equal
  have heq : x = y := by omega
  rw [heq] at hlt
  exact hlt le_rfl

/-- Integers of `p` significant bits; `2 ^ p` itself is one of them. -/
def significant (p : ℕ) : Set ℤ := {x | ∃ (m : ℤ) (e : ℕ), m.natAbs ≤ 2 ^ p ∧ x = m * 2 ^ e}

theorem significant_neg (p : ℕ) (x : ℤ) (h : x ∈ significant p) : -x ∈ significant p := by
  obtain ⟨m, e, hm, rfl⟩ := h
  exact ⟨-m, e, by rwa [Int.natAbs_neg], by rw [Int.neg_mul]⟩

/-! ### Ties to even -/

/-- The nearest multiple of `u`, the even one of two. -/
def evenMultiple (u n : ℕ) : ℕ := if 2 * (n % u) < u ∨ (2 * (n % u) = u ∧ n / u % 2 = 0) then n / u * u else (n / u + 1) * u

theorem evenMultiple_nearest (u n : ℕ) (hu : 0 < u) (m : ℤ) :
    ((evenMultiple u n : ℤ) - n).natAbs ≤ (m * u - n).natAbs := by
  have hmod := Nat.mod_lt n hu
  have hdiv : n / u * u + n % u = n := Nat.div_add_mod' n u
  have hnext : (n / u + 1) * u = n / u * u + u := Nat.succ_mul ..
  have hside : m * u ≤ (n / u * u : ℕ) ∨ ((n / u * u : ℕ) : ℤ) + u ≤ m * u := by
    obtain hle | hlt := le_or_gt m ((n / u : ℕ) : ℤ)
    · left
      rw [Nat.cast_mul]
      exact Int.mul_le_mul_of_nonneg_right hle (Int.natCast_nonneg u)
    · right
      have hle := Int.mul_le_mul_of_nonneg_right (show ((n / u : ℕ) : ℤ) + 1 ≤ m from hlt) (Int.natCast_nonneg u)
      rwa [Int.add_mul, one_mul, ← Nat.cast_mul] at hle
  unfold evenMultiple
  split <;> omega

def roundEven (p n : ℕ) : ℕ := evenMultiple (2 ^ (n.log2 + 1 - p)) n

def roundSigned (p : ℕ) (z : ℤ) : ℤ := z.sign * roundEven p z.natAbs

theorem roundEven_mem (p n : ℕ) : (roundEven p n : ℤ) ∈ significant p := by
  have hquotient : n / 2 ^ (n.log2 + 1 - p) < 2 ^ p := by
    rw [Nat.div_lt_iff_lt_mul (Nat.two_pow_pos _), ← Nat.pow_add]
    exact Nat.lt_of_lt_of_le Nat.lt_log2_self (Nat.pow_le_pow_right (by decide) (by omega))
  unfold roundEven evenMultiple
  split
  · exact ⟨(n / 2 ^ (n.log2 + 1 - p) : ℕ), n.log2 + 1 - p, hquotient.le, by push_cast; rfl⟩
  · exact ⟨(n / 2 ^ (n.log2 + 1 - p) + 1 : ℕ), n.log2 + 1 - p, hquotient, by push_cast; rfl⟩

theorem roundEven_nearest (p n : ℕ) (hp : 0 < p) (y : ℤ) (hy : y ∈ significant p) :
    ((roundEven p n : ℤ) - n).natAbs ≤ (y - n).natAbs := by
  obtain ⟨m, e, hm, rfl⟩ := hy
  have hmultiple := evenMultiple_nearest (2 ^ (n.log2 + 1 - p)) n (Nat.two_pow_pos _)
  by_cases he : n.log2 + 1 - p ≤ e
  · have hy : m * 2 ^ e = m * 2 ^ (e - (n.log2 + 1 - p)) * (2 ^ (n.log2 + 1 - p) : ℕ) := by
      rw [mul_assoc, Nat.cast_pow, Nat.cast_two, ← pow_add, Nat.sub_add_cancel he]
    rw [hy]
    exact hmultiple _
  · -- a smaller exponent stays below the power of two under `n`, which is a multiple itself
    have hn : n ≠ 0 := by
      rintro rfl
      simp only [Nat.log2_zero] at he
      omega
    have hpower : (2 : ℤ) ^ n.log2 = 2 ^ (p - 1) * (2 ^ (n.log2 + 1 - p) : ℕ) := by
      rw [Nat.cast_pow, Nat.cast_two, ← pow_add]
      congr 1
      omega
    have hbelow : m * 2 ^ e ≤ 2 ^ n.log2 := by
      have hexponent : (2 : ℤ) ^ n.log2 = 2 ^ p * 2 ^ (n.log2 - p) := by
        rw [← pow_add]
        congr 1
        omega
      have hm' : m ≤ 2 ^ p := by
        have hcast : ((2 ^ p : ℕ) : ℤ) = 2 ^ p := by push_cast; rfl
        omega
      calc m * 2 ^ e ≤ 2 ^ p * 2 ^ e := Int.mul_le_mul_of_nonneg_right hm' (by positivity)
        _ ≤ 2 ^ p * 2 ^ (n.log2 - p) :=
          Int.mul_le_mul_of_nonneg_left (pow_le_pow_right₀ (by decide) (by omega)) (by positivity)
        _ = 2 ^ n.log2 := hexponent.symm
    have hle : (2 : ℤ) ^ n.log2 ≤ n := by exact_mod_cast Nat.log2_self_le hn
    have hclosest := hmultiple (2 ^ (p - 1))
    rw [← hpower] at hclosest
    unfold roundEven
    omega

theorem roundSigned_nearest (p : ℕ) (hp : 0 < p) : NearestIn (significant p) (roundSigned p) := by
  constructor
  · intro z
    unfold roundSigned
    obtain hneg | rfl | hpos := lt_trichotomy z 0
    · rw [Int.sign_eq_neg_one_of_neg hneg, neg_one_mul]
      exact significant_neg p _ (roundEven_mem p _)
    · exact ⟨0, 0, Nat.zero_le _, by simp⟩
    · rw [Int.sign_eq_one_of_pos hpos, one_mul]
      exact roundEven_mem p _
  · intro z y hy
    unfold roundSigned
    obtain hneg | rfl | hpos := lt_trichotomy z 0
    · have hnearest := roundEven_nearest p z.natAbs hp (-y) (significant_neg p y hy)
      rw [Int.sign_eq_neg_one_of_neg hneg, neg_one_mul]
      omega
    · simp
    · have hnearest := roundEven_nearest p z.natAbs hp y hy
      rw [Int.sign_eq_one_of_pos hpos, one_mul]
      omega

/-- Rounding to `p` significant bits, ties to even. -/
def nearestEven (p : ℕ) (hp : 0 < p) : Rounding p where
  fl := roundSigned p
  monotone := (roundSigned_nearest p hp).monotone
  exact z hz := (roundSigned_nearest p hp).fixed z ⟨z, 0, hz, by rw [pow_zero, mul_one]⟩

/-! ### The first binade that is not exact -/

/-- What rounding adds to an integer below `2 ^ (p + 1)`. -/
def drift (p : ℕ) (z : ℤ) : ℤ := if z ≤ 2 ^ p then 0 else if z % 4 = 1 then -1 else if z % 4 = 3 then 1 else 0

theorem drift_of_le (p : ℕ) (z : ℤ) (h : z ≤ 2 ^ p) : drift p z = 0 := if_pos h

theorem nearestEven_drift (p : ℕ) (hp : 0 < p) (z : ℤ) (h0 : -2 ^ p ≤ z) (h : z < 2 ^ (p + 1)) :
    nearestEven p hp z = z + drift p z := by
  unfold drift
  split
  · rename_i hle
    rw [add_zero]
    refine (nearestEven p hp).exact z ?_
    have hcast : ((2 ^ p : ℕ) : ℤ) = 2 ^ p := by push_cast; rfl
    omega
  · rename_i hlt
    have hpower : (0 : ℤ) < 2 ^ p := by positivity
    obtain ⟨n, rfl⟩ := Int.eq_ofNat_of_zero_le (show 0 ≤ z by omega)
    have hbelow : n < 2 ^ (p + 1) := by exact_mod_cast h
    have habove : 2 ^ p < n := by exact_mod_cast not_le.mp hlt
    have hn : n ≠ 0 := by omega
    have hlog : n.log2 = p := by
      have hlower := (Nat.le_log2 hn).mpr habove.le
      have hupper := (Nat.log2_lt hn).mpr hbelow
      omega
    show ((n : ℤ).sign * roundEven p n : ℤ) = _
    rw [Int.sign_eq_one_of_pos (by omega), one_mul, roundEven, hlog, Nat.add_sub_cancel_left, pow_one, evenMultiple]
    split <;> split <;> (try split) <;> omega

end Rounding

end MoeNG.Lib
