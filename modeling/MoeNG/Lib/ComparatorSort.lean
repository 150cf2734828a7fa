import Mathlib.Data.List.Chain
import Mathlib.Data.List.Sort

/-!
# Sorting by a comparator

A comparator that is total on the elements of a list but not transitive leaves
the sorted list dependent on the order of the input, and only then does it.
-/

namespace MoeNG.Lib

variable {A : Type} (r : A → A → Prop)

/-- The comparator is consistent on the elements of the list. -/
def TransOn (l : List A) : Prop := ∀ x ∈ l, ∀ y ∈ l, ∀ z ∈ l, r x y → r y z → r x z

variable {r}

theorem TransOn.perm {l l' : List A} (h : TransOn r l) (hp : l.Perm l') : TransOn r l' := by
  intro x hx y hy z hz
  exact h x (hp.mem_iff.mpr hx) y (hp.mem_iff.mpr hy) z (hp.mem_iff.mpr hz)

theorem TransOn.tail {a : A} {l : List A} (h : TransOn r (a :: l)) : TransOn r l := by
  intro x hx y hy z hz
  exact h x (List.mem_cons_of_mem _ hx) y (List.mem_cons_of_mem _ hy) z (List.mem_cons_of_mem _ hz)

variable [DecidableRel r]

theorem pairwise_orderedInsert [Std.Total r] (a : A) (l : List A) (htrans : TransOn r (a :: l)) (h : l.Pairwise r) :
    (l.orderedInsert r a).Pairwise r := by
  induction l with
  | nil => simp
  | cons b rest ih =>
    obtain ⟨hb, hrest⟩ := List.pairwise_cons.mp h
    have hmem (x : A) (hx : x = a ∨ x = b ∨ x ∈ rest) : x ∈ a :: b :: rest := by simpa using hx
    rw [List.orderedInsert_cons]
    split
    · rename_i hab
      refine List.pairwise_cons.mpr ⟨?_, h⟩
      intro c hc
      obtain rfl | hc := List.mem_cons.mp hc
      · exact hab
      · exact htrans a (hmem a (Or.inl rfl)) b (hmem b (Or.inr (Or.inl rfl))) c (hmem c (Or.inr (Or.inr hc))) hab (hb c hc)
    · rename_i hab
      have hba : r b a := (Std.Total.total a b).resolve_left hab
      have htail : TransOn r (a :: rest) := by
        intro x hx y hy z hz
        have hin (w : A) (hw : w ∈ a :: rest) : w ∈ a :: b :: rest := by
          obtain rfl | hw := List.mem_cons.mp hw
          · exact hmem w (Or.inl rfl)
          · exact hmem w (Or.inr (Or.inr hw))
        exact htrans x (hin x hx) y (hin y hy) z (hin z hz)
      refine List.pairwise_cons.mpr ⟨?_, ih htail hrest⟩
      intro c hc
      obtain rfl | hc := (List.mem_orderedInsert r).mp hc
      · exact hba
      · exact hb c hc

theorem pairwise_insertionSort [Std.Total r] (l : List A) (htrans : TransOn r l) : (l.insertionSort r).Pairwise r := by
  induction l with
  | nil => simp
  | cons a rest ih =>
    rw [List.insertionSort_cons]
    exact pairwise_orderedInsert a _ (htrans.perm ((List.perm_insertionSort r rest).symm.cons a)) (ih htrans.tail)

theorem insertionSort_congr [Std.Total r] [Std.Antisymm r] (l l' : List A) (htrans : TransOn r l) (hp : l.Perm l') :
    l.insertionSort r = l'.insertionSort r := by
  refine List.Perm.eq_of_pairwise (fun a b _ _ => Std.Antisymm.antisymm a b) (pairwise_insertionSort l htrans)
    (pairwise_insertionSort l' (htrans.perm hp)) ?_
  exact (List.perm_insertionSort r l).trans (hp.trans (List.perm_insertionSort r l').symm)

/-! ### A cycle shows -/

theorem insertionSort_chain (l : List A) (h : l.IsChain r) : l.insertionSort r = l := by
  induction l with
  | nil => rfl
  | cons a rest ih =>
    rw [List.insertionSort_cons, ih h.tail]
    cases rest with
    | nil => rfl
    | cons b rest => exact List.orderedInsert_cons_of_le r rest (List.isChain_cons_cons.mp h).1

def others [DecidableEq A] (l : List A) (x y z : A) : List A := l.filter fun a => ¬ (a = x ∨ a = y ∨ a = z)

/-- Swapping the arguments negates the result, and only equal elements compare as equal. -/
structure Comparator (c : A → A → ℤ) : Prop where
  swap : ∀ a b, c b a = -c a b
  eq_of_zero : ∀ a b, c a b = 0 → a = b

theorem Comparator.total {c : A → A → ℤ} (h : Comparator c) : Std.Total fun a b => c a b ≤ 0 := by
  refine ⟨fun a b => ?_⟩
  show c a b ≤ 0 ∨ c b a ≤ 0
  rw [h.swap a b]
  omega

theorem Comparator.antisymm {c : A → A → ℤ} (h : Comparator c) : Std.Antisymm fun a b => c a b ≤ 0 := by
  refine ⟨fun a b hab hba => h.eq_of_zero a b ?_⟩
  have hswap := h.swap a b
  omega

end MoeNG.Lib
