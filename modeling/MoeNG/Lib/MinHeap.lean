import Mathlib.Data.List.Perm.Basic
import Mathlib.Order.Lattice
import Mathlib.Tactic.Common

/-!
# A binary min-heap in a list

The children of place `i` are at `2 * i + 1` and `2 * i + 2`.
-/

namespace MoeNG.Lib

variable {A : Type}

/-- Both places are there and the first holds the lesser value. -/
def below [LinearOrder A] (heap : List A) (i j : ℕ) : Bool :=
  match heap[i]?, heap[j]? with
  | some a, some b => a < b
  | _, _ => false

def swapPlaces (heap : List A) (i j : ℕ) : List A :=
  match heap[i]?, heap[j]? with
  | some a, some b => (heap.set i b).set j a
  | _, _ => heap

def siftUp [LinearOrder A] : ℕ → List A → ℕ → List A
  | 0, heap, _ => heap
  | fuel + 1, heap, child =>
    if child = 0 then heap
    else if below heap child ((child - 1) / 2) then
      siftUp fuel (swapPlaces heap ((child - 1) / 2) child) ((child - 1) / 2)
    else heap

def heapPush [LinearOrder A] (heap : List A) (value : A) : List A := siftUp heap.length (heap ++ [value]) heap.length

def smallest [LinearOrder A] (heap : List A) (parent : ℕ) : ℕ :=
  let left := parent * 2 + 1
  let right := left + 1
  let lesser := if below heap left parent then left else parent
  if below heap right lesser then right else lesser

def siftDown [LinearOrder A] : ℕ → List A → ℕ → List A
  | 0, heap, _ => heap
  | fuel + 1, heap, parent =>
    if smallest heap parent = parent then heap
    else siftDown fuel (swapPlaces heap parent (smallest heap parent)) (smallest heap parent)

def heapPop [LinearOrder A] : List A → Option (A × List A)
  | [] => none
  | top :: rest =>
    match rest.getLast? with
    | none => some (top, [])
    | some last => some (top, siftDown rest.length (last :: rest.dropLast) 0)

theorem swapPlaces_perm (heap : List A) (i j : ℕ) : (swapPlaces heap i j).Perm heap := by
  unfold swapPlaces
  split
  · rename_i a b ha hb
    obtain ⟨hi, rfl⟩ := List.getElem?_eq_some_iff.mp ha
    obtain ⟨hj, rfl⟩ := List.getElem?_eq_some_iff.mp hb
    exact List.set_set_perm hi hj
  · exact List.Perm.refl _

theorem swapPlaces_length (heap : List A) (i j : ℕ) : (swapPlaces heap i j).length = heap.length :=
  (swapPlaces_perm heap i j).length_eq

theorem siftUp_perm [LinearOrder A] (fuel : ℕ) (heap : List A) (child : ℕ) : (siftUp fuel heap child).Perm heap := by
  induction fuel generalizing heap child with
  | zero => exact List.Perm.refl _
  | succ fuel ih =>
    unfold siftUp
    split
    · exact List.Perm.refl _
    · split
      · exact (ih _ _).trans (swapPlaces_perm heap _ _)
      · exact List.Perm.refl _

theorem siftDown_perm [LinearOrder A] (fuel : ℕ) (heap : List A) (parent : ℕ) : (siftDown fuel heap parent).Perm heap := by
  induction fuel generalizing heap parent with
  | zero => exact List.Perm.refl _
  | succ fuel ih =>
    unfold siftDown
    split
    · exact List.Perm.refl _
    · exact (ih _ _).trans (swapPlaces_perm heap _ _)

theorem heapPush_perm [LinearOrder A] (heap : List A) (value : A) : (heapPush heap value).Perm (value :: heap) :=
  (siftUp_perm _ _ _).trans (List.perm_append_singleton value heap)

theorem heapPop_perm [LinearOrder A] (heap rest : List A) (top : A) (h : heapPop heap = some (top, rest)) : heap.Perm
    (top :: rest) := by
  unfold heapPop at h
  split at h
  · cases h
  · rename_i head tail
    split at h
    · rename_i hlast
      obtain ⟨rfl, rfl⟩ := Prod.mk.inj (Option.some.inj h)
      rw [List.getLast?_eq_none_iff.mp hlast]
    · rename_i last hlast
      obtain ⟨rfl, rfl⟩ := Prod.mk.inj (Option.some.inj h)
      obtain ⟨front, rfl⟩ := List.getLast?_eq_some_iff.mp hlast
      rw [List.dropLast_concat]
      exact ((List.perm_append_singleton last front).trans (siftDown_perm _ _ 0).symm).cons head

theorem heapPop_none [LinearOrder A] (heap : List A) : heapPop heap = none ↔ heap = [] := by
  unfold heapPop
  split
  · simp
  · split <;> simp

/-! ### The order of the heap -/

theorem lt_length_of_get {heap : List A} {i : ℕ} {a : A} (h : heap[i]? = some a) : i < heap.length :=
  (List.getElem?_eq_some_iff.mp h).1

section Order
variable [LinearOrder A]

/-- A place holds no less than the place above it. -/
def OrderedAt (heap : List A) (i : ℕ) : Prop := below heap i ((i - 1) / 2) = false

def Heaped (heap : List A) : Prop := ∀ i, 0 < i → OrderedAt heap i

/-- In order but for one place, whose children are no less than what stands above it. -/
structure UpOrder (heap : List A) (hole : ℕ) : Prop where
  except : ∀ i, 0 < i → i ≠ hole → OrderedAt heap i
  grand : 0 < hole → ∀ i, 0 < i → (i - 1) / 2 = hole → below heap i ((hole - 1) / 2) = false

/-- In order but for the children of one place. -/
structure DownOrder (heap : List A) (hole : ℕ) : Prop where
  except : ∀ i, 0 < i → (i - 1) / 2 ≠ hole → OrderedAt heap i
  grand : 0 < hole → ∀ i, 0 < i → (i - 1) / 2 = hole → below heap i ((hole - 1) / 2) = false

theorem below_eq_false (heap : List A) (i j : ℕ) :
    below heap i j = false ↔ ∀ a b, heap[i]? = some a → heap[j]? = some b → b ≤ a := by
  unfold below
  split
  · rename_i a b ha hb
    simp [ha, hb]
  · rename_i hnone
    refine ⟨fun _ a b ha hb => absurd hb (hnone a b ha), fun _ => rfl⟩

theorem below_eq_true (heap : List A) (i j : ℕ) :
    below heap i j = true ↔ ∃ a b, heap[i]? = some a ∧ heap[j]? = some b ∧ a < b := by
  unfold below
  split
  · rename_i a b ha hb
    simp [ha, hb]
  · rename_i hnone
    refine ⟨nofun, ?_⟩
    rintro ⟨a, b, ha, hb, -⟩
    exact absurd hb (hnone a b ha)

omit [LinearOrder A] in
theorem swapPlaces_get (heap : List A) (i j : ℕ) (hi : i < heap.length) (hj : j < heap.length) (k : ℕ) :
    (swapPlaces heap i j)[k]? = if k = j then heap[i]? else if k = i then heap[j]? else heap[k]? := by
  unfold swapPlaces
  rw [List.getElem?_eq_getElem hi, List.getElem?_eq_getElem hj]
  dsimp only
  rw [List.getElem?_set, List.getElem?_set, List.length_set]
  by_cases hkj : k = j
  · simp [hkj, hj]
  · rw [if_neg (Ne.symm hkj), if_neg hkj]
    by_cases hki : k = i
    · simp [hki, hi]
    · rw [if_neg (Ne.symm hki), if_neg hki]

theorem UpOrder.move {heap : List A} {hole : ℕ} (h : UpOrder heap hole) (hpos : 0 < hole)
    (hbelow : below heap hole ((hole - 1) / 2) = true) : UpOrder (swapPlaces heap ((hole - 1) / 2) hole) ((hole - 1) / 2) := by
  obtain ⟨a, b, ha, hb, hab⟩ := (below_eq_true ..).mp hbelow
  have hget := swapPlaces_get heap ((hole - 1) / 2) hole (lt_length_of_get hb) (lt_length_of_get ha)
  have hne : (hole - 1) / 2 ≠ hole := by omega
  constructor
  · intro i hi hip
    refine (below_eq_false ..).mpr fun x y hx hy => ?_
    rw [hget] at hx hy
    by_cases hih : i = hole
    · rw [if_pos hih, hb] at hx
      rw [hih, if_neg hne, if_pos rfl, ha] at hy
      obtain rfl := Option.some.inj hx
      obtain rfl := Option.some.inj hy
      exact hab.le
    · rw [if_neg hih, if_neg hip] at hx
      by_cases hph : (i - 1) / 2 = hole
      · rw [if_pos hph, hb] at hy
        obtain rfl := Option.some.inj hy
        exact (below_eq_false ..).mp (h.grand hpos i hi hph) x b hx hb
      · have hold := (below_eq_false ..).mp (h.except i hi hih)
        rw [if_neg hph] at hy
        by_cases hpp : (i - 1) / 2 = (hole - 1) / 2
        · rw [if_pos hpp, ha] at hy
          obtain rfl := Option.some.inj hy
          exact hab.le.trans (hold x b hx (hpp ▸ hb))
        · rw [if_neg hpp] at hy
          exact hold x y hx hy
  · intro hp i hi hparent
    have hup := (below_eq_false ..).mp (h.except ((hole - 1) / 2) hp hne)
    refine (below_eq_false ..).mpr fun x y hx hy => ?_
    rw [hget, if_neg (by omega), if_neg (by omega)] at hy
    rw [hget] at hx
    by_cases hih : i = hole
    · rw [if_pos hih, hb] at hx
      obtain rfl := Option.some.inj hx
      exact hup b y hb hy
    · rw [if_neg hih, if_neg (by omega)] at hx
      have hold := (below_eq_false ..).mp (h.except i hi hih)
      rw [hparent] at hold
      exact (hup b y hb hy).trans (hold x b hx hb)

theorem siftUp_heaped (fuel : ℕ) (heap : List A) (hole : ℕ) (hfuel : hole ≤ fuel) (h : UpOrder heap hole) :
    Heaped (siftUp fuel heap hole) := by
  induction fuel generalizing heap hole with
  | zero =>
    exact fun i hi => h.except i hi (by omega)
  | succ fuel ih =>
    unfold siftUp
    by_cases hzero : hole = 0
    · rw [if_pos hzero]
      exact fun i hi => h.except i hi (by omega)
    · rw [if_neg hzero]
      split
      · rename_i hbelow
        exact ih _ _ (by omega) (h.move (Nat.pos_of_ne_zero hzero) hbelow)
      · rename_i hbelow
        intro i hi
        by_cases hih : i = hole
        · rw [hih]
          exact eq_false_of_ne_true hbelow
        · exact h.except i hi hih

theorem heapPush_heaped (heap : List A) (value : A) (h : Heaped heap) : Heaped (heapPush heap value) := by
  refine siftUp_heaped _ _ _ (Nat.le_refl _) ⟨fun i hi hne => ?_, fun _ i hi hparent => ?_⟩
  · refine (below_eq_false ..).mpr fun x y hx hy => ?_
    have hlt := lt_length_of_get hx
    rw [List.length_append, List.length_singleton] at hlt
    rw [List.getElem?_append_left (by omega)] at hx hy
    exact (below_eq_false ..).mp (h i hi) x y hx hy
  · refine (below_eq_false ..).mpr fun x y hx hy => ?_
    have hlt := lt_length_of_get hx
    rw [List.length_append, List.length_singleton] at hlt
    omega

/-- The place that a sift goes down to holds the least of the three, and it is a child unless nothing is to be done. -/
theorem smallest_spec (heap : List A) (parent : ℕ) :
    (smallest heap parent = parent ∧ ∀ i, 0 < i → (i - 1) / 2 = parent → below heap i parent = false)
      ∨ 0 < smallest heap parent ∧ (smallest heap parent - 1) / 2 = parent ∧ below heap (smallest heap parent) parent = true
        ∧ ∀ i, 0 < i → (i - 1) / 2 = parent → below heap i (smallest heap parent) = false := by
  have hchild : ∀ i, 0 < i → (i - 1) / 2 = parent → i = parent * 2 + 1 ∨ i = parent * 2 + 1 + 1 := by
    intro i hi hparent
    omega
  unfold smallest
  dsimp only
  by_cases hleft : below heap (parent * 2 + 1) parent = true
  · rw [if_pos hleft]
    obtain ⟨a, b, ha, hb, hab⟩ := (below_eq_true ..).mp hleft
    by_cases hright : below heap (parent * 2 + 1 + 1) (parent * 2 + 1) = true
    · rw [if_pos hright]
      obtain ⟨c, a', hc, ha', hca⟩ := (below_eq_true ..).mp hright
      obtain rfl := Option.some.inj (ha.symm.trans ha')
      refine Or.inr ⟨by omega, by omega, (below_eq_true ..).mpr ⟨c, b, hc, hb, hca.trans hab⟩, fun i hi hparent => ?_⟩
      refine (below_eq_false ..).mpr fun x y hx hy => ?_
      obtain rfl := Option.some.inj (hc.symm.trans hy)
      rcases hchild i hi hparent with rfl | rfl
      · obtain rfl := Option.some.inj (ha.symm.trans hx)
        exact hca.le
      · exact (Option.some.inj (hc.symm.trans hx)).le
    · rw [if_neg hright]
      refine Or.inr ⟨by omega, by omega, hleft, fun i hi hparent => ?_⟩
      rcases hchild i hi hparent with rfl | rfl
      · exact (below_eq_false ..).mpr fun x y hx hy => (Option.some.inj (hy.symm.trans hx)).le
      · exact eq_false_of_ne_true hright
  · rw [if_neg hleft]
    by_cases hright : below heap (parent * 2 + 1 + 1) parent = true
    · rw [if_pos hright]
      obtain ⟨c, b, hc, hb, hcb⟩ := (below_eq_true ..).mp hright
      refine Or.inr ⟨by omega, by omega, hright, fun i hi hparent => ?_⟩
      refine (below_eq_false ..).mpr fun x y hx hy => ?_
      obtain rfl := Option.some.inj (hc.symm.trans hy)
      rcases hchild i hi hparent with rfl | rfl
      · have hle := (below_eq_false ..).mp (eq_false_of_ne_true hleft) x b hx hb
        exact hcb.le.trans hle
      · exact (Option.some.inj (hc.symm.trans hx)).le
    · rw [if_neg hright]
      refine Or.inl ⟨rfl, fun i hi hparent => ?_⟩
      rcases hchild i hi hparent with rfl | rfl
      · exact eq_false_of_ne_true hleft
      · exact eq_false_of_ne_true hright

theorem DownOrder.move {heap : List A} {hole : ℕ} (h : DownOrder heap hole) {least : ℕ} (hleast : 0 < least)
    (hparent : (least - 1) / 2 = hole) (hbelow : below heap least hole = true)
    (hothers : ∀ i, 0 < i → (i - 1) / 2 = hole → below heap i least = false) :
    DownOrder (swapPlaces heap hole least) least := by
  obtain ⟨a, b, ha, hb, hab⟩ := (below_eq_true ..).mp hbelow
  have hget := swapPlaces_get heap hole least (lt_length_of_get hb) (lt_length_of_get ha)
  have hne : hole ≠ least := by omega
  constructor
  · intro i hi hip
    refine (below_eq_false ..).mpr fun x y hx hy => ?_
    rw [hget] at hx hy
    rw [if_neg hip] at hy
    by_cases hil : i = least
    · rw [if_pos hil, hb] at hx
      rw [hil, if_pos hparent, ha] at hy
      obtain rfl := Option.some.inj hx
      obtain rfl := Option.some.inj hy
      exact hab.le
    · rw [if_neg hil] at hx
      by_cases hih : i = hole
      · rw [if_pos hih, ha] at hx
        rw [hih, if_neg (by omega)] at hy
        obtain rfl := Option.some.inj hx
        exact (below_eq_false ..).mp (h.grand (hih ▸ hi) least hleast hparent) a y ha hy
      · rw [if_neg hih] at hx
        by_cases hph : (i - 1) / 2 = hole
        · rw [if_pos hph, ha] at hy
          obtain rfl := Option.some.inj hy
          exact (below_eq_false ..).mp (hothers i hi hph) x a hx ha
        · rw [if_neg hph] at hy
          exact (below_eq_false ..).mp (h.except i hi hph) x y hx hy
  · intro _ i hi hip
    refine (below_eq_false ..).mpr fun x y hx hy => ?_
    rw [hget, if_neg (by omega), if_neg (by omega)] at hx
    rw [hget, hparent, if_neg hne, if_pos rfl, ha] at hy
    obtain rfl := Option.some.inj hy
    have hold := h.except i hi (by omega)
    rw [OrderedAt, hip] at hold
    exact (below_eq_false ..).mp hold x a hx ha

theorem siftDown_heaped (fuel : ℕ) (heap : List A) (hole : ℕ) (hfuel : heap.length ≤ fuel + hole) (h : DownOrder heap hole) :
    Heaped (siftDown fuel heap hole) := by
  have hdone : (∀ i, 0 < i → (i - 1) / 2 = hole → below heap i hole = false) → Heaped heap := by
    intro hchildren i hi
    by_cases hparent : (i - 1) / 2 = hole
    · rw [OrderedAt, hparent]
      exact hchildren i hi hparent
    · exact h.except i hi hparent
  induction fuel generalizing heap hole with
  | zero =>
    refine hdone fun i hi hparent => (below_eq_false ..).mpr fun x y hx hy => ?_
    have hlt := lt_length_of_get hy
    omega
  | succ fuel ih =>
    unfold siftDown
    rcases smallest_spec heap hole with ⟨heq, hchildren⟩ | ⟨hpos, hparent, hbelow, hothers⟩
    · rw [if_pos heq]
      exact hdone hchildren
    · have hmoved := h.move hpos hparent hbelow hothers
      rw [if_neg (by omega)]
      refine ih _ _ (by rw [swapPlaces_length]; omega) hmoved fun hchildren i hi => ?_
      by_cases hip : (i - 1) / 2 = smallest heap hole
      · rw [OrderedAt, hip]
        exact hchildren i hi hip
      · exact hmoved.except i hi hip

theorem Heaped.top_le {heap : List A} (h : Heaped heap) {top : A} (htop : heap[0]? = some top) (i : ℕ) (a : A)
    (ha : heap[i]? = some a) : top ≤ a := by
  induction i using Nat.strongRecOn generalizing a with
  | ind i ih =>
    by_cases hzero : i = 0
    · subst hzero
      exact (Option.some.inj (htop.symm.trans ha)).le
    · have hlt : (i - 1) / 2 < heap.length := by
        have hi := lt_length_of_get ha
        omega
      have hup := (below_eq_false ..).mp (h i (Nat.pos_of_ne_zero hzero)) a _ ha (List.getElem?_eq_getElem hlt)
      exact (ih ((i - 1) / 2) (by omega) _ (List.getElem?_eq_getElem hlt)).trans hup

/-- What is popped is least, and the rest is a heap again. -/
theorem heapPop_heaped (heap rest : List A) (top : A) (hheap : Heaped heap) (h : heapPop heap = some (top, rest)) :
    Heaped rest ∧ ∀ a ∈ rest, top ≤ a := by
  have hperm := heapPop_perm heap rest top h
  unfold heapPop at h
  split at h
  · cases h
  · rename_i head tail
    have hleast : ∀ a ∈ head :: tail, head ≤ a := by
      intro a ha
      obtain ⟨i, hi, rfl⟩ := List.getElem_of_mem ha
      exact hheap.top_le rfl i _ (List.getElem?_eq_getElem hi)
    split at h
    · obtain ⟨rfl, rfl⟩ := Prod.mk.inj (Option.some.inj h)
      exact ⟨fun i hi => (below_eq_false ..).mpr fun x y hx _ => by simp at hx, nofun⟩
    · rename_i last hlast
      obtain ⟨rfl, rfl⟩ := Prod.mk.inj (Option.some.inj h)
      refine ⟨?_, fun a ha => hleast a (hperm.mem_iff.mpr (List.mem_cons_of_mem _ ha))⟩
      obtain ⟨front, rfl⟩ := List.getLast?_eq_some_iff.mp hlast
      rw [List.dropLast_concat]
      refine siftDown_heaped _ _ 0 (by simp) ⟨fun i hi hparent => ?_, fun hpos => absurd hpos (Nat.lt_irrefl 0)⟩
      have hkept : ∀ k x, 0 < k → (last :: front)[k]? = some x → (head :: (front ++ [last]))[k]? = some x := by
        intro k x hk hx
        obtain ⟨k, rfl⟩ := Nat.exists_eq_succ_of_ne_zero (Nat.ne_of_gt hk)
        rw [List.getElem?_cons_succ] at hx ⊢
        rw [List.getElem?_append_left (lt_length_of_get hx)]
        exact hx
      refine (below_eq_false ..).mpr fun x y hx hy => ?_
      exact (below_eq_false ..).mp (hheap i hi) x y (hkept i x hi hx) (hkept _ y (by omega) hy)

end Order

end MoeNG.Lib
