import Mathlib.Algebra.GroupWithZero.Nat
import Mathlib.Data.List.Chain
import Mathlib.Data.List.Nodup
import Mathlib.Tactic.Common
import MoeNG.Lib.Reach

/-!
# Tables filled along an order

When every vertex stands after those it looks at, one pass computes what a
vertex is worth from what they are: what it leads to, and how much the heaviest
trail from it weighs.
-/

namespace MoeNG.Lib

variable {A : Type}

/-- Every vertex of the order stands after those it looks at. -/
def Behind (nexts : A → List A) (order : List A) : Prop :=
  ∀ front v back, order = front ++ v :: back → ∀ u ∈ nexts v, u ∈ front

theorem behind_of_rank [DecidableEq A] {nexts : A → List A} {order : List A} (hnodup : order.Nodup)
    (h : ∀ v ∈ order, ∀ u ∈ nexts v, u ∈ order ∧ order.idxOf u < order.idxOf v) : Behind nexts order := by
  intro front v back hsplit u hu
  have hv : v ∈ order := hsplit ▸ List.mem_append_right _ (List.mem_cons_self ..)
  obtain ⟨hmem, hlt⟩ := h v hv u hu
  rw [hsplit] at hnodup hlt
  have hfresh : v ∉ front := fun hm => (List.disjoint_of_nodup_append hnodup) hm (List.mem_cons_self ..)
  by_contra hnot
  rw [List.idxOf_append_of_notMem hnot, List.idxOf_append_of_notMem hfresh, List.idxOf_cons_self] at hlt
  omega

theorem behind_reverse [DecidableEq A] {nexts : A → List A} {order : List A} (hnodup : order.Nodup)
    (h : ∀ v ∈ order, ∀ u ∈ nexts v, u ∈ order ∧ order.idxOf v < order.idxOf u) : Behind nexts order.reverse := by
  intro front v back hsplit u hu
  have horder : order = back.reverse ++ v :: front.reverse := by
    rw [← List.reverse_reverse order, hsplit]
    simp
  have hv : v ∈ order := horder ▸ List.mem_append_right _ (List.mem_cons_self ..)
  obtain ⟨hmem, hlt⟩ := h v hv u hu
  rw [horder] at hnodup hlt hmem
  have hfresh : v ∉ back.reverse := fun hm => (List.disjoint_of_nodup_append hnodup) hm (List.mem_cons_self ..)
  rw [List.idxOf_append_of_notMem hfresh, List.idxOf_cons_self] at hlt
  rcases List.mem_append.mp hmem with hin | hin
  · have hplace := List.idxOf_lt_length_iff.mpr hin
    rw [List.idxOf_append_of_mem hin] at hlt
    omega
  · rcases List.mem_cons.mp hin with rfl | hin
    · rw [List.idxOf_append_of_notMem hfresh, List.idxOf_cons_self] at hlt
      omega
    · exact List.mem_reverse.mp hin

/-! ### The pass -/

section Pass
variable {B : Type} {nexts : ℕ → List ℕ} {order : List ℕ} {size : ℕ}

/-- An entry is worth what the entries it looks at make it. -/
theorem foldl_set_spec (fallback : B) (compute : List B → ℕ → B) (worth : ℕ → B → Prop) (hnodup : order.Nodup)
    (hbound : ∀ v ∈ order, v < size) (hbehind : Behind nexts order)
    (hcompute : ∀ table v, v ∈ order → (∀ u ∈ nexts v, worth u (table.getD u fallback)) → worth v (compute table v)) (v : ℕ)
    (hv : v ∈ order) :
    worth v ((order.foldl (fun table v => table.set v (compute table v)) (List.replicate size fallback)).getD v fallback) := by
  suffices hrest : ∀ (todo done : List ℕ) (table : List B), order = done ++ todo → table.length = size →
      (∀ u ∈ done, worth u (table.getD u fallback)) →
      ∀ u ∈ order, worth u ((todo.foldl (fun table v => table.set v (compute table v)) table).getD u fallback) from
    hrest order [] _ rfl List.length_replicate nofun v hv
  intro todo
  induction todo with
  | nil =>
    intro done table horder _ hdone u hu
    rw [horder, List.append_nil] at hu
    exact hdone u hu
  | cons w rest ih =>
    intro done table horder hlength hdone
    have hw : w ∈ order := horder ▸ List.mem_append_right _ (List.mem_cons_self ..)
    have hfresh : w ∉ done := fun hm =>
      (List.disjoint_of_nodup_append (horder ▸ hnodup)) hm (List.mem_cons_self ..)
    have hlt : w < table.length := by
      rw [hlength]
      exact hbound w hw
    refine ih (done ++ [w]) _ (by simpa using horder) ((List.length_set ..).trans hlength) fun u hu => ?_
    rcases List.mem_append.mp hu with hu | hu
    · have hne : w ≠ u := fun heq => hfresh (heq ▸ hu)
      rw [List.getD, List.getElem?_set_ne hne]
      exact hdone u hu
    · obtain rfl := List.mem_singleton.mp hu
      rw [List.getD, List.getElem?_set_self hlt, Option.getD_some]
      exact hcompute table u hw fun x hx => hdone x (hbehind done u rest horder x hx)

theorem foldl_set_getD_of_not_mem (fallback : B) (compute : List B → ℕ → B) (order : List ℕ) (table : List B) (v : ℕ)
    (hv : v ∉ order) :
    (order.foldl (fun table v => table.set v (compute table v)) table).getD v fallback = table.getD v fallback := by
  induction order generalizing table with
  | nil => rfl
  | cons w rest ih =>
    rw [List.mem_cons, not_or] at hv
    rw [List.foldl_cons, ih _ hv.2, List.getD, List.getElem?_set_ne (Ne.symm hv.1)]
    rfl

/-- A pass that also keeps the greatest value it has set. -/
theorem foldl_set_max (compute : List ℕ → ℕ → ℕ) (hnodup : order.Nodup) (table : List ℕ) (hbound : ∀ v ∈ order, v < table.length)
    (most : ℕ) :
    let final := order.foldl (fun state v => (state.1.set v (compute state.1 v), max state.2 (compute state.1 v))) (table, most)
    let filled := order.foldl (fun table v => table.set v (compute table v)) table
    most ≤ final.2 ∧ (∀ v ∈ order, filled.getD v 0 ≤ final.2) ∧ (final.2 = most ∨ ∃ v ∈ order, filled.getD v 0 = final.2) := by
  induction order generalizing table most with
  | nil => exact ⟨le_refl _, nofun, Or.inl rfl⟩
  | cons w rest ih =>
    obtain ⟨hfresh, hnodup⟩ := List.nodup_cons.mp hnodup
    have hw := hbound w (List.mem_cons_self ..)
    obtain ⟨hmost, hall, hfound⟩ := ih hnodup (table.set w (compute table w))
      (fun v hv => by rw [List.length_set]; exact hbound v (List.mem_cons_of_mem _ hv)) (max most (compute table w))
    have hself : (rest.foldl (fun table v => table.set v (compute table v)) (table.set w (compute table w))).getD w 0
        = compute table w := by
      rw [foldl_set_getD_of_not_mem _ _ _ _ _ hfresh, List.getD, List.getElem?_set_self hw, Option.getD_some]
    rw [List.foldl_cons, List.foldl_cons]
    refine ⟨(le_max_left _ _).trans hmost, fun v hv => ?_, ?_⟩
    · rcases List.mem_cons.mp hv with rfl | hv
      · rw [hself]
        exact (le_max_right _ _).trans hmost
      · exact hall v hv
    · rcases hfound with heq | ⟨v, hv, heq⟩
      · rcases le_total (compute table w) most with hle | hle
        · rw [max_eq_left hle] at heq
          exact Or.inl (by rw [max_eq_left hle, heq])
        · rw [max_eq_right hle] at heq
          refine Or.inr ⟨w, List.mem_cons_self .., ?_⟩
          rw [hself, max_eq_right hle, heq]
      · exact Or.inr ⟨v, List.mem_cons_of_mem _ hv, heq⟩

end Pass

/-! ### Trails -/

section Trails
variable (nexts : A → List A) (weight : A → ℕ)

/-- A trail from a vertex: what comes after it. -/
def Trail (v : A) (rest : List A) : Prop := (v :: rest).IsChain fun a b => b ∈ nexts a

/-- The heaviest trail from a vertex weighs so much. -/
structure Heaviest (v : A) (total : ℕ) : Prop where
  bound : ∀ rest, Trail nexts v rest → ((v :: rest).map weight).sum ≤ total
  attained : ∃ rest, Trail nexts v rest ∧ ((v :: rest).map weight).sum = total

variable {nexts weight} {v u : A} {rest : List A}

theorem Trail.nil : Trail nexts v [] := List.isChain_singleton v

theorem Trail.cons_iff : Trail nexts v (u :: rest) ↔ u ∈ nexts v ∧ Trail nexts u rest := List.isChain_cons_cons

theorem Heaviest.unique {total total' : ℕ} (h : Heaviest nexts weight v total) (h' : Heaviest nexts weight v total') :
    total = total' := by
  obtain ⟨rest, htrail, hsum⟩ := h.attained
  obtain ⟨rest', htrail', hsum'⟩ := h'.attained
  have hle := h.bound rest' htrail'
  have hle' := h'.bound rest htrail
  omega

/-- The heaviest trail goes on with the heaviest one of those it can go on with. -/
theorem Heaviest.step (best : A → ℕ) (h : ∀ u ∈ nexts v, Heaviest nexts weight u (best u)) (most : ℕ)
    (hbound : ∀ u ∈ nexts v, best u ≤ most) (hattained : most = 0 ∨ ∃ u ∈ nexts v, best u = most) :
    Heaviest nexts weight v (weight v + most) := by
  constructor
  · intro rest htrail
    rw [List.map_cons, List.sum_cons]
    cases rest with
    | nil =>
      rw [List.map_nil, List.sum_nil]
      omega
    | cons u rest =>
      obtain ⟨hu, htrail⟩ := Trail.cons_iff.mp htrail
      have hle := (h u hu).bound rest htrail
      have hmost := hbound u hu
      omega
  · rcases hattained with rfl | ⟨u, hu, rfl⟩
    · exact ⟨[], Trail.nil, by simp⟩
    · obtain ⟨rest, htrail, hsum⟩ := (h u hu).attained
      exact ⟨u :: rest, Trail.cons_iff.mpr ⟨hu, htrail⟩, by rw [List.map_cons, List.sum_cons, hsum]⟩

end Trails

/-! ### The greatest value of a list -/

theorem foldl_argmax (value : A → ℕ) (l : List A) :
    let found := l.foldl (fun found a => if found.1 < value a then (value a, some a) else found) ((0, none) : ℕ × Option A)
    (∀ a ∈ l, value a ≤ found.1) ∧ (found = (0, none) ∨ ∃ a ∈ l, found = (value a, some a)) := by
  suffices hrest : ∀ (todo done : List A) (found : ℕ × Option A),
      (∀ a ∈ done, value a ≤ found.1) ∧ (found = (0, none) ∨ ∃ a ∈ done, found = (value a, some a)) →
      let final := todo.foldl (fun found a => if found.1 < value a then (value a, some a) else found) found
      (∀ a ∈ done ++ todo, value a ≤ final.1) ∧ (final = (0, none) ∨ ∃ a ∈ done ++ todo, final = (value a, some a)) from
    hrest l [] (0, none) ⟨nofun, Or.inl rfl⟩
  intro todo
  induction todo with
  | nil =>
    intro done found h
    rwa [List.append_nil]
  | cons x rest ih =>
    intro done found h
    have hassoc : done ++ x :: rest = (done ++ [x]) ++ rest := by simp
    rw [hassoc]
    refine ih (done ++ [x]) _ ?_
    dsimp only
    by_cases hlt : found.1 < value x
    · rw [if_pos hlt]
      refine ⟨fun a ha => ?_, Or.inr ⟨x, List.mem_append_right _ (List.mem_singleton_self x), rfl⟩⟩
      rcases List.mem_append.mp ha with ha | ha
      · exact (h.1 a ha).trans hlt.le
      · rw [List.mem_singleton.mp ha]
    · rw [if_neg hlt]
      refine ⟨fun a ha => ?_, h.2.imp_right fun ⟨a, ha, heq⟩ => ⟨a, List.mem_append_left _ ha, heq⟩⟩
      rcases List.mem_append.mp ha with ha | ha
      · exact h.1 a ha
      · rw [List.mem_singleton.mp ha]
        omega

theorem foldl_max_spec (value : A → ℕ) (l : List A) :
    (∀ a ∈ l, value a ≤ l.foldl (fun most a => max most (value a)) 0)
      ∧ (l.foldl (fun most a => max most (value a)) 0 = 0 ∨ ∃ a ∈ l, value a = l.foldl (fun most a => max most (value a)) 0) := by
  suffices hrest : ∀ (todo done : List A) (most : ℕ), (∀ a ∈ done, value a ≤ most) ∧ (most = 0 ∨ ∃ a ∈ done, value a = most) →
      let final := todo.foldl (fun most a => max most (value a)) most
      (∀ a ∈ done ++ todo, value a ≤ final) ∧ (final = 0 ∨ ∃ a ∈ done ++ todo, value a = final) from
    hrest l [] 0 ⟨nofun, Or.inl rfl⟩
  intro todo
  induction todo with
  | nil =>
    intro done most h
    rwa [List.append_nil]
  | cons x rest ih =>
    intro done most h
    have hassoc : done ++ x :: rest = (done ++ [x]) ++ rest := by simp
    rw [hassoc]
    refine ih (done ++ [x]) _ ⟨fun a ha => ?_, ?_⟩
    · rcases List.mem_append.mp ha with ha | ha
      · exact (h.1 a ha).trans (le_max_left _ _)
      · rw [List.mem_singleton.mp ha]
        exact le_max_right _ _
    · dsimp only
      rcases le_total (value x) most with hle | hle
      · rw [max_eq_left hle]
        exact h.2.imp_right fun ⟨a, ha, heq⟩ => ⟨a, List.mem_append_left _ ha, heq⟩
      · rw [max_eq_right hle]
        exact Or.inr ⟨x, List.mem_append_right _ (List.mem_singleton_self x), rfl⟩

end MoeNG.Lib
