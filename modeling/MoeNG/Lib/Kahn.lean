import Mathlib.Data.Fintype.Card
import Mathlib.Data.Fintype.EquivFin
import Mathlib.Data.Fintype.Sets
import Mathlib.Data.List.Nodup
import Mathlib.Data.List.Perm.Basic
import Mathlib.Tactic.Common
import MoeNG.Lib.Reach

/-!
# Stages of a topological sort

A stage has an order of the vertices that are done, the vertices that are
ready, and the heads of the arcs that are still to be relaxed. A vertex is done
or ready when no pending arc leads to it.
-/

namespace MoeNG.Lib

variable {A : Type} (out : A → List A) (all : List A)

/-- The heads of the arcs that leave the vertices not yet done. -/
def remaining [DecidableEq A] (order : List A) : List A := (all.filter fun u => u ∉ order).flatMap out

/-- Whatever has an arc to a vertex of the order stands before it. -/
def Closed (order : List A) : Prop :=
  ∀ front v back, order = front ++ v :: back → ∀ u ∈ all, v ∈ out u → u ∈ front

structure Stage (order ready pending : List A) : Prop where
  nodup : (order ++ ready).Nodup
  mem : ∀ v ∈ order ++ ready, v ∈ all
  settled : ∀ v ∈ all, v ∈ order ++ ready ↔ v ∉ pending
  closed : Closed out all order

variable {out all} {order ready pending : List A}

theorem Closed.concat (h : Closed out all order) (v : A) (hv : ∀ u ∈ all, v ∈ out u → u ∈ order) :
    Closed out all (order ++ [v]) := by
  intro front w back heq u hu hw
  obtain rfl | ⟨back, last, rfl⟩ := List.eq_nil_or_concat back
  · obtain ⟨rfl, hlast⟩ := List.append_inj' heq rfl
    obtain rfl := List.singleton_inj.mp hlast
    exact hv u hu hw
  · have hsplit : order ++ [v] = (front ++ w :: back) ++ [last] := by simpa using heq
    exact h front w back (List.append_inj' hsplit rfl).1 u hu hw

theorem Stage.start (hready : ∀ v, v ∈ ready ↔ v ∈ all ∧ v ∉ pending) (hnodup : ready.Nodup) :
    Stage out all [] ready pending where
  nodup := hnodup
  mem v hv := ((hready v).mp hv).1
  settled v hv := by simp [hready, hv]
  closed := by
    intro front v back heq
    simp at heq

theorem Stage.perm (h : Stage out all order ready pending) {ready' pending' : List A} (hready : ready'.Perm ready)
    (hpending : pending'.Perm pending) : Stage out all order ready' pending' where
  nodup := (hready.append_left order).nodup_iff.mpr h.nodup
  mem v hv := h.mem v ((hready.append_left order).mem_iff.mp hv)
  settled v hv := by rw [(hready.append_left order).mem_iff, hpending.mem_iff, h.settled v hv]
  closed := h.closed

/-- A pending arc is relaxed: its head is ready when no other one leads there. -/
theorem Stage.relax [DecidableEq A] {v : A} (h : Stage out all order ready (v :: pending)) (hv : v ∈ all) :
    Stage out all order (if v ∈ pending then ready else v :: ready) pending := by
  have hfresh : v ∉ order ++ ready := fun hm => (h.settled v hv).mp hm (List.mem_cons_self ..)
  have hsettled : ∀ w ∈ all, w ≠ v → (w ∈ order ++ ready ↔ w ∉ pending) := by
    intro w hw hne
    rw [h.settled w hw, List.mem_cons, not_or]
    exact ⟨fun hm => hm.2, fun hm => ⟨hne, hm⟩⟩
  split
  · rename_i hpending
    refine ⟨h.nodup, h.mem, fun w hw => ?_, h.closed⟩
    by_cases hne : w = v
    · subst hne
      exact ⟨fun hm => absurd hm hfresh, fun hm => absurd hpending hm⟩
    · exact hsettled w hw hne
  · rename_i hpending
    have hperm : (order ++ v :: ready).Perm (v :: (order ++ ready)) := List.perm_middle
    refine ⟨hperm.nodup_iff.mpr (List.nodup_cons.mpr ⟨hfresh, h.nodup⟩), fun w hw => ?_, fun w hw => ?_, h.closed⟩
    · rcases List.mem_cons.mp (hperm.mem_iff.mp hw) with rfl | hw
      · exact hv
      · exact h.mem w hw
    · rw [hperm.mem_iff, List.mem_cons]
      by_cases hne : w = v
      · subst hne
        simp [hpending]
      · rw [hsettled w hw hne]
        simp [hne]

theorem remaining_pop [DecidableEq A] (hall : all.Nodup) (v : A) (hv : v ∈ all) (hfresh : v ∉ order) :
    (remaining out all order).Perm (out v ++ remaining out all (order ++ [v])) := by
  have hmem : v ∈ all.filter fun u => u ∉ order := List.mem_filter.mpr ⟨hv, by simpa using hfresh⟩
  have hrest : (all.filter fun u => u ∉ order).erase v = all.filter fun u => u ∉ order ++ [v] := by
    rw [(hall.filter _).erase_eq_filter, List.filter_filter]
    refine List.filter_congr fun u _ => ?_
    by_cases hu : u = v <;> simp [hu]
  have hperm := (List.perm_cons_erase hmem).flatMap_right out
  rw [hrest] at hperm
  exact hperm

/-- A ready vertex is done: its arcs are the next to be relaxed. -/
theorem Stage.pop [DecidableEq A] {v : A} (hall : all.Nodup) (h : Stage out all order (v :: ready) (remaining out all order)) :
    Stage out all (order ++ [v]) ready (out v ++ remaining out all (order ++ [v])) := by
  have hassoc : order ++ [v] ++ ready = order ++ v :: ready := by simp
  have hmem : v ∈ order ++ v :: ready := List.mem_append_right _ (List.mem_cons_self ..)
  have hv : v ∈ all := h.mem v hmem
  have hfresh : v ∉ order := fun hm => (List.disjoint_of_nodup_append h.nodup) hm (List.mem_cons_self ..)
  have hperm : (remaining out all order).Perm (out v ++ remaining out all (order ++ [v])) := remaining_pop hall v hv hfresh
  refine ⟨by rw [hassoc]; exact h.nodup, fun w hw => h.mem w (by rwa [hassoc] at hw), fun w hw => ?_, ?_⟩
  · rw [hassoc, h.settled w hw, hperm.mem_iff]
  · refine h.closed.concat v fun u hu harc => ?_
    by_contra hnot
    have hpending : v ∈ remaining out all order :=
      List.mem_flatMap.mpr ⟨u, List.mem_filter.mpr ⟨hu, by simpa using hnot⟩, harc⟩
    exact (h.settled v hv).mp hmem hpending

theorem Stage.length_le (h : Stage out all order ready pending) : order.length + ready.length ≤ all.length := by
  rw [← List.length_append]
  exact (List.subperm_of_subset h.nodup h.mem).length_le

/-- With nothing ready, whatever is not done has an arc from another such vertex. -/
theorem Stage.blocked [DecidableEq A] (h : Stage out all order [] (remaining out all order)) (v : A) (hv : v ∈ all)
    (hnot : v ∉ order) :
    ∃ u ∈ all, u ∉ order ∧ v ∈ out u := by
  have hpending : v ∈ remaining out all order := by
    by_contra hfree
    exact hnot (by simpa using (h.settled v hv).mpr hfree)
  obtain ⟨u, hu, harc⟩ := List.mem_flatMap.mp hpending
  obtain ⟨hu, hfresh⟩ := List.mem_filter.mp hu
  exact ⟨u, hu, by simpa using hfresh, harc⟩

/-- Along an arc the place in the order grows. -/
theorem Closed.idxOf_lt [DecidableEq A] (h : Closed out all order) (hnodup : order.Nodup) {u w : A} (hu : u ∈ all)
    (hw : w ∈ order) (harc : w ∈ out u) : u ∈ order ∧ order.idxOf u < order.idxOf w := by
  obtain ⟨front, back, hsplit⟩ := List.append_of_mem hw
  have hfront := h front w back hsplit u hu harc
  rw [hsplit] at hnodup ⊢
  have hfresh : w ∉ front := fun hm => (List.disjoint_of_nodup_append hnodup) hm (List.mem_cons_self ..)
  refine ⟨List.mem_append_left _ hfront, ?_⟩
  rw [List.idxOf_append_of_mem hfront, List.idxOf_append_of_notMem hfresh]
  exact Nat.lt_add_right _ (List.idxOf_lt_length_iff.mpr hfront)

/-- A complete order leaves no cycle. -/
theorem Stage.acyclic [DecidableEq A] (h : Stage out all order [] pending) (hall : ∀ v ∈ all, v ∈ order)
    (hout : ∀ u ∈ all, ∀ v ∈ out u, v ∈ all) (v : A) (hv : v ∈ all) : ¬ Precedes out v v := by
  have hnodup := h.nodup
  rw [List.append_nil] at hnodup
  have hpath : ∀ w, Precedes out v w → w ∈ all ∧ order.idxOf v < order.idxOf w := by
    intro w hw
    induction hw with
    | single hstep =>
      have hmem := hout v hv _ hstep
      exact ⟨hmem, (h.closed.idxOf_lt hnodup hv (hall _ hmem) hstep).2⟩
    | tail _ hstep ih =>
      have hmem := hout _ ih.1 _ hstep
      exact ⟨hmem, ih.2.trans (h.closed.idxOf_lt hnodup ih.1 (hall _ hmem) hstep).2⟩
  exact fun hcycle => lt_irrefl _ (hpath v hcycle).2

/-- Without a cycle the order is complete. -/
theorem Stage.complete [DecidableEq A] (h : Stage out all order [] (remaining out all order))
    (hacyclic : ∀ v ∈ all, ¬ Precedes out v v) (v : A) (hv : v ∈ all) : v ∈ order := by
  let before (u w : {x // x ∈ all}) : Prop := Precedes out u.1 w.1
  have : IsTrans {x // x ∈ all} before := ⟨fun _ _ _ huv hvw => Relation.TransGen.trans huv hvw⟩
  have : Std.Irrefl before := ⟨fun u hcycle => hacyclic u.1 u.2 hcycle⟩
  have hwf : WellFounded before := Finite.wellFounded_of_trans_of_irrefl before
  refine hwf.induction (C := fun w => w.1 ∈ order) ⟨v, hv⟩ fun w ih => ?_
  by_contra hnot
  obtain ⟨u, hu, hfree, harc⟩ := h.blocked w.1 w.2 hnot
  exact hfree (ih ⟨u, hu⟩ (Relation.TransGen.single harc))

/-! ### The least order -/

/-- Each vertex of the order is the least of those that could stand there. -/
def Greedy [LE A] (out : A → List A) (all order : List A) : Prop :=
  ∀ front v back, order = front ++ v :: back → ∀ w ∈ all, w ∉ front → (∀ u ∈ all, w ∈ out u → u ∈ front) → v ≤ w

theorem Greedy.concat [LE A] (h : Greedy out all order) (v : A)
    (hv : ∀ w ∈ all, w ∉ order → (∀ u ∈ all, w ∈ out u → u ∈ order) → v ≤ w) : Greedy out all (order ++ [v]) := by
  intro front x back heq w hw hfresh hsources
  obtain rfl | ⟨back, last, rfl⟩ := List.eq_nil_or_concat back
  · obtain ⟨rfl, hlast⟩ := List.append_inj' heq rfl
    obtain rfl := List.singleton_inj.mp hlast
    exact hv w hw hfresh hsources
  · have hsplit : order ++ [v] = (front ++ x :: back) ++ [last] := by simpa using heq
    exact h front x back (List.append_inj' hsplit rfl).1 w hw hfresh hsources

/-- What could stand next is ready. -/
theorem Stage.available [DecidableEq A] (h : Stage out all order ready (remaining out all order)) (w : A) (hw : w ∈ all)
    (hfresh : w ∉ order) (hsources : ∀ u ∈ all, w ∈ out u → u ∈ order) : w ∈ ready := by
  have hfree : w ∉ remaining out all order := by
    intro hpending
    obtain ⟨u, hu, harc⟩ := List.mem_flatMap.mp hpending
    obtain ⟨hu, hnot⟩ := List.mem_filter.mp hu
    exact of_decide_eq_true hnot (hsources u hu harc)
  exact (List.mem_append.mp ((h.settled w hw).mpr hfree)).resolve_left hfresh

/-- A greedy order differs from another one by a lesser vertex at the first place where they differ. -/
theorem Greedy.least [LinearOrder A] {other : List A} (h : Greedy out all order) (horder : order.Perm all)
    (hother : other.Perm all) (hnodup : all.Nodup) (hclosed : Closed out all other) :
    order = other ∨ ∃ front v w back back', order = front ++ v :: back ∧ other = front ++ w :: back' ∧ v < w := by
  have hlength : order.length = other.length := horder.length_eq.trans hother.length_eq.symm
  have hdistinct : other.Nodup := hother.nodup_iff.mpr hnodup
  suffices hrest : ∀ back front back', order = front ++ back → other = front ++ back' →
      order = other ∨ ∃ front v w back back', order = front ++ v :: back ∧ other = front ++ w :: back' ∧ v < w from
    hrest order [] other rfl rfl
  intro back
  induction back with
  | nil =>
    intro front back' hfront hfront'
    rw [hfront, hfront', List.append_nil, List.length_append] at hlength
    have hnil : back' = [] := List.length_eq_zero_iff.mp (by omega)
    exact Or.inl (by rw [hfront, hfront', hnil])
  | cons v back ih =>
    intro front back' hfront hfront'
    cases back' with
    | nil =>
      rw [hfront, hfront', List.append_nil, List.length_append, List.length_cons] at hlength
      omega
    | cons w back' =>
      by_cases hvw : v = w
      · subst hvw
        exact ih (front ++ [v]) back' (by simpa using hfront) (by simpa using hfront')
      · have hw : w ∈ all := hother.mem_iff.mp (hfront' ▸ List.mem_append_right _ (List.mem_cons_self ..))
        have hfresh : w ∉ front := fun hm =>
          (List.disjoint_of_nodup_append (hfront' ▸ hdistinct)) hm (List.mem_cons_self ..)
        have hle := h front v back hfront w hw hfresh (hclosed front w back' hfront')
        exact Or.inr ⟨front, v, w, back, back', hfront, hfront', lt_of_le_of_ne hle hvw⟩

end MoeNG.Lib
