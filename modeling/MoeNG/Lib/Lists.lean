import Mathlib.Data.List.Nodup
import Mathlib.Data.List.Perm.Basic
import Mathlib.Algebra.BigOperators.Group.List.Basic
import Mathlib.Algebra.Order.Group.Int
import Mathlib.Algebra.Ring.Int.Defs
import Mathlib.Tactic.Common

/-!
# Lists with keys, slots and fallible maps
-/

namespace MoeNG.Lib

variable {A B K : Type}

/-! ### Search by key -/

/-- In a list with distinct keys, a search by key finds the item itself. -/
theorem find_key_of_mem [DecidableEq K] (key : A → K) (l : List A) (hl : (l.map key).Nodup) (x : A)
    (hx : x ∈ l) : l.find? (fun y => key y = key x) = some x := by
  cases hf : l.find? fun y => key y = key x with
  | none =>
    have hnone := List.find?_eq_none.mp hf x hx
    simp at hnone
  | some found =>
    have hmem := List.mem_of_find?_eq_some hf
    have hkey : key found = key x := by simpa using List.find?_some hf
    rw [List.inj_on_of_nodup_map hl hmem hx hkey]

theorem find_key_perm [DecidableEq K] (key : A → K) {l l' : List A} (hperm : l'.Perm l)
    (hl : (l.map key).Nodup) (k : K) : (l'.find? fun a => key a = k) = l.find? fun a => key a = k := by
  have hl' : (l'.map key).Nodup := (hperm.map key).nodup_iff.mpr hl
  cases hfind : l.find? fun a => key a = k with
  | none =>
    exact List.find?_eq_none.mpr fun a ha => List.find?_eq_none.mp hfind a (hperm.mem_iff.mp ha)
  | some a =>
    have hkey : key a = k := by simpa using List.find?_some hfind
    subst hkey
    exact find_key_of_mem key l' hl' a (hperm.mem_iff.mpr (List.mem_of_find?_eq_some hfind))

/-! ### Fallible maps -/

theorem mem_of_mapM_some (f : A → Option B) (l : List A) (out : List B) (h : l.mapM f = some out) :
    ∀ y ∈ out, ∃ x ∈ l, f x = some y := by
  induction l generalizing out with
  | nil =>
    have hout : [] = out := Option.some.inj h
    subst hout
    intro y hy
    cases hy
  | cons x rest ih =>
    rw [List.mapM_cons] at h
    obtain ⟨first, hfirst, h⟩ := Option.bind_eq_some_iff.mp h
    obtain ⟨others, hothers, h⟩ := Option.bind_eq_some_iff.mp h
    have hout : first :: others = out := Option.some.inj h
    subst hout
    intro y hy
    rcases List.mem_cons.mp hy with hy | hy
    · exact ⟨x, List.mem_cons_self .., hy ▸ hfirst⟩
    · obtain ⟨z, hz, hfz⟩ := ih others hothers y hy
      exact ⟨z, List.mem_cons_of_mem _ hz, hfz⟩

theorem length_of_mapM_some (f : A → Option B) (l : List A) (out : List B) (h : l.mapM f = some out) :
    out.length = l.length := by
  induction l generalizing out with
  | nil =>
    obtain rfl : [] = out := Option.some.inj h
    rfl
  | cons x rest ih =>
    rw [List.mapM_cons] at h
    simp only [Option.bind_eq_bind, Option.pure_def, Option.bind_eq_some_iff, Option.some.injEq] at h
    obtain ⟨y, -, ys, hys, rfl⟩ := h
    rw [List.length_cons, List.length_cons, ih ys hys]

theorem mapM_eq_some (f : A → Option A) (l : List A) (h : ∀ x ∈ l, f x = some x) : l.mapM f = some l := by
  induction l with
  | nil => rfl
  | cons x rest ih =>
    rw [List.mapM_cons, h x (List.mem_cons_self ..), ih fun y hy => h y (List.mem_cons_of_mem _ hy)]
    rfl

theorem mapM_eq_some_map (f : A → Option B) (g : A → B) (l : List A) (h : ∀ x ∈ l, f x = some (g x)) :
    l.mapM f = some (l.map g) := by
  induction l with
  | nil => rfl
  | cons x rest ih =>
    rw [List.mapM_cons, h x (List.mem_cons_self ..), ih fun y hy => h y (List.mem_cons_of_mem _ hy)]
    rfl

theorem mapM_option_map {C : Type} (f : A → Option B) (g : B → C) (l : List A) :
    l.mapM (fun x => (f x).map g) = (l.mapM f).map (List.map g) := by
  induction l with
  | nil => rfl
  | cons x rest ih =>
    rw [List.mapM_cons, List.mapM_cons, ih]
    cases f x with
    | none => rfl
    | some b => cases rest.mapM f <;> rfl

theorem mapM_eq_some_iff (f : A → Option B) (l : List A) (out : List B) :
    l.mapM f = some out ↔ (∀ x ∈ l, (f x).isSome = true) ∧ l.filterMap f = out := by
  induction l generalizing out with
  | nil => exact ⟨fun h => ⟨fun x hx => absurd hx List.not_mem_nil, Option.some.inj h⟩, fun h => congrArg some h.2⟩
  | cons x rest ih =>
    rw [List.mapM_cons]
    cases hx : f x with
    | none => simp [hx]
    | some y =>
      rw [List.filterMap_cons_some hx, List.forall_mem_cons, hx]
      constructor
      · intro h
        obtain ⟨y', hy, h⟩ := Option.bind_eq_some_iff.mp h
        obtain rfl := Option.some.inj hy
        obtain ⟨ys, hys, hout⟩ := Option.bind_eq_some_iff.mp h
        obtain ⟨hall, rfl⟩ := (ih ys).mp hys
        exact ⟨⟨rfl, hall⟩, Option.some.inj hout⟩
      · rintro ⟨⟨-, hall⟩, rfl⟩
        exact Option.bind_eq_some_iff.mpr ⟨y, rfl, Option.bind_eq_some_iff.mpr ⟨_, (ih _).mpr ⟨hall, rfl⟩, rfl⟩⟩

theorem mapM_perm (f : A → Option B) (l l' : List A) (out : List B) (hperm : l'.Perm l) (h : l.mapM f = some out) :
    ∃ out', l'.mapM f = some out' ∧ out'.Perm out := by
  obtain ⟨hall, rfl⟩ := (mapM_eq_some_iff f l out).mp h
  exact ⟨l'.filterMap f, (mapM_eq_some_iff f l' _).mpr ⟨fun x hx => hall x (hperm.mem_iff.mp hx), rfl⟩,
    hperm.filterMap f⟩

/-- One `do` line of an option, for `simp only [↓bind_some_iff]`, which takes a block apart from its first line on. -/
theorem bind_some_iff (x : Option A) (f : A → Option B) (b : B) : (x >>= f) = some b ↔ ∃ a, x = some a ∧ f a = some b :=
  Option.bind_eq_some_iff

theorem mapM_some_forall₂ (f : A → Option B) (l : List A) (out : List B) :
    l.mapM f = some out ↔ List.Forall₂ (fun a b => f a = some b) l out := by
  induction l generalizing out with
  | nil =>
    rw [List.forall₂_nil_left_iff]
    exact ⟨fun h => (Option.some.inj h).symm, fun h => congrArg some h.symm⟩
  | cons a rest ih =>
    rw [List.mapM_cons, List.forall₂_cons_left_iff]
    constructor
    · intro h
      obtain ⟨b, hb, h⟩ := Option.bind_eq_some_iff.mp h
      obtain ⟨bs, hbs, h⟩ := Option.bind_eq_some_iff.mp h
      exact ⟨b, bs, hb, (ih bs).mp hbs, (Option.some.inj h).symm⟩
    · rintro ⟨b, bs, hb, hbs, rfl⟩
      exact Option.bind_eq_some_iff.mpr ⟨b, hb, Option.bind_eq_some_iff.mpr ⟨bs, (ih bs).mpr hbs, rfl⟩⟩

theorem except_mapM_ok_iff {E : Type} (f : A → Except E B) (l : List A) (out : List B) :
    l.mapM f = .ok out ↔ List.Forall₂ (fun a b => f a = .ok b) l out := by
  induction l generalizing out with
  | nil =>
    rw [List.forall₂_nil_left_iff]
    exact ⟨fun h => (Except.ok.inj h).symm, fun h => congrArg Except.ok h.symm⟩
  | cons a rest ih =>
    rw [List.mapM_cons, List.forall₂_cons_left_iff]
    constructor
    · intro h
      cases ha : f a with
      | error e =>
        rw [ha] at h
        cases h
      | ok b =>
        rw [ha] at h
        cases hrest : rest.mapM f with
        | error e =>
          rw [hrest] at h
          cases h
        | ok bs =>
          rw [hrest] at h
          exact ⟨b, bs, rfl, (ih bs).mp hrest, (Except.ok.inj h).symm⟩
    · rintro ⟨b, bs, hb, hbs, rfl⟩
      rw [hb, (ih bs).mpr hbs]
      rfl

theorem forall₂_right {R : A → B → Prop} {l : List A} {out : List B} (h : List.Forall₂ R l out) :
    ∀ b ∈ out, ∃ a ∈ l, R a b := by
  induction h with
  | nil => nofun
  | cons hab _ ih =>
    intro b hb
    rcases List.mem_cons.mp hb with rfl | hb
    · exact ⟨_, List.mem_cons_self .., hab⟩
    · obtain ⟨a, ha, hr⟩ := ih b hb
      exact ⟨a, List.mem_cons_of_mem _ ha, hr⟩

theorem forall₂_left {R : A → B → Prop} {l : List A} {out : List B} (h : List.Forall₂ R l out) :
    ∀ a ∈ l, ∃ b ∈ out, R a b := forall₂_right h.flip

theorem forall₂_total {R : A → B → Prop} (l : List A) (h : ∀ a ∈ l, ∃ b, R a b) : ∃ out, List.Forall₂ R l out := by
  induction l with
  | nil => exact ⟨[], List.Forall₂.nil⟩
  | cons a rest ih =>
    obtain ⟨b, hb⟩ := h a (List.mem_cons_self ..)
    obtain ⟨out, hout⟩ := ih fun c hc => h c (List.mem_cons_of_mem _ hc)
    exact ⟨b :: out, List.Forall₂.cons hb hout⟩

theorem except_mapM_perm {E : Type} (f : A → Except E B) (l l' : List A) (out : List B) (hperm : l'.Perm l)
    (h : l.mapM f = .ok out) : ∃ out', l'.mapM f = .ok out' ∧ out'.Perm out := by
  obtain ⟨out', hout, hsame⟩ := List.perm_comp_forall₂ hperm ((except_mapM_ok_iff f l out).mp h)
  exact ⟨out', (except_mapM_ok_iff f l' out').mpr hout, hsame⟩

theorem flatMap_zipIdx_nil (f : A × ℕ → List B) (P : A → Prop) (h : ∀ x i, f (x, i) = [] ↔ P x) (l : List A) :
    l.zipIdx.flatMap f = [] ↔ ∀ x ∈ l, P x := by
  rw [List.flatMap_eq_nil_iff]
  constructor
  · intro hnil x hx
    obtain ⟨i, hi⟩ := List.mem_iff_getElem?.mp hx
    exact (h x i).mp (hnil (x, i) (List.mem_zipIdx_iff_getElem?.mpr hi))
  · intro hall entry hentry
    exact (h entry.1 entry.2).mpr (hall entry.1 (List.fst_mem_of_mem_zipIdx hentry))

/-! ### Sorting by key -/

/-- Where the key tells the items apart, sorting by it forgets their order. -/
theorem mergeSort_key_perm [LinearOrder K] (key : A → K) {l l' : List A} (hperm : l'.Perm l)
    (hkey : ∀ a ∈ l, ∀ b ∈ l, key a = key b → a = b) :
    (l'.mergeSort fun a b => key a ≤ key b) = l.mergeSort fun a b => key a ≤ key b := by
  have hsorted (m : List A) : (m.mergeSort fun a b => key a ≤ key b).Pairwise fun a b => decide (key a ≤ key b) = true := by
    refine List.pairwise_mergeSort (fun a b c hab hbc => ?_) (fun a b => ?_) m
    · exact decide_eq_true ((of_decide_eq_true hab).trans (of_decide_eq_true hbc))
    · simpa using le_total (key a) (key b)
  refine List.Perm.eq_of_pairwise (fun a b ha hb hab hba => ?_) (hsorted l') (hsorted l)
    ((List.mergeSort_perm _ _).trans (hperm.trans (List.mergeSort_perm _ _).symm))
  have ha' := hperm.mem_iff.mp ((List.mergeSort_perm _ _).mem_iff.mp ha)
  have hb' := (List.mergeSort_perm _ _).mem_iff.mp hb
  exact hkey a ha' b hb' (le_antisymm (of_decide_eq_true hab) (of_decide_eq_true hba))

/-! ### Replacing one slot -/

/-- A sum over slots changes by the slot that was replaced. -/
theorem sum_map_set (f : A → ℤ) (l : List A) (i : ℕ) (old new : A) (h : l[i]? = some old) :
    ((l.set i new).map f).sum = (l.map f).sum + f new - f old := by
  induction l generalizing i with
  | nil => cases h
  | cons x rest ih =>
    cases i with
    | zero =>
      have hx : x = old := Option.some.inj h
      subst hx
      simp only [List.set_cons_zero, List.map_cons, List.sum_cons]
      omega
    | succ i =>
      have hrest := ih i h
      simp only [List.set_cons_succ, List.map_cons, List.sum_cons, hrest]
      omega

/-! ### Replacing by key -/

theorem map_eq_self (f : A → A) (l : List A) (h : ∀ x ∈ l, f x = x) : l.map f = l :=
  (List.map_congr_left h).trans (List.map_id' l)

theorem map_update_of_not_mem [DecidableEq K] (key : A → K) (l : List A) (k : K) (y : A) (h : k ∉ l.map key) :
    (l.map fun r => if key r = k then y else r) = l := by
  apply map_eq_self
  intro r hr
  have hne : key r ≠ k := fun e => h (e ▸ List.mem_map_of_mem (f := key) hr)
  simp [hne]

/-- With distinct keys, replacing by key replaces exactly one item. -/
theorem sum_map_update [DecidableEq K] (key : A → K) (f : A → ℤ) (l : List A) (hl : (l.map key).Nodup) (x y : A)
    (hx : x ∈ l) :
    ((l.map fun r => if key r = key x then y else r).map f).sum = (l.map f).sum + f y - f x := by
  induction l with
  | nil => cases hx
  | cons z rest ih =>
    obtain ⟨hne, hrest⟩ := List.nodup_cons.mp hl
    rcases List.mem_cons.mp hx with h | h
    · subst h
      rw [List.map_cons, map_update_of_not_mem key rest (key x) y hne]
      simp only [if_true, List.map_cons, List.sum_cons]
      omega
    · have hz : key z ≠ key x := fun e => hne (e ▸ List.mem_map_of_mem (f := key) h)
      simp only [List.map_cons, hz, if_false, List.sum_cons, ih hrest h]
      omega

/-! ### Lists cut by a numeric key -/

theorem flatMap_filter_perm (key : A → ℕ) (n : ℕ) (l : List A) (h : ∀ x ∈ l, key x < n) :
    ((List.range n).flatMap fun i => l.filter fun x => key x = i).Perm l := by
  have hbelow : ∀ m, ((List.range m).flatMap fun i => l.filter fun x => key x = i).Perm (l.filter fun x => key x < m) := by
    intro m
    induction m with
    | zero => simp
    | succ m ih =>
      rw [List.range_succ, List.flatMap_append, List.flatMap_singleton]
      have hsplit := List.filter_append_perm (fun x => decide (key x < m)) (l.filter fun x => key x < m + 1)
      rw [List.filter_filter, List.filter_filter] at hsplit
      refine (ih.append_right _).trans (List.Perm.trans (List.Perm.of_eq ?_) hsplit)
      congr 1
      · refine List.filter_congr fun x _ => ?_
        grind
      · refine List.filter_congr fun x _ => ?_
        grind
  have hall : (l.filter fun x => key x < n) = l := List.filter_eq_self.mpr fun x hx => by simpa using h x hx
  have hn := hbelow n
  rwa [hall] at hn

/-! ### Increasing lists -/

theorem le_last_of_increasing (key : A → ℕ) (l : List A) (hl : l.Pairwise fun a b => key a < key b) (last : A)
    (hlast : l.getLast? = some last) (x : A) (hx : x ∈ l) : key x ≤ key last := by
  obtain ⟨front, rfl⟩ := List.getLast?_eq_some_iff.mp hlast
  obtain hx | hx := List.mem_append.mp hx
  · exact ((List.pairwise_append.mp hl).2.2 x hx last (List.mem_singleton_self last)).le
  · obtain rfl := List.mem_singleton.mp hx
    exact le_refl _

/-- A prefix of an increasing list is what lies at or below its last item. -/
theorem filter_le_last (key : A → ℕ) (kept l : List A) (hl : l.Pairwise fun a b => key a < key b) (last : A)
    (hinitial : kept <+: l) (hlast : kept.getLast? = some last) : l.filter (fun x => key x ≤ key last) = kept := by
  obtain ⟨rest, rfl⟩ := hinitial
  obtain ⟨hkept, -, hcross⟩ := List.pairwise_append.mp hl
  have hmem : last ∈ kept := List.mem_of_getLast? hlast
  rw [List.filter_append, List.filter_eq_self.mpr, List.filter_eq_nil_iff.mpr, List.append_nil]
  · intro x hx
    simp only [decide_eq_true_eq, not_le]
    exact hcross last hmem x hx
  · intro x hx
    simp only [decide_eq_true_eq]
    exact le_last_of_increasing key kept hkept last hlast x hx

/-- Two adjacent half-open intervals of an increasing list join. -/
theorem filter_interval_append (key : A → ℕ) (l : List A) (hl : l.Pairwise fun a b => key a < key b) (a b c : ℕ)
    (hab : a ≤ b) (hbc : b ≤ c) :
    l.filter (fun x => a < key x ∧ key x ≤ b) ++ l.filter (fun x => b < key x ∧ key x ≤ c) =
      l.filter fun x => a < key x ∧ key x ≤ c := by
  induction l with
  | nil => rfl
  | cons x rest ih =>
    obtain ⟨hfirst, hrest⟩ := List.pairwise_cons.mp hl
    have hrec := ih hrest
    by_cases hxb : key x ≤ b
    · by_cases hxa : a < key x
      · have hxc : key x ≤ c := hxb.trans hbc
        have hskip : ¬ b < key x := not_lt.mpr hxb
        simp only [List.filter_cons, hxa, hxb, hxc, hskip, false_and, and_self, decide_true, decide_false, if_true,
          Bool.false_eq_true, if_false, List.cons_append, hrec]
      · have hskip : ¬ b < key x := not_lt.mpr hxb
        simp only [List.filter_cons, hxa, hskip, false_and, decide_false, Bool.false_eq_true, if_false, hrec]
    · have hempty : rest.filter (fun y => a < key y ∧ key y ≤ b) = [] := by
        refine List.filter_eq_nil_iff.mpr fun y hy => ?_
        have hxy := hfirst y hy
        simp only [decide_eq_true_eq]
        omega
      rw [hempty, List.nil_append] at hrec
      have hax : a < key x := by omega
      have hbx : b < key x := not_le.mp hxb
      simp only [List.filter_cons, hax, hxb, hbx, hempty, and_false, true_and, decide_false, Bool.false_eq_true,
        if_false, List.nil_append, hrec]

end MoeNG.Lib
