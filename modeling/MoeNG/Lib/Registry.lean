import Mathlib.Data.Set.Basic

/-!
# Registries whose ids are retired

Entries stand under ids. An amendment keeps an entry as it is or retires its
id, and a new entry may replace one that goes. Over a history of amendments an
id means one thing, is never taken up again, and is replaced at most once.
-/

namespace MoeNG.Lib

structure Registry (I M : Type) where
  entry : I → Option M
  retired : Set I

section Registry
variable {I M : Type} (replaces : M → Option I)

/-- No id is both used and retired, and what is replaced is retired and replaced by one entry. -/
structure Registry.Sound (s : Registry I M) : Prop where
  disjoint : ∀ id ∈ s.retired, s.entry id = none
  gone : ∀ id m other, s.entry id = some m → replaces m = some other → other ∈ s.retired
  once : ∀ id id' m m' other, s.entry id = some m → s.entry id' = some m' → replaces m = some other →
    replaces m' = some other → id = id'

structure Registry.Amends (s t : Registry I M) : Prop where
  kept : ∀ id m m', s.entry id = some m → t.entry id = some m' → m = m'
  retired : ∀ id, id ∈ t.retired ↔ id ∈ s.retired ∨ s.entry id ≠ none ∧ t.entry id = none
  fresh : ∀ id ∈ s.retired, t.entry id = none
  replaced : ∀ id m other, s.entry id = none → t.entry id = some m → replaces m = some other →
    s.entry other ≠ none ∧ t.entry other = none
  once : ∀ id id' m m' other, s.entry id = none → s.entry id' = none → t.entry id = some m → t.entry id' = some m' →
    replaces m = some other → replaces m' = some other → id = id'

/-! ### One amendment -/

theorem Registry.Amends.sound {replaces : M → Option I} {s t : Registry I M} (h : Amends replaces s t) (hs : Sound replaces s) :
    Sound replaces t where
  disjoint id hid := by
    obtain hid | hid := (h.retired id).mp hid
    · exact h.fresh id hid
    · exact hid.2
  gone id m other hid hother := by
    cases hold : s.entry id with
    | none => exact (h.retired other).mpr (.inr (h.replaced id m other hold hid hother))
    | some m' =>
      rw [← h.kept id m' m hold hid] at hother
      exact (h.retired other).mpr (.inl (hs.gone id m' other hold hother))
  once id id' m m' other hid hid' hother hother' := by
    cases hold : s.entry id with
    | none =>
      cases hold' : s.entry id' with
      | none => exact h.once id id' m m' other hold hold' hid hid' hother hother'
      | some n' =>
        rw [← h.kept id' n' m' hold' hid'] at hother'
        exact absurd (hs.disjoint other (hs.gone id' n' other hold' hother')) (h.replaced id m other hold hid hother).1
    | some n =>
      rw [← h.kept id n m hold hid] at hother
      cases hold' : s.entry id' with
      | none => exact absurd (hs.disjoint other (hs.gone id n other hold hother)) (h.replaced id' m' other hold' hid' hother').1
      | some n' =>
        rw [← h.kept id' n' m' hold' hid'] at hother'
        exact hs.once id id' n n' other hold hold' hother hother'

/-! ### Histories -/

variable (history : ℕ → Registry I M) (n : ℕ)

/-- What holds of the ids of a history. -/
structure Lifecycle : Prop where
  sound : ∀ i ≤ n, (history i).Sound replaces
  constant : ∀ i j, i ≤ n → j ≤ n → ∀ id m m', (history i).entry id = some m → (history j).entry id = some m' → m = m'
  present : ∀ i j k, i ≤ j → j ≤ k → k ≤ n → ∀ id, (history i).entry id ≠ none → (history k).entry id ≠ none →
    (history j).entry id ≠ none
  retired : ∀ i ≤ n, ∀ id, id ∈ (history i).retired ↔
    id ∈ (history 0).retired ∨ (∃ j ≤ i, (history j).entry id ≠ none) ∧ (history i).entry id = none
  replacedOnce : ∀ i j, i ≤ n → j ≤ n → ∀ id id' m m' other, (history i).entry id = some m → (history j).entry id' = some m' →
    replaces m = some other → replaces m' = some other → id = id'

variable {replaces history n}

section History
variable (h : ∀ i < n, (history i).Amends replaces (history (i + 1))) (hsound : (history 0).Sound replaces)
include h hsound

theorem history_sound (i : ℕ) (hi : i ≤ n) : (history i).Sound replaces := by
  induction i with
  | zero => exact hsound
  | succ i ih => exact (h i (by omega)).sound (ih (by omega))

omit hsound in
theorem history_retired_mono (i j : ℕ) (hij : i ≤ j) (hj : j ≤ n) (id : I) (hid : id ∈ (history i).retired) :
    id ∈ (history j).retired := by
  induction j, hij using Nat.le_induction with
  | base => exact hid
  | succ j _ ih => exact ((h j (by omega)).retired id).mpr (.inl (ih (by omega)))

theorem history_absent (i j : ℕ) (hij : i ≤ j) (hj : j ≤ n) (id : I) (hid : id ∈ (history i).retired) :
    (history j).entry id = none :=
  (history_sound h hsound j hj).disjoint id (history_retired_mono h i j hij hj id hid)

omit hsound in
/-- What is gone is retired. -/
theorem history_lost (i j : ℕ) (hij : i ≤ j) (hj : j ≤ n) (id : I) (hpresent : (history i).entry id ≠ none)
    (hgone : (history j).entry id = none) : id ∈ (history j).retired := by
  induction j, hij using Nat.le_induction with
  | base => exact absurd hgone hpresent
  | succ j _ ih =>
    refine ((h j (by omega)).retired id).mpr ?_
    by_cases hbefore : (history j).entry id = none
    · exact .inl (ih (by omega) hbefore)
    · exact .inr ⟨hbefore, hgone⟩

theorem history_present (i j k : ℕ) (hij : i ≤ j) (hjk : j ≤ k) (hk : k ≤ n) (id : I) (hi : (history i).entry id ≠ none)
    (hlast : (history k).entry id ≠ none) : (history j).entry id ≠ none := by
  intro hgone
  exact hlast (history_absent h hsound j k hjk hk id (history_lost h i j hij (by omega) id hi hgone))

theorem history_constant (i j : ℕ) (hij : i ≤ j) (hj : j ≤ n) (id : I) (m m' : M) (hm : (history i).entry id = some m)
    (hm' : (history j).entry id = some m') : m = m' := by
  induction j, hij using Nat.le_induction generalizing m' with
  | base => exact Option.some.inj (hm.symm.trans hm')
  | succ j hij ih =>
    have hbefore := history_present h hsound i j (j + 1) hij (by omega) hj id (by simp [hm]) (by simp [hm'])
    obtain ⟨m'', hm''⟩ := Option.ne_none_iff_exists'.mp hbefore
    exact (ih (by omega) m'' hm'').trans ((h j (by omega)).kept id m'' m' hm'' hm')

theorem history_retired (i : ℕ) (hi : i ≤ n) (id : I) : id ∈ (history i).retired ↔
    id ∈ (history 0).retired ∨ (∃ j ≤ i, (history j).entry id ≠ none) ∧ (history i).entry id = none := by
  constructor
  · intro hid
    refine or_iff_not_imp_left.mpr fun hfirst => ⟨?_, history_absent h hsound i i le_rfl hi id hid⟩
    induction i with
    | zero => exact absurd hid hfirst
    | succ i ih =>
      obtain hbefore | ⟨hpresent, -⟩ := ((h i (by omega)).retired id).mp hid
      · obtain ⟨j, hj, hpresent⟩ := ih (by omega) hbefore
        exact ⟨j, by omega, hpresent⟩
      · exact ⟨i, by omega, hpresent⟩
  · rintro (hfirst | ⟨⟨j, hj, hpresent⟩, hgone⟩)
    · exact history_retired_mono h 0 i (by omega) hi id hfirst
    · exact history_lost h j i hj hi id hpresent hgone

/-- An entry that replaces another stands in a registry where the other is retired. -/
theorem history_replaced (i : ℕ) (hi : i ≤ n) (j : ℕ) (hij : i ≤ j) (hj : j ≤ n) (id id' : I) (m m' : M) (other : I)
    (hm : (history i).entry id = some m) (hm' : (history j).entry id' = some m') (hother : replaces m = some other)
    (hother' : replaces m' = some other) : id = id' := by
  have hretired := (history_sound h hsound i hi).gone id m other hm hother
  induction j, hij using Nat.le_induction generalizing m' with
  | base => exact (history_sound h hsound i hi).once id id' m m' other hm hm' hother hother'
  | succ j hij ih =>
    cases hbefore : (history j).entry id' with
    | none =>
      have hpresent := ((h j (by omega)).replaced id' m' other hbefore hm' hother').1
      exact absurd (history_absent h hsound i j hij (by omega) other hretired) hpresent
    | some n' =>
      rw [← (h j (by omega)).kept id' n' m' hbefore hm'] at hother'
      exact ih (by omega) n' hbefore hother'

theorem lifecycle : Lifecycle replaces history n where
  sound := history_sound h hsound
  constant i j hi hj id m m' hm hm' := by
    obtain hij | hji := le_total i j
    · exact history_constant h hsound i j hij hj id m m' hm hm'
    · exact (history_constant h hsound j i hji hi id m' m hm' hm).symm
  present := history_present h hsound
  retired := history_retired h hsound
  replacedOnce i j hi hj id id' m m' other hm hm' hother hother' := by
    obtain hij | hji := le_total i j
    · exact history_replaced h hsound i hi j hij hj id id' m m' other hm hm' hother hother'
    · exact (history_replaced h hsound j hj i hji hi id' id m' m other hm' hm hother' hother).symm

end History

end Registry

end MoeNG.Lib
