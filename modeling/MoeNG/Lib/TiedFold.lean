import Mathlib.Data.List.Perm.Subperm
import MoeNG.Lib.ComparatorSort
import MoeNG.Lib.Run

/-!
# Sorted walks that stop at the first refusal

The elements are sorted by a key that need not tell them apart, so the order
of the input survives among elements with one key. The walk is independent of
that order exactly when all first refusals among tied elements agree; and these
are the refusals of one element, or of one element after one other.
-/

namespace MoeNG.Lib

variable {S A F K : Type} (step : S → A → Except F S)

/-- Refused for the same reason, or accepted into equivalent states. -/
inductive Alike (eqv : S → S → Prop) : Except F S → Except F S → Prop
  | refused (f : F) : Alike eqv (.error f) (.error f)
  | accepted {s s' : S} (h : eqv s s') : Alike eqv (.ok s) (.ok s')

theorem Alike.symm {eqv : S → S → Prop} (heqv : Equivalence eqv) {x y : Except F S} (h : Alike eqv x y) : Alike eqv y x := by
  cases h with
  | refused f => exact .refused f
  | accepted h => exact .accepted (heqv.symm h)

theorem Alike.trans {eqv : S → S → Prop} (heqv : Equivalence eqv) {x y z : Except F S} (h : Alike eqv x y)
    (h' : Alike eqv y z) : Alike eqv x z := by
  cases h with
  | refused f => exact h'
  | accepted h =>
    cases h' with
    | accepted h' => exact .accepted (heqv.trans h h')

/-- What a walk needs of its step: accepted elements with one key commute, and a refusal after
some of them is a refusal after at most one of them. -/
structure TieRules (key : A → K) (eqv : S → S → Prop) : Prop where
  equivalence : Equivalence eqv
  respects : ∀ s s' a, eqv s s' → Alike eqv (step s a) (step s' a)
  commutes : ∀ s a b t u, key a = key b → step s a = .ok t → step t b = .ok u →
    ∃ t' u', step s b = .ok t' ∧ step t' a = .ok u' ∧ eqv u u'
  blames : ∀ s (es : List A) t c f, (∀ e ∈ es, key e = key c) → es.foldlM step s = .ok t → step t c = .error f →
    step s c = .error f ∨ ∃ e ∈ es, ∃ t', step s e = .ok t' ∧ step t' c = .error f

/-- The refusals that some order of the group meets first. -/
def Refusals (s : S) (group : List A) (f : F) : Prop :=
  (∃ c ∈ group, step s c = .error f)
    ∨ ∃ e c, List.Subperm [e, c] group ∧ ∃ t, step s e = .ok t ∧ step t c = .error f

variable {step}

theorem foldlM_cons_ok (s u : S) (a : A) (l : List A) :
    (a :: l).foldlM step s = .ok u ↔ ∃ t, step s a = .ok t ∧ l.foldlM step t = .ok u := by
  rw [List.foldlM_cons]
  constructor
  · exact except_bind_ok _ _ _
  · rintro ⟨t, ht, hu⟩
    rw [ht]
    exact hu

theorem foldlM_error (s : S) (l : List A) (f : F) (h : l.foldlM step s = .error f) :
    ∃ es c rest t, l = es ++ c :: rest ∧ es.foldlM step s = .ok t ∧ step t c = .error f := by
  induction l generalizing s with
  | nil => cases h
  | cons a l ih =>
    rw [List.foldlM_cons] at h
    cases hstep : step s a with
    | error f' =>
      rw [hstep] at h
      cases h
      exact ⟨[], a, l, s, rfl, rfl, hstep⟩
    | ok t =>
      rw [hstep] at h
      obtain ⟨es, c, rest, u, rfl, hes, hc⟩ := ih t h
      exact ⟨a :: es, c, rest, u, rfl, (foldlM_cons_ok s u a es).mpr ⟨t, hstep, hes⟩, hc⟩

section Rules
variable {key : A → K} {eqv : S → S → Prop} (h : TieRules step key eqv)
include h

theorem TieRules.fold_respects {s s' : S} (hs : eqv s s') (l : List A) : Alike eqv (l.foldlM step s) (l.foldlM step s') := by
  induction l generalizing s s' with
  | nil => exact .accepted hs
  | cons a l ih =>
    rw [List.foldlM_cons, List.foldlM_cons]
    have ha := h.respects s s' a hs
    revert ha
    generalize step s a = x
    generalize step s' a = y
    intro ha
    cases ha with
    | refused f => exact .refused f
    | accepted ht => exact ih ht

/-- A group accepted in one order is accepted in every order. -/
theorem TieRules.fold_perm {l l' : List A} (hperm : l.Perm l') (k : K) (hkey : ∀ a ∈ l, key a = k) (s u : S)
    (hu : l.foldlM step s = .ok u) : ∃ u', l'.foldlM step s = .ok u' ∧ eqv u u' := by
  induction hperm generalizing s u with
  | nil => exact ⟨u, hu, h.equivalence.refl u⟩
  | cons a _ ih =>
    obtain ⟨t, ht, hu⟩ := (foldlM_cons_ok s u a _).mp hu
    obtain ⟨u', hu', heq⟩ := ih (fun b hb => hkey b (List.mem_cons_of_mem _ hb)) t u hu
    exact ⟨u', (foldlM_cons_ok s u' a _).mpr ⟨t, ht, hu'⟩, heq⟩
  | swap a b l =>
    obtain ⟨t, ht, hu⟩ := (foldlM_cons_ok s u b _).mp hu
    obtain ⟨v, hv, hu⟩ := (foldlM_cons_ok t u a _).mp hu
    have htied : key b = key a := (hkey b (by simp)).trans (hkey a (by simp)).symm
    obtain ⟨t', v', ht', hv', heq⟩ := h.commutes s b a t v htied ht hv
    have hrest := h.fold_respects heq l
    rw [hu] at hrest
    cases hend : l.foldlM step v' with
    | error f =>
      rw [hend] at hrest
      cases hrest
    | ok u' =>
      rw [hend] at hrest
      cases hrest with
      | accepted hrest =>
        exact ⟨u', (foldlM_cons_ok s u' a _).mpr ⟨t', ht', (foldlM_cons_ok t' u' b _).mpr ⟨v', hv', hend⟩⟩, hrest⟩
  | trans hfirst _ ih ih' =>
    obtain ⟨v, hv, heq⟩ := ih hkey s u hu
    obtain ⟨u', hu', heq'⟩ := ih' (fun a ha => hkey a (hfirst.mem_iff.mpr ha)) s v hv
    exact ⟨u', hu', h.equivalence.trans heq heq'⟩

theorem TieRules.refusals (l : List A) (k : K) (hkey : ∀ a ∈ l, key a = k) (s : S) (f : F)
    (hf : l.foldlM step s = .error f) : Refusals step s l f := by
  obtain ⟨es, c, rest, t, rfl, hes, hc⟩ := foldlM_error s l f hf
  have htied (e : A) (he : e ∈ es) : key e = key c :=
    (hkey e (List.mem_append_left _ he)).trans (hkey c (by simp)).symm
  obtain hown | ⟨e, he, t', hstep, hafter⟩ := h.blames s es t c f htied hes hc
  · exact .inl ⟨c, by simp, hown⟩
  · refine .inr ⟨e, c, List.Sublist.subperm ?_, t', hstep, hafter⟩
    exact (List.singleton_sublist.mpr he).append (List.singleton_sublist.mpr (List.mem_cons_self ..))

theorem TieRules.group_alike {l l' : List A} (hperm : l.Perm l') (k : K) (hkey : ∀ a ∈ l, key a = k) (s : S)
    (hagree : ∀ f f', Refusals step s l f → Refusals step s l f' → f = f') :
    Alike eqv (l.foldlM step s) (l'.foldlM step s) := by
  have hkey' (a : A) (ha : a ∈ l') : key a = k := hkey a (hperm.mem_iff.mpr ha)
  cases hl : l.foldlM step s with
  | ok u =>
    obtain ⟨u', hu', heq⟩ := h.fold_perm hperm k hkey s u hl
    rw [hu']
    exact .accepted heq
  | error f =>
    cases hl' : l'.foldlM step s with
    | ok u =>
      obtain ⟨u', hu', -⟩ := h.fold_perm hperm.symm k hkey' s u hl'
      rw [hl] at hu'
      cases hu'
    | error f' =>
      have hf' : Refusals step s l f' := by
        obtain ⟨c, hc, hown⟩ | ⟨e, c, hsub, hpair⟩ := h.refusals l' k hkey' s f' hl'
        · exact .inl ⟨c, hperm.mem_iff.mpr hc, hown⟩
        · exact .inr ⟨e, c, hsub.trans hperm.symm.subperm, hpair⟩
      rw [hagree f f' (h.refusals l k hkey s f hl) hf']
      exact .refused f'

end Rules

theorem Refusals.perm {s : S} {l l' : List A} {f : F} (hperm : l.Perm l') (h : Refusals step s l f) :
    Refusals step s l' f := by
  obtain ⟨c, hc, hown⟩ | ⟨e, c, hsub, hpair⟩ := h
  · exact .inl ⟨c, hperm.mem_iff.mp hc, hown⟩
  · exact .inr ⟨e, c, hsub.trans hperm.subperm, hpair⟩

theorem Refusals.order {s : S} {l : List A} {f : F} (h : Refusals step s l f) :
    ∃ l' : List A, l'.Perm l ∧ l'.foldlM step s = .error f := by
  obtain ⟨c, hc, hown⟩ | ⟨e, c, ⟨l₁, hperm, hsub⟩, t, hstep, hafter⟩ := h
  · obtain ⟨front, back, rfl⟩ := List.append_of_mem hc
    refine ⟨c :: (front ++ back), List.perm_middle.symm, ?_⟩
    rw [List.foldlM_cons, hown]
    rfl
  · obtain ⟨rest, hrest⟩ := hsub.exists_perm_append
    refine ⟨e :: c :: rest, (hrest.trans (hperm.append_right rest)).symm, ?_⟩
    rw [List.foldlM_cons, hstep]
    change (c :: rest).foldlM step t = .error f
    rw [List.foldlM_cons, hafter]
    rfl

/-! ### Sorted lists -/

section Sorted
variable [LinearOrder K] (key : A → K)

def keySort (l : List A) : List A := l.insertionSort fun a b => key a ≤ key b

theorem keySort_perm (l : List A) : (keySort key l).Perm l := List.perm_insertionSort _ l

theorem keySort_pairwise (l : List A) : (keySort key l).Pairwise fun a b => key a ≤ key b := by
  have htotal : Std.Total fun a b : A => key a ≤ key b := ⟨fun a b => le_total (key a) (key b)⟩
  exact pairwise_insertionSort l fun _ _ _ _ _ _ h h' => le_trans h h'

theorem keySort_eq_self {l : List A} (h : l.Pairwise fun a b => key a ≤ key b) : keySort key l = l :=
  insertionSort_chain l h.isChain

theorem sorted_split (k : K) {l : List A} (h : l.Pairwise fun a b => key a ≤ key b) :
    l.filter (key · < k) ++ (l.filter (key · = k) ++ l.filter (k < key ·)) = l := by
  induction l with
  | nil => rfl
  | cons a l ih =>
    obtain ⟨ha, hl⟩ := List.pairwise_cons.mp h
    have hsplit := ih hl
    obtain hlt | heq | hgt := lt_trichotomy (key a) k
    · simp only [List.filter_cons, hlt, hlt.ne, hlt.asymm, decide_true, decide_false, Bool.false_eq_true, if_true, if_false,
        List.cons_append, hsplit]
    · have hnone : l.filter (key · < k) = [] :=
        List.filter_eq_nil_iff.mpr fun b hb => by simpa [heq] using ha b hb
      rw [hnone, List.nil_append] at hsplit
      simp only [List.filter_cons, heq, lt_irrefl, decide_true, decide_false, Bool.false_eq_true, if_true, if_false, hnone,
        List.nil_append, List.cons_append, hsplit]
    · have hbelow : l.filter (key · < k) = [] :=
        List.filter_eq_nil_iff.mpr fun b hb => by simpa using (hgt.trans_le (ha b hb)).le
      have hat : l.filter (key · = k) = [] :=
        List.filter_eq_nil_iff.mpr fun b hb => by simpa using (hgt.trans_le (ha b hb)).ne'
      rw [hbelow, hat, List.nil_append, List.nil_append] at hsplit
      simp only [List.filter_cons, hgt, hgt.ne', hgt.asymm, decide_true, decide_false, Bool.false_eq_true, if_true, if_false,
        hbelow, hat, List.nil_append, hsplit]

def tiedGroup (k : K) (l : List A) : List A := l.filter (key · = k)

variable (step) in
/-- Tied elements agree on every refusal that the walk can meet first among them. -/
def TiesAgree (s : S) (l : List A) : Prop :=
  ∀ k t, ((keySort key l).filter (key · < k)).foldlM step s = .ok t →
    ∀ f f', Refusals step t (tiedGroup key k l) f → Refusals step t (tiedGroup key k l) f' → f = f'

variable {key} {eqv : S → S → Prop}

theorem TieRules.sorted_alike (h : TieRules step key eqv) (n : ℕ) (l l' : List A) (hn : l.length ≤ n) (hperm : l.Perm l')
    (hl : l.Pairwise fun a b => key a ≤ key b) (hl' : l'.Pairwise fun a b => key a ≤ key b) (s s' : S) (hs : eqv s s')
    (hagree : ∀ k t, (l.filter (key · < k)).foldlM step s = .ok t →
      ∀ f f', Refusals step t (l.filter (key · = k)) f → Refusals step t (l.filter (key · = k)) f' → f = f') :
    Alike eqv (l.foldlM step s) (l'.foldlM step s') := by
  induction n generalizing l l' s s' with
  | zero =>
    obtain rfl := List.length_eq_zero_iff.mp (Nat.le_zero.mp hn)
    obtain rfl := hperm.nil_eq
    exact .accepted hs
  | succ n ih =>
    cases l with
    | nil =>
      obtain rfl := hperm.nil_eq
      exact .accepted hs
    | cons a rest =>
      have hleast : ∀ b ∈ a :: rest, key a ≤ key b := by
        intro b hb
        obtain rfl | hb := List.mem_cons.mp hb
        · exact le_refl _
        · exact (List.pairwise_cons.mp hl).1 b hb
      have hnone : (a :: rest).filter (key · < key a) = [] :=
        List.filter_eq_nil_iff.mpr fun b hb => by simpa using hleast b hb
      have hnone' : l'.filter (key · < key a) = [] :=
        List.filter_eq_nil_iff.mpr fun b hb => by simpa using hleast b (hperm.mem_iff.mpr hb)
      have hsplit := sorted_split key (key a) hl
      have hsplit' := sorted_split key (key a) hl'
      rw [hnone, List.nil_append] at hsplit
      rw [hnone', List.nil_append] at hsplit'
      have htied : ∀ b ∈ (a :: rest).filter (key · = key a), key b = key a := by
        intro b hb
        simpa using (List.mem_filter.mp hb).2
      have hgroup : Alike eqv (((a :: rest).filter (key · = key a)).foldlM step s)
          ((l'.filter (key · = key a)).foldlM step s') :=
        (h.group_alike (hperm.filter _) (key a) htied s (hagree (key a) s (by rw [hnone]; rfl))).trans h.equivalence
          (h.fold_respects hs _)
      have hshort : ((a :: rest).filter (key a < key ·)).length ≤ n := by
        have hle : ((a :: rest).filter (key a < key ·)).length ≤ rest.length := by
          rw [List.filter_cons_of_neg (by simp)]
          exact List.length_filter_le _ _
        rw [List.length_cons] at hn
        omega
      have hafter (t : S) (ht : ((a :: rest).filter (key · = key a)).foldlM step s = .ok t) (k : K) (u : S)
          (hu : (((a :: rest).filter (key a < key ·)).filter (key · < k)).foldlM step t = .ok u) (f f' : F)
          (hf : Refusals step u (((a :: rest).filter (key a < key ·)).filter (key · = k)) f)
          (hf' : Refusals step u (((a :: rest).filter (key a < key ·)).filter (key · = k)) f') : f = f' := by
        by_cases hk : key a < k
        · have hsame : ((a :: rest).filter (key a < key ·)).filter (key · = k) = (a :: rest).filter (key · = k) := by
            rw [List.filter_filter]
            refine List.filter_congr fun b _ => ?_
            by_cases hb : key b = k
            · simp [hb, hk]
            · simp [hb]
          have hfront : (a :: rest).filter (key · < k) =
              (a :: rest).filter (key · = key a) ++ ((a :: rest).filter (key a < key ·)).filter (key · < k) := by
            conv_lhs => rw [← hsplit, List.filter_append]
            congr 1
            refine List.filter_eq_self.mpr fun b hb => ?_
            rw [htied b hb]
            exact decide_eq_true hk
          rw [hsame] at hf hf'
          refine hagree k u ?_ f f' hf hf'
          rw [hfront, List.foldlM_append, ht]
          exact hu
        · have hempty : ((a :: rest).filter (key a < key ·)).filter (key · = k) = [] := by
            refine List.filter_eq_nil_iff.mpr fun b hb => ?_
            have hbeyond : key a < key b := by simpa using (List.mem_filter.mp hb).2
            simp only [decide_eq_true_eq]
            rintro rfl
            exact hk hbeyond
          rw [hempty] at hf
          obtain ⟨c, hc, -⟩ | ⟨e, c, hsub, -⟩ := hf
          · cases hc
          · exact absurd hsub.length_le (by simp)
      rw [← hsplit, ← hsplit', List.foldlM_append, List.foldlM_append]
      revert hgroup hafter
      generalize ((a :: rest).filter (key · = key a)).foldlM step s = x
      generalize (l'.filter (key · = key a)).foldlM step s' = y
      intro hgroup hafter
      cases hgroup with
      | refused f => exact .refused f
      | @accepted t t' ht =>
        exact ih _ _ hshort (hperm.filter _) (hl.filter _) (hl'.filter _) t t' ht (hafter t rfl)

/-- The walk over the sorted list is independent of the order of the input exactly when tied elements agree. -/
theorem TieRules.sorted_iff (h : TieRules step key eqv) (s : S) (l : List A) :
    (∀ l', l'.Perm l → Alike eqv ((keySort key l).foldlM step s) ((keySort key l').foldlM step s)) ↔
      TiesAgree step key s l := by
  constructor
  · intro hall k t ht f f' hf hf'
    have hrun (g : F) (hg : Refusals step t (l.filter (key · = k)) g) :
        Alike eqv ((keySort key l).foldlM step s) (.error g) := by
      obtain ⟨group, hgroup, hfold⟩ := hg.order
      have hmem : ∀ b ∈ group, key b = k := by
        intro b hb
        simpa using (List.mem_filter.mp (hgroup.mem_iff.mp hb)).2
      have hsorted : ((keySort key l).filter (key · < k) ++ (group ++ (keySort key l).filter (k < key ·))).Pairwise
          fun a b => key a ≤ key b := by
        have hpairwise := keySort_pairwise key l
        refine List.pairwise_append.mpr ⟨hpairwise.filter _, List.pairwise_append.mpr ⟨?_, hpairwise.filter _, ?_⟩, ?_⟩
        · exact List.pairwise_of_forall_mem_list fun a ha b hb => by rw [hmem a ha, hmem b hb]
        · intro a ha b hb
          rw [hmem a ha]
          exact le_of_lt (by simpa using (List.mem_filter.mp hb).2)
        · intro a ha b hb
          have hbelow : key a < k := by simpa using (List.mem_filter.mp ha).2
          obtain hb | hb := List.mem_append.mp hb
          · rw [hmem b hb]
            exact hbelow.le
          · exact hbelow.le.trans (le_of_lt (by simpa using (List.mem_filter.mp hb).2))
      have hperm : ((keySort key l).filter (key · < k) ++ (group ++ (keySort key l).filter (k < key ·))).Perm l := by
        refine List.Perm.trans ?_ (keySort_perm key l)
        have hsame : group.Perm ((keySort key l).filter (key · = k)) :=
          hgroup.trans ((keySort_perm key l).symm.filter _)
        refine List.Perm.trans ((hsame.append_right _).append_left _) ?_
        rw [sorted_split key k (keySort_pairwise key l)]
      have halike := hall _ hperm
      rw [keySort_eq_self key hsorted, List.foldlM_append, ht] at halike
      change Alike eqv _ ((group ++ _).foldlM step t) at halike
      rw [List.foldlM_append, hfold] at halike
      exact halike
    have hboth := ((hrun f hf).symm h.equivalence).trans h.equivalence (hrun f' hf')
    cases hboth
    rfl
  · intro hagree l' hperm
    refine h.sorted_alike _ _ _ (le_refl _) ?_ (keySort_pairwise key l) (keySort_pairwise key l') s s
      (h.equivalence.refl s) ?_
    · exact (keySort_perm key l).trans (hperm.symm.trans (keySort_perm key l').symm)
    · intro k t ht f f' hf hf'
      have hgroup : ((keySort key l).filter (key · = k)).Perm (l.filter (key · = k)) := (keySort_perm key l).filter _
      exact hagree k t ht f f' (hf.perm hgroup) (hf'.perm hgroup)

/-- A walk that accepts everything has no refusals to disagree on. -/
theorem TieRules.agree_of_ok (h : TieRules step key eqv) (s u : S) (l : List A) (hok : (keySort key l).foldlM step s = .ok u) :
    TiesAgree step key s l := by
  intro k t ht f f' hf _
  obtain ⟨group, hgroup, hfold⟩ := hf.order
  have hsame : ((keySort key l).filter (key · = k)).Perm group :=
    ((keySort_perm key l).filter _).trans hgroup.symm
  rw [← sorted_split key k (keySort_pairwise key l), List.foldlM_append, ht] at hok
  change ((_ ++ _ : List A)).foldlM step t = .ok u at hok
  rw [List.foldlM_append] at hok
  obtain ⟨v, hv, -⟩ := except_bind_ok _ _ _ hok
  obtain ⟨v', hv', -⟩ := h.fold_perm hsame k (fun a ha => by simpa using (List.mem_filter.mp ha).2) t v hv
  rw [hfold] at hv'
  cases hv'

/-- The same of the walk and what is made of its last state, when the two never refuse alike. -/
theorem TieRules.finish_iff {B : Type} (h : TieRules step key eqv) (finish : S → Except F B) (s : S)
    (hfinish : ∀ (l l' : List A) (t t' : S), l.foldlM step s = .ok t → l'.foldlM step s = .ok t' → eqv t t' →
      finish t = finish t')
    (hapart : ∀ s a f t, step s a = .error f → finish t ≠ .error f) (l : List A) :
    (∀ l', l'.Perm l → ((keySort key l').foldlM step s >>= finish) = ((keySort key l).foldlM step s >>= finish)) ↔
      TiesAgree step key s l := by
  have hnever (l' : List A) (f : F) (t : S) (hl' : l'.foldlM step s = .error f) : finish t ≠ .error f := by
    obtain ⟨es, c, rest, u, -, -, hc⟩ := foldlM_error s l' f hl'
    exact hapart u c f t hc
  constructor
  · intro hall
    refine (h.sorted_iff s l).mp fun l' hperm => ?_
    have hsame := hall l' hperm
    cases hl : (keySort key l).foldlM step s with
    | ok u =>
      have halike := (h.sorted_iff s l).mpr (h.agree_of_ok s u l hl) l' hperm
      rw [hl] at halike
      exact halike
    | error f =>
      rw [hl] at hsame
      cases hl' : (keySort key l').foldlM step s with
      | ok u =>
        rw [hl'] at hsame
        exact absurd hsame (hnever _ f u hl)
      | error f' =>
        rw [hl'] at hsame
        cases hsame
        exact .refused _
  · intro hagree l' hperm
    have halike := (h.sorted_iff s l).mpr hagree l' hperm
    cases hl : (keySort key l).foldlM step s with
    | error f =>
      rw [hl] at halike
      cases hl' : (keySort key l').foldlM step s with
      | error f' =>
        rw [hl'] at halike
        cases halike
        rfl
      | ok t' =>
        rw [hl'] at halike
        cases halike
    | ok t =>
      rw [hl] at halike
      cases hl' : (keySort key l').foldlM step s with
      | error f' =>
        rw [hl'] at halike
        cases halike
      | ok t' =>
        rw [hl'] at halike
        cases halike with
        | accepted heqv => exact (hfinish _ _ t t' hl hl' heqv).symm

/-! ### Refusals read off the elements before -/

section Read
variable (key) (refusal : List A → A → Option F)

/-- Every element is accepted after those before it. -/
def Accepted (before : List A) : Prop := ∀ front c back, before = front ++ c :: back → refusal front c = none

/-- A tied element is refused after `before`, or after `before` and one other of its group. -/
def TiedRefusal (before group : List A) (f : F) : Prop :=
  (∃ c ∈ group, refusal before c = some f)
    ∨ ∃ e c, List.Subperm [e, c] group ∧ refusal before e = none ∧ refusal (before ++ [e]) c = some f

/-- Where all smaller elements are accepted, the elements with one key are refused alike in whatever order they come. -/
def RefusedAlike (l : List A) : Prop :=
  ∀ k, Accepted refusal ((keySort key l).filter (key · < k)) →
    ∀ f f', TiedRefusal refusal ((keySort key l).filter (key · < k)) (tiedGroup key k l) f →
      TiedRefusal refusal ((keySort key l).filter (key · < k)) (tiedGroup key k l) f' → f = f'

variable {key refusal} (s : S)
  (hread : ∀ before t, before.foldlM step s = .ok t → ∀ c f, step t c = .error f ↔ refusal before c = some f)
include hread

theorem read_none {before : List A} {t : S} (ht : before.foldlM step s = .ok t) (c : A) :
    refusal before c = none ↔ ∃ u, step t c = .ok u := by
  constructor
  · intro hnone
    cases hstep : step t c with
    | ok u => exact ⟨u, rfl⟩
    | error f =>
      rw [(hread before t ht c f).mp hstep] at hnone
      cases hnone
  · rintro ⟨u, hu⟩
    refine Option.eq_none_iff_forall_ne_some.mpr fun f hf => ?_
    rw [(hread before t ht c f).mpr hf] at hu
    cases hu

theorem accepted_iff (before : List A) : Accepted refusal before ↔ ∃ t, before.foldlM step s = .ok t := by
  constructor
  · intro h
    cases hfold : before.foldlM step s with
    | ok t => exact ⟨t, rfl⟩
    | error f =>
      obtain ⟨front, c, back, t, hsplit, hfront, hrefused⟩ := foldlM_error s before f hfold
      have hsome := (hread front t hfront c f).mp hrefused
      rw [h front c back hsplit] at hsome
      cases hsome
  · rintro ⟨u, hu⟩ front c back rfl
    rw [List.foldlM_append] at hu
    obtain ⟨t, hfront, hrest⟩ := except_bind_ok _ _ _ hu
    obtain ⟨v, hv, -⟩ := (foldlM_cons_ok t u c back).mp hrest
    exact (read_none s hread hfront c).mpr ⟨v, hv⟩

theorem tiedRefusal_iff (before group : List A) (t : S) (ht : before.foldlM step s = .ok t) (f : F) :
    TiedRefusal refusal before group f ↔ Refusals step t group f := by
  have hafter (e : A) (u : S) (hu : step t e = .ok u) : (before ++ [e]).foldlM step s = .ok u := by
    rw [List.foldlM_append, ht]
    exact (foldlM_cons_ok t u e []).mpr ⟨u, hu, rfl⟩
  constructor
  · rintro (⟨c, hc, hown⟩ | ⟨e, c, hsub, hnone, hpair⟩)
    · exact .inl ⟨c, hc, (hread before t ht c f).mpr hown⟩
    · obtain ⟨u, hu⟩ := (read_none s hread ht e).mp hnone
      exact .inr ⟨e, c, hsub, u, hu, (hread _ u (hafter e u hu) c f).mpr hpair⟩
  · rintro (⟨c, hc, hown⟩ | ⟨e, c, hsub, u, hu, hpair⟩)
    · exact .inl ⟨c, hc, (hread before t ht c f).mp hown⟩
    · exact .inr ⟨e, c, hsub, (read_none s hread ht e).mpr ⟨u, hu⟩, (hread _ u (hafter e u hu) c f).mp hpair⟩

theorem tiesAgree_iff (l : List A) : TiesAgree step key s l ↔ RefusedAlike key refusal l := by
  constructor
  · intro hagree k haccepted f f' hf hf'
    obtain ⟨t, ht⟩ := (accepted_iff s hread _).mp haccepted
    exact hagree k t ht f f' ((tiedRefusal_iff s hread _ _ t ht f).mp hf) ((tiedRefusal_iff s hread _ _ t ht f').mp hf')
  · intro hagree k t ht f f' hf hf'
    exact hagree k ((accepted_iff s hread _).mpr ⟨t, ht⟩) f f' ((tiedRefusal_iff s hread _ _ t ht f).mpr hf)
      ((tiedRefusal_iff s hread _ _ t ht f').mpr hf')

end Read

end Sorted

end MoeNG.Lib
