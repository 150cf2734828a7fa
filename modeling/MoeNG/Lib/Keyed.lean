import MoeNG.Lib.OrdMap

/-!
# Reading keyed entries

A reader goes through entries in order and keeps them by key. It reports an
issue for an entry it cannot parse, whose key is not known, or whose key was
read before.
-/

namespace MoeNG.Lib

@[ext] structure Reading (K V I : Type) where
  values : OrdMap K V
  issues : List I

section Read
variable {E K V I : Type} [DecidableEq K] (parse : E → Option (K × V)) (known : K → Bool) (malformed : ℕ → I)
  (unknown duplicate : K → I)

def readEntry (r : Reading K V I) (index : ℕ) (entry : E) : Reading K V I :=
  match parse entry with
  | none => { r with issues := r.issues ++ [malformed index] }
  | some (k, v) =>
    if !known k then { r with issues := r.issues ++ [unknown k] }
    else if r.values.has k then { r with issues := r.issues ++ [duplicate k] }
    else { r with values := r.values.set k v }

def readFrom (r : Reading K V I) : ℕ → List E → Reading K V I
  | _, [] => r
  | index, entry :: rest => readFrom (readEntry parse known malformed unknown duplicate r index entry) (index + 1) rest

def readKeyed (entries : List E) : Reading K V I :=
  readFrom parse known malformed unknown duplicate ⟨OrdMap.empty, []⟩ 0 entries

/-- The entries all parse, to the given pairs, with known and distinct keys. -/
structure Clean (entries : List E) (pairs : List (K × V)) : Prop where
  parsed : entries.mapM parse = some pairs
  known : ∀ p ∈ pairs, known p.1 = true
  nodup : (pairs.map Prod.fst).Nodup

theorem put_fresh (k : K) (v : V) (l : List (K × V)) (h : k ∉ l.map Prod.fst) : OrdMap.put k v l = l ++ [(k, v)] := by
  induction l with
  | nil => rfl
  | cons e rest ih =>
    rw [List.map_cons, List.mem_cons, not_or] at h
    rw [OrdMap.put, if_neg fun he => h.1 he.symm, ih h.2, List.cons_append]

theorem readEntry_issues (r : Reading K V I) (index : ℕ) (entry : E) :
    ∃ more, (readEntry parse known malformed unknown duplicate r index entry).issues = r.issues ++ more := by
  unfold readEntry
  split
  · exact ⟨_, rfl⟩
  · split
    · exact ⟨_, rfl⟩
    · split
      · exact ⟨_, rfl⟩
      · exact ⟨[], (List.append_nil _).symm⟩

theorem readFrom_issues (r : Reading K V I) (index : ℕ) (entries : List E) :
    ∃ more, (readFrom parse known malformed unknown duplicate r index entries).issues = r.issues ++ more := by
  induction entries generalizing r index with
  | nil => exact ⟨[], (List.append_nil _).symm⟩
  | cons entry rest ih =>
    obtain ⟨more, hmore⟩ := ih (readEntry parse known malformed unknown duplicate r index entry) (index + 1)
    obtain ⟨first, hfirst⟩ := readEntry_issues parse known malformed unknown duplicate r index entry
    exact ⟨first ++ more, by rw [readFrom, hmore, hfirst, List.append_assoc]⟩

theorem readEntry_clean (r : Reading K V I) (index : ℕ) (entry : E)
    (h : (readEntry parse known malformed unknown duplicate r index entry).issues = []) :
    ∃ k v, parse entry = some (k, v) ∧ known k = true ∧ k ∉ r.values.keys
      ∧ (readEntry parse known malformed unknown duplicate r index entry).values.entries = r.values.entries ++ [(k, v)] := by
  unfold readEntry at h ⊢
  split at h
  · simp at h
  · rename_i k v hparse
    split at h
    · simp at h
    · split at h
      · simp at h
      · rename_i hknown hseen
        have hfresh : k ∉ r.values.keys := fun hk => hseen ((r.values.has_iff k).mpr hk)
        refine ⟨k, v, hparse, by simpa using hknown, hfresh, ?_⟩
        simp only [hknown, hseen]
        exact put_fresh k v r.values.entries hfresh

theorem readFrom_clean (r : Reading K V I) (index : ℕ) (entries : List E)
    (h : (readFrom parse known malformed unknown duplicate r index entries).issues = []) :
    ∃ pairs, entries.mapM parse = some pairs ∧ (∀ p ∈ pairs, known p.1 = true)
      ∧ ((r.values.entries ++ pairs).map Prod.fst).Nodup
      ∧ (readFrom parse known malformed unknown duplicate r index entries).values.entries = r.values.entries ++ pairs := by
  induction entries generalizing r index with
  | nil => exact ⟨[], rfl, nofun, by simpa using r.values.nodup, by rw [readFrom, List.append_nil]⟩
  | cons entry rest ih =>
    rw [readFrom] at h ⊢
    have hfirst : (readEntry parse known malformed unknown duplicate r index entry).issues = [] := by
      obtain ⟨more, hmore⟩ := readFrom_issues parse known malformed unknown duplicate
        (readEntry parse known malformed unknown duplicate r index entry) (index + 1) rest
      exact (List.append_eq_nil_iff.mp (hmore ▸ h)).1
    obtain ⟨k, v, hparse, hknown, -, hentries⟩ := readEntry_clean parse known malformed unknown duplicate r index entry hfirst
    obtain ⟨pairs, hpairs, hall, hnodup, hvalues⟩ := ih _ (index + 1) h
    rw [hentries, List.append_assoc] at hnodup hvalues
    exact ⟨(k, v) :: pairs, by simp [hparse, hpairs], List.forall_mem_cons.mpr ⟨hknown, hall⟩, hnodup, hvalues⟩

theorem readFrom_of_pairs (r : Reading K V I) (index : ℕ) (entries : List E) (pairs : List (K × V))
    (hparse : entries.mapM parse = some pairs) (hknown : ∀ p ∈ pairs, known p.1 = true)
    (hnodup : ((r.values.entries ++ pairs).map Prod.fst).Nodup) :
    (readFrom parse known malformed unknown duplicate r index entries).issues = r.issues
      ∧ (readFrom parse known malformed unknown duplicate r index entries).values.entries = r.values.entries ++ pairs := by
  induction entries generalizing r index pairs with
  | nil =>
    obtain rfl : [] = pairs := Option.some.inj hparse
    exact ⟨rfl, (List.append_nil _).symm⟩
  | cons entry rest ih =>
    rw [List.mapM_cons] at hparse
    simp only [↓bind_some_iff, Option.pure_def, Option.some.injEq] at hparse
    obtain ⟨⟨k, v⟩, hentry, others, hothers, rfl⟩ := hparse
    rw [List.forall_mem_cons] at hknown
    have hfresh : k ∉ r.values.keys := by
      intro hk
      rw [List.map_append, List.nodup_append] at hnodup
      exact hnodup.2.2 k hk k (List.mem_cons_self ..) rfl
    have hstep : readEntry parse known malformed unknown duplicate r index entry = { r with values := r.values.set k v } := by
      unfold readEntry
      have hseen : ¬ r.values.has k = true := fun h => hfresh ((r.values.has_iff k).mp h)
      simp [hentry, hknown.1, hseen]
    have hentries : (r.values.set k v).entries = r.values.entries ++ [(k, v)] := put_fresh k v r.values.entries hfresh
    rw [readFrom, hstep]
    have hrest := ih { r with values := r.values.set k v } (index + 1) others hothers hknown.2 (by
      show (((r.values.set k v).entries ++ others).map Prod.fst).Nodup
      rw [hentries, List.append_assoc]
      exact hnodup)
    refine ⟨hrest.1, hrest.2.trans ?_⟩
    show (r.values.set k v).entries ++ others = _
    rw [hentries, List.append_assoc]
    rfl

/-- A reading without issues keeps exactly the parsed pairs. -/
theorem readKeyed_iff (entries : List E) (m : OrdMap K V) :
    readKeyed parse known malformed unknown duplicate entries = ⟨m, []⟩ ↔ Clean parse known entries m.entries := by
  constructor
  · intro h
    have hissues : (readKeyed parse known malformed unknown duplicate entries).issues = [] := by rw [h]
    obtain ⟨pairs, hparse, hknown, hnodup, hvalues⟩ :=
      readFrom_clean parse known malformed unknown duplicate ⟨OrdMap.empty, []⟩ 0 entries hissues
    have hpairs : m.entries = pairs := by
      rw [show readFrom parse known malformed unknown duplicate ⟨OrdMap.empty, []⟩ 0 entries = ⟨m, []⟩ from h] at hvalues
      exact hvalues
    rw [hpairs]
    exact ⟨hparse, hknown, hnodup⟩
  · intro h
    obtain ⟨hissues, hvalues⟩ := readFrom_of_pairs parse known malformed unknown duplicate ⟨OrdMap.empty, []⟩ 0 entries
      m.entries h.parsed h.known h.nodup
    exact Reading.ext (OrdMap.ext hvalues) hissues

end Read

/-! ### Entries that change one by one -/

section Related
variable {A B K : Type} [DecidableEq K]

theorem find_related (key : A → K) (key' : B → K) (R : A → B → Prop) (l : List A) (l' : List B)
    (h : List.Forall₂ (fun a b => key' b = key a ∧ R a b) l l') (k : K) :
    Option.Rel R (l.find? fun a => key a = k) (l'.find? fun b => key' b = k) := by
  induction h with
  | nil => exact .none
  | cons hab _ ih =>
    rw [List.find?_cons, List.find?_cons, hab.1]
    split
    · exact .some hab.2
    · exact ih

theorem get_related (R : A → A → Prop) (m m' : OrdMap K A)
    (h : List.Forall₂ (fun p q => q.1 = p.1 ∧ R p.2 q.2) m.entries m'.entries) (k : K) :
    Option.Rel R (m.get k) (m'.get k) := by
  have hmap (o o' : Option (K × A)) (h : Option.Rel (fun p q => R p.2 q.2) o o') :
      Option.Rel R (o.map Prod.snd) (o'.map Prod.snd) := by
    cases h with
    | none => exact .none
    | some hr => exact .some hr
  exact hmap _ _ (find_related Prod.fst Prod.fst (fun p q => R p.2 q.2) m.entries m'.entries h k)

theorem has_related (R : A → A → Prop) (m m' : OrdMap K A) (k : K) (h : Option.Rel R (m.get k) (m'.get k)) :
    m'.has k = m.has k := by
  have hmap (o o' : Option A) (h : Option.Rel R o o') : o'.isSome = o.isSome := by cases h <;> rfl
  exact hmap _ _ h

omit [DecidableEq K] in
theorem forall₂_keys (R : A → A → Prop) (l l' : List (K × A))
    (h : List.Forall₂ (fun p q => q.1 = p.1 ∧ R p.2 q.2) l l') : l'.map Prod.fst = l.map Prod.fst := by
  induction h with
  | nil => rfl
  | cons hab _ ih => rw [List.map_cons, List.map_cons, hab.1, ih]

end Related

section Modify
variable {E A : Type} (parse : E → Option A) (f : E → E) (R : A → A → Prop) (hrefl : ∀ a, R a a)
  (hf : ∀ e a, parse e = some a → ∃ a', parse (f e) = some a' ∧ R a a')
include hrefl hf

theorem mapM_modify (l : List E) (i : ℕ) (out : List A) (h : l.mapM parse = some out) :
    ∃ out', (l.modify i f).mapM parse = some out' ∧ List.Forall₂ R out out' := by
  induction l generalizing i out with
  | nil =>
    obtain rfl : [] = out := Option.some.inj h
    exact ⟨[], by simp, .nil⟩
  | cons e rest ih =>
    rw [List.mapM_cons] at h
    simp only [↓bind_some_iff, Option.pure_def, Option.some.injEq] at h
    obtain ⟨a, ha, others, hothers, rfl⟩ := h
    cases i with
    | zero =>
      obtain ⟨a', ha', hr⟩ := hf e a ha
      exact ⟨a' :: others, by simp [ha', hothers], .cons hr (List.forall₂_same.mpr fun b _ => hrefl b)⟩
    | succ i =>
      obtain ⟨others', hothers', hrest⟩ := ih i others hothers
      exact ⟨a :: others', by simp [ha, hothers'], .cons (hrefl a) hrest⟩

end Modify

section Clean
variable {E K V : Type} (parse : E → Option (K × V)) (known : K → Bool) (f : E → E) (R : V → V → Prop)
  (hrefl : ∀ v, R v v)
  (hf : ∀ e k v, parse e = some (k, v) → ∃ v', parse (f e) = some (k, v') ∧ R v v')
include hrefl hf

/-- One entry changes under its key: the others are read as before. -/
theorem Clean.modify (entries : List E) (pairs : List (K × V)) (h : Clean parse known entries pairs) (i : ℕ) :
    ∃ pairs', Clean parse known (entries.modify i f) pairs'
      ∧ List.Forall₂ (fun p q => q.1 = p.1 ∧ R p.2 q.2) pairs pairs' := by
  obtain ⟨pairs', hparse, hrel⟩ := mapM_modify parse f (fun p q => q.1 = p.1 ∧ R p.2 q.2) (fun p => ⟨rfl, hrefl p.2⟩)
    (fun e p hp => by
      obtain ⟨v', hv', hr⟩ := hf e p.1 p.2 hp
      exact ⟨(p.1, v'), hv', rfl, hr⟩)
    entries i pairs h.parsed
  have hkeys := forall₂_keys R pairs pairs' hrel
  refine ⟨pairs', ⟨hparse, fun q hq => ?_, hkeys ▸ h.nodup⟩, hrel⟩
  have hq : q.1 ∈ pairs.map Prod.fst := hkeys ▸ List.mem_map_of_mem hq
  obtain ⟨p, hp, hpq⟩ := List.mem_map.mp hq
  exact hpq ▸ h.known p hp

end Clean

end MoeNG.Lib
