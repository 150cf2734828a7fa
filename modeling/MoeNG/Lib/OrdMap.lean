import MoeNG.Lib.Lists

/-!
# Insertion-ordered maps

A map that iterates in insertion order and keeps one entry per key: `set` on a
known key overwrites in place, `set` on a fresh key appends. The second half is
the tally loop `totals.set(k, (totals.get(k) ?? 0) + q)` and the exact sums it
computes.
-/

namespace MoeNG.Lib

@[ext] structure OrdMap (K V : Type) where
  entries : List (K × V)
  nodup : (entries.map Prod.fst).Nodup

namespace OrdMap

variable {K V A : Type} [DecidableEq K]

def empty : OrdMap K V := ⟨[], List.nodup_nil⟩

def keys (m : OrdMap K V) : List K := m.entries.map Prod.fst

def get (m : OrdMap K V) (k : K) : Option V := (m.entries.find? fun e => e.1 = k).map Prod.snd

def has (m : OrdMap K V) (k : K) : Bool := (m.get k).isSome

/-- Overwrite in place, append when the key is fresh. -/
def put (k : K) (v : V) : List (K × V) → List (K × V)
  | [] => [(k, v)]
  | e :: rest => if e.1 = k then (k, v) :: rest else e :: put k v rest

theorem put_keys (k : K) (v : V) (l : List (K × V)) :
    (put k v l).map Prod.fst = if k ∈ l.map Prod.fst then l.map Prod.fst else l.map Prod.fst ++ [k] := by
  induction l with
  | nil => simp [put]
  | cons e rest ih =>
    by_cases he : e.1 = k
    · simp [put, he]
    · have hk : k ≠ e.1 := fun h => he h.symm
      simp only [put, he, if_false, List.map_cons, ih, List.mem_cons, hk, false_or]
      split <;> rfl

theorem put_nodup (k : K) (v : V) (l : List (K × V)) (h : (l.map Prod.fst).Nodup) :
    ((put k v l).map Prod.fst).Nodup := by
  rw [put_keys]
  split
  · exact h
  · rename_i hk
    exact List.nodup_append.mpr ⟨h, List.nodup_singleton k, by
      intro a ha b hb hab
      rw [List.mem_singleton] at hb
      exact hk (hb ▸ hab ▸ ha)⟩

def set (m : OrdMap K V) (k : K) (v : V) : OrdMap K V := ⟨put k v m.entries, put_nodup k v _ m.nodup⟩

def erase (m : OrdMap K V) (k : K) : OrdMap K V :=
  ⟨m.entries.filter fun e => e.1 ≠ k, (List.filter_sublist.map Prod.fst).nodup m.nodup⟩

/-! ### Lookup -/

@[simp] theorem get_empty (k : K) : (empty : OrdMap K V).get k = none := rfl

theorem find_put (k k' : K) (v : V) (l : List (K × V)) :
    ((put k v l).find? fun e => e.1 = k').map Prod.snd =
      if k' = k then some v else (l.find? fun e => e.1 = k').map Prod.snd := by
  induction l with
  | nil =>
    by_cases h : k' = k
    · simp [put, h]
    · have h' : k ≠ k' := fun e => h e.symm
      simp [put, h, h']
  | cons e rest ih =>
    by_cases he : e.1 = k
    · by_cases h : k' = k
      · simp [put, he, h]
      · have h' : k ≠ k' := fun e => h e.symm
        simp [put, he, h, h']
    · simp only [put, he, if_false, List.find?_cons]
      by_cases hk : e.1 = k'
      · have h : k' ≠ k := fun h => he (hk.trans h)
        simp [hk, h]
      · simp only [hk, decide_false]
        exact ih

@[simp] theorem get_set (m : OrdMap K V) (k k' : K) (v : V) :
    (m.set k v).get k' = if k' = k then some v else m.get k' :=
  find_put k k' v m.entries

theorem put_found (k : K) (v : V) (l : List (K × V)) (h : (l.find? fun e => e.1 = k).map Prod.snd = some v) :
    put k v l = l := by
  induction l with
  | nil => cases h
  | cons e rest ih =>
    rw [List.find?_cons] at h
    by_cases he : e.1 = k
    · simp only [he, decide_true, Option.map_some, Option.some.injEq] at h
      rw [put, if_pos he, ← h, ← he]
    · simp only [he, decide_false] at h
      rw [put, if_neg he, ih h]

/-- Setting the value that is there changes nothing, the order included. -/
theorem set_get (m : OrdMap K V) (k : K) (v : V) (h : m.get k = some v) : m.set k v = m :=
  OrdMap.ext (put_found k v m.entries h)

@[simp] theorem get_erase (m : OrdMap K V) (k k' : K) :
    (m.erase k).get k' = if k' = k then none else m.get k' := by
  unfold get erase
  rw [List.find?_filter]
  split
  · rename_i h
    subst h
    rw [List.find?_eq_none.mpr (by simp)]
    rfl
  · rename_i h
    congr 2
    funext e
    by_cases he : e.1 = k'
    · simp [he, h]
    · simp [he]

theorem mem_entries_of_get (m : OrdMap K V) (k : K) (v : V) (h : m.get k = some v) : (k, v) ∈ m.entries := by
  simp only [get, Option.map_eq_some_iff] at h
  obtain ⟨e, he, hv⟩ := h
  have hk : e.1 = k := by simpa using List.find?_some he
  have heq : e = (k, v) := by rw [← hk, ← hv]
  exact heq ▸ List.mem_of_find?_eq_some he

theorem get_of_mem_entries (m : OrdMap K V) (k : K) (v : V) (h : (k, v) ∈ m.entries) : m.get k = some v := by
  unfold get
  rw [find_key_of_mem Prod.fst m.entries m.nodup (k, v) h]
  rfl

theorem mem_entries_iff (m : OrdMap K V) (k : K) (v : V) : (k, v) ∈ m.entries ↔ m.get k = some v :=
  ⟨get_of_mem_entries m k v, mem_entries_of_get m k v⟩

theorem get_eq_none_iff (m : OrdMap K V) (k : K) : m.get k = none ↔ k ∉ m.keys := by
  simp only [get, keys, Option.map_eq_none_iff, List.find?_eq_none, decide_eq_true_eq, List.mem_map, not_exists,
    not_and]

theorem has_iff (m : OrdMap K V) (k : K) : m.has k = true ↔ k ∈ m.keys := by
  have h := get_eq_none_iff m k
  cases hg : m.get k with
  | none =>
    rw [hg] at h
    simp [has, hg, h.mp rfl]
  | some v =>
    have hk : k ∈ m.keys := List.mem_map_of_mem (f := Prod.fst) (mem_entries_of_get m k v hg)
    simp [has, hg, hk]

/-! ### Size -/

theorem length_set (m : OrdMap K V) (k : K) (v : V) :
    (m.set k v).entries.length = if k ∈ m.keys then m.entries.length else m.entries.length + 1 := by
  have hkeys := congrArg List.length (put_keys k v m.entries)
  rw [List.length_map] at hkeys
  show (put k v m.entries).length = _
  rw [hkeys, keys]
  split
  · rw [List.length_map]
  · rw [List.length_append, List.length_map, List.length_singleton]

theorem length_erase_le (m : OrdMap K V) (k : K) : (m.erase k).entries.length ≤ m.entries.length :=
  List.length_filter_le _ _

/-! ### Tallies -/

/-- Sum of `q` over the items of `l` whose key is `k`. -/
def sumAt (key : A → K) (q : A → ℤ) (l : List A) (k : K) : ℤ :=
  ((l.filter fun x => key x = k).map q).sum

@[simp] theorem sumAt_nil (key : A → K) (q : A → ℤ) (k : K) : sumAt key q [] k = 0 := rfl

@[simp] theorem sumAt_cons (key : A → K) (q : A → ℤ) (x : A) (l : List A) (k : K) :
    sumAt key q (x :: l) k = (if key x = k then q x else 0) + sumAt key q l k := by
  by_cases h : key x = k <;> simp [sumAt, h]

@[simp] theorem sumAt_append (key : A → K) (q : A → ℤ) (l r : List A) (k : K) :
    sumAt key q (l ++ r) k = sumAt key q l k + sumAt key q r k := by
  simp [sumAt]

theorem sumAt_map {B : Type} (f : B → A) (key : A → K) (q : A → ℤ) (l : List B) (k : K) :
    sumAt key q (l.map f) k = sumAt (fun x => key (f x)) (fun x => q (f x)) l k := by
  induction l with
  | nil => rfl
  | cons x rest ih => simp [ih]

theorem sumAt_congr (key : A → K) (q r : A → ℤ) (l : List A) (k : K) (h : ∀ x ∈ l, key x = k → q x = r x) :
    sumAt key q l k = sumAt key r l k := by
  unfold sumAt
  congr 1
  refine List.map_congr_left fun x hx => h x (List.mem_of_mem_filter hx) ?_
  simpa using List.of_mem_filter hx

theorem sumAt_eq_zero (key : A → K) (q : A → ℤ) (l : List A) (k : K) (h : k ∉ l.map key) :
    sumAt key q l k = 0 := by
  induction l with
  | nil => rfl
  | cons x rest ih =>
    simp only [List.map_cons, List.mem_cons, not_or] at h
    have hx : key x ≠ k := fun e => h.1 e.symm
    simp [hx, ih h.2]

theorem sumAt_nonneg (key : A → K) (q : A → ℤ) (l : List A) (k : K) (h : ∀ x ∈ l, 0 ≤ q x) :
    0 ≤ sumAt key q l k := by
  induction l with
  | nil => exact le_refl 0
  | cons x rest ih =>
    have hx := h x (List.mem_cons_self ..)
    have hrest := ih fun y hy => h y (List.mem_cons_of_mem _ hy)
    simp only [sumAt_cons]
    split <;> omega

/-- With one item per key, the sum is that item's amount. -/
theorem sumAt_of_mem (key : A → K) (q : A → ℤ) (l : List A) (hl : (l.map key).Nodup) (x : A) (hx : x ∈ l) :
    sumAt key q l (key x) = q x := by
  induction l with
  | nil => cases hx
  | cons y rest ih =>
    obtain ⟨hne, hrest⟩ := List.nodup_cons.mp hl
    rcases List.mem_cons.mp hx with h | h
    · subst h
      simp [sumAt_eq_zero key q rest (key x) hne]
    · have hy : key y ≠ key x := fun e => hne (e ▸ List.mem_map_of_mem (f := key) h)
      simp [hy, ih hrest h]

/-- `for (const x of l) totals.set(key x, (totals.get(key x) ?? 0) + q x)`. -/
def tallyInto (key : A → K) (q : A → ℤ) (m : OrdMap K ℤ) (l : List A) : OrdMap K ℤ :=
  l.foldl (fun totals x => totals.set (key x) ((totals.get (key x)).getD 0 + q x)) m

def tally (key : A → K) (q : A → ℤ) (l : List A) : OrdMap K ℤ := tallyInto key q empty l

theorem getD_tallyInto (key : A → K) (q : A → ℤ) (m : OrdMap K ℤ) (l : List A) (k : K) :
    ((tallyInto key q m l).get k).getD 0 = (m.get k).getD 0 + sumAt key q l k := by
  induction l generalizing m with
  | nil => simp [tallyInto]
  | cons x rest ih =>
    have hstep : tallyInto key q m (x :: rest) =
        tallyInto key q (m.set (key x) ((m.get (key x)).getD 0 + q x)) rest := rfl
    rw [hstep, ih, get_set, sumAt_cons]
    by_cases h : key x = k
    · subst h
      simp only [if_true, Option.getD_some]
      omega
    · have h' : k ≠ key x := fun e => h e.symm
      simp [h, h']

theorem get_tallyInto_eq_none (key : A → K) (q : A → ℤ) (m : OrdMap K ℤ) (l : List A) (k : K) :
    (tallyInto key q m l).get k = none ↔ m.get k = none ∧ k ∉ l.map key := by
  induction l generalizing m with
  | nil => simp [tallyInto]
  | cons x rest ih =>
    have hstep : tallyInto key q m (x :: rest) =
        tallyInto key q (m.set (key x) ((m.get (key x)).getD 0 + q x)) rest := rfl
    rw [hstep, ih, get_set]
    by_cases h : k = key x
    · simp [h]
    · simp [h]

theorem getD_tally (key : A → K) (q : A → ℤ) (l : List A) (k : K) :
    ((tally key q l).get k).getD 0 = sumAt key q l k := by
  rw [tally, getD_tallyInto]
  simp

theorem mem_keys_tally (key : A → K) (q : A → ℤ) (l : List A) (k : K) :
    k ∈ (tally key q l).keys ↔ k ∈ l.map key := by
  have h1 := get_eq_none_iff (tally key q l) k
  have h2 := get_tallyInto_eq_none key q empty l k
  rw [← tally, h1] at h2
  simpa using not_congr h2

/-- A tally's entries are the exact sums of the keys that occur. -/
theorem mem_entries_tally (key : A → K) (q : A → ℤ) (l : List A) (k : K) (v : ℤ) :
    (k, v) ∈ (tally key q l).entries ↔ k ∈ l.map key ∧ v = sumAt key q l k := by
  rw [mem_entries_iff]
  have hkeys := mem_keys_tally key q l k
  have hsum := getD_tally key q l k
  have hnone := get_eq_none_iff (tally key q l) k
  rw [hkeys] at hnone
  cases hg : (tally key q l).get k with
  | none =>
    have := hnone.mp hg
    simp [this]
  | some w =>
    have hmem : k ∈ l.map key := by
      by_contra hk
      rw [hnone.mpr hk] at hg
      cases hg
    rw [hg, Option.getD_some] at hsum
    simp only [hmem, true_and, Option.some.injEq, ← hsum]
    exact eq_comm

end OrdMap

end MoeNG.Lib
