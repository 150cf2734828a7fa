import Mathlib.Data.List.Induction
import MoeNG.Lib.Keyed
import MoeNG.Lib.Run

/-!
# Loops that write a map

A loop that refuses a key it has met leaves one entry per item; a loop that
refuses a second value for a key succeeds when all values for a key agree.
-/

namespace MoeNG.Lib

variable {A K V : Type}

def Agree (pairs : List (K × V)) : Prop := ∀ p ∈ pairs, ∀ q ∈ pairs, p.1 = q.1 → p.2 = q.2

theorem Agree.of_subset {pairs pairs' : List (K × V)} (h : Agree pairs) (hsub : ∀ p ∈ pairs', p ∈ pairs) :
    Agree pairs' := fun p hp q hq => h p (hsub p hp) q (hsub q hq)

variable [DecidableEq K] (key : A → K) (val : A → V)

def writeItem (m : OrdMap K V) (x : A) : OrdMap K V := m.set (key x) (val x)

/-! ### Fresh keys -/

theorem keys_writeItem (m : OrdMap K V) (x : A) (h : m.get (key x) = none) :
    (writeItem key val m x).entries = m.entries ++ [(key x, val x)] :=
  put_fresh (key x) (val x) m.entries ((OrdMap.get_eq_none_iff m (key x)).mp h)

theorem fresh_writes (m : OrdMap K V) (l : List A) :
    Along (writeItem key val) (fun m x => m.get (key x) = none) m l ↔ (m.keys ++ l.map key).Nodup := by
  induction l generalizing m with
  | nil => simpa [Along, OrdMap.keys] using m.nodup
  | cons x rest ih =>
    have hsplit : m.keys ++ (x :: rest).map key = m.keys ++ [key x] ++ rest.map key := by simp
    rw [Along, ih, hsplit]
    constructor
    · rintro ⟨hfresh, hrest⟩
      rwa [OrdMap.keys, keys_writeItem key val m x hfresh, List.map_append] at hrest
    · intro h
      have hfresh : m.get (key x) = none := by
        rw [OrdMap.get_eq_none_iff]
        exact fun hmem => (List.disjoint_of_nodup_append (List.nodup_append.mp h).1) hmem (List.mem_singleton_self _)
      refine ⟨hfresh, ?_⟩
      rwa [OrdMap.keys, keys_writeItem key val m x hfresh, List.map_append]

theorem run_fresh_writes (m : OrdMap K V) (l : List A) (h : (m.keys ++ l.map key).Nodup) :
    (run (writeItem key val) m l).entries = m.entries ++ l.map fun x => (key x, val x) := by
  have halong := (fresh_writes key val m l).mpr h
  clear h
  induction l generalizing m with
  | nil => simp
  | cons x rest ih =>
    rw [run_cons, ih _ halong.2, keys_writeItem key val m x halong.1]
    simp

section Fallible
variable {ε : Type} {key} {Made : A → V → Prop}

/-- A map with one entry for every item of a list, its value made from that item. -/
structure Filled (key : A → K) (Made : A → V → Prop) (l : List A) (m : OrdMap K V) : Prop where
  distinct : (l.map key).Nodup
  found : ∀ k v, m.get k = some v → ∃ x ∈ l, key x = k ∧ Made x v
  all : ∀ x ∈ l, ∃ v, m.get (key x) = some v ∧ Made x v

theorem Filled.empty : Filled key Made [] OrdMap.empty := ⟨List.nodup_nil, nofun, nofun⟩

theorem Filled.step {l : List A} {m : OrdMap K V} (h : Filled key Made l m) {x : A} {v : V} (hfresh : m.has (key x) = false)
    (hmade : Made x v) : Filled key Made (l ++ [x]) (m.set (key x) v) := by
  have hnone : m.get (key x) = none := by
    rw [OrdMap.has] at hfresh
    exact Option.isSome_eq_false_iff.mp hfresh |> Option.isNone_iff_eq_none.mp
  have hother : ∀ y ∈ l, key y ≠ key x := by
    intro y hy heq
    obtain ⟨w, hw, -⟩ := h.all y hy
    rw [heq, hnone] at hw
    cases hw
  refine ⟨?_, fun k w hk => ?_, fun y hy => ?_⟩
  · rw [List.map_append, List.map_singleton, List.nodup_append]
    refine ⟨h.distinct, List.nodup_singleton _, fun a ha b hb => ?_⟩
    obtain ⟨y, hy, rfl⟩ := List.mem_map.mp ha
    rw [List.mem_singleton.mp hb]
    exact hother y hy
  · rw [OrdMap.get_set] at hk
    split at hk
    · rename_i heq
      obtain rfl := Option.some.inj hk
      exact ⟨x, List.mem_append_right _ (List.mem_singleton_self x), heq.symm, hmade⟩
    · obtain ⟨y, hy, hkey, hw⟩ := h.found k w hk
      exact ⟨y, List.mem_append_left _ hy, hkey, hw⟩
  · rcases List.mem_append.mp hy with hy | hy
    · obtain ⟨w, hw, hmade'⟩ := h.all y hy
      exact ⟨w, by rw [OrdMap.get_set, if_neg (hother y hy), hw], hmade'⟩
    · rw [List.mem_singleton.mp hy]
      exact ⟨v, by rw [OrdMap.get_set, if_pos rfl], hmade⟩

/-- A loop that refuses a key it has met fills a map. -/
theorem Filled.foldlM {step : OrdMap K V → A → Except ε (OrdMap K V)}
    (hstep : ∀ m x m', step m x = .ok m' → m.has (key x) = false ∧ ∃ v, Made x v ∧ m' = m.set (key x) v)
    (rest : List A) {l : List A} {m m' : OrdMap K V} (h : Filled key Made l m) (hrun : rest.foldlM step m = .ok m') :
    Filled key Made (l ++ rest) m' := by
  induction rest generalizing l m with
  | nil =>
    obtain rfl := Except.ok.inj hrun
    rwa [List.append_nil]
  | cons x rest ih =>
    rw [List.foldlM_cons] at hrun
    obtain ⟨mid, hmid, hrun⟩ := except_bind_ok _ _ _ hrun
    obtain ⟨hfresh, v, hmade, rfl⟩ := hstep m x mid hmid
    have hrest := ih (h.step hfresh hmade) hrun
    rwa [List.append_assoc, List.singleton_append] at hrest

end Fallible

/-! ### Agreeing values -/

theorem agree_entries (m : OrdMap K V) : Agree m.entries := by
  intro p hp q hq hkey
  have hpget := OrdMap.get_of_mem_entries m p.1 p.2 hp
  rw [hkey, OrdMap.get_of_mem_entries m q.1 q.2 hq] at hpget
  exact (Option.some.inj hpget).symm

theorem agreeing_writes (m : OrdMap K V) (l : List A) :
    Along (writeItem key val) (fun m x => (m.get (key x)).getD (val x) = val x) m l
      ↔ Agree (m.entries ++ l.map fun x => (key x, val x)) := by
  induction l generalizing m with
  | nil => simpa [Along] using agree_entries m
  | cons x rest ih =>
    have hsame (h : (m.get (key x)).getD (val x) = val x) :
        ∀ p, p ∈ (writeItem key val m x).entries ++ rest.map (fun y => (key y, val y))
          ↔ p ∈ m.entries ++ (x :: rest).map fun y => (key y, val y) := by
      intro p
      have hentry : p ∈ (writeItem key val m x).entries ↔ p ∈ m.entries ∨ p = (key x, val x) := by
        rw [OrdMap.mem_entries_iff, OrdMap.mem_entries_iff, writeItem, OrdMap.get_set]
        by_cases hkey : p.1 = key x
        · rw [if_pos hkey, Prod.ext_iff, hkey]
          cases hget : m.get (key x) with
          | none => simp [eq_comm]
          | some v =>
            rw [hget, Option.getD_some] at h
            simp [h, eq_comm]
        · rw [if_neg hkey, Prod.ext_iff]
          simp [hkey]
      rw [List.mem_append, List.mem_append, List.map_cons, List.mem_cons, hentry]
      tauto
    rw [Along, ih]
    constructor
    · rintro ⟨hx, hrest⟩
      exact hrest.of_subset fun p hp => (hsame hx p).mpr hp
    · intro h
      have hx : (m.get (key x)).getD (val x) = val x := by
        cases hget : m.get (key x) with
        | none => rfl
        | some v =>
          exact h (key x, v) (List.mem_append_left _ (OrdMap.mem_entries_of_get m _ _ hget)) (key x, val x)
            (List.mem_append_right _ (List.mem_cons_self ..)) rfl
      exact ⟨hx, h.of_subset fun p hp => (hsame hx p).mp hp⟩

end MoeNG.Lib

/-!
## Maps that keep the last declaration

A later declaration under a key replaces the earlier one. Where each
declaration stands in a transitive relation to the one it replaces, it does so
to every earlier one, and what the map holds does so to every declaration.
-/

namespace MoeNG.Lib

variable {A K V : Type} [DecidableEq K] (key : A → K) (val : A → V) (R : V → V → Prop)

/-- What the map holds under a key stands in `R` to the declaration that replaces it. -/
def Redeclares (m : OrdMap K V) (a : A) : Prop := ∀ v, m.get (key a) = some v → R v (val a)

def declarations (l : List A) : OrdMap K V := run (writeItem key val) OrdMap.empty l

theorem declarations_snoc (l : List A) (a : A) :
    declarations key val (l ++ [a]) = (declarations key val l).set (key a) (val a) := run_append _ _ l [a]

/-- What the map holds is the last declaration under the key. -/
theorem declarations_get_iff (l : List A) (k : K) (v : V) : (declarations key val l).get k = some v ↔
    ∃ front a back, l = front ++ a :: back ∧ key a = k ∧ val a = v ∧ ∀ b ∈ back, key b ≠ k := by
  induction l using List.reverseRecOn with
  | nil => simp [declarations]
  | append_singleton l c ih =>
    rw [declarations_snoc, OrdMap.get_set]
    split
    · rename_i hk
      constructor
      · intro h
        exact ⟨l, c, [], rfl, hk.symm, Option.some.inj h, fun b hb => absurd hb List.not_mem_nil⟩
      · rintro ⟨front, a, back, hsplit, -, hval, hback⟩
        -- the last item itself has the key, so nothing stands behind `a`
        cases back using List.reverseRecOn with
        | nil =>
          obtain ⟨-, hc⟩ := List.append_inj' hsplit rfl
          rw [(List.cons.inj hc).1, hval]
        | append_singleton back b =>
          rw [← List.cons_append, ← List.append_assoc] at hsplit
          obtain ⟨-, hc⟩ := List.append_inj' hsplit rfl
          exact absurd ((congrArg key (List.cons.inj hc).1).symm.trans hk.symm)
            (hback b (List.mem_append_right _ (List.mem_singleton_self b)))
    · rename_i hk
      rw [ih]
      constructor
      · rintro ⟨front, a, back, rfl, hkey, hval, hback⟩
        refine ⟨front, a, back ++ [c], by simp, hkey, hval, fun b hb => ?_⟩
        rcases List.mem_append.mp hb with hb | hb
        · exact hback b hb
        · rw [List.mem_singleton.mp hb]
          exact Ne.symm hk
      · rintro ⟨front, a, back, hsplit, hkey, hval, hback⟩
        cases back using List.reverseRecOn with
        | nil =>
          obtain ⟨-, hc⟩ := List.append_inj' hsplit rfl
          exact absurd (hkey.symm.trans (congrArg key (List.cons.inj hc).1).symm) hk
        | append_singleton back b =>
          rw [← List.cons_append, ← List.append_assoc] at hsplit
          obtain ⟨hl, -⟩ := List.append_inj' hsplit rfl
          exact ⟨front, a, back, hl, hkey, hval, fun b' hb' => hback b' (List.mem_append_left _ hb')⟩

theorem declarations_sourced (l : List A) (k : K) (v : V) (h : (declarations key val l).get k = some v) :
    ∃ a ∈ l, key a = k ∧ val a = v := by
  obtain ⟨front, a, back, rfl, hkey, hval, -⟩ := (declarations_get_iff key val l k v).mp h
  exact ⟨a, List.mem_append_right _ (List.mem_cons_self ..), hkey, hval⟩

theorem declarations_keep {l : List A} (h : l.Pairwise fun a b => key a = key b → R (val a) (val b)) (a : A) (ha : a ∈ l) :
    ∃ v, (declarations key val l).get (key a) = some v ∧ (v = val a ∨ R (val a) v) := by
  induction l using List.reverseRecOn with
  | nil => cases ha
  | append_singleton l b ih =>
    obtain ⟨hl, -, hlast⟩ := List.pairwise_append.mp h
    rw [declarations_snoc, OrdMap.get_set]
    rcases List.mem_append.mp ha with ha | ha
    · by_cases hkey : key a = key b
      · exact ⟨val b, if_pos hkey, Or.inr (hlast a ha b (List.mem_singleton_self b) hkey)⟩
      · rw [if_neg hkey]
        exact ih hl ha
    · rw [List.mem_singleton.mp ha]
      exact ⟨val b, if_pos rfl, Or.inl rfl⟩

theorem redeclares_iff_pairwise (htrans : ∀ u v w, R u v → R v w → R u w) (l : List A) :
    Along (writeItem key val) (Redeclares key val R) OrdMap.empty l ↔
      l.Pairwise fun a b => key a = key b → R (val a) (val b) := by
  induction l using List.reverseRecOn with
  | nil => simp [Along]
  | append_singleton l a ih =>
    rw [Along.append_iff, ih, List.pairwise_append]
    refine and_congr_right fun hl => ?_
    simp only [Along, and_true, List.pairwise_singleton, List.mem_singleton, forall_eq, true_and]
    constructor
    · intro hlast b hb hkey
      obtain ⟨v, hv, hkept⟩ := declarations_keep key val R hl b hb
      have hva := hlast v (hkey ▸ hv)
      rcases hkept with rfl | hbv
      · exact hva
      · exact htrans _ _ _ hbv hva
    · intro hall v hv
      obtain ⟨b, hb, hkey, rfl⟩ := declarations_sourced key val l (key a) v hv
      exact hall b hb hkey

end MoeNG.Lib
