import MoeNG.Lib.Reach

/-!
# Looking for a cycle depth first

A search keeps the vertices it is visiting, each of which leads to the one it
looks at, and those it has left, from which no cycle is reached. It finds a
vertex that it is visiting exactly when there is a cycle.
-/

namespace MoeNG.Lib

variable {A : Type}

structure Search (A : Type) where
  visiting : List A
  visited : List A

/-- The vertices in turn, until one of them is on a cycle. -/
def exploreAll (explore : Search A → A → Option (Bool × Search A)) : Search A → List A → Option (Bool × Search A)
  | s, [] => some (false, s)
  | s, a :: rest => (explore s a).bind fun (found, s) => if found then some (true, s) else exploreAll explore s rest

def explore [DecidableEq A] (out : A → List A) : ℕ → Search A → A → Option (Bool × Search A)
  | 0, _, _ => none
  | fuel + 1, s, a =>
    if a ∈ s.visiting then some (true, s)
    else if a ∈ s.visited then some (false, s)
    else (exploreAll (explore out fuel) { s with visiting := a :: s.visiting } (out a)).map fun (found, s) =>
      (found, if found then s else ⟨s.visiting.erase a, a :: s.visited⟩)

variable {out : A → List A}

/-- No descent from a vertex goes on for ever, so none comes back to it. -/
theorem not_precedes_self {a : A} (h : Acc (fun u v => u ∈ out v) a) : ¬ Precedes out a a := by
  induction h with
  | intro a _ ih =>
    intro hcycle
    obtain ⟨b, hab, hba⟩ := Relation.TransGen.head'_iff.mp hcycle
    exact ih b hab (Relation.TransGen.tail' hba hab)

/-- The vertices visited lead to `a`, and from those left no cycle is reached. -/
structure Sound (out : A → List A) (s : Search A) (a : A) : Prop where
  path : ∀ p ∈ s.visiting, Precedes out p a
  left : ∀ v ∈ s.visited, Acc (fun u v => u ∈ out v) v

/-- What an exploration tells: a cycle, or that none is reached from the vertices asked for. -/
structure Told (out : A → List A) (s : Search A) (asked : List A) (found : Bool) (s' : Search A) : Prop where
  cycle : found = true → ∃ x, Precedes out x x
  visiting : found = false → s'.visiting = s.visiting
  left : found = false → ∀ v ∈ s'.visited, Acc (fun u v => u ∈ out v) v
  grows : found = false → ∀ v ∈ s.visited, v ∈ s'.visited
  asked : found = false → ∀ v ∈ asked, v ∈ s'.visited

theorem exploreAll_told (explore : Search A → A → Option (Bool × Search A))
    (hexplore : ∀ s a found s', Sound out s a → explore s a = some (found, s') → Told out s [a] found s') (asked : List A)
    (s : Search A) (found : Bool) (s' : Search A) (hsound : ∀ a ∈ asked, Sound out s a)
    (hleft : ∀ v ∈ s.visited, Acc (fun u v => u ∈ out v) v) (h : exploreAll explore s asked = some (found, s')) :
    Told out s asked found s' := by
  induction asked generalizing s with
  | nil =>
    obtain ⟨rfl, rfl⟩ := Prod.mk.inj (Option.some.inj h)
    exact ⟨nofun, fun _ => rfl, fun _ => hleft, fun _ _ hv => hv, fun _ => nofun⟩
  | cons a rest ih =>
    obtain ⟨ha, hrest⟩ := List.forall_mem_cons.mp hsound
    obtain ⟨⟨foundFirst, mid⟩, hfirst, h⟩ := Option.bind_eq_some_iff.mp h
    have htold := hexplore s a foundFirst mid ha hfirst
    cases foundFirst with
    | true =>
      obtain ⟨rfl, rfl⟩ := Prod.mk.inj (Option.some.inj h)
      exact ⟨fun _ => htold.cycle rfl, nofun, nofun, nofun, nofun⟩
    | false =>
      have hvisiting := htold.visiting rfl
      have hmid := htold.left rfl
      have htail := ih mid (fun b hb => ⟨by rw [hvisiting]; exact (hrest b hb).path, hmid⟩) hmid h
      refine ⟨htail.cycle, fun hf => (htail.visiting hf).trans hvisiting, htail.left,
        fun hf v hv => htail.grows hf v (htold.grows rfl v hv), fun hf => List.forall_mem_cons.mpr ⟨?_, htail.asked hf⟩⟩
      exact htail.grows hf a (htold.asked rfl a (List.mem_singleton_self a))

theorem explore_told [DecidableEq A] (fuel : ℕ) (s : Search A) (a : A) (found : Bool) (s' : Search A) (hsound : Sound out s a)
    (h : explore out fuel s a = some (found, s')) : Told out s [a] found s' := by
  induction fuel generalizing s a found s' with
  | zero => cases h
  | succ fuel ih =>
    unfold explore at h
    split_ifs at h with hvisiting hvisited
    · obtain ⟨rfl, rfl⟩ := Prod.mk.inj (Option.some.inj h)
      exact ⟨fun _ => ⟨a, hsound.path a hvisiting⟩, nofun, nofun, nofun, nofun⟩
    · obtain ⟨rfl, rfl⟩ := Prod.mk.inj (Option.some.inj h)
      exact ⟨nofun, fun _ => rfl, fun _ => hsound.left, fun _ _ hv => hv,
        fun _ => List.forall_mem_singleton.mpr hvisited⟩
    · obtain ⟨⟨foundOut, mid⟩, hall, heq⟩ := Option.map_eq_some_iff.mp h
      obtain ⟨rfl, rfl⟩ : foundOut = found ∧ (if foundOut then mid else ⟨mid.visiting.erase a, a :: mid.visited⟩) = s' :=
        Prod.mk.inj heq
      have hbelow : ∀ b ∈ out a, Sound out { s with visiting := a :: s.visiting } b := fun b hb =>
        ⟨List.forall_mem_cons.mpr ⟨.single hb, fun p hp => (hsound.path p hp).tail hb⟩, hsound.left⟩
      have htold := exploreAll_told (explore out fuel) ih (out a) _ foundOut mid hbelow hsound.left hall
      cases foundOut with
      | true => exact ⟨fun _ => htold.cycle rfl, nofun, nofun, nofun, nofun⟩
      | false =>
        have hmid := htold.left rfl
        have hacc : Acc (fun u v => u ∈ out v) a := .intro a fun b hb => hmid b (htold.asked rfl b hb)
        refine ⟨nofun, fun _ => ?_, fun _ => List.forall_mem_cons.mpr ⟨hacc, hmid⟩,
          fun _ v hv => List.mem_cons_of_mem _ (htold.grows rfl v hv),
            fun _ => List.forall_mem_singleton.mpr (List.mem_cons_self ..)⟩
        show mid.visiting.erase a = s.visiting
        rw [htold.visiting rfl, List.erase_cons_head]

/-! ### The search ends -/

/-- How many of the vertices with arcs are not being visited. -/
def unvisited [DecidableEq A] (all : List A) (s : Search A) : ℕ := (all.filter fun v => v ∉ s.visiting).length

theorem unvisited_lt [DecidableEq A] (all : List A) (s : Search A) (a : A) (ha : a ∈ all) (hnew : a ∉ s.visiting) :
    unvisited all { s with visiting := a :: s.visiting } < unvisited all s := by
  have hfilter : (all.filter fun v => v ∉ a :: s.visiting) = (all.filter fun v => v ∉ s.visiting).filter fun v => v ≠ a := by
    rw [List.filter_filter]
    refine List.filter_congr fun v _ => ?_
    simp only [List.mem_cons, not_or, Bool.decide_and]
  unfold unvisited
  rw [hfilter]
  refine Nat.lt_of_le_of_ne (List.length_filter_le _ _) fun heq => ?_
  have hkept := List.length_filter_eq_length_iff.mp heq a (List.mem_filter.mpr ⟨ha, decide_eq_true hnew⟩)
  exact of_decide_eq_true hkept rfl

theorem exploreAll_isSome (explore : Search A → A → Option (Bool × Search A)) (visiting : List A)
    (hexplore : ∀ s a, s.visiting = visiting → (explore s a).isSome = true)
    (hkeep : ∀ s a s', explore s a = some (false, s') → s'.visiting = s.visiting) (asked : List A) (s : Search A)
    (hs : s.visiting = visiting) : (exploreAll explore s asked).isSome = true := by
  induction asked generalizing s with
  | nil => rfl
  | cons a rest ih =>
    obtain ⟨⟨found, mid⟩, hfirst⟩ := Option.isSome_iff_exists.mp (hexplore s a hs)
    rw [exploreAll, hfirst, Option.bind_some]
    cases found with
    | true => rfl
    | false => exact ih mid ((hkeep s a mid hfirst).trans hs)

theorem exploreAll_keeps (explore : Search A → A → Option (Bool × Search A))
    (hkeep : ∀ s a s', explore s a = some (false, s') → s'.visiting = s.visiting) (asked : List A) (s s' : Search A)
    (h : exploreAll explore s asked = some (false, s')) : s'.visiting = s.visiting := by
  induction asked generalizing s with
  | nil => exact congrArg Search.visiting (Prod.mk.inj (Option.some.inj h)).2.symm
  | cons a rest ih =>
    obtain ⟨⟨found, mid⟩, hfirst, h⟩ := Option.bind_eq_some_iff.mp h
    cases found with
    | true => cases h
    | false => exact (ih mid h).trans (hkeep s a mid hfirst)

theorem explore_keeps [DecidableEq A] (fuel : ℕ) (s : Search A) (a : A) (s' : Search A)
    (h : explore out fuel s a = some (false, s')) :
    s'.visiting = s.visiting := by
  induction fuel generalizing s a s' with
  | zero => cases h
  | succ fuel ih =>
    unfold explore at h
    split_ifs at h
    · cases h
    · exact congrArg Search.visiting (Prod.mk.inj (Option.some.inj h)).2.symm
    · obtain ⟨⟨found, mid⟩, hall, heq⟩ := Option.map_eq_some_iff.mp h
      obtain ⟨rfl, hs'⟩ : found = false ∧ (if found then mid else ⟨mid.visiting.erase a, a :: mid.visited⟩) = s' :=
        Prod.mk.inj heq
      rw [← hs']
      show mid.visiting.erase a = s.visiting
      rw [exploreAll_keeps (explore out fuel) ih (out a) _ mid hall, List.erase_cons_head]

theorem explore_isSome [DecidableEq A] (all : List A) (hall : ∀ a, out a ≠ [] → a ∈ all) (fuel : ℕ) (s : Search A) (a : A)
    (hfuel : unvisited all s < fuel) : (explore out fuel s a).isSome = true := by
  induction fuel generalizing s a with
  | zero => cases hfuel
  | succ fuel ih =>
    unfold explore
    split_ifs with hvisiting hvisited
    · rfl
    · rfl
    · rw [Option.isSome_map]
      by_cases hout : out a = []
      · rw [hout]
        rfl
      · refine exploreAll_isSome (explore out fuel) (a :: s.visiting) (fun s' b hs' => ih s' b ?_) (explore_keeps fuel)
          (out a) _ rfl
        have hlt := unvisited_lt all s a (hall a hout) hvisiting
        have hsame : unvisited all s' = unvisited all { s with visiting := a :: s.visiting } := by
          unfold unvisited
          rw [hs']
        omega

/-- A search from all the vertices with arcs finds a vertex it is visiting exactly when there is a cycle. -/
theorem exploreAll_iff [DecidableEq A] (all : List A) (hall : ∀ a, out a ≠ [] → a ∈ all) (fuel : ℕ) (hfuel : all.length < fuel) :
    ((exploreAll (explore out fuel) ⟨[], []⟩ all).map Prod.fst).getD true = true ↔ ∃ x, Precedes out x x := by
  have hunvisited (s : Search A) : unvisited all s < fuel := Nat.lt_of_le_of_lt (List.length_filter_le _ _) hfuel
  have hsome := exploreAll_isSome (explore out fuel) [] (fun s a _ => explore_isSome all hall fuel s a (hunvisited s))
    (explore_keeps fuel)
    all ⟨[], []⟩ rfl
  obtain ⟨⟨found, s⟩, hsearch⟩ := Option.isSome_iff_exists.mp hsome
  have htold := exploreAll_told (explore out fuel) (explore_told fuel) all ⟨[], []⟩ found s
    (fun _ _ => ⟨nofun, nofun⟩) nofun hsearch
  rw [hsearch]
  show found = true ↔ _
  refine ⟨htold.cycle, fun ⟨x, hx⟩ => ?_⟩
  by_contra hfound
  have hfalse : found = false := by simpa using hfound
  obtain ⟨y, hy, -⟩ := Relation.TransGen.head'_iff.mp hx
  exact not_precedes_self (htold.left hfalse x (htold.asked hfalse x (hall x (List.ne_nil_of_mem hy)))) hx

end MoeNG.Lib
