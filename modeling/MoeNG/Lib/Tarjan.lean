import Mathlib.Algebra.Order.Group.Int
import Mathlib.Algebra.Ring.Int.Defs
import Mathlib.Data.List.Nodup
import Mathlib.Logic.Function.Basic
import Mathlib.Tactic.Common
import MoeNG.Lib.Reach

/-!
# Strongly connected components by one depth-first search

The search numbers the vertices it meets and keeps those whose component is
still open on a stack. A path of frames leads to the current vertex; a frame
holds the heads that were examined at its vertex. When everything at a vertex
is examined and nothing below it on the stack is known to be reachable, what
stands above it on the stack is its component.
-/

namespace MoeNG.Lib

variable {A : Type}

/-- An arc whose head was looked at: every one of a vertex that has no frame. -/
def Examined (out : A → List A) (frames : List (A × List A)) (u v : A) : Prop :=
  v ∈ out u ∧ ∀ f ∈ frames, f.1 = u → v ∈ f.2

structure Walk (out : A → List A) (number low : A → ℤ) (counter : ℤ) (stack : List A) (frames : List (A × List A)) :
    Prop where
  counted : ∀ x ∈ stack, 0 ≤ number x ∧ number x < counter
  sorted : stack.Pairwise fun a b => number b < number a
  path : (frames.map Prod.fst).Sublist stack
  met : ∀ x ∈ stack, ∀ w, Examined out frames x w → 0 ≤ number w
  closed : ∀ x, 0 ≤ number x → x ∉ stack → ∀ w ∈ out x, 0 ≤ number w ∧ w ∉ stack
  low_le : ∀ x ∈ stack, low x ≤ number x
  low_reach : ∀ x ∈ stack, ∃ w ∈ stack, number w = low x ∧ Reaches out x w
  low_lt : ∀ x ∈ stack, x ∉ frames.map Prod.fst → low x < number x
  covered : ∀ above p below, frames.map Prod.fst = above ++ p :: below → ∀ x ∈ stack, number p ≤ number x →
    ∀ w ∈ stack, Examined out frames x w → ∃ q ∈ above ++ [p], low q ≤ number w
  reach : ∀ p ∈ frames.map Prod.fst, ∀ x ∈ stack, number p ≤ number x → Reaches out p x

namespace Walk

variable {out : A → List A} {number low : A → ℤ} {counter : ℤ} {stack : List A} {frames rest : List (A × List A)}
  {v w : A} {done todo : List A}

theorem nodup (h : Walk out number low counter stack frames) : stack.Nodup :=
  h.sorted.imp fun hlt heq => by rw [heq] at hlt; exact lt_irrefl _ hlt

theorem path_mem (h : Walk out number low counter stack frames) (p : A) (hp : p ∈ frames.map Prod.fst) : p ∈ stack :=
  h.path.subset hp

/-- The bottom of the stack is on the path. -/
theorem bottom_mem (h : Walk out number low counter stack frames) (front : List A) (x : A) (hstack : stack = front ++ [x]) :
    x ∈ frames.map Prod.fst := by
  have hx : x ∈ stack := hstack ▸ List.mem_append_right _ (List.mem_singleton_self x)
  by_contra hnot
  have hlt := h.low_lt x hx hnot
  obtain ⟨w, hw, hnumber, -⟩ := h.low_reach x hx
  have hsorted := h.sorted
  rw [hstack] at hw hsorted
  rcases List.mem_append.mp hw with hw | hw
  · have hgt := (List.pairwise_append.mp hsorted).2.2 w hw x (List.mem_singleton_self x)
    omega
  · obtain rfl := List.mem_singleton.mp hw
    omega

/-- With no frame left the stack is empty. -/
theorem stack_nil (h : Walk out number low counter stack []) : stack = [] := by
  rcases List.eq_nil_or_concat stack with hnil | ⟨front, x, hstack⟩
  · exact hnil
  · rw [List.concat_eq_append] at hstack
    exact absurd (h.bottom_mem front x hstack) List.not_mem_nil

/-- With one frame left its vertex is the bottom of the stack. -/
theorem root_low (h : Walk out number low counter stack [(v, done)]) : low v = number v := by
  have hv : v ∈ stack := h.path_mem v (List.mem_singleton_self v)
  rcases List.eq_nil_or_concat stack with hnil | ⟨front, x, hstack⟩
  · rw [hnil] at hv
    cases hv
  rw [List.concat_eq_append] at hstack
  obtain rfl := List.mem_singleton.mp (h.bottom_mem front x hstack)
  obtain ⟨w, hw, hnumber, -⟩ := h.low_reach x hv
  have hle := h.low_le x hv
  have hsorted := h.sorted
  rw [hstack] at hw hsorted
  rcases List.mem_append.mp hw with hw | hw
  · have hgt := (List.pairwise_append.mp hsorted).2.2 w hw x (List.mem_singleton_self x)
    omega
  · obtain rfl := List.mem_singleton.mp hw
    exact hnumber.symm

/-- The vertices of the path stand in the order of their numbers. -/
theorem below_lt (h : Walk out number low counter stack ((v, done) :: rest)) (p : A) (hp : p ∈ rest.map Prod.fst) :
    number p < number v :=
  (List.pairwise_cons.mp (h.sorted.sublist h.path)).1 p hp

/-! ### A vertex is met -/

/-- The new vertex is a root or the head that the top frame just came to. -/
structure Entering (out : A → List A) (frames frames' : List (A × List A)) (w : A) : Prop where
  path : frames'.map Prod.fst = frames.map Prod.fst
  examined : ∀ x u, Examined out frames' x u → Examined out frames x u ∨ u = w
  arc : ∀ f ∈ frames.head?, w ∈ out f.1

theorem enter [DecidableEq A] {frames' : List (A × List A)} (h : Walk out number low counter stack frames)
    (hnew : number w = -1) (hcounter : 0 ≤ counter) (hentering : Entering out frames frames' w) :
    Walk out (Function.update number w counter) (Function.update low w counter) (counter + 1) (w :: stack)
      ((w, []) :: frames') := by
  have hfresh : w ∉ stack := fun hw => by
    have hpos := (h.counted w hw).1
    omega
  have hnumber : ∀ x ∈ stack, Function.update number w counter x = number x := fun x hx =>
    Function.update_of_ne (fun heq : x = w => hfresh (heq ▸ hx)) _ _
  have hlow : ∀ x ∈ stack, Function.update low w counter x = low x := fun x hx =>
    Function.update_of_ne (fun heq : x = w => hfresh (heq ▸ hx)) _ _
  have hself : Function.update number w counter w = counter := Function.update_self ..
  have hselfLow : Function.update low w counter w = counter := Function.update_self ..
  have hkeep : ∀ x, 0 ≤ number x → 0 ≤ Function.update number w counter x := by
    intro x hx
    by_cases hxw : x = w
    · rw [hxw, hself]
      exact hcounter
    · rwa [Function.update_of_ne hxw]
  have hexamined : ∀ x ∈ stack, ∀ u, Examined out ((w, []) :: frames') x u → Examined out frames x u ∨ u = w := by
    intro x _ u hex
    exact hentering.examined x u ⟨hex.1, fun f hf hfx => hex.2 f (List.mem_cons_of_mem _ hf) hfx⟩
  have hempty : ∀ u, ¬ Examined out ((w, []) :: frames') w u := fun u hex =>
    List.not_mem_nil (hex.2 (w, []) (List.mem_cons_self ..) rfl)
  have hreach : ∀ p ∈ frames.map Prod.fst, Reaches out p w := by
    intro p hp
    cases frames with
    | nil => cases hp
    | cons top rest =>
      have htop := h.path_mem top.1 (List.mem_cons_self ..)
      have hpt : Reaches out p top.1 := by
        refine h.reach p hp top.1 htop ?_
        rcases List.mem_cons.mp hp with rfl | hp
        · exact le_refl _
        · exact (h.below_lt p hp).le
      exact hpt.tail (hentering.arc top rfl)
  refine ⟨?_, ?_, ?_, ?_, ?_, ?_, ?_, ?_, ?_, ?_⟩
  · intro x hx
    rcases List.mem_cons.mp hx with rfl | hx
    · rw [hself]
      exact ⟨hcounter, by omega⟩
    · have hc := h.counted x hx
      rw [hnumber x hx]
      omega
  · refine List.pairwise_cons.mpr ⟨fun x hx => ?_, h.sorted.imp_of_mem fun {a b} ha hb hab => ?_⟩
    · rw [hself, hnumber x hx]
      exact (h.counted x hx).2
    · rwa [hnumber a ha, hnumber b hb]
  · rw [List.map_cons, hentering.path]
    exact h.path.cons_cons w
  · intro x hx u hex
    rcases List.mem_cons.mp hx with rfl | hx
    · exact absurd hex (hempty u)
    · rcases hexamined x hx u hex with hold | rfl
      · exact hkeep u (h.met x hx u hold)
      · rw [hself]
        exact hcounter
  · intro x hx hnot u hu
    rw [List.mem_cons, not_or] at hnot
    rw [Function.update_of_ne hnot.1] at hx
    obtain ⟨hmet, hclosed⟩ := h.closed x hx hnot.2 u hu
    refine ⟨hkeep u hmet, fun hmem => ?_⟩
    rcases List.mem_cons.mp hmem with rfl | hmem
    · omega
    · exact hclosed hmem
  · intro x hx
    rcases List.mem_cons.mp hx with rfl | hx
    · rw [hself, hselfLow]
    · rw [hnumber x hx, hlow x hx]
      exact h.low_le x hx
  · intro x hx
    rcases List.mem_cons.mp hx with rfl | hx
    · exact ⟨x, List.mem_cons_self .., by rw [hself, hselfLow], Relation.ReflTransGen.refl⟩
    · obtain ⟨u, hu, hnu, hru⟩ := h.low_reach x hx
      exact ⟨u, List.mem_cons_of_mem _ hu, by rw [hnumber u hu, hlow x hx, hnu], hru⟩
  · intro x hx hnot
    rw [List.map_cons, List.mem_cons, not_or, hentering.path] at hnot
    have hx := (List.mem_cons.mp hx).resolve_left hnot.1
    rw [hnumber x hx, hlow x hx]
    exact h.low_lt x hx hnot.2
  · intro above p below hpath x hx hle u hu hex
    rw [List.map_cons, hentering.path] at hpath
    rcases List.mem_cons.mp hx with rfl | hx
    · exact absurd hex (hempty u)
    rw [hnumber x hx] at hle
    cases above with
    | nil =>
      obtain ⟨rfl, -⟩ := List.cons.inj hpath
      have hc := (h.counted x hx).2
      rw [hself] at hle
      omega
    | cons first above =>
      obtain ⟨-, hpath⟩ := List.cons.inj hpath
      have hp : p ∈ stack := h.path_mem p (hpath ▸ List.mem_append_right _ (List.mem_cons_self ..))
      rw [hnumber p hp] at hle
      rcases List.mem_cons.mp hu with rfl | hu
      · refine ⟨p, List.mem_append_right _ (List.mem_singleton_self p), ?_⟩
        rw [hlow p hp, hself]
        exact (h.low_le p hp).trans (h.counted p hp).2.le
      · have hne : u ≠ w := fun heq => hfresh (heq ▸ hu)
        obtain ⟨q, hq, hlowq⟩ := h.covered above p below hpath x hx hle u hu ((hexamined x hx u hex).resolve_right hne)
        have hqs : q ∈ stack := by
          refine h.path_mem q (hpath ▸ ?_)
          rcases List.mem_append.mp hq with hq | hq
          · exact List.mem_append_left _ hq
          · obtain rfl := List.mem_singleton.mp hq
            exact List.mem_append_right _ (List.mem_cons_self ..)
        exact ⟨q, List.mem_cons_of_mem _ hq, by rwa [hlow q hqs, hnumber u hu]⟩
  · intro p hp x hx hle
    rw [List.map_cons, hentering.path] at hp
    rcases List.mem_cons.mp hp with rfl | hpath
    · rcases List.mem_cons.mp hx with rfl | hx
      · exact Relation.ReflTransGen.refl
      · have hc := (h.counted x hx).2
        rw [hself, hnumber x hx] at hle
        omega
    · rcases List.mem_cons.mp hx with rfl | hx
      · exact hreach p hpath
      · rw [hnumber x hx, hnumber p (h.path_mem p hpath)] at hle
        exact h.reach p hpath x hx hle

/-! ### A head that was met before -/

theorem examine [DecidableEq A] (h : Walk out number low counter stack ((v, done) :: rest)) (hout : out v = done ++ w :: todo)
    (hmet : 0 ≤ number w) :
    Walk out number (if w ∈ stack then Function.update low v (min (low v) (number w)) else low) counter stack
      ((v, done ++ [w]) :: rest) := by
  have hv : v ∈ stack := h.path_mem v (List.mem_cons_self ..)
  have hw : w ∈ out v := hout ▸ List.mem_append_right _ (List.mem_cons_self ..)
  have hpath : ((v, done ++ [w]) :: rest).map Prod.fst = ((v, done) :: rest).map Prod.fst := rfl
  have hle : ∀ x, (if w ∈ stack then Function.update low v (min (low v) (number w)) else low) x ≤ low x := by
    intro x
    split
    · by_cases hx : x = v
      · rw [hx, Function.update_self]
        exact min_le_left _ _
      · rw [Function.update_of_ne hx]
    · exact le_refl _
  have hexamined : ∀ x u, Examined out ((v, done ++ [w]) :: rest) x u →
      Examined out ((v, done) :: rest) x u ∨ x = v ∧ u = w := by
    intro x u hex
    by_cases hnew : x = v ∧ u = w
    · exact Or.inr hnew
    · refine Or.inl ⟨hex.1, fun f hf hfx => ?_⟩
      rcases List.mem_cons.mp hf with rfl | hf
      · have hin := hex.2 (v, done ++ [w]) (List.mem_cons_self ..) hfx
        rcases List.mem_append.mp hin with hin | hin
        · exact hin
        · exact absurd ⟨hfx.symm, List.mem_singleton.mp hin⟩ hnew
      · exact hex.2 f (List.mem_cons_of_mem _ hf) hfx
  refine ⟨h.counted, h.sorted, h.path, ?_, h.closed, fun x hx => (hle x).trans (h.low_le x hx), ?_, ?_, ?_, h.reach⟩
  · intro x hx u hex
    rcases hexamined x u hex with hold | ⟨-, rfl⟩
    · exact h.met x hx u hold
    · exact hmet
  · intro x hx
    split
    · rename_i hstack
      by_cases hxv : x = v
      · subst hxv
        rw [Function.update_self]
        rcases min_choice (low x) (number w) with hmin | hmin
        · rw [hmin]
          exact h.low_reach x hx
        · rw [hmin]
          exact ⟨w, hstack, rfl, Relation.ReflTransGen.single hw⟩
      · rw [Function.update_of_ne hxv]
        exact h.low_reach x hx
    · exact h.low_reach x hx
  · exact fun x hx hnot => (hle x).trans_lt (h.low_lt x hx hnot)
  · intro above p below hsplit x hx hnumber u hu hex
    rcases hexamined x u hex with hold | ⟨rfl, rfl⟩
    · obtain ⟨q, hq, hlow⟩ := h.covered above p below hsplit x hx hnumber u hu hold
      exact ⟨q, hq, (hle q).trans hlow⟩
    · refine ⟨x, ?_, ?_⟩
      · cases above with
        | nil =>
          obtain ⟨rfl, -⟩ := List.cons.inj hsplit
          exact List.mem_singleton_self x
        | cons first above =>
          obtain ⟨rfl, -⟩ := List.cons.inj hsplit
          exact List.mem_cons_self ..
      · rw [if_pos hu, Function.update_self]
        exact min_le_right _ _

/-! ### A vertex is left -/

/-- The vertex stays on the stack, and the one before it on the path answers for it. -/
theorem keep [DecidableEq A] {p : A} {examined : List A}
    (h : Walk out number low counter stack ((v, out v) :: (p, examined) :: rest)) (hlt : low v < number v) :
    Walk out number (Function.update low p (min (low p) (low v))) counter stack ((p, examined) :: rest) := by
  have hv : v ∈ stack := h.path_mem v (List.mem_cons_self ..)
  have hp : p ∈ stack := h.path_mem p (List.mem_cons_of_mem _ (List.mem_cons_self ..))
  have hpv : number p < number v := h.below_lt p (List.mem_cons_self ..)
  have hle : ∀ x, Function.update low p (min (low p) (low v)) x ≤ low x := by
    intro x
    by_cases hx : x = p
    · rw [hx, Function.update_self]
      exact min_le_left _ _
    · rw [Function.update_of_ne hx]
  have hexamined : ∀ x u, Examined out ((p, examined) :: rest) x u → Examined out ((v, out v) :: (p, examined) :: rest) x u := by
    intro x u hex
    refine ⟨hex.1, fun f hf hfx => ?_⟩
    rcases List.mem_cons.mp hf with rfl | hf
    · show u ∈ out v
      rw [show v = x from hfx]
      exact hex.1
    · exact hex.2 f hf hfx
  refine ⟨h.counted, h.sorted, (List.sublist_cons_self v _).trans h.path, fun x hx u hex => h.met x hx u (hexamined x u hex),
    h.closed, fun x hx => (hle x).trans (h.low_le x hx), ?_, ?_, ?_, fun q hq => h.reach q (List.mem_cons_of_mem _ hq)⟩
  · intro x hx
    by_cases hxp : x = p
    · subst hxp
      rw [Function.update_self]
      rcases min_choice (low x) (low v) with hmin | hmin
      · rw [hmin]
        exact h.low_reach x hx
      · rw [hmin]
        obtain ⟨u, hu, hnumber, hreach⟩ := h.low_reach v hv
        exact ⟨u, hu, hnumber, (h.reach x (List.mem_cons_of_mem _ (List.mem_cons_self ..)) v hv hpv.le).trans hreach⟩
    · rw [Function.update_of_ne hxp]
      exact h.low_reach x hx
  · intro x hx hnot
    by_cases hxv : x = v
    · subst hxv
      exact (hle x).trans_lt hlt
    · refine (hle x).trans_lt (h.low_lt x hx fun hmem => ?_)
      rcases List.mem_cons.mp hmem with heq | hmem
      · exact hxv heq
      · exact hnot hmem
  · intro above q below hsplit x hx hnumber u hu hex
    obtain ⟨r, hr, hlow⟩ := h.covered (v :: above) q below (congrArg (v :: ·) hsplit) x hx hnumber u hu (hexamined x u hex)
    rcases List.mem_cons.mp hr with rfl | hr
    · refine ⟨p, ?_, ?_⟩
      · cases above with
        | nil =>
          obtain ⟨rfl, -⟩ := List.cons.inj hsplit
          exact List.mem_singleton_self _
        | cons first above =>
          obtain ⟨rfl, -⟩ := List.cons.inj hsplit
          exact List.mem_cons_self ..
      · rw [Function.update_self]
        exact (min_le_right _ _).trans hlow
    · exact ⟨r, hr, (hle r).trans hlow⟩

/-! ### A component is closed -/

section Close
variable {segment below : List A}

theorem segment_sub (hstack : stack = segment ++ v :: below) (x : A) (hx : x ∈ segment ++ [v]) : x ∈ stack := by
  rw [hstack]
  rcases List.mem_append.mp hx with hx | hx
  · exact List.mem_append_left _ hx
  · rw [List.mem_singleton.mp hx]
    exact List.mem_append_right _ (List.mem_cons_self ..)

theorem segment_iff (h : Walk out number low counter stack frames) (hstack : stack = segment ++ v :: below) (x : A)
    (hx : x ∈ stack) : x ∈ segment ++ [v] ↔ number v ≤ number x := by
  have hsorted := h.sorted
  rw [hstack] at hsorted hx
  obtain ⟨-, htail, hcross⟩ := List.pairwise_append.mp hsorted
  constructor
  · intro hmem
    rcases List.mem_append.mp hmem with hmem | hmem
    · exact (hcross x hmem v (List.mem_cons_self ..)).le
    · rw [List.mem_singleton.mp hmem]
  · intro hle
    rcases List.mem_append.mp hx with hx | hx
    · exact List.mem_append_left _ hx
    · rcases List.mem_cons.mp hx with rfl | hx
      · exact List.mem_append_right _ (List.mem_singleton_self x)
      · have hlt := (List.pairwise_cons.mp htail).1 x hx
        omega

theorem below_iff (h : Walk out number low counter stack frames) (hstack : stack = segment ++ v :: below) (x : A)
    (hx : x ∈ stack) : x ∈ below ↔ number x < number v := by
  have hsorted := h.sorted
  rw [hstack] at hsorted hx
  obtain ⟨-, htail, hcross⟩ := List.pairwise_append.mp hsorted
  constructor
  · exact fun hmem => (List.pairwise_cons.mp htail).1 x hmem
  · intro hlt
    rcases List.mem_append.mp hx with hx | hx
    · have hgt := hcross x hx v (List.mem_cons_self ..)
      omega
    · rcases List.mem_cons.mp hx with rfl | hx
      · omega
      · exact hx

/-- From the segment every arc stays in it or leads to a closed vertex. -/
theorem segment_out (h : Walk out number low counter stack ((v, out v) :: rest)) (hroot : low v = number v)
    (hstack : stack = segment ++ v :: below) (x : A) (hx : x ∈ segment ++ [v]) (u : A) (hu : u ∈ out x) :
    u ∈ segment ++ [v] ∨ 0 ≤ number u ∧ u ∉ stack := by
  have hxs := segment_sub hstack x hx
  have hle := (h.segment_iff hstack x hxs).mp hx
  have hexamined : Examined out ((v, out v) :: rest) x u := by
    refine ⟨hu, fun f hf hfx => ?_⟩
    rcases List.mem_cons.mp hf with rfl | hf
    · show u ∈ out v
      rw [show v = x from hfx]
      exact hu
    · have hlt := h.below_lt f.1 (List.mem_map_of_mem hf)
      rw [hfx] at hlt
      omega
  have hmet := h.met x hxs u hexamined
  by_cases hus : u ∈ stack
  · left
    obtain ⟨q, hq, hlow⟩ := h.covered [] v (rest.map Prod.fst) rfl x hxs hle u hus hexamined
    obtain rfl := List.mem_singleton.mp hq
    exact (h.segment_iff hstack u hus).mpr (hroot ▸ hlow)
  · exact Or.inr ⟨hmet, hus⟩

theorem closed_reach (h : Walk out number low counter stack frames) {x y : A} (hx : 0 ≤ number x ∧ x ∉ stack)
    (hreach : Reaches out x y) : 0 ≤ number y ∧ y ∉ stack := by
  induction hreach with
  | refl => exact hx
  | tail _ harc ih => exact h.closed _ ih.1 ih.2 _ harc

theorem segment_reach (h : Walk out number low counter stack ((v, out v) :: rest)) (hroot : low v = number v)
    (hstack : stack = segment ++ v :: below) {x y : A} (hx : x ∈ segment ++ [v]) (hreach : Reaches out x y) :
    y ∈ segment ++ [v] ∨ 0 ≤ number y ∧ y ∉ stack := by
  induction hreach with
  | refl => exact Or.inl hx
  | tail _ harc ih =>
    rcases ih with hin | hout
    · exact h.segment_out hroot hstack _ hin _ harc
    · exact Or.inr (h.closed _ hout.1 hout.2 _ harc)

/-- Every vertex of the segment leads back to its root: what it reaches below its own number is in the segment too. -/
theorem segment_back (h : Walk out number low counter stack ((v, out v) :: rest)) (hroot : low v = number v)
    (hstack : stack = segment ++ v :: below) (x : A) (hx : x ∈ segment ++ [v]) : Reaches out x v := by
  induction hn : (number x).toNat using Nat.strongRecOn generalizing x with
  | ind n ih =>
    subst hn
    by_cases hxv : x = v
    · rw [hxv]
    have hxs := segment_sub hstack x hx
    have hle := (h.segment_iff hstack x hxs).mp hx
    have hoff : x ∉ ((v, out v) :: rest).map Prod.fst := by
      intro hmem
      rcases List.mem_cons.mp hmem with heq | hmem
      · exact hxv heq
      · have hlt := h.below_lt x hmem
        omega
    have hlt := h.low_lt x hxs hoff
    obtain ⟨u, hus, hnumber, hreach⟩ := h.low_reach x hxs
    rcases h.segment_reach hroot hstack hx hreach with hin | hout
    · have hpos := (h.counted u hus).1
      exact hreach.trans (ih (number u).toNat (by omega) u hin rfl)
    · exact absurd hus hout.2

theorem segment_connected (h : Walk out number low counter stack ((v, out v) :: rest)) (hroot : low v = number v)
    (hstack : stack = segment ++ v :: below) (x : A) (hx : x ∈ segment ++ [v]) : Connected out v x := by
  have hxs := segment_sub hstack x hx
  exact ⟨h.reach v (List.mem_cons_self ..) x hxs ((h.segment_iff hstack x hxs).mp hx), h.segment_back hroot hstack x hx⟩

theorem close (h : Walk out number low counter stack ((v, out v) :: rest)) (hroot : low v = number v)
    (hstack : stack = segment ++ v :: below) : Walk out number low counter below rest := by
  have hsub : ∀ x ∈ below, x ∈ stack := fun x hx => by
    rw [hstack]
    exact List.mem_append_right _ (List.mem_cons_of_mem _ hx)
  have hlt : ∀ x ∈ below, number x < number v := fun x hx => (h.below_iff hstack x (hsub x hx)).mp hx
  have hpath : (rest.map Prod.fst).Sublist below := by
    have hsplit : (segment ++ [v]) ++ below = stack := by simp [hstack]
    refine List.Sublist.of_sublist_append_right (fun p hp hmem => ?_)
      (hsplit ▸ (List.sublist_cons_self v (rest.map Prod.fst)).trans h.path)
    have hle := (h.segment_iff hstack p (hsplit ▸ List.mem_append_left _ hmem)).mp hmem
    have hpv := h.below_lt p hp
    omega
  have hexamined : ∀ x ∈ below, ∀ u, Examined out rest x u → Examined out ((v, out v) :: rest) x u := by
    intro x hx u hex
    refine ⟨hex.1, fun f hf hfx => ?_⟩
    rcases List.mem_cons.mp hf with rfl | hf
    · have hself := hlt x hx
      rw [show v = x from hfx] at hself
      exact absurd hself (lt_irrefl _)
    · exact hex.2 f hf hfx
  refine ⟨fun x hx => h.counted x (hsub x hx), ?_, hpath, fun x hx u hex => h.met x (hsub x hx) u (hexamined x hx u hex),
    ?_, fun x hx => h.low_le x (hsub x hx), ?_, ?_, ?_, ?_⟩
  · have hsorted := h.sorted
    rw [hstack] at hsorted
    exact (List.pairwise_cons.mp (List.pairwise_append.mp hsorted).2.1).2
  · intro x hx hnot u hu
    by_cases hxs : x ∈ stack
    · have hin : x ∈ segment ++ [v] := by
        rw [h.segment_iff hstack x hxs]
        by_contra hgt
        exact hnot ((h.below_iff hstack x hxs).mpr (not_le.mp hgt))
      rcases h.segment_out hroot hstack x hin u hu with hseg | hclosed
      · have hus := segment_sub hstack u hseg
        refine ⟨(h.counted u hus).1, fun hmem => ?_⟩
        have hle := (h.segment_iff hstack u hus).mp hseg
        have hu' := hlt u hmem
        omega
      · exact ⟨hclosed.1, fun hmem => hclosed.2 (hsub u hmem)⟩
    · obtain ⟨hmet, hclosed⟩ := h.closed x hx hxs u hu
      exact ⟨hmet, fun hmem => hclosed (hsub u hmem)⟩
  · intro x hx
    obtain ⟨u, hu, hnumber, hreach⟩ := h.low_reach x (hsub x hx)
    refine ⟨u, (h.below_iff hstack u hu).mpr ?_, hnumber, hreach⟩
    have hle := h.low_le x (hsub x hx)
    have hxv := hlt x hx
    omega
  · intro x hx hnot
    refine h.low_lt x (hsub x hx) fun hmem => ?_
    rcases List.mem_cons.mp hmem with heq | hmem
    · have hself := hlt x hx
      rw [heq] at hself
      exact lt_irrefl _ hself
    · exact hnot hmem
  · intro above p tail hsplit x hx hle u hu hex
    obtain ⟨q, hq, hlow⟩ := h.covered (v :: above) p tail (congrArg (v :: ·) hsplit) x (hsub x hx) hle u (hsub u hu)
      (hexamined x hx u hex)
    rcases List.mem_cons.mp hq with rfl | hq
    · have hu' := hlt u hu
      omega
    · exact ⟨q, hq, hlow⟩
  · exact fun p hp x hx hle => h.reach p (List.mem_cons_of_mem _ hp) x (hsub x hx) hle

end Close

end Walk

end MoeNG.Lib
