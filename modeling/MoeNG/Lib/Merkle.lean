import Mathlib.Logic.Relation
import Mathlib.Data.List.Basic
import Mathlib.Tactic.Common

/-!
# Recursive identities of a labelled acyclic graph

A vertex unfolds to the tree of its label and, arc by arc, of the unfoldings of
its predecessors. A hash that is computed the same way from an injective
encoding tells two vertices apart exactly when their unfoldings do.
-/

namespace MoeNG.Lib

inductive Unfolding (L E : Type) where
  | node (label : L) (incoming : List (E × Unfolding L E))

/-- The rank falls along every arc that leads to a vertex. -/
structure LabelledDag (K L E : Type) where
  vertex : K → Prop
  label : K → L
  incoming : K → List (E × K)
  rank : K → ℕ
  descends : ∀ k, vertex k → ∀ p ∈ incoming k, vertex p.2 ∧ rank p.2 < rank k

variable {K L E H : Type}

/-- What a function of a label and of the results at the predecessors gives at the vertices within `depth`. -/
def foldTo (f : L → List (E × H) → H) (label : K → L) (incoming : K → List (E × K)) : ℕ → K → H
  | 0, k => f (label k) []
  | depth + 1, k => f (label k) ((incoming k).map fun p => (p.1, foldTo f label incoming depth p.2))

def unfoldTo (label : K → L) (incoming : K → List (E × K)) : ℕ → K → Unfolding L E := foldTo Unfolding.node label incoming

namespace LabelledDag

/-- The recursive equation that a hash or an unfolding solves. -/
def Solves (D : LabelledDag K L E) (f : L → List (E × H) → H) (result : K → H) : Prop :=
  ∀ k, D.vertex k → result k = f (D.label k) ((D.incoming k).map fun p => (p.1, result p.2))

theorem foldTo_stable (D : LabelledDag K L E) (f : L → List (E × H) → H) (depth depth' : ℕ) (k : K) (hk : D.vertex k)
    (h : D.rank k < depth) (h' : D.rank k < depth') :
    foldTo f D.label D.incoming depth k = foldTo f D.label D.incoming depth' k := by
  induction depth generalizing k depth' with
  | zero => omega
  | succ depth ih =>
    cases depth' with
    | zero => omega
    | succ depth' =>
      rw [foldTo, foldTo]
      refine congrArg _ (List.map_congr_left fun p hp => ?_)
      obtain ⟨hv, hrank⟩ := D.descends k hk p hp
      rw [ih depth' p.2 hv (by omega) (by omega)]

theorem foldTo_solves (D : LabelledDag K L E) (f : L → List (E × H) → H) (depth : ℕ)
    (h : ∀ k, D.vertex k → D.rank k < depth) : D.Solves f (foldTo f D.label D.incoming depth) := by
  intro k hk
  have hdepth := h k hk
  rw [D.foldTo_stable f depth (depth + 1) k hk hdepth (by omega), foldTo]

theorem map_arcs_congr {A B : Type} (f f' : K → A) (g g' : K → B) (l l' : List (E × K))
    (h : ∀ p ∈ l, ∀ p' ∈ l', f p.2 = f' p'.2 ↔ g p.2 = g' p'.2) :
    (l.map fun p => (p.1, f p.2)) = (l'.map fun p => (p.1, f' p.2))
      ↔ (l.map fun p => (p.1, g p.2)) = (l'.map fun p => (p.1, g' p.2)) := by
  induction l generalizing l' with
  | nil => cases l' <;> simp
  | cons p rest ih =>
    cases l' with
    | nil => simp
    | cons p' rest' =>
      have hhead := h p (List.mem_cons_self ..) p' (List.mem_cons_self ..)
      have htail := ih rest' fun q hq q' hq' => h q (List.mem_cons_of_mem _ hq) q' (List.mem_cons_of_mem _ hq')
      simp only [List.map_cons, List.cons.injEq, Prod.mk.injEq, hhead, htail]

/-- Equal hashes are equal unfoldings, also across two graphs. -/
theorem hash_eq_iff (D D' : LabelledDag K L E) (encode : L → List (E × H) → H) (hash hash' : K → H)
    (hhash : D.Solves encode hash) (hhash' : D'.Solves encode hash')
    (hencode : ∀ k k', D.vertex k → D'.vertex k' →
      encode (D.label k) ((D.incoming k).map fun p => (p.1, hash p.2))
        = encode (D'.label k') ((D'.incoming k').map fun p => (p.1, hash' p.2)) →
      D.label k = D'.label k'
        ∧ ((D.incoming k).map fun p => (p.1, hash p.2)) = (D'.incoming k').map fun p => (p.1, hash' p.2))
    (tree tree' : K → Unfolding L E) (htree : D.Solves Unfolding.node tree)
    (htree' : D'.Solves Unfolding.node tree') (k k' : K)
    (hk : D.vertex k) (hk' : D'.vertex k') : hash k = hash' k' ↔ tree k = tree' k' := by
  induction hn : D.rank k using Nat.strongRecOn generalizing k k' with
  | ind n ih =>
    subst hn
    have harcs := map_arcs_congr hash hash' tree tree' (D.incoming k) (D'.incoming k') fun p hp p' hp' =>
      ih (D.rank p.2) (D.descends k hk p hp).2 p.2 p'.2 (D.descends k hk p hp).1 (D'.descends k' hk' p' hp').1 rfl
    rw [htree k hk, htree' k' hk', Unfolding.node.injEq, ← harcs]
    constructor
    · intro h
      rw [hhash k hk, hhash' k' hk'] at h
      exact hencode k k' hk hk' h
    · rintro ⟨hlabel, hincoming⟩
      rw [hhash k hk, hhash' k' hk', hlabel, hincoming]

/-! ### Ancestors -/

def Ancestor (D : LabelledDag K L E) : K → K → Prop := Relation.ReflTransGen fun m k => ∃ e, (e, m) ∈ D.incoming k

theorem map_arcs_inj {A : Type} (f f' : K → A) (l l' : List (E × K)) (hkeys : l.map Prod.snd = l'.map Prod.snd)
    (h : (l.map fun p => (p.1, f p.2)) = l'.map fun p => (p.1, f' p.2)) :
    l = l' ∧ ∀ p ∈ l, f p.2 = f' p.2 := by
  induction l generalizing l' with
  | nil =>
    cases l' with
    | nil => exact ⟨rfl, fun p hp => absurd hp List.not_mem_nil⟩
    | cons p' rest' => cases h
  | cons p rest ih =>
    cases l' with
    | nil => cases h
    | cons p' rest' =>
      obtain ⟨hkey, hkeys⟩ := List.cons.inj hkeys
      obtain ⟨hhead, htail⟩ := List.cons.inj h
      obtain ⟨hlabel, himage⟩ := Prod.mk.inj hhead
      obtain ⟨hrest, hall⟩ := ih rest' hkeys htail
      refine ⟨by rw [Prod.ext hlabel hkey, hrest], fun q hq => ?_⟩
      rcases List.mem_cons.mp hq with rfl | hq
      · rw [hkey] at himage ⊢
        exact himage
      · exact hall q hq

/-- In two graphs of one shape, equal unfoldings have the same labels at every ancestor. -/
theorem unfolding_ancestor {D D' : LabelledDag K L E} {tree tree' : K → Unfolding L E} (htree : D.Solves Unfolding.node tree)
    (htree' : D'.Solves Unfolding.node tree') (hvertex : ∀ k, D.vertex k → D'.vertex k)
    (hshape : ∀ k, (D.incoming k).map Prod.snd = (D'.incoming k).map Prod.snd) {m k : K} (hm : D.Ancestor m k)
    (hk : D.vertex k) (h : tree k = tree' k) : D.label m = D'.label m ∧ D.incoming m = D'.incoming m := by
  have hstep (k : K) (hk : D.vertex k) (h : tree k = tree' k) :
      D.label k = D'.label k ∧ D.incoming k = D'.incoming k ∧ ∀ p ∈ D.incoming k, tree p.2 = tree' p.2 := by
    rw [htree k hk, htree' k (hvertex k hk), Unfolding.node.injEq] at h
    exact ⟨h.1, map_arcs_inj tree tree' _ _ (hshape k) h.2⟩
  induction hm with
  | refl => exact ⟨(hstep m hk h).1, (hstep m hk h).2.1⟩
  | tail _ harc ih =>
    obtain ⟨e, harc⟩ := harc
    exact ih (D.descends _ hk _ harc).1 ((hstep _ hk h).2.2 _ harc)

/-- The unfolding depends on the ancestors alone. -/
theorem unfolding_congr {D D' : LabelledDag K L E} {tree tree' : K → Unfolding L E} (htree : D.Solves Unfolding.node tree)
    (htree' : D'.Solves Unfolding.node tree') (hvertex : ∀ k, D.vertex k → D'.vertex k) (k : K) (hk : D.vertex k)
    (h : ∀ m, D.Ancestor m k → D.label m = D'.label m ∧ D.incoming m = D'.incoming m) : tree k = tree' k := by
  induction hn : D.rank k using Nat.strongRecOn generalizing k with
  | ind n ih =>
    subst hn
    obtain ⟨hlabel, hincoming⟩ := h k Relation.ReflTransGen.refl
    rw [htree k hk, htree' k (hvertex k hk), ← hlabel, ← hincoming]
    refine congrArg _ (List.map_congr_left fun p hp => ?_)
    obtain ⟨hv, hrank⟩ := D.descends k hk p hp
    rw [ih (D.rank p.2) hrank p.2 hv (fun m hm => h m (hm.tail ⟨p.1, hp⟩)) rfl]

end LabelledDag

end MoeNG.Lib
