import Mathlib.Data.Nat.Bitwise
import MoeNG.Graph.Analysis
import MoeNG.Graph.TopoOrder
import MoeNG.Lib.OrderedTable

/-!
# What the passes over a sorted graph compute

The masks hold the strict closure of the HARD relation, and the entries of the
stages the greatest number of execution-bearing nodes on a HARD path to a node.
-/

namespace MoeNG.Graph
open MoeNG.Kernel MoeNG.Lib

/-- An acyclic graph whose edges join its nodes, with the order that its index is sorted in. -/
structure Sorted (graph : GraphStructureView) : Prop where
  linked : graph.Linked
  distinct : (graph.nodes.map GraphNode.nodeKey).Nodup
  acyclic : (topologicalOrder (buildHardGraphIndex graph)).acyclic = true

variable {graph : GraphStructureView}

theorem AcceptedGraph.sorted (graph : AcceptedGraph) : Sorted graph.toGraphStructureView :=
  ⟨graph.accepted.acceptable.linked, graph.validated.nodup, graph.accepted.acyclic⟩

namespace Sorted

theorem coherent (h : Sorted graph) : (buildHardGraphIndex graph).Coherent := buildHardGraphIndex_coherent h.linked

theorem nodup (h : Sorted graph) : (topologicalOrder (buildHardGraphIndex graph)).order.Nodup := topologicalOrder_nodup h.coherent

theorem mem_order (h : Sorted graph) (i : ℕ) :
    i ∈ (topologicalOrder (buildHardGraphIndex graph)).order ↔ i < (buildHardGraphIndex graph).size :=
  mem_topologicalOrder h.coherent h.acyclic i

theorem perm (h : Sorted graph) :
    (topologicalOrder (buildHardGraphIndex graph)).order.Perm (List.range (buildHardGraphIndex graph).size) :=
  (List.perm_ext_iff_of_nodup h.nodup List.nodup_range).mpr fun i => (h.mem_order i).trans List.mem_range.symm

theorem closed (h : Sorted graph) : Closed (buildHardGraphIndex graph).heads (List.range (buildHardGraphIndex graph).size)
    (topologicalOrder (buildHardGraphIndex graph)).order := (topologicalOrder_stage h.coherent).closed

theorem heads_later (h : Sorted graph) (v : ℕ) (hv : v ∈ (topologicalOrder (buildHardGraphIndex graph)).order) (u : ℕ)
    (hu : u ∈ (buildHardGraphIndex graph).heads v) : u ∈ (topologicalOrder (buildHardGraphIndex graph)).order
      ∧ (topologicalOrder (buildHardGraphIndex graph)).order.idxOf v <
        (topologicalOrder (buildHardGraphIndex graph)).order.idxOf u := by
  have hlt := (h.mem_order v).mp hv
  have hmem := (h.mem_order u).mpr (h.coherent.bounded v hlt u hu)
  exact ⟨hmem, (h.closed.idxOf_lt h.nodup (List.mem_range.mpr hlt) hmem hu).2⟩

theorem tails_earlier (h : Sorted graph) (v : ℕ) (hv : v ∈ (topologicalOrder (buildHardGraphIndex graph)).order) (u : ℕ)
    (hu : u ∈ (buildHardGraphIndex graph).tails v) : u ∈ (topologicalOrder (buildHardGraphIndex graph)).order
      ∧ (topologicalOrder (buildHardGraphIndex graph)).order.idxOf u <
        (topologicalOrder (buildHardGraphIndex graph)).order.idxOf v := by
  have hlt := (h.mem_order v).mp hv
  have hu' := tails_lt h.linked hlt u hu
  have hmem := (h.mem_order u).mpr hu'
  exact ⟨hmem, (h.heads_later u hmem v ((mem_tails_iff hlt hu').mp hu)).2⟩

theorem behind_tails (h : Sorted graph) :
    Behind (buildHardGraphIndex graph).tails (topologicalOrder (buildHardGraphIndex graph)).order :=
  behind_of_rank h.nodup h.tails_earlier

theorem behind_heads (h : Sorted graph) :
    Behind (buildHardGraphIndex graph).heads (topologicalOrder (buildHardGraphIndex graph)).order.reverse :=
  behind_reverse h.nodup h.heads_later

end Sorted

/-! ### Masks -/

theorem hasBit_eq (mask i : ℕ) : hasBit mask i = mask.testBit i := by
  have hbit : mask &&& bit i = (mask.testBit i).toNat * 2 ^ i := by
    rw [bit, Nat.one_shiftLeft, Nat.and_two_pow]
  rw [hasBit, hbit]
  cases mask.testBit i <;> simp

theorem hasBit_or (a b i : ℕ) : hasBit (a ||| b) i = (hasBit a i || hasBit b i) := by
  rw [hasBit_eq, hasBit_eq, hasBit_eq, Nat.testBit_or]

theorem hasBit_bit (i j : ℕ) : hasBit (bit i) j = decide (i = j) := by
  rw [hasBit_eq, bit, Nat.one_shiftLeft, Nat.testBit_two_pow]

theorem hasBit_zero (i : ℕ) : hasBit 0 i = false := by
  rw [hasBit_eq, Nat.zero_testBit]

theorem hasBit_maskOf (arcs : List HardArc) (masks : List ℕ) (j : ℕ) :
    hasBit (maskOf arcs masks) j = true
      ↔ ∃ u ∈ arcs.map HardArc.nodeIndex, u = j ∨ hasBit (masks.getD u 0) j = true := by
  suffices hrest : ∀ mask, hasBit (arcs.foldl (fun mask arc => mask |||
    (bit arc.nodeIndex ||| masks.getD arc.nodeIndex 0)) mask) j
      = true ↔ hasBit mask j = true ∨ ∃ u ∈ arcs.map HardArc.nodeIndex, u = j ∨ hasBit (masks.getD u 0) j = true by
    rw [maskOf, hrest, hasBit_zero, or_iff_right Bool.false_ne_true]
  induction arcs with
  | nil => simp
  | cons arc rest ih =>
    intro mask
    rw [List.foldl_cons, ih, hasBit_or, hasBit_or, hasBit_bit, List.map_cons]
    simp only [Bool.or_eq_true, decide_eq_true_eq, List.mem_cons, exists_eq_or_imp]
    exact or_assoc

theorem ancestorMasks_spec (h : Sorted graph) (v : ℕ) (hv : v < (buildHardGraphIndex graph).size) (j : ℕ) :
    hasBit ((ancestorMasks (buildHardGraphIndex graph) (topologicalOrder (buildHardGraphIndex graph)).order).getD v 0) j = true
      ↔ Precedes (buildHardGraphIndex graph).tails v j := by
  revert j
  refine foldl_set_spec 0 (fun masks u => maskOf ((buildHardGraphIndex graph).inArcs u) masks)
    (fun v mask => ∀ j, hasBit mask j = true ↔ Precedes (buildHardGraphIndex graph).tails v j) h.nodup
    (fun u hu => (h.mem_order u).mp hu) h.behind_tails (fun masks u _ hmasks j => ?_) v ((h.mem_order v).mpr hv)
  rw [hasBit_maskOf, precedes_step]
  exact exists_congr fun w => and_congr_right fun hw => or_congr_right (hmasks w hw j)

theorem descendantMasks_spec (h : Sorted graph) (v : ℕ) (hv : v < (buildHardGraphIndex graph).size) (j : ℕ) :
    hasBit ((descendantMasks (buildHardGraphIndex graph) (topologicalOrder (buildHardGraphIndex graph)).order).getD v 0) j = true
      ↔ Precedes (buildHardGraphIndex graph).heads v j := by
  revert j
  refine foldl_set_spec 0 (fun masks u => maskOf ((buildHardGraphIndex graph).outArcs u) masks)
    (fun v mask => ∀ j, hasBit mask j = true ↔ Precedes (buildHardGraphIndex graph).heads v j) (List.nodup_reverse.mpr h.nodup)
    (fun u hu => (h.mem_order u).mp (List.mem_reverse.mp hu)) h.behind_heads (fun masks u _ hmasks j => ?_) v
    (List.mem_reverse.mpr ((h.mem_order v).mpr hv))
  rw [hasBit_maskOf, precedes_step]
  exact exists_congr fun w => and_congr_right fun hw => or_congr_right (hmasks w hw j)

/-! ### Stages -/

/-- What an entry says: how many execution-bearing nodes a path to its node has at most, and where such a path comes from. -/
structure StageOf (index : HardGraphIndex) (v : ℕ) (entry : StageEntry) : Prop where
  heaviest : Heaviest index.tails index.execution v entry.bestExec
  start : entry.parent = none → entry.bestExec = index.execution v
  next : ∀ u, entry.parent = some u → u ∈ index.tails v
    ∧ ∃ k, Heaviest index.tails index.execution u k ∧ entry.bestExec = index.execution v + k

theorem bestPredecessor_eq (arcs : List HardArc) (entries : List StageEntry) :
    bestPredecessor arcs entries = (arcs.map HardArc.nodeIndex).foldl (fun found u =>
      if found.1 < (entries.getD u noStage).bestExec then ((entries.getD u noStage).bestExec, some u) else found) (0, none) := by
  rw [List.foldl_map]
  rfl

theorem stageEntry_spec (index : HardGraphIndex) (entries : List StageEntry) (v : ℕ)
    (h : ∀ u ∈ index.tails v, StageOf index u (entries.getD u noStage)) : StageOf index v (stageEntry index entries v) := by
  obtain ⟨hbound, hfound⟩ := foldl_argmax (fun u => (entries.getD u noStage).bestExec) (index.tails v)
  rw [HardGraphIndex.tails, ← bestPredecessor_eq] at hbound hfound
  have hheaviest := Heaviest.step (fun u => (entries.getD u noStage).bestExec) (fun u hu => (h u hu).heaviest)
    (bestPredecessor (index.inArcs v) entries).1 hbound
  refine ⟨hheaviest (hfound.imp (congrArg Prod.fst) fun hu => hu.imp fun u hu => ⟨hu.1, (congrArg Prod.fst hu.2).symm⟩),
    fun hparent => ?_, fun u hparent => ?_⟩
  · have hnone : (bestPredecessor (index.inArcs v) entries).2 = none := hparent
    rcases hfound with heq | ⟨u, -, heq⟩
    · show index.execution v + (bestPredecessor (index.inArcs v) entries).1 = _
      rw [heq, Nat.add_zero]
    · rw [heq] at hnone
      cases hnone
  · have hsome : (bestPredecessor (index.inArcs v) entries).2 = some u := hparent
    rcases hfound with heq | ⟨w, hw, heq⟩
    · rw [heq] at hsome
      cases hsome
    · rw [heq] at hsome
      obtain rfl := Option.some.inj hsome
      refine ⟨hw, _, (h w hw).heaviest, ?_⟩
      show index.execution v + (bestPredecessor (index.inArcs v) entries).1 = _
      rw [heq]

theorem stageEntries_spec (h : Sorted graph) (v : ℕ) (hv : v < (buildHardGraphIndex graph).size) :
    StageOf (buildHardGraphIndex graph) v
      ((stageEntries (buildHardGraphIndex graph) (topologicalOrder (buildHardGraphIndex graph)).order).getD v noStage) :=
  foldl_set_spec noStage (stageEntry (buildHardGraphIndex graph)) (StageOf (buildHardGraphIndex graph)) h.nodup
    (fun u hu => (h.mem_order u).mp hu) h.behind_tails (fun entries u _ hentries => stageEntry_spec _ entries u hentries) v
    ((h.mem_order v).mpr hv)

/-- The parents lead back along a trail that weighs what the entry says. -/
theorem walkParents_spec (h : Sorted graph) (entries : List StageEntry)
    (hentries : ∀ v < (buildHardGraphIndex graph).size, StageOf (buildHardGraphIndex graph) v (entries.getD v noStage))
    (fuel v : ℕ) (hv : v < (buildHardGraphIndex graph).size)
    (hfuel : (topologicalOrder (buildHardGraphIndex graph)).order.idxOf v < fuel) :
    ∃ rest, walkParents entries fuel (some v) = v :: rest ∧ Trail (buildHardGraphIndex graph).tails v rest
      ∧ ((v :: rest).map (buildHardGraphIndex graph).execution).sum = (entries.getD v noStage).bestExec := by
  induction fuel generalizing v with
  | zero => exact absurd hfuel (Nat.not_lt_zero _)
  | succ fuel ih =>
    have hentry := hentries v hv
    rw [walkParents]
    cases hparent : (entries.getD v noStage).parent with
    | none =>
      refine ⟨[], ?_, Trail.nil, ?_⟩
      · cases fuel <;> rfl
      · rw [hentry.start hparent]
        simp
    | some u =>
      obtain ⟨hu, k, hheaviest, hbest⟩ := hentry.next u hparent
      have hlt := tails_lt h.linked hv u hu
      have hearlier := (h.tails_earlier v ((h.mem_order v).mpr hv) u hu).2
      obtain ⟨rest, hwalk, htrail, hsum⟩ := ih u hlt (by omega)
      refine ⟨u :: rest, congrArg (v :: ·) hwalk, Trail.cons_iff.mpr ⟨hu, htrail⟩, ?_⟩
      rw [List.map_cons, List.sum_cons, hsum, hbest, hheaviest.unique (hentries u hlt).heaviest]

end MoeNG.Graph

/-!
## HARD paths and what they weigh
-/

namespace MoeNG.Graph
open MoeNG.Kernel MoeNG.Lib

/-- A sequence of nodes, each joined to the next one by a HARD edge. -/
structure HardPath (graph : GraphStructureView) (path : List JsString) : Prop where
  declared : ∀ key ∈ path, key ∈ graph.nodes.map GraphNode.nodeKey
  joined : path.IsChain graph.HardStep

def GraphStructureView.bears (graph : GraphStructureView) (nodeKey : JsString) : Bool :=
  graph.nodes.any fun node => node.nodeKey = nodeKey && node.executionBearing

def GraphStructureView.executionCount (graph : GraphStructureView) (path : List JsString) : ℕ := path.countP graph.bears

/-- The greatest number of execution-bearing nodes on a HARD path. -/
structure MaxStages (graph : GraphStructureView) (count : ℕ) : Prop where
  bound : ∀ path, HardPath graph path → graph.executionCount path ≤ count
  attained : ∃ path, HardPath graph path ∧ graph.executionCount path = count

variable {graph : GraphStructureView}

theorem sum_eq_countP {A : Type} (f : A → ℕ) (p : A → Bool) (l : List A) (h : ∀ a ∈ l, f a = if p a then 1 else 0) :
    (l.map f).sum = l.countP p := by
  induction l with
  | nil => rfl
  | cons a rest ih =>
    rw [List.map_cons, List.sum_cons, List.countP_cons, ih fun b hb => h b (List.mem_cons_of_mem _ hb),
      h a (List.mem_cons_self ..),
      Nat.add_comm]

theorem execution_place (hnodup : (graph.nodes.map GraphNode.nodeKey).Nodup) {key : JsString}
    (hkey : key ∈ graph.nodes.map GraphNode.nodeKey) :
    (buildHardGraphIndex graph).execution (graph.place key) = if graph.bears key then 1 else 0 := by
  obtain ⟨node, hnode, rfl⟩ := List.mem_map.mp hkey
  obtain ⟨i, hi, rfl⟩ := List.getElem_of_mem hnode
  obtain ⟨hplace, hbearing⟩ := node_at hnodup i hi
  have hbears : graph.bears graph.nodes[i].nodeKey = graph.nodes[i].executionBearing := by
    rw [Bool.eq_iff_iff, GraphStructureView.bears, List.any_eq_true]
    constructor
    · rintro ⟨other, hother, hsame⟩
      rw [Bool.and_eq_true, decide_eq_true_eq] at hsame
      rw [← List.inj_on_of_nodup_map hnodup hother hnode hsame.1]
      exact hsame.2
    · exact fun h => ⟨_, hnode, by rw [h, Bool.and_true]; exact decide_eq_true rfl⟩
  rw [HardGraphIndex.execution, hplace, hbearing, hbears]

theorem trail_lt (hlinked : graph.Linked) {v : ℕ} {rest : List ℕ} (hv : v < (buildHardGraphIndex graph).size)
    (h : Trail (buildHardGraphIndex graph).tails v rest) : ∀ x ∈ v :: rest, x < (buildHardGraphIndex graph).size := by
  induction rest generalizing v with
  | nil =>
    intro x hx
    rwa [List.mem_singleton.mp hx]
  | cons u rest ih =>
    obtain ⟨hu, htrail⟩ := Trail.cons_iff.mp h
    intro x hx
    rcases List.mem_cons.mp hx with rfl | hx
    · exact hv
    · exact ih (tails_lt hlinked hv u hu) htrail x hx

theorem hardStep_keyAt (hlinked : graph.Linked) {i j : ℕ} (hi : i < (buildHardGraphIndex graph).size)
    (hj : j ∈ (buildHardGraphIndex graph).tails i) : graph.HardStep (graph.keyAt j) (graph.keyAt i) := by
  obtain ⟨edge, hedge, rfl, rfl⟩ := (mem_tails hi j).mp hj
  obtain ⟨hmem, hkind⟩ := (mem_hardEdges edge).mp hedge
  exact ⟨edge, hmem, hkind, (keyAt_place (hlinked edge hmem).1).symm, (keyAt_place (hlinked edge hmem).2).symm⟩

/-- A trail back from a node is a HARD path to it. -/
theorem path_of_trail (hlinked : graph.Linked) (hnodup : (graph.nodes.map GraphNode.nodeKey).Nodup) {v : ℕ} {rest : List ℕ}
    (hv : v < (buildHardGraphIndex graph).size) (h : Trail (buildHardGraphIndex graph).tails v rest) :
    HardPath graph ((v :: rest).reverse.map graph.keyAt)
      ∧ graph.executionCount ((v :: rest).reverse.map graph.keyAt)
        = ((v :: rest).map (buildHardGraphIndex graph).execution).sum := by
  have hlt := trail_lt hlinked hv h
  refine ⟨⟨fun key hkey => ?_, ?_⟩, ?_⟩
  · obtain ⟨x, hx, rfl⟩ := List.mem_map.mp hkey
    exact keyAt_mem (hlt x (List.mem_reverse.mp hx))
  · rw [List.isChain_map, List.isChain_reverse]
    exact List.IsChain.imp_of_mem_imp (fun a b ha _ hab => hardStep_keyAt hlinked (hlt a ha) hab) h
  · rw [GraphStructureView.executionCount, List.map_reverse, List.countP_reverse, List.countP_map]
    refine (sum_eq_countP _ _ _ fun x hx => ?_).symm
    rw [Function.comp_apply, ← execution_place hnodup (keyAt_mem (hlt x hx)), place_keyAt hnodup (hlt x hx)]

/-- And every HARD path is one. -/
theorem trail_of_path (hlinked : graph.Linked) (hnodup : (graph.nodes.map GraphNode.nodeKey).Nodup) {path : List JsString}
    (h : HardPath graph path) (hpath : path ≠ []) :
    ∃ v rest, v < (buildHardGraphIndex graph).size ∧ Trail (buildHardGraphIndex graph).tails v rest
      ∧ graph.executionCount path = ((v :: rest).map (buildHardGraphIndex graph).execution).sum := by
  cases hback : path.reverse with
  | nil => exact absurd (List.reverse_eq_nil_iff.mp hback) hpath
  | cons key keys =>
    have hdeclared : ∀ k ∈ key :: keys, k ∈ graph.nodes.map GraphNode.nodeKey := fun k hk =>
      h.declared k (List.mem_reverse.mp (hback ▸ hk))
    refine ⟨graph.place key, keys.map graph.place, (place_lt graph key).mpr (hdeclared key (List.mem_cons_self ..)), ?_, ?_⟩
    · rw [Trail, ← List.map_cons, List.isChain_map, ← hback, List.isChain_reverse]
      exact h.joined.imp fun a b hab => (hard_places_back hlinked).arc b a hab
    · rw [← List.map_cons, List.map_map, GraphStructureView.executionCount, ← List.countP_reverse, hback]
      exact (sum_eq_countP _ _ _ fun k hk => execution_place hnodup (hdeclared k hk)).symm

end MoeNG.Graph
