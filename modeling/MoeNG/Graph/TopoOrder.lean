import MoeNG.Graph.Traversal
import MoeNG.Lib.Lists

/-!
# What Kahn's order guarantees

The nodes that are ready and those that are ordered are the ones that no
pending HARD arc leads to; the loop ends with nothing ready.
-/

namespace MoeNG.Graph
open MoeNG.Kernel MoeNG.Lib

def HardGraphIndex.heads (index : HardGraphIndex) (u : ℕ) : List ℕ := (index.outArcs u).map HardArc.nodeIndex

/-- The arcs lead to nodes, and both directions count the same ones. -/
structure HardGraphIndex.Coherent (index : HardGraphIndex) : Prop where
  bounded : ∀ u < index.size, ∀ v ∈ index.heads u, v < index.size
  degrees : ∀ v < index.size, (index.inArcs v).length = ((List.range index.size).flatMap index.heads).count v

structure Sorting (index : HardGraphIndex) (state : TopoState) (pending : List ℕ) : Prop where
  stage : Stage index.heads (List.range index.size) state.order state.ready pending
  length : state.indegree.length = index.size
  degree : ∀ v < index.size, state.indegree.getD v 0 = pending.count v

theorem foldl_heapPush_perm (values heap : List ℕ) : (values.foldl heapPush heap).Perm (values ++ heap) := by
  induction values generalizing heap with
  | nil => exact List.Perm.refl _
  | cons v rest ih =>
    exact (ih (heapPush heap v)).trans (((heapPush_perm heap v).append_left rest).trans List.perm_middle)

variable {index : HardGraphIndex}

theorem topoStart_sorting (h : index.Coherent) :
    Sorting index (topoStart index) (remaining index.heads (List.range index.size) []) := by
  have hpending : remaining index.heads (List.range index.size) [] = (List.range index.size).flatMap index.heads := by
    simp [remaining]
  have hdegree : ∀ v < index.size, (topoStart index).indegree.getD v 0
      = ((List.range index.size).flatMap index.heads).count v := by
    intro v hv
    rw [← h.degrees v hv]
    simp [topoStart, List.getD, hv]
  have hperm := foldl_heapPush_perm
    ((List.range index.size).filter fun node => (topoStart index).indegree.getD node 0 = 0) []
  rw [List.append_nil] at hperm
  rw [hpending]
  refine ⟨Stage.start (fun v => ?_) ?_, by simp [topoStart], hdegree⟩
  · show v ∈ ((List.range index.size).filter fun node => (topoStart index).indegree.getD node 0 = 0).foldl heapPush [] ↔ _
    rw [hperm.mem_iff, List.mem_filter, List.mem_range, decide_eq_true_eq]
    refine and_congr_right fun hv => ?_
    rw [hdegree v hv, ← List.count_eq_zero]
    omega
  · exact hperm.nodup_iff.mpr (List.nodup_range.filter _)

theorem relaxArc_sorting (state : TopoState) (arc : HardArc) (pending : List ℕ) (harc : arc.nodeIndex < index.size)
    (h : Sorting index state (arc.nodeIndex :: pending)) : Sorting index (relaxArc state arc) pending := by
  have hstage := h.stage.relax (List.mem_range.mpr harc)
  have hhead := h.degree arc.nodeIndex harc
  rw [List.count_cons_self, Nat.cast_add, Nat.cast_one] at hhead
  have hzero : state.indegree.getD arc.nodeIndex 0 - 1 = 0 ↔ arc.nodeIndex ∉ pending := by
    rw [hhead, ← List.count_eq_zero]
    omega
  refine ⟨hstage.perm ?_ (List.Perm.refl _), by simp [relaxArc, h.length], fun v hv => ?_⟩
  · show (if state.indegree.getD arc.nodeIndex 0 - 1 = 0 then _ else _ : List ℕ).Perm _
    by_cases hfree : arc.nodeIndex ∈ pending
    · rw [if_neg (fun hz => hzero.mp hz hfree), if_pos hfree]
    · rw [if_pos (hzero.mpr hfree), if_neg hfree]
      exact heapPush_perm _ _
  · show (state.indegree.set arc.nodeIndex _).getD v 0 = _
    by_cases hsame : arc.nodeIndex = v
    · subst hsame
      rw [List.getD, List.getElem?_set_self (by rw [h.length]; exact hv), Option.getD_some, hhead]
      omega
    · rw [List.getD, List.getElem?_set_ne hsame]
      have hdegree := h.degree v hv
      rw [List.count_cons_of_ne hsame] at hdegree
      exact hdegree

theorem relaxArcs_sorting (arcs : List HardArc) (state : TopoState) (pending : List ℕ)
    (harcs : ∀ arc ∈ arcs, arc.nodeIndex < index.size)
    (h : Sorting index state (arcs.map HardArc.nodeIndex ++ pending)) :
    Sorting index (arcs.foldl relaxArc state) pending := by
  induction arcs generalizing state with
  | nil => exact h
  | cons arc rest ih =>
    exact ih (relaxArc state arc) (fun a ha => harcs a (List.mem_cons_of_mem _ ha))
      (relaxArc_sorting state arc _ (harcs arc (List.mem_cons_self ..)) h)

theorem visitNode_sorting (hindex : index.Coherent) (state : TopoState) (node : ℕ) (ready : List ℕ)
    (hpop : heapPop state.ready = some (node, ready))
    (h : Sorting index state (remaining index.heads (List.range index.size) state.order)) :
    Sorting index (visitNode index state node ready) (remaining index.heads (List.range index.size) (state.order ++ [node])) := by
  have hstage := h.stage.perm (heapPop_perm _ _ _ hpop).symm (List.Perm.refl _)
  have hnode : node ∈ List.range index.size := hstage.mem node (List.mem_append_right _ (List.mem_cons_self ..))
  have hfresh : node ∉ state.order := fun hm =>
    (List.disjoint_of_nodup_append hstage.nodup) hm (List.mem_cons_self ..)
  refine relaxArcs_sorting (index.outArcs node) _ _ (fun arc harc => ?_) ⟨hstage.pop List.nodup_range, h.length, ?_⟩
  · exact hindex.bounded node (List.mem_range.mp hnode) _ (List.mem_map_of_mem harc)
  · intro v hv
    exact (h.degree v hv).trans (congrArg Nat.cast
      ((remaining_pop List.nodup_range node hnode hfresh).count_eq v))

theorem relaxArcs_order (arcs : List HardArc) (state : TopoState) : (arcs.foldl relaxArc state).order = state.order := by
  induction arcs generalizing state with
  | nil => rfl
  | cons arc rest ih => exact ih (relaxArc state arc)

theorem visitNode_order (state : TopoState) (node : ℕ) (ready : List ℕ) :
    (visitNode index state node ready).order = state.order ++ [node] := relaxArcs_order _ _

theorem drainReady_spec (hindex : index.Coherent) (fuel : ℕ) (state : TopoState)
    (hfuel : index.size ≤ fuel + state.order.length)
    (h : Sorting index state (remaining index.heads (List.range index.size) state.order)) :
    Stage index.heads (List.range index.size) (drainReady index fuel state).order []
      (remaining index.heads (List.range index.size) (drainReady index fuel state).order) := by
  induction fuel generalizing state with
  | zero =>
    have hlength := h.stage.length_le
    rw [List.length_range] at hlength
    have hready : state.ready = [] := List.length_eq_zero_iff.mp (by omega)
    have hstage := h.stage
    rw [hready] at hstage
    exact hstage
  | succ fuel ih =>
    cases hpop : heapPop state.ready with
    | none =>
      have hstage := h.stage
      rw [(heapPop_none _).mp hpop] at hstage
      rw [drainReady, hpop]
      exact hstage
    | some popped =>
      obtain ⟨node, ready⟩ := popped
      have hvisit := visitNode_sorting hindex state node ready hpop h
      have horder : (visitNode index state node ready).order = state.order ++ [node] := visitNode_order state node ready
      rw [← horder] at hvisit
      rw [drainReady, hpop]
      refine ih _ ?_ hvisit
      rw [visitNode_order, List.length_append, List.length_singleton]
      omega

/-- The loop of `topologicalOrder` ends with nothing ready. -/
theorem topologicalOrder_stage (hindex : index.Coherent) :
    Stage index.heads (List.range index.size) (topologicalOrder index).order []
      (remaining index.heads (List.range index.size) (topologicalOrder index).order) :=
  drainReady_spec hindex index.size (topoStart index) (Nat.le_add_right ..) (topoStart_sorting hindex)

theorem topologicalOrder_nodup (hindex : index.Coherent) : (topologicalOrder index).order.Nodup := by
  have hnodup := (topologicalOrder_stage hindex).nodup
  rwa [List.append_nil] at hnodup

/-- An acyclic order holds every node. -/
theorem mem_topologicalOrder (hindex : index.Coherent) (h : (topologicalOrder index).acyclic = true) (v : ℕ) :
    v ∈ (topologicalOrder index).order ↔ v < index.size := by
  have hlength : (topologicalOrder index).order.length = index.size := of_decide_eq_true h
  have hbound : ∀ w ∈ (topologicalOrder index).order, w ∈ List.range index.size := fun w hw =>
    (topologicalOrder_stage hindex).mem w (List.mem_append_left _ hw)
  have hperm : (topologicalOrder index).order.Perm (List.range index.size) :=
    (List.subperm_of_subset (topologicalOrder_nodup hindex) hbound).perm_of_length_le (by simp [hlength])
  rw [hperm.mem_iff, List.mem_range]

/-! ### The order is greedy -/

theorem foldl_heapPush_heaped (values heap : List ℕ) (h : Heaped heap) : Heaped (values.foldl heapPush heap) := by
  induction values generalizing heap with
  | nil => exact h
  | cons v rest ih => exact ih (heapPush heap v) (heapPush_heaped heap v h)

theorem relaxArcs_heaped (arcs : List HardArc) (state : TopoState) (h : Heaped state.ready) :
    Heaped (arcs.foldl relaxArc state).ready := by
  induction arcs generalizing state with
  | nil => exact h
  | cons arc rest ih =>
    refine ih (relaxArc state arc) ?_
    unfold relaxArc
    dsimp only
    split
    · exact heapPush_heaped _ _ h
    · exact h

theorem drainReady_greedy (hindex : index.Coherent) (fuel : ℕ) (state : TopoState)
    (h : Sorting index state (remaining index.heads (List.range index.size) state.order)) (hheap : Heaped state.ready)
    (hgreedy : Greedy index.heads (List.range index.size) state.order) :
    Greedy index.heads (List.range index.size) (drainReady index fuel state).order := by
  induction fuel generalizing state with
  | zero => exact hgreedy
  | succ fuel ih =>
    cases hpop : heapPop state.ready with
    | none =>
      rw [drainReady, hpop]
      exact hgreedy
    | some popped =>
      obtain ⟨node, ready⟩ := popped
      have hvisit := visitNode_sorting hindex state node ready hpop h
      have horder : (visitNode index state node ready).order = state.order ++ [node] := visitNode_order state node ready
      obtain ⟨hrest, hleast⟩ := heapPop_heaped _ _ _ hheap hpop
      rw [drainReady, hpop]
      refine ih _ (horder ▸ hvisit) (relaxArcs_heaped _ _ hrest) (horder ▸ hgreedy.concat node fun w hw hfresh hsources => ?_)
      have hready := h.stage.available w hw hfresh hsources
      rcases List.mem_cons.mp ((heapPop_perm _ _ _ hpop).mem_iff.mp hready) with rfl | hready
      · exact le_refl _
      · exact hleast w hready

theorem topologicalOrder_greedy (hindex : index.Coherent) :
    Greedy index.heads (List.range index.size) (topologicalOrder index).order := by
  refine drainReady_greedy hindex index.size (topoStart index) (topoStart_sorting hindex)
    (foldl_heapPush_heaped _ _ fun i _ => rfl) ?_
  intro front v back heq
  simp [topoStart] at heq

/-! ### The index of a graph whose edges join its nodes -/

def GraphStructureView.hardEdges (graph : GraphStructureView) : List GraphEdge :=
  graph.edges.filter fun edge => edge.kind = .HARD

def GraphStructureView.place (graph : GraphStructureView) (nodeKey : JsString) : ℕ :=
  (graph.nodes.map GraphNode.nodeKey).idxOf nodeKey

/-- Every edge joins two nodes of the graph. -/
def GraphStructureView.Linked (graph : GraphStructureView) : Prop :=
  ∀ edge ∈ graph.edges, edge.producerNodeKey ∈ graph.nodes.map GraphNode.nodeKey
    ∧ edge.consumerNodeKey ∈ graph.nodes.map GraphNode.nodeKey

variable {graph : GraphStructureView}

theorem buildHardGraphIndex_size (graph : GraphStructureView) : (buildHardGraphIndex graph).size = graph.nodes.length :=
  List.length_map ..

theorem place_lt (graph : GraphStructureView) (nodeKey : JsString) :
    graph.place nodeKey < (buildHardGraphIndex graph).size ↔ nodeKey ∈ graph.nodes.map GraphNode.nodeKey :=
  List.idxOf_lt_length_iff

theorem outArcs_eq (graph : GraphStructureView) (i : ℕ) (hi : i < (buildHardGraphIndex graph).size) :
    (buildHardGraphIndex graph).outArcs i = ((graph.hardEdges.filter fun edge => graph.place edge.producerNodeKey = i).map
      fun edge => ⟨edge.edgeKey, graph.place edge.consumerNodeKey⟩).insertionSort
        fun a b => arcOrder (graph.nodes.map GraphNode.nodeKey) a b := by
  have hi' : i < (graph.nodes.map GraphNode.nodeKey).length := hi
  unfold HardGraphIndex.outArcs buildHardGraphIndex
  rw [List.getD, List.getElem?_map, List.getElem?_range hi', Option.map_some, Option.getD_some]
  rfl

theorem inArcs_eq (graph : GraphStructureView) (i : ℕ) (hi : i < (buildHardGraphIndex graph).size) :
    (buildHardGraphIndex graph).inArcs i = ((graph.hardEdges.filter fun edge => graph.place edge.consumerNodeKey = i).map
      fun edge => ⟨edge.edgeKey, graph.place edge.producerNodeKey⟩).insertionSort
        fun a b => arcOrder (graph.nodes.map GraphNode.nodeKey) a b := by
  have hi' : i < (graph.nodes.map GraphNode.nodeKey).length := hi
  unfold HardGraphIndex.inArcs buildHardGraphIndex
  rw [List.getD, List.getElem?_map, List.getElem?_range hi', Option.map_some, Option.getD_some]
  rfl

theorem heads_perm (graph : GraphStructureView) (i : ℕ) (hi : i < (buildHardGraphIndex graph).size) :
    ((buildHardGraphIndex graph).heads i).Perm ((graph.hardEdges.filter fun edge => graph.place edge.producerNodeKey = i).map
      fun edge => graph.place edge.consumerNodeKey) := by
  have hperm : ((buildHardGraphIndex graph).outArcs i).Perm
      ((graph.hardEdges.filter fun edge => graph.place edge.producerNodeKey = i).map
        fun edge => ⟨edge.edgeKey, graph.place edge.consumerNodeKey⟩) := by
    rw [outArcs_eq graph i hi]
    exact List.perm_insertionSort _ _
  have hheads := hperm.map HardArc.nodeIndex
  rw [List.map_map] at hheads
  exact hheads

theorem buildHardGraphIndex_coherent (h : graph.Linked) : (buildHardGraphIndex graph).Coherent := by
  have hedge : ∀ edge ∈ graph.hardEdges, edge ∈ graph.edges := fun edge hm => (List.mem_filter.mp hm).1
  constructor
  · intro u hu v hv
    obtain ⟨edge, hm, rfl⟩ := List.mem_map.mp ((heads_perm graph u hu).mem_iff.mp hv)
    exact (place_lt graph _).mpr (h edge (hedge edge (List.mem_filter.mp hm).1)).2
  · intro v hv
    have hheads : ((List.range (buildHardGraphIndex graph).size).flatMap (buildHardGraphIndex graph).heads).Perm
        (graph.hardEdges.map fun edge => graph.place edge.consumerNodeKey) := by
      refine (List.Perm.flatMap_left _ fun i hi => heads_perm graph i (List.mem_range.mp hi)).trans ?_
      have hall := flatMap_filter_perm (fun edge : GraphEdge => graph.place edge.producerNodeKey)
        (buildHardGraphIndex graph).size graph.hardEdges
        fun edge hm => (place_lt graph _).mpr (h edge (hedge edge hm)).1
      have hmap := hall.map fun edge => graph.place edge.consumerNodeKey
      rw [List.map_flatMap] at hmap
      exact hmap
    rw [hheads.count_eq, inArcs_eq graph v hv, List.length_insertionSort, List.length_map, List.count, List.countP_map,
      List.countP_eq_length_filter]
    rfl

end MoeNG.Graph

/-!
## Keys and places

The index works with the places of the nodes; the HARD relation is one of keys.
-/

namespace MoeNG.Graph
open MoeNG.Kernel MoeNG.Lib

def GraphStructureView.keyAt (graph : GraphStructureView) (i : ℕ) : JsString := (graph.nodes.map GraphNode.nodeKey).getD i []

def HardGraphIndex.tails (index : HardGraphIndex) (v : ℕ) : List ℕ := (index.inArcs v).map HardArc.nodeIndex

variable {graph : GraphStructureView}

theorem keyAt_place {nodeKey : JsString} (h : nodeKey ∈ graph.nodes.map GraphNode.nodeKey) :
    graph.keyAt (graph.place nodeKey) = nodeKey := by
  have hlt : graph.place nodeKey < (graph.nodes.map GraphNode.nodeKey).length := List.idxOf_lt_length_iff.mpr h
  rw [GraphStructureView.keyAt, List.getD, List.getElem?_eq_getElem hlt, Option.getD_some]
  exact List.getElem_idxOf _

theorem place_inj {u v : JsString} (hu : u ∈ graph.nodes.map GraphNode.nodeKey) (hv : v ∈ graph.nodes.map GraphNode.nodeKey)
    (h : graph.place u = graph.place v) : u = v := by
  rw [← keyAt_place hu, h, keyAt_place hv]

theorem keyAt_mem {i : ℕ} (h : i < (buildHardGraphIndex graph).size) : graph.keyAt i ∈ graph.nodes.map GraphNode.nodeKey := by
  have hlt : i < (graph.nodes.map GraphNode.nodeKey).length := h
  rw [GraphStructureView.keyAt, List.getD, List.getElem?_eq_getElem hlt]
  exact List.getElem_mem hlt

theorem place_keyAt (hnodup : (graph.nodes.map GraphNode.nodeKey).Nodup) {i : ℕ} (h : i < (buildHardGraphIndex graph).size) :
    graph.place (graph.keyAt i) = i := by
  have hlt : i < (graph.nodes.map GraphNode.nodeKey).length := h
  rw [GraphStructureView.keyAt, List.getD, List.getElem?_eq_getElem hlt]
  exact hnodup.idxOf_getElem i hlt

theorem range_keyAt (graph : GraphStructureView) :
    (List.range (buildHardGraphIndex graph).size).map graph.keyAt = graph.nodes.map GraphNode.nodeKey := by
  refine List.ext_getElem (by rw [List.length_map, List.length_range]; rfl) fun i hi hlt => ?_
  rw [List.getElem_map, List.getElem_range, GraphStructureView.keyAt, List.getD, List.getElem?_eq_getElem hlt]
  rfl

theorem keyAt_lt (hsorted : (graph.nodes.map GraphNode.nodeKey).Pairwise (· < ·)) {i j : ℕ} (hij : i < j)
    (hj : j < (buildHardGraphIndex graph).size) : graph.keyAt i < graph.keyAt j := by
  have hj' : j < (graph.nodes.map GraphNode.nodeKey).length := hj
  have hi' : i < (graph.nodes.map GraphNode.nodeKey).length := hij.trans hj'
  rw [GraphStructureView.keyAt, GraphStructureView.keyAt, List.getD, List.getD, List.getElem?_eq_getElem hi',
    List.getElem?_eq_getElem hj']
  exact List.pairwise_iff_getElem.mp hsorted i j hi' hj' hij

theorem node_at (hnodup : (graph.nodes.map GraphNode.nodeKey).Nodup) (i : ℕ) (hi : i < graph.nodes.length) :
    graph.place graph.nodes[i].nodeKey = i ∧ (buildHardGraphIndex graph).executionBearing.getD i false
      = graph.nodes[i].executionBearing := by
  have hlt : i < (graph.nodes.map GraphNode.nodeKey).length := by rwa [List.length_map]
  constructor
  · have hplace := hnodup.idxOf_getElem i hlt
    rwa [List.getElem_map] at hplace
  · show (graph.nodes.map GraphNode.executionBearing).getD i false = _
    rw [List.getD, List.getElem?_map, List.getElem?_eq_getElem hi]
    rfl

theorem mem_hardEdges (edge : GraphEdge) : edge ∈ graph.hardEdges ↔ edge ∈ graph.edges ∧ edge.kind = .HARD := by
  rw [GraphStructureView.hardEdges, List.mem_filter, decide_eq_true_eq]

theorem mem_outArcs {i : ℕ} (h : i < (buildHardGraphIndex graph).size) (arc : HardArc) :
    arc ∈ (buildHardGraphIndex graph).outArcs i ↔ ∃ edge ∈ graph.hardEdges, graph.place edge.producerNodeKey = i
      ∧ arc = ⟨edge.edgeKey, graph.place edge.consumerNodeKey⟩ := by
  rw [outArcs_eq graph i h, List.mem_insertionSort, List.mem_map]
  simp only [List.mem_filter, decide_eq_true_eq, and_assoc, @eq_comm _ _ arc]

theorem mem_inArcs {i : ℕ} (h : i < (buildHardGraphIndex graph).size) (arc : HardArc) :
    arc ∈ (buildHardGraphIndex graph).inArcs i ↔ ∃ edge ∈ graph.hardEdges, graph.place edge.consumerNodeKey = i
      ∧ arc = ⟨edge.edgeKey, graph.place edge.producerNodeKey⟩ := by
  rw [inArcs_eq graph i h, List.mem_insertionSort, List.mem_map]
  simp only [List.mem_filter, decide_eq_true_eq, and_assoc, @eq_comm _ _ arc]

theorem mem_heads {i : ℕ} (h : i < (buildHardGraphIndex graph).size) (j : ℕ) :
    j ∈ (buildHardGraphIndex graph).heads i ↔ ∃ edge ∈ graph.hardEdges, graph.place edge.producerNodeKey = i
      ∧ graph.place edge.consumerNodeKey = j := by
  rw [(heads_perm graph i h).mem_iff, List.mem_map]
  simp only [List.mem_filter, decide_eq_true_eq, and_assoc]

theorem mem_tails {i : ℕ} (h : i < (buildHardGraphIndex graph).size) (j : ℕ) :
    j ∈ (buildHardGraphIndex graph).tails i ↔ ∃ edge ∈ graph.hardEdges, graph.place edge.consumerNodeKey = i
      ∧ graph.place edge.producerNodeKey = j := by
  rw [HardGraphIndex.tails, List.mem_map]
  constructor
  · rintro ⟨arc, harc, rfl⟩
    obtain ⟨edge, hedge, hconsumer, rfl⟩ := (mem_inArcs h arc).mp harc
    exact ⟨edge, hedge, hconsumer, rfl⟩
  · rintro ⟨edge, hedge, hconsumer, rfl⟩
    exact ⟨_, (mem_inArcs h _).mpr ⟨edge, hedge, hconsumer, rfl⟩, rfl⟩

theorem mem_tails_iff {i j : ℕ} (hi : i < (buildHardGraphIndex graph).size) (hj : j < (buildHardGraphIndex graph).size) :
    j ∈ (buildHardGraphIndex graph).tails i ↔ i ∈ (buildHardGraphIndex graph).heads j := by
  rw [mem_tails hi, mem_heads hj]
  exact exists_congr fun edge => and_congr_right fun _ => and_comm

theorem hardStep_ends (h : graph.Linked) (u v : JsString) (hstep : graph.HardStep u v) :
    u ∈ graph.nodes.map GraphNode.nodeKey ∧ v ∈ graph.nodes.map GraphNode.nodeKey := by
  obtain ⟨edge, hedge, -, rfl, rfl⟩ := hstep
  exact h edge hedge

/-- The heads that the index lists are the consumers. -/
theorem hard_places (h : graph.Linked) :
    Places (buildHardGraphIndex graph).heads graph.HardStep graph.place fun key => key ∈ graph.nodes.map GraphNode.nodeKey where
  inj _ _ := place_inj
  ends := hardStep_ends h
  arc u v hstep := by
    have hu := (hardStep_ends h u v hstep).1
    obtain ⟨edge, hedge, hkind, rfl, rfl⟩ := hstep
    exact (mem_heads ((place_lt graph _).mpr hu) _).mpr ⟨edge, (mem_hardEdges edge).mpr ⟨hedge, hkind⟩, rfl, rfl⟩
  named u hu x hx := by
    obtain ⟨edge, hedge, hproducer, hconsumer⟩ := (mem_heads ((place_lt graph _).mpr hu) _).mp hx
    obtain ⟨hedge, hkind⟩ := (mem_hardEdges edge).mp hedge
    exact ⟨edge.consumerNodeKey, ⟨edge, hedge, hkind, place_inj (h edge hedge).1 hu hproducer, rfl⟩, hconsumer⟩

/-- And its tails are the producers. -/
theorem hard_places_back (h : graph.Linked) :
    Places (buildHardGraphIndex graph).tails (Function.swap graph.HardStep) graph.place
      fun key => key ∈ graph.nodes.map GraphNode.nodeKey where
  inj _ _ := place_inj
  ends u v hstep := (hardStep_ends h v u hstep).symm
  arc u v hstep := by
    have hu := (hardStep_ends h v u hstep).2
    obtain ⟨edge, hedge, hkind, rfl, rfl⟩ := hstep
    exact (mem_tails ((place_lt graph _).mpr hu) _).mpr ⟨edge, (mem_hardEdges edge).mpr ⟨hedge, hkind⟩, rfl, rfl⟩
  named u hu x hx := by
    obtain ⟨edge, hedge, hconsumer, hproducer⟩ := (mem_tails ((place_lt graph _).mpr hu) _).mp hx
    obtain ⟨hedge, hkind⟩ := (mem_hardEdges edge).mp hedge
    exact ⟨edge.producerNodeKey, ⟨edge, hedge, hkind, rfl, place_inj (h edge hedge).2 hu hconsumer⟩, hproducer⟩

theorem tails_lt (h : graph.Linked) {i : ℕ} (hi : i < (buildHardGraphIndex graph).size) (j : ℕ)
    (hj : j ∈ (buildHardGraphIndex graph).tails i) : j < (buildHardGraphIndex graph).size := by
  obtain ⟨edge, hedge, -, rfl⟩ := (mem_tails hi j).mp hj
  exact (place_lt graph _).mpr (h edge ((mem_hardEdges edge).mp hedge).1).1

theorem reaches_place (h : graph.Linked) {u v : JsString} (hu : u ∈ graph.nodes.map GraphNode.nodeKey)
    (hv : v ∈ graph.nodes.map GraphNode.nodeKey) :
    Reaches (buildHardGraphIndex graph).heads (graph.place u) (graph.place v) ↔ graph.HardReach u v :=
  (hard_places h).reaches_iff hu hv

theorem precedes_place (h : graph.Linked) {u v : JsString} (hu : u ∈ graph.nodes.map GraphNode.nodeKey)
    (hv : v ∈ graph.nodes.map GraphNode.nodeKey) :
    Precedes (buildHardGraphIndex graph).heads (graph.place u) (graph.place v) ↔ graph.HardBefore u v :=
  (hard_places h).precedes_iff hu hv

theorem reaches_back_place (h : graph.Linked) {u v : JsString} (hu : u ∈ graph.nodes.map GraphNode.nodeKey)
    (hv : v ∈ graph.nodes.map GraphNode.nodeKey) :
    Reaches (buildHardGraphIndex graph).tails (graph.place u) (graph.place v) ↔ graph.HardReach v u :=
  ((hard_places_back h).reaches_iff hu hv).trans (Relation.reflTransGen_swap)

theorem hardBefore_ends (h : graph.Linked) {u v : JsString} (hpath : graph.HardBefore u v) :
    u ∈ graph.nodes.map GraphNode.nodeKey ∧ v ∈ graph.nodes.map GraphNode.nodeKey := by
  obtain ⟨w, hfirst, -⟩ := Relation.TransGen.head'_iff.mp hpath
  obtain ⟨x, -, hlast⟩ := Relation.TransGen.tail'_iff.mp hpath
  exact ⟨(hardStep_ends h u w hfirst).1, (hardStep_ends h x v hlast).2⟩

end MoeNG.Graph
