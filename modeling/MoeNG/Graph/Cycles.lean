import MoeNG.Graph.Identity
import MoeNG.Graph.CycleCore
import MoeNG.Graph.TopoOrder

/-!
# Cycles and closure of the HARD relation

The order of `topologicalOrder` is complete when no node is on a cycle, the
cycle core is what lies on one, and the reverse search of `closureOrphans` finds
what leads to the completion node.
-/

namespace MoeNG.Graph
open MoeNG.Kernel MoeNG.Lib

variable {graph : GraphStructureView}

/-! ### Acyclic graphs -/

theorem acyclic_iff_precedes {index : HardGraphIndex} (h : index.Coherent) :
    (topologicalOrder index).acyclic = true ↔ ∀ i < index.size, ¬ Precedes index.heads i i := by
  have hstage := topologicalOrder_stage h
  constructor
  · intro hacyclic i hi
    have hordered : ∀ v ∈ List.range index.size, v ∈ (topologicalOrder index).order := fun v hv =>
      (mem_topologicalOrder h hacyclic v).mpr (List.mem_range.mp hv)
    exact hstage.acyclic hordered (fun u hu v hv => List.mem_range.mpr (h.bounded u (List.mem_range.mp hu) v hv)) i
      (List.mem_range.mpr hi)
  · intro hfree
    have hcomplete := hstage.complete fun v hv => hfree v (List.mem_range.mp hv)
    have hbound : ∀ v ∈ (topologicalOrder index).order, v ∈ List.range index.size := fun v hv =>
      hstage.mem v (List.mem_append_left _ hv)
    have hperm : (topologicalOrder index).order.Perm (List.range index.size) :=
      (List.perm_ext_iff_of_nodup (topologicalOrder_nodup h) List.nodup_range).mpr fun v => ⟨hbound v, hcomplete v⟩
    exact decide_eq_true (hperm.length_eq.trans List.length_range)

/-- A graph is sorted exactly when no HARD path leads from a node to itself. -/
theorem acyclic_iff (hlinked : graph.Linked) (hnodup : (graph.nodes.map GraphNode.nodeKey).Nodup) :
    (topologicalOrder (buildHardGraphIndex graph)).acyclic = true ↔ ∀ key, ¬ graph.HardBefore key key := by
  rw [acyclic_iff_precedes (buildHardGraphIndex_coherent hlinked)]
  constructor
  · intro h key hcycle
    have hkey := (hardBefore_ends hlinked hcycle).1
    exact h (graph.place key) ((place_lt graph key).mpr hkey) ((precedes_place hlinked hkey hkey).mpr hcycle)
  · intro h i hi hcycle
    have hkey := keyAt_mem hi
    rw [← place_keyAt hnodup hi] at hcycle
    exact h (graph.keyAt i) ((precedes_place hlinked hkey hkey).mp hcycle)

/-! ### The cycle core -/

theorem two_le_countP_iff {A : Type} [DecidableEq A] (p : A → Bool) (l : List A) (hl : l.Nodup) (x : A) (hx : x ∈ l)
    (hp : p x = true) :
    2 ≤ l.countP p ↔ ∃ y ∈ l, y ≠ x ∧ p y = true := by
  rw [(List.perm_cons_erase hx).countP_eq, List.countP_cons, if_pos hp]
  have hrest : 2 ≤ (l.erase x).countP p + 1 ↔ 0 < (l.erase x).countP p := by omega
  rw [hrest, List.countP_pos_iff]
  simp only [hl.mem_erase_iff]
  exact ⟨fun ⟨y, ⟨hne, hy⟩, hpy⟩ => ⟨y, hy, hne, hpy⟩, fun ⟨y, hy, hne, hpy⟩ => ⟨y, ⟨hne, hy⟩, hpy⟩⟩

theorem sameComponent_iff {index : HardGraphIndex} (h : index.Coherent) (hslots : index.hardOut.length = index.size) {x y : ℕ}
    (hx : x < index.size) (hy : y < index.size) :
    ((components index).sccId.getD y 0).toNat = ((components index).sccId.getD x 0).toNat ↔ Connected index.heads x y := by
  obtain ⟨hpos, hsame, -⟩ := components_spec h hslots x hx
  obtain ⟨hpos', -⟩ := components_spec h hslots y hy
  have hx' : 0 ≤ (components index).sccId.getD x 0 := hpos
  have hy' : 0 ≤ (components index).sccId.getD y 0 := hpos'
  rw [← hsame y hy]
  show _ ↔ (components index).sccId.getD x 0 = (components index).sccId.getD y 0
  omega

theorem mem_core_nodes {index : HardGraphIndex} (h : index.Coherent) (hslots : index.hardOut.length = index.size)
    (hloops : ∀ u < index.size, u ∉ index.heads u) (x : ℕ) :
    x ∈ (findCycleCore index).nodeIndices ↔ x < index.size ∧ Precedes index.heads x x := by
  show x ∈ (List.range index.size).filter _ ↔ _
  rw [List.mem_filter, List.mem_range]
  refine and_congr_right fun hx => ?_
  obtain ⟨hpos, hsame, hsize⟩ := components_spec h hslots x hx
  rw [decide_eq_true_eq, precedes_self_iff (hloops x hx)]
  show 2 ≤ (components index).sccSize.getD ((components index).component x).toNat 0 ↔ _
  rw [hsize, two_le_countP_iff _ _ List.nodup_range x (List.mem_range.mpr hx) (decide_eq_true rfl)]
  constructor
  · rintro ⟨y, hy, hne, heq⟩
    exact ⟨y, hne, (hsame y (List.mem_range.mp hy)).mp (of_decide_eq_true heq)⟩
  · rintro ⟨y, hne, hconnected⟩
    have hy : y < index.size := by
      rcases Relation.ReflTransGen.cases_tail hconnected.1 with heq | ⟨z, hreach, harc⟩
      · rwa [heq]
      · have hz : ∀ z, Reaches index.heads x z → z < index.size := by
          intro z hz
          induction hz with
          | refl => exact hx
          | tail _ harc ih => exact h.bounded _ ih _ harc
        exact h.bounded z (hz z hreach) y harc
    exact ⟨y, List.mem_range.mpr hy, hne, decide_eq_true ((hsame y hy).mpr hconnected)⟩

theorem mem_core_edges {index : HardGraphIndex} (h : index.Coherent) (hslots : index.hardOut.length = index.size)
    (hloops : ∀ u < index.size, u ∉ index.heads u) (edgeKey : JsString) :
    edgeKey ∈ (findCycleCore index).edgeKeys
      ↔ ∃ u < index.size, ∃ arc ∈ index.outArcs u, arc.edgeKey = edgeKey ∧ Reaches index.heads arc.nodeIndex u := by
  have hcore := mem_core_nodes h hslots hloops
  show edgeKey ∈ sortedCopy _ ↔ _
  rw [sortedCopy, List.mem_insertionSort, List.mem_flatMap]
  constructor
  · rintro ⟨u, hu, hkey⟩
    obtain ⟨hlt, -⟩ := (hcore u).mp hu
    obtain ⟨arc, harc, rfl⟩ := List.mem_map.mp hkey
    obtain ⟨harc, hid⟩ := List.mem_filter.mp harc
    have hhead := h.bounded u hlt arc.nodeIndex (List.mem_map_of_mem harc)
    exact ⟨u, hlt, arc, harc, rfl, ((sameComponent_iff h hslots hlt hhead).mp (of_decide_eq_true hid)).2⟩
  · rintro ⟨u, hlt, arc, harc, rfl, hback⟩
    have hstep : arc.nodeIndex ∈ index.heads u := List.mem_map_of_mem harc
    have hhead := h.bounded u hlt arc.nodeIndex hstep
    refine ⟨u, (hcore u).mpr ⟨hlt, Relation.TransGen.head' hstep hback⟩, List.mem_map_of_mem (List.mem_filter.mpr ⟨harc, ?_⟩)⟩
    exact decide_eq_true ((sameComponent_iff h hslots hlt hhead).mpr ⟨Relation.ReflTransGen.single hstep, hback⟩)

theorem hardOut_length (graph : GraphStructureView) :
    (buildHardGraphIndex graph).hardOut.length = (buildHardGraphIndex graph).size := by
  show ((List.range (graph.nodes.map GraphNode.nodeKey).length).map _).length = _
  rw [List.length_map, List.length_range]
  rfl

/-- No HARD edge joins a node to itself. -/
def GraphStructureView.Selfless (graph : GraphStructureView) : Prop :=
  ∀ edge ∈ graph.edges, edge.producerNodeKey ≠ edge.consumerNodeKey

theorem heads_selfless (hlinked : graph.Linked) (hselfless : graph.Selfless) (u : ℕ) (hu : u < (buildHardGraphIndex graph).size) :
    u ∉ (buildHardGraphIndex graph).heads u := by
  intro hloop
  obtain ⟨edge, hedge, hproducer, hconsumer⟩ := (mem_heads hu u).mp hloop
  have hmem := ((mem_hardEdges edge).mp hedge).1
  exact hselfless edge hmem (place_inj (hlinked edge hmem).1 (hlinked edge hmem).2 (hproducer.trans hconsumer.symm))

/-- The node keys of the issue are the nodes on HARD cycles. -/
theorem mem_cycle_nodes (hlinked : graph.Linked) (hnodup : (graph.nodes.map GraphNode.nodeKey).Nodup)
    (hselfless : graph.Selfless) (key : JsString) :
    key ∈ (cycleIssue (buildHardGraphIndex graph)).nodeKeys ↔ graph.HardBefore key key := by
  have hcore := mem_core_nodes (buildHardGraphIndex_coherent hlinked) (hardOut_length graph) (heads_selfless hlinked hselfless)
  show key ∈ sortedCopy _ ↔ _
  rw [sortedCopy, List.mem_insertionSort, List.mem_map]
  constructor
  · rintro ⟨i, hi, rfl⟩
    obtain ⟨hlt, hcycle⟩ := (hcore i).mp hi
    have hkey := keyAt_mem hlt
    rw [← place_keyAt hnodup hlt] at hcycle
    exact (precedes_place hlinked hkey hkey).mp hcycle
  · intro hcycle
    have hkey := (hardBefore_ends hlinked hcycle).1
    exact ⟨graph.place key, (hcore _).mpr ⟨(place_lt graph key).mpr hkey, (precedes_place hlinked hkey hkey).mpr hcycle⟩,
      keyAt_place hkey⟩

/-- And its edge keys the HARD edges on HARD cycles. -/
theorem mem_cycle_edges (hlinked : graph.Linked) (hselfless : graph.Selfless) (edgeKey : JsString) :
    edgeKey ∈ (cycleIssue (buildHardGraphIndex graph)).edgeKeys
      ↔ ∃ edge ∈ graph.edges, edge.kind = .HARD ∧ edge.edgeKey = edgeKey
          ∧ graph.HardReach edge.consumerNodeKey edge.producerNodeKey := by
  have hcore := mem_core_edges (buildHardGraphIndex_coherent hlinked) (hardOut_length graph) (heads_selfless hlinked hselfless)
  refine (hcore edgeKey).trans ?_
  constructor
  · rintro ⟨u, hlt, arc, harc, rfl, hback⟩
    obtain ⟨edge, hedge, rfl, rfl⟩ := (mem_outArcs hlt arc).mp harc
    obtain ⟨hmem, hkind⟩ := (mem_hardEdges edge).mp hedge
    exact ⟨edge, hmem, hkind, rfl, (reaches_place hlinked (hlinked edge hmem).2 (hlinked edge hmem).1).mp hback⟩
  · rintro ⟨edge, hmem, hkind, rfl, hback⟩
    have hlt := (place_lt graph _).mpr (hlinked edge hmem).1
    exact ⟨_, hlt, _, (mem_outArcs hlt _).mpr ⟨edge, (mem_hardEdges edge).mpr ⟨hmem, hkind⟩, rfl, rfl⟩, rfl,
      (reaches_place hlinked (hlinked edge hmem).2 (hlinked edge hmem).1).mpr hback⟩

/-! ### Closure -/

/-- The flags of a search are those of the nodes it has met. -/
structure Marked (out : ℕ → List ℕ) (size start : ℕ) (done queue : List ℕ) (reached : List Bool) (todo : List ℕ) : Prop where
  sweep : Sweep out (List.range size) start done queue todo
  length : reached.length = size
  flags : ∀ x, reached.getD x false = true ↔ x ∈ done ++ queue

section Search
variable {out : ℕ → List ℕ} {size start : ℕ} {done queue todo : List ℕ} {reached : List Bool}

theorem Marked.begin (h : start < size) : Marked out size start [] [start] ((List.replicate size false).set start true) [] := by
  refine ⟨Sweep.begin (List.mem_range.mpr h), by rw [List.length_set, List.length_replicate], fun x => ?_⟩
  rw [getD_set_eq _ _ _ _ _ (by rwa [List.length_replicate]), List.getD, List.getElem?_replicate]
  by_cases hx : x = start
  · simp [hx]
  · rw [if_neg hx]
    split <;> simp [hx]

theorem Marked.arc (arc : HardArc) (h : Marked out size start done queue reached (arc.nodeIndex :: todo)) :
    Marked out size start done (reachArc (queue, reached) arc).1 (reachArc (queue, reached) arc).2 todo := by
  rw [reachArc]
  by_cases hflag : reached.getD arc.nodeIndex false = true
  · rw [if_pos hflag]
    exact ⟨h.sweep.old ((h.flags _).mp hflag), h.length, h.flags⟩
  · rw [if_neg hflag]
    have hnew := mt (h.flags arc.nodeIndex).mpr hflag
    have hlt := List.mem_range.mp (h.sweep.ahead arc.nodeIndex (List.mem_cons_self ..)).1
    refine ⟨h.sweep.new hnew, (List.length_set ..).trans h.length, fun x => ?_⟩
    rw [getD_set_eq _ _ _ _ _ (by rw [h.length]; exact hlt), ← List.append_assoc, List.mem_append, List.mem_singleton]
    by_cases hx : x = arc.nodeIndex
    · simp [hx]
    · rw [if_neg hx, h.flags x, or_iff_left hx]

theorem Marked.arcs (arcs : List HardArc) (h : Marked out size start done queue reached (arcs.map HardArc.nodeIndex)) :
    Marked out size start done (arcs.foldl reachArc (queue, reached)).1 (arcs.foldl reachArc (queue, reached)).2 [] := by
  induction arcs generalizing queue reached with
  | nil => exact h
  | cons arc rest ih => exact ih (h.arc arc)

theorem Marked.pop {node : ℕ} (h : Marked out size start done (node :: queue) reached []) (hout : ∀ y ∈ out node, y < size) :
    Marked out size start (done ++ [node]) queue reached (out node) :=
  ⟨h.sweep.pop fun y hy => List.mem_range.mpr (hout y hy), h.length, fun x => by
    rw [h.flags, List.append_assoc, List.singleton_append]⟩

theorem Marked.top_lt {node : ℕ} (h : Marked out size start done (node :: queue) reached todo) : node < size :=
  List.mem_range.mp (h.sweep.mem node (List.mem_append_right _ (List.mem_cons_self ..)))

theorem Marked.queue_nil (h : Marked out size start done queue reached todo) (hlength : size ≤ done.length) : queue = [] := by
  have hle := h.sweep.length_le
  rw [List.length_range] at hle
  exact List.length_eq_zero_iff.mp (by omega)

end Search

theorem reachCompletion_marked {index : HardGraphIndex} (hback : ∀ i < index.size, ∀ j ∈ index.tails i, j < index.size)
    {start : ℕ} (fuel : ℕ) (done queue : List ℕ) (reached : List Bool) (hfuel : index.size ≤ fuel + done.length)
    (h : Marked index.tails index.size start done queue reached []) (x : ℕ) :
    (reachCompletion index fuel queue reached).getD x false = true ↔ Reaches index.tails start x := by
  induction fuel generalizing done queue reached with
  | zero =>
    obtain rfl := h.queue_nil (by omega)
    rw [reachCompletion, h.flags, List.append_nil]
    exact h.sweep.exact x
  | succ fuel ih =>
    cases queue with
    | nil =>
      rw [reachCompletion, h.flags, List.append_nil]
      exact h.sweep.exact x
    | cons node queue =>
      rw [reachCompletion]
      refine ih (done ++ [node]) _ _ ?_ ((h.pop (hback node h.top_lt)).arcs (index.inArcs node))
      rw [List.length_append, List.length_singleton]
      omega

theorem reachCompletion_iff (hlinked : graph.Linked) (hcompletion : graph.completionNodeKey ∈ graph.nodes.map GraphNode.nodeKey)
    {key : JsString} (hkey : key ∈ graph.nodes.map GraphNode.nodeKey) :
    (reachCompletion (buildHardGraphIndex graph) (buildHardGraphIndex graph).size [(buildHardGraphIndex graph).completionIndex]
      ((List.replicate (buildHardGraphIndex graph).size false).set (buildHardGraphIndex graph).completionIndex true)).getD
        (graph.place key) false = true ↔ graph.HardReach key graph.completionNodeKey := by
  have hstart : (buildHardGraphIndex graph).completionIndex < (buildHardGraphIndex graph).size :=
    (place_lt graph _).mpr hcompletion
  rw [reachCompletion_marked (fun i hi j hj => tails_lt hlinked hi j hj) _ [] _ _ (Nat.le_add_right ..) (Marked.begin hstart)]
  exact reaches_back_place hlinked hcompletion hkey

/-- Nothing is orphaned when every execution-bearing node is the completion node or leads to it. -/
theorem closureOrphans_nil (hlinked : graph.Linked) (hnodup : (graph.nodes.map GraphNode.nodeKey).Nodup)
    (hcompletion : graph.completionNodeKey ∈ graph.nodes.map GraphNode.nodeKey) :
    closureOrphans (buildHardGraphIndex graph) = []
      ↔ ∀ node ∈ graph.nodes, node.executionBearing = true → graph.HardReach node.nodeKey graph.completionNodeKey := by
  rw [closureOrphans, List.map_eq_nil_iff, List.filter_eq_nil_iff]
  constructor
  · intro h node hnode hbearing
    obtain ⟨i, hi, rfl⟩ := List.getElem_of_mem hnode
    obtain ⟨hplace, hbears⟩ := node_at hnodup i hi
    have hfree := h i (List.mem_range.mpr (by rwa [buildHardGraphIndex_size]))
    rw [hbears, hbearing, Bool.true_and, Bool.not_eq_true', Bool.not_eq_false, ← hplace] at hfree
    exact (reachCompletion_iff hlinked hcompletion (List.mem_map_of_mem hnode)).mp hfree
  · intro h i hi
    rw [List.mem_range, buildHardGraphIndex_size] at hi
    obtain ⟨hplace, hbears⟩ := node_at hnodup i hi
    have hnode : graph.nodes[i] ∈ graph.nodes := List.getElem_mem hi
    rw [hbears, Bool.and_eq_true, not_and, Bool.not_eq_true', Bool.not_eq_false]
    intro hbearing
    have hreach := (reachCompletion_iff hlinked hcompletion (List.mem_map_of_mem hnode)).mpr (h _ hnode hbearing)
    rwa [hplace] at hreach

end MoeNG.Graph
