import MoeNG.Graph.Counterfactual
import MoeNG.Graph.Cycles
import MoeNG.Graph.HardPaths

/-!
# A graph without one of its edges
-/

namespace MoeNG.Graph
open MoeNG.Kernel MoeNG.Lib

variable {graph : GraphStructureView} {edge : GraphEdge} {edgeKey : JsString}

/-! ### What is left -/

theorem mem_withoutEdge (other : GraphEdge) : other ∈ (graph.withoutEdge edgeKey).edges ↔ other ∈ graph.edges
    ∧ other.edgeKey ≠ edgeKey := by
  show other ∈ graph.edges.filter _ ↔ _
  rw [List.mem_filter, decide_eq_true_eq]

theorem hardStep_of_without {u v : JsString} (h : (graph.withoutEdge edgeKey).HardStep u v) : graph.HardStep u v := by
  obtain ⟨other, hother, hkind, hproducer, hconsumer⟩ := h
  exact ⟨other, ((mem_withoutEdge other).mp hother).1, hkind, hproducer, hconsumer⟩

theorem hardBefore_of_without {u v : JsString} (h : (graph.withoutEdge edgeKey).HardBefore u v) : graph.HardBefore u v :=
  h.lift id fun _ _ => hardStep_of_without

theorem hardPath_of_without {path : List JsString} (h : HardPath (graph.withoutEdge edgeKey) path) : HardPath graph path :=
  ⟨h.declared, h.joined.imp fun _ _ => hardStep_of_without⟩

/-- A step of the graph is left, or it is the removed edge. -/
theorem hardStep_cases (edgeKey : JsString) {u v : JsString} (h : graph.HardStep u v) : (graph.withoutEdge edgeKey).HardStep u v
    ∨ ∃ removed ∈ graph.edges, removed.edgeKey = edgeKey ∧ removed.producerNodeKey = u ∧ removed.consumerNodeKey = v := by
  obtain ⟨other, hother, hkind, hproducer, hconsumer⟩ := h
  by_cases hkey : other.edgeKey = edgeKey
  · exact Or.inr ⟨other, hother, hkey, hproducer, hconsumer⟩
  · exact Or.inl ⟨other, (mem_withoutEdge other).mpr ⟨hother, hkey⟩, hkind, hproducer, hconsumer⟩

theorem Sorted.without (h : Sorted graph) (edgeKey : JsString) : Sorted (graph.withoutEdge edgeKey) := by
  have hlinked : (graph.withoutEdge edgeKey).Linked := fun other hother => h.linked other ((mem_withoutEdge other).mp hother).1
  refine ⟨hlinked, h.distinct, (acyclic_iff hlinked h.distinct).mpr fun key hcycle => ?_⟩
  exact (acyclic_iff h.linked h.distinct).mp h.acyclic key (hardBefore_of_without hcycle)

theorem maxStages_le {count count' : ℕ} (h : MaxStages graph count) (h' : MaxStages (graph.withoutEdge edgeKey) count') :
    count' ≤ count := by
  obtain ⟨path, hpath, hcount⟩ := h'.attained
  rw [← hcount]
  exact h.bound path (hardPath_of_without hpath)

/-! ### Another path -/

/-- A HARD edge of a sorted graph, the only one with its key. -/
structure Removing (graph : GraphStructureView) (edge : GraphEdge) : Prop where
  sorted : Sorted graph
  mem : edge ∈ graph.edges
  hard : edge.kind = .HARD
  unique : ∀ other ∈ graph.edges, other.edgeKey = edge.edgeKey → other = edge

theorem Removing.acyclic (h : Removing graph edge) (key : JsString) : ¬ graph.HardBefore key key :=
  (acyclic_iff h.sorted.linked h.sorted.distinct).mp h.sorted.acyclic key

theorem Removing.step_cases (h : Removing graph edge) {u v : JsString} (hstep : graph.HardStep u v) :
    (graph.withoutEdge edge.edgeKey).HardStep u v ∨ u = edge.producerNodeKey ∧ v = edge.consumerNodeKey := by
  rcases hardStep_cases edge.edgeKey hstep with hleft | ⟨removed, hmem, hkey, rfl, rfl⟩
  · exact Or.inl hleft
  · rw [h.unique removed hmem hkey]
    exact Or.inr ⟨rfl, rfl⟩

/-- From a node that does not lead to its producer the edge is not taken. -/
theorem Removing.reach_without (h : Removing graph edge) {u v : JsString} (hreach : graph.HardReach u v)
    (hfree : ¬ graph.HardReach u edge.producerNodeKey) : (graph.withoutEdge edge.edgeKey).HardReach u v := by
  induction hreach using Relation.ReflTransGen.head_induction_on with
  | refl => exact Relation.ReflTransGen.refl
  | head hstep _ ih =>
    rcases h.step_cases hstep with hleft | ⟨rfl, -⟩
    · exact Relation.ReflTransGen.head hleft (ih fun hback => hfree (Relation.ReflTransGen.head hstep hback))
    · exact absurd Relation.ReflTransGen.refl hfree

/-- The endpoints are joined without the edge when another edge of the producer leads to the consumer. -/
theorem Removing.bypass_iff (h : Removing graph edge) :
    (graph.withoutEdge edge.edgeKey).HardBefore edge.producerNodeKey edge.consumerNodeKey
      ↔ ∃ other ∈ graph.edges, other.kind = .HARD ∧ other.edgeKey ≠ edge.edgeKey
        ∧ other.producerNodeKey = edge.producerNodeKey ∧ graph.HardReach other.consumerNodeKey edge.consumerNodeKey := by
  constructor
  · intro hpath
    obtain ⟨v, ⟨other, hother, hkind, hproducer, rfl⟩, hreach⟩ := Relation.TransGen.head'_iff.mp hpath
    obtain ⟨hmem, hkey⟩ := (mem_withoutEdge other).mp hother
    exact ⟨other, hmem, hkind, hkey, hproducer, hreach.lift id fun _ _ => hardStep_of_without⟩
  · rintro ⟨other, hmem, hkind, hkey, hproducer, hreach⟩
    refine Relation.TransGen.head' ⟨other, (mem_withoutEdge other).mpr ⟨hmem, hkey⟩, hkind, hproducer, rfl⟩
      (h.reach_without hreach fun hback => ?_)
    exact h.acyclic _ (Relation.TransGen.head' ⟨other, hmem, hkind, hproducer, rfl⟩ hback)

section Bypassed
variable (h : Removing graph edge)
  (hbypass : (graph.withoutEdge edge.edgeKey).HardBefore edge.producerNodeKey edge.consumerNodeKey)
include h hbypass

/-- With another path nothing is cut off. -/
theorem Removing.reach_bypassed {u v : JsString} (hreach : graph.HardReach u v) :
    (graph.withoutEdge edge.edgeKey).HardReach u v := by
  induction hreach with
  | refl => exact Relation.ReflTransGen.refl
  | tail _ hstep ih =>
    rcases h.step_cases hstep with hleft | ⟨rfl, rfl⟩
    · exact ih.tail hleft
    · exact ih.trans hbypass.to_reflTransGen

theorem Removing.producer_bypassed {v : JsString} (hv : ∃ u, graph.HardStep u v) :
    ∃ u, (graph.withoutEdge edge.edgeKey).HardStep u v := by
  obtain ⟨u, hstep⟩ := hv
  rcases h.step_cases hstep with hleft | ⟨-, rfl⟩
  · exact ⟨u, hleft⟩
  · obtain ⟨w, -, hlast⟩ := Relation.TransGen.tail'_iff.mp hbypass
    exact ⟨w, hlast⟩

end Bypassed

/-! ### Roots -/

/-- An execution-bearing node that no HARD edge leads to. -/
structure ExecutionRoot (graph : GraphStructureView) (nodeKey : JsString) : Prop where
  declared : nodeKey ∈ graph.nodes.map GraphNode.nodeKey
  bears : graph.bears nodeKey = true
  source : ∀ u, ¬ graph.HardStep u nodeKey

theorem inArcs_isEmpty (hlinked : graph.Linked) (hnodup : (graph.nodes.map GraphNode.nodeKey).Nodup) {i : ℕ}
    (hi : i < (buildHardGraphIndex graph).size) :
    ((buildHardGraphIndex graph).inArcs i).isEmpty = true ↔ ∀ u, ¬ graph.HardStep u (graph.keyAt i) := by
  rw [List.isEmpty_iff, List.eq_nil_iff_forall_not_mem]
  constructor
  · rintro hempty u ⟨edge, hedge, hkind, -, hconsumer⟩
    refine hempty ⟨edge.edgeKey, graph.place edge.producerNodeKey⟩
      ((mem_inArcs hi _).mpr ⟨edge, (mem_hardEdges edge).mpr ⟨hedge, hkind⟩, ?_, rfl⟩)
    rw [hconsumer, place_keyAt hnodup hi]
  · intro hnone arc harc
    exact hnone _ (hardStep_keyAt hlinked hi (List.mem_map_of_mem harc))

theorem bearing_iff (hnodup : (graph.nodes.map GraphNode.nodeKey).Nodup) {i : ℕ} (hi : i < (buildHardGraphIndex graph).size) :
    (buildHardGraphIndex graph).executionBearing.getD i false = graph.bears (graph.keyAt i) := by
  have hweight := execution_place hnodup (keyAt_mem hi)
  rw [place_keyAt hnodup hi, HardGraphIndex.execution] at hweight
  cases hflag : (buildHardGraphIndex graph).executionBearing.getD i false <;> cases hbears : graph.bears (graph.keyAt i)
  · rfl
  · rw [hflag, hbears] at hweight
    simp at hweight
  · rw [hflag, hbears] at hweight
    simp at hweight
  · rfl

theorem mem_roots (hlinked : graph.Linked) (hnodup : (graph.nodes.map GraphNode.nodeKey).Nodup) (key : JsString) :
    key ∈ executionBearingHardRoots (buildHardGraphIndex graph) ↔ ExecutionRoot graph key := by
  rw [executionBearingHardRoots, List.mem_map]
  constructor
  · rintro ⟨i, hi, rfl⟩
    rw [List.mem_filter, List.mem_range, Bool.and_eq_true] at hi
    obtain ⟨hlt, hbearing, hempty⟩ := hi
    exact ⟨keyAt_mem hlt, by rwa [bearing_iff hnodup hlt] at hbearing, (inArcs_isEmpty hlinked hnodup hlt).mp hempty⟩
  · rintro ⟨hdeclared, hbears, hsource⟩
    have hlt := (place_lt graph key).mpr hdeclared
    have hkey := keyAt_place hdeclared
    refine ⟨graph.place key, ?_, hkey⟩
    rw [List.mem_filter, List.mem_range, Bool.and_eq_true, bearing_iff hnodup hlt, inArcs_isEmpty hlinked hnodup hlt, hkey]
    exact ⟨hlt, hbears, hsource⟩

/-- With another path the roots are the same ones. -/
theorem Removing.roots_bypassed (h : Removing graph edge)
    (hbypass : (graph.withoutEdge edge.edgeKey).HardBefore edge.producerNodeKey edge.consumerNodeKey) :
    executionBearingHardRoots (buildHardGraphIndex (graph.withoutEdge edge.edgeKey))
      = executionBearingHardRoots (buildHardGraphIndex graph) := by
  have hleft := h.sorted.without edge.edgeKey
  rw [executionBearingHardRoots, executionBearingHardRoots]
  show List.map graph.keyAt _ = List.map graph.keyAt _
  refine congrArg _ (List.filter_congr fun i hi => ?_)
  have hlt : i < (buildHardGraphIndex graph).size := List.mem_range.mp hi
  have hempty : ((buildHardGraphIndex (graph.withoutEdge edge.edgeKey)).inArcs i).isEmpty
      = ((buildHardGraphIndex graph).inArcs i).isEmpty := by
    rw [Bool.eq_iff_iff, inArcs_isEmpty hleft.linked hleft.distinct hlt, inArcs_isEmpty h.sorted.linked h.sorted.distinct hlt]
    constructor
    · exact fun hnone u hstep => (h.producer_bypassed hbypass ⟨u, hstep⟩).elim hnone
    · exact fun hnone u hstep => hnone u (hardStep_of_without hstep)
  rw [hempty]
  rfl

end MoeNG.Graph
