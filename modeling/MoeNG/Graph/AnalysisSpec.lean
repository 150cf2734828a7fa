import MoeNG.Graph.HardPaths

/-!
# Structural analysis is exact (`analyze-graph.ts:53-247`)
-/

namespace MoeNG.Graph
open MoeNG.Kernel MoeNG.Lib

/-- Every node once, and every producer before its consumers. -/
structure TopologicalOrder (graph : GraphStructureView) (order : List JsString) : Prop where
  perm : order.Perm (graph.nodes.map GraphNode.nodeKey)
  before : ∀ front v back, order = front ++ v :: back → ∀ u, graph.HardStep u v → u ∈ front

variable {graph : GraphStructureView}

/-! ### The order -/

theorem Sorted.ordered (h : Sorted graph) :
    TopologicalOrder graph ((topologicalOrder (buildHardGraphIndex graph)).order.map graph.keyAt) := by
  refine ⟨?_, fun front v back hsplit u hstep => ?_⟩
  · rw [← range_keyAt graph]
    exact h.perm.map graph.keyAt
  · obtain ⟨before, after, horder, rfl, hafter⟩ := List.map_eq_append_iff.mp hsplit
    obtain ⟨i, back', rfl, rfl, -⟩ := List.map_eq_cons_iff.mp hafter
    obtain ⟨hu, -⟩ := hardStep_ends h.linked u _ hstep
    have hi : i < (buildHardGraphIndex graph).size :=
      (h.mem_order i).mp (horder ▸ List.mem_append_right _ (List.mem_cons_self ..))
    have harc := (hard_places h.linked).arc u _ hstep
    rw [place_keyAt h.distinct hi] at harc
    have hmem := h.closed before i back' horder (graph.place u) (List.mem_range.mpr ((place_lt graph u).mpr hu)) harc
    exact List.mem_map.mpr ⟨graph.place u, hmem, keyAt_place hu⟩

theorem Sorted.least (h : Sorted graph) (hkeys : (graph.nodes.map GraphNode.nodeKey).Pairwise (· < ·)) {other : List JsString}
    (hother : TopologicalOrder graph other) :
    (topologicalOrder (buildHardGraphIndex graph)).order.map graph.keyAt ≤ other := by
  have hdeclared : ∀ key ∈ other, key ∈ graph.nodes.map GraphNode.nodeKey := fun key hkey => hother.perm.mem_iff.mp hkey
  have hback : (other.map graph.place).map graph.keyAt = other := by
    rw [List.map_map]
    exact (List.map_congr_left fun key hkey => keyAt_place (hdeclared key hkey)).trans (List.map_id other)
  have hperm : (other.map graph.place).Perm (List.range (buildHardGraphIndex graph).size) := by
    refine (hother.perm.map graph.place).trans (List.Perm.of_eq ?_)
    rw [← range_keyAt graph, List.map_map]
    refine (List.map_congr_left fun i hi => ?_).trans (List.map_id _)
    exact place_keyAt h.distinct (List.mem_range.mp hi)
  have hclosed : Closed (buildHardGraphIndex graph).heads (List.range (buildHardGraphIndex graph).size)
      (other.map graph.place) := by
    intro front v back hsplit u hu harc
    obtain ⟨before, after, horder, rfl, hafter⟩ := List.map_eq_append_iff.mp hsplit
    obtain ⟨key, back', rfl, rfl, -⟩ := List.map_eq_cons_iff.mp hafter
    have hkey := hdeclared key (horder ▸ List.mem_append_right _ (List.mem_cons_self ..))
    rw [List.mem_range] at hu
    rw [← place_keyAt h.distinct hu] at harc
    have hstep := ((hard_places h.linked).arc_iff (keyAt_mem hu) hkey).mp harc
    exact List.mem_map.mpr ⟨_, hother.before before key back' horder _ hstep, place_keyAt h.distinct hu⟩
  rcases (topologicalOrder_greedy h.coherent).least h.perm hperm List.nodup_range hclosed with
    heq | ⟨front, v, w, back, back', horder, hother', hlt⟩
  · rw [heq, hback]
  · have hw : w < (buildHardGraphIndex graph).size :=
      List.mem_range.mp (hperm.mem_iff.mp (hother' ▸ List.mem_append_right _ (List.mem_cons_self ..)))
    rw [← hback, horder, hother', List.map_append, List.map_append, List.map_cons, List.map_cons]
    exact le_of_lt (List.append_left_lt (List.Lex.rel (keyAt_lt hkeys hlt hw)))

/-! ### The closure -/

theorem mem_maskToKeys (graph : GraphStructureView) (mask : ℕ) (key : JsString) :
    key ∈ maskToKeys mask (buildHardGraphIndex graph).nodeKeys
      ↔ ∃ i < (buildHardGraphIndex graph).size, hasBit mask i = true ∧ graph.keyAt i = key := by
  rw [maskToKeys, List.mem_map]
  simp only [List.mem_filter, List.mem_range, and_assoc]
  rfl

theorem maskToKeys_sorted (hkeys : (graph.nodes.map GraphNode.nodeKey).Pairwise (· < ·)) (mask : ℕ) :
    (maskToKeys mask (buildHardGraphIndex graph).nodeKeys).Pairwise (· < ·) := by
  rw [maskToKeys, List.pairwise_map]
  refine List.Pairwise.imp_of_mem (fun {i j} _ hj hij => ?_) (List.pairwise_lt_range.filter _)
  exact keyAt_lt hkeys hij (List.mem_range.mp (List.mem_filter.mp hj).1)

theorem popcount_eq (graph : GraphStructureView) (mask : ℕ) :
    popcount mask (buildHardGraphIndex graph).size = (maskToKeys mask (buildHardGraphIndex graph).nodeKeys).length := by
  rw [popcount, maskToKeys, List.length_map, List.countP_eq_length_filter]
  rfl

theorem Sorted.descendants (h : Sorted graph) {i : ℕ} (hi : i < (buildHardGraphIndex graph).size) (key : JsString) :
    key ∈ maskToKeys ((descendantMasks (buildHardGraphIndex graph) (topologicalOrder (buildHardGraphIndex graph)).order).getD i 0)
      (buildHardGraphIndex graph).nodeKeys ↔ graph.HardBefore (graph.keyAt i) key := by
  rw [mem_maskToKeys]
  constructor
  · rintro ⟨j, hj, hbit, rfl⟩
    have hpath := (descendantMasks_spec h i hi j).mp hbit
    rw [← place_keyAt h.distinct hi, ← place_keyAt h.distinct hj] at hpath
    exact (precedes_place h.linked (keyAt_mem hi) (keyAt_mem hj)).mp hpath
  · intro hpath
    have hkey := (hardBefore_ends h.linked hpath).2
    refine ⟨graph.place key, (place_lt graph key).mpr hkey, (descendantMasks_spec h i hi _).mpr ?_, keyAt_place hkey⟩
    rw [← precedes_place h.linked (keyAt_mem hi) hkey, place_keyAt h.distinct hi] at hpath
    exact hpath

theorem Sorted.ancestors (h : Sorted graph) {i : ℕ} (hi : i < (buildHardGraphIndex graph).size) (key : JsString) :
    key ∈ maskToKeys ((ancestorMasks (buildHardGraphIndex graph) (topologicalOrder (buildHardGraphIndex graph)).order).getD i 0)
      (buildHardGraphIndex graph).nodeKeys ↔ graph.HardBefore key (graph.keyAt i) := by
  have hswap : ∀ u v, Relation.TransGen (Function.swap graph.HardStep) u v ↔ graph.HardBefore v u := fun _ _ =>
    Relation.transGen_swap
  rw [mem_maskToKeys]
  constructor
  · rintro ⟨j, hj, hbit, rfl⟩
    have hpath := (ancestorMasks_spec h i hi j).mp hbit
    rw [← place_keyAt h.distinct hi, ← place_keyAt h.distinct hj] at hpath
    exact (hswap _ _).mp (((hard_places_back h.linked).precedes_iff (keyAt_mem hi) (keyAt_mem hj)).mp hpath)
  · intro hpath
    have hkey := (hardBefore_ends h.linked hpath).1
    refine ⟨graph.place key, (place_lt graph key).mpr hkey, (ancestorMasks_spec h i hi _).mpr ?_, keyAt_place hkey⟩
    rw [← hswap, ← (hard_places_back h.linked).precedes_iff (keyAt_mem hi) hkey, place_keyAt h.distinct hi] at hpath
    exact hpath

/-! ### The critical path -/

theorem zip_tail_of_isChain {A : Type} {R : A → A → Prop} {l : List A} (h : l.IsChain R) : ∀ p ∈ l.zip l.tail, R p.1 p.2 := by
  induction h with
  | nil => nofun
  | singleton a => nofun
  | cons_cons hab _ ih =>
    intro p hp
    rw [List.tail_cons, List.zip_cons_cons] at hp
    rcases List.mem_cons.mp hp with rfl | hp
    · exact hab
    · exact ih p hp

theorem map_filterMap_total {A B C : Type} (f : A → Option B) (g : B → C) (k : A → C) (l : List A)
    (h : ∀ a ∈ l, ∃ b, f a = some b ∧ g b = k a) : (l.filterMap f).map g = l.map k := by
  induction l with
  | nil => rfl
  | cons a rest ih =>
    obtain ⟨b, hb, hg⟩ := h a (List.mem_cons_self ..)
    rw [List.filterMap_cons_some hb, List.map_cons, List.map_cons, hg, ih fun c hc => h c (List.mem_cons_of_mem _ hc)]

theorem stageEnd_spec (n : ℕ) (entries : List StageEntry) :
    (∀ i < n, (entries.getD i noStage).bestExec ≤ (stageEnd n entries).1)
      ∧ (stageEnd n entries = (0, none) ∨ ∃ i < n, stageEnd n entries = ((entries.getD i noStage).bestExec, some i)) := by
  obtain ⟨hbound, hfound⟩ := foldl_argmax (fun i => (entries.getD i noStage).bestExec) (List.range n)
  exact ⟨fun i hi => hbound i (List.mem_range.mpr hi),
    hfound.imp_right fun ⟨i, hi, heq⟩ => ⟨i, List.mem_range.mp hi, heq⟩⟩

/-- The critical path runs along the arcs and weighs the stage count. -/
theorem Sorted.critical (h : Sorted graph) :
    let entries := stageEntries (buildHardGraphIndex graph) (topologicalOrder (buildHardGraphIndex graph)).order
    let path := criticalPath (buildHardGraphIndex graph).size entries
    HardPath graph (path.map graph.keyAt)
      ∧ graph.executionCount (path.map graph.keyAt) = (stageEnd (buildHardGraphIndex graph).size entries).1
      ∧ (∀ i ∈ path, i < (buildHardGraphIndex graph).size)
      ∧ path.IsChain fun a b => a ∈ (buildHardGraphIndex graph).tails b := by
  intro entries path
  have hentries := stageEntries_spec h
  obtain ⟨-, hfound⟩ := stageEnd_spec (buildHardGraphIndex graph).size entries
  rcases hfound with heq | ⟨i, hi, heq⟩
  · have hnil : path = [] := by
      show (walkParents entries _ (stageEnd (buildHardGraphIndex graph).size entries).2).reverse = []
      rw [heq]
      cases (buildHardGraphIndex graph).size <;> rfl
    rw [hnil, heq]
    exact ⟨⟨nofun, List.isChain_nil⟩, rfl, nofun, List.isChain_nil⟩
  · have hplace : (topologicalOrder (buildHardGraphIndex graph)).order.idxOf i < (buildHardGraphIndex graph).size := by
      have hlength := h.perm.length_eq
      rw [List.length_range] at hlength
      rw [← hlength]
      exact List.idxOf_lt_length_iff.mpr ((h.mem_order i).mpr hi)
    obtain ⟨rest, hwalk, htrail, hsum⟩ := walkParents_spec h entries hentries _ i hi hplace
    have hpath : path = (i :: rest).reverse := by
      show (walkParents entries _ (stageEnd (buildHardGraphIndex graph).size entries).2).reverse = _
      rw [heq, hwalk]
    obtain ⟨hhard, hcount⟩ := path_of_trail h.linked h.distinct hi htrail
    rw [hpath, heq]
    refine ⟨hhard, hcount.trans hsum, fun x hx => trail_lt h.linked hi htrail x (List.mem_reverse.mp hx), ?_⟩
    rw [List.isChain_reverse]
    exact htrail

theorem Sorted.stages (h : Sorted graph) :
    MaxStages graph (stageEnd (buildHardGraphIndex graph).size
      (stageEntries (buildHardGraphIndex graph) (topologicalOrder (buildHardGraphIndex graph)).order)).1 := by
  obtain ⟨hhard, hcount, -, -⟩ := h.critical
  refine ⟨fun path hpath => ?_, _, hhard, hcount⟩
  by_cases hnil : path = []
  · rw [hnil]
    exact Nat.zero_le _
  · obtain ⟨v, rest, hv, htrail, hweight⟩ := trail_of_path h.linked h.distinct hpath hnil
    rw [hweight]
    exact ((stageEntries_spec h v hv).heaviest.bound rest htrail).trans ((stageEnd_spec _ _).1 v hv)

theorem criticalPathEdge_some (hlinked : graph.Linked) (descendantMask : List ℕ) {a b : ℕ}
    (hb : b < (buildHardGraphIndex graph).size) (hab : a ∈ (buildHardGraphIndex graph).tails b) :
    ∃ e, criticalPathEdge (buildHardGraphIndex graph) descendantMask (a, b) = some e
      ∧ (e.producerNodeKey, e.consumerNodeKey) = (graph.keyAt a, graph.keyAt b)
      ∧ ∃ edge ∈ graph.edges, edge.kind = .HARD ∧ edge.edgeKey = e.edgeKey ∧ edge.producerNodeKey = e.producerNodeKey
        ∧ edge.consumerNodeKey = e.consumerNodeKey := by
  obtain ⟨arc, harc, rfl⟩ := List.mem_map.mp hab
  cases hfind : ((buildHardGraphIndex graph).inArcs b).find? fun other => other.nodeIndex = arc.nodeIndex with
  | none => exact absurd (decide_eq_true rfl) (List.find?_eq_none.mp hfind arc harc)
  | some found =>
    have hflag := List.find?_some hfind
    have hfound : found.nodeIndex = arc.nodeIndex := of_decide_eq_true hflag
    obtain ⟨edge, hedge, hconsumer, rfl⟩ := (mem_inArcs hb found).mp (List.mem_of_find?_eq_some hfind)
    obtain ⟨hmem, hkind⟩ := (mem_hardEdges edge).mp hedge
    refine ⟨_, by rw [criticalPathEdge, hfind]; rfl, rfl, edge, hmem, hkind, rfl, ?_, ?_⟩
    · show edge.producerNodeKey = graph.keyAt arc.nodeIndex
      rw [← hfound, keyAt_place (hlinked edge hmem).1]
    · show edge.consumerNodeKey = graph.keyAt b
      rw [← hconsumer, keyAt_place (hlinked edge hmem).2]

/-- The listed edges join the nodes of a path, pair by pair. -/
theorem criticalPathEdges_spec (hlinked : graph.Linked) (descendantMask path : List ℕ)
    (hbound : ∀ i ∈ path, i < (buildHardGraphIndex graph).size)
    (hchain : path.IsChain fun a b => a ∈ (buildHardGraphIndex graph).tails b) :
    (criticalPathEdges (buildHardGraphIndex graph) descendantMask path).map (fun e => (e.producerNodeKey, e.consumerNodeKey))
        = (path.map graph.keyAt).zip (path.map graph.keyAt).tail
      ∧ ∀ e ∈ criticalPathEdges (buildHardGraphIndex graph) descendantMask path, ∃ edge ∈ graph.edges, edge.kind = .HARD
        ∧ edge.edgeKey = e.edgeKey ∧ edge.producerNodeKey = e.producerNodeKey ∧ edge.consumerNodeKey = e.consumerNodeKey := by
  have hpair : ∀ p ∈ path.zip path.tail, ∃ e, criticalPathEdge (buildHardGraphIndex graph) descendantMask p = some e
      ∧ (e.producerNodeKey, e.consumerNodeKey) = (graph.keyAt p.1, graph.keyAt p.2)
      ∧ ∃ edge ∈ graph.edges, edge.kind = .HARD ∧ edge.edgeKey = e.edgeKey ∧ edge.producerNodeKey = e.producerNodeKey
        ∧ edge.consumerNodeKey = e.consumerNodeKey := fun p hp =>
    criticalPathEdge_some hlinked descendantMask (hbound p.2 (List.mem_of_mem_tail (List.of_mem_zip hp).2))
      (zip_tail_of_isChain hchain p hp)
  constructor
  · rw [← List.map_tail, List.zip_map]
    exact map_filterMap_total _ _ _ _ fun p hp => by
      obtain ⟨e, he, hkeys, -⟩ := hpair p hp
      exact ⟨e, he, hkeys⟩
  · intro e he
    obtain ⟨p, hp, hsome⟩ := List.mem_filterMap.mp he
    obtain ⟨e', he', -, hjoined⟩ := hpair p hp
    obtain rfl := Option.some.inj (hsome.symm.trans he')
    exact hjoined

/-! ### The analysis -/

/-- What an analysis answers is what the HARD relation of its graph is. -/
structure AnalysisExact (graph : GraphStructureView) (analysis : GraphStructuralAnalysis) : Prop where
  ordered : TopologicalOrder graph analysis.topologicalOrder
  least : ∀ order, TopologicalOrder graph order → analysis.topologicalOrder ≤ order
  nodes : analysis.nodes.map NodeStructuralFacts.nodeKey = graph.nodes.map GraphNode.nodeKey
  ancestors : ∀ facts ∈ analysis.nodes, facts.hardAncestorKeys.Pairwise (· < ·)
    ∧ ∀ key, key ∈ facts.hardAncestorKeys ↔ graph.HardBefore key facts.nodeKey
  descendants : ∀ facts ∈ analysis.nodes, facts.hardDescendantKeys.Pairwise (· < ·)
    ∧ ∀ key, key ∈ facts.hardDescendantKeys ↔ graph.HardBefore facts.nodeKey key
  counted : ∀ facts ∈ analysis.nodes, facts.hardDescendantCount = facts.hardDescendantKeys.length
  stages : MaxStages graph analysis.structuralStageCount
  critical : HardPath graph analysis.structuralCriticalPathNodeKeys
  attains : graph.executionCount analysis.structuralCriticalPathNodeKeys = analysis.structuralStageCount
  pairs : analysis.criticalPathHardEdges.map (fun e => (e.producerNodeKey, e.consumerNodeKey))
    = analysis.structuralCriticalPathNodeKeys.zip analysis.structuralCriticalPathNodeKeys.tail
  joined : ∀ e ∈ analysis.criticalPathHardEdges, ∃ edge ∈ graph.edges, edge.kind = .HARD ∧ edge.edgeKey = e.edgeKey
    ∧ edge.producerNodeKey = e.producerNodeKey ∧ edge.consumerNodeKey = e.consumerNodeKey

/-- Every accepted graph is analysed, and every analysis of it is exact. -/
structure AnalysisLaw (graph : AcceptedGraph) : Prop where
  answers : ∃ analysis, analyzeGraphStructure graph none = .ok analysis
  exact : ∀ frontier analysis, analyzeGraphStructure graph frontier = .ok analysis →
    AnalysisExact graph.toGraphStructureView analysis

theorem analysis_exact (graph : AcceptedGraph) : AnalysisLaw graph := by
  have h := graph.sorted
  have hkeys := graph.accepted.nodesSorted
  constructor
  · unfold analyzeGraphStructure
    exact ⟨_, if_pos h.acyclic⟩
  · intro frontier analysis hanalysis
    unfold analyzeGraphStructure at hanalysis
    split at hanalysis
    · cases hanalysis
    · dsimp only at hanalysis
      rw [if_pos h.acyclic] at hanalysis
      obtain rfl := Except.ok.inj hanalysis
      obtain ⟨hhard, hcount, hbound, hchain⟩ := h.critical
      obtain ⟨hpairs, hjoined⟩ := criticalPathEdges_spec h.linked _ _ hbound hchain
      refine ⟨h.ordered, fun order hother => h.least hkeys hother, ?_, fun facts hm => ?_, fun facts hm => ?_, fun facts hm => ?_,
        h.stages, hhard, hcount, hpairs, hjoined⟩
      · rw [List.map_map]
        exact range_keyAt graph.toGraphStructureView
      · obtain ⟨i, hi, rfl⟩ := List.mem_map.mp hm
        exact ⟨maskToKeys_sorted hkeys _, h.ancestors (List.mem_range.mp hi)⟩
      · obtain ⟨i, hi, rfl⟩ := List.mem_map.mp hm
        exact ⟨maskToKeys_sorted hkeys _, h.descendants (List.mem_range.mp hi)⟩
      · obtain ⟨i, -, rfl⟩ := List.mem_map.mp hm
        exact popcount_eq _ _

end MoeNG.Graph
