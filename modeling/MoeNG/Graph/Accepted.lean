import MoeNG.Graph.Validate

/-!
# Accepted graphs (`packages/scheduler/src/validate-graph.ts`)

A snapshot is accepted when every record of it parses, the graph of these
records breaks no rule, and the sorted graph is acyclic and closed.
-/

namespace MoeNG.Graph
open MoeNG.Kernel MoeNG.Lib

/-! ### What the integrity checks leave -/

structure Acceptable (policy : GraphPolicy) (nodes : List GraphNode) (edges : List GraphEdge)
    (completionNodeKey : JsString) : Prop where
  nodesDistinct : (nodes.map GraphNode.nodeKey).Nodup
  edgesDistinct : (edges.map GraphEdge.edgeKey).Nodup
  selfless : ∀ edge ∈ edges, edge.producerNodeKey ≠ edge.consumerNodeKey
  linked : ∀ edge ∈ edges, edge.producerNodeKey ∈ nodes.map GraphNode.nodeKey
    ∧ edge.consumerNodeKey ∈ nodes.map GraphNode.nodeKey
  completion : completionNodeKey ∈ nodes.map GraphNode.nodeKey
  terminal : ∀ edge ∈ edges, edge.kind = .HARD → edge.producerNodeKey ≠ completionNodeKey
  nodeLimit : nodes.length ≤ policy.maxNodes
  hardLimit : (edges.countP fun edge => edge.kind = .HARD) ≤ policy.maxHardEdges
  edgeLimit : edges.length ≤ policy.maxTotalEdges

theorem Acceptable.perm {policy : GraphPolicy} {nodes nodes' : List GraphNode} {edges edges' : List GraphEdge}
    {completionNodeKey : JsString} (h : Acceptable policy nodes edges completionNodeKey) (hnodes : nodes'.Perm nodes)
    (hedges : edges'.Perm edges) : Acceptable policy nodes' edges' completionNodeKey where
  nodesDistinct := (hnodes.map _).nodup_iff.mpr h.nodesDistinct
  edgesDistinct := (hedges.map _).nodup_iff.mpr h.edgesDistinct
  selfless edge he := h.selfless edge (hedges.mem_iff.mp he)
  linked edge he := by
    rw [(hnodes.map _).mem_iff, (hnodes.map _).mem_iff]
    exact h.linked edge (hedges.mem_iff.mp he)
  completion := (hnodes.map _).mem_iff.mpr h.completion
  terminal edge he := h.terminal edge (hedges.mem_iff.mp he)
  nodeLimit := by rw [hnodes.length_eq]; exact h.nodeLimit
  hardLimit := by rw [hedges.countP_eq]; exact h.hardLimit
  edgeLimit := by rw [hedges.length_eq]; exact h.edgeLimit

/-- The view that is traversed keeps the rules. -/
theorem Acceptable.sorted {policy : GraphPolicy} {nodes : List GraphNode} {edges : List GraphEdge} {completionNodeKey : JsString}
    (h : Acceptable policy nodes edges completionNodeKey) : Acceptable policy
      (sortedStructureView nodes edges completionNodeKey).nodes (sortedStructureView nodes edges completionNodeKey).edges
      completionNodeKey :=
  h.perm (List.perm_insertionSort _ nodes) (List.perm_insertionSort _ edges)

theorem sortedCopy_nil (keys : List JsString) : sortedCopy keys = [] ↔ keys = [] := by
  rw [← List.length_eq_zero_iff, sortedCopy, List.length_insertionSort, List.length_eq_zero_iff]

theorem repeatedKeys_nil (keys : List JsString) : repeatedKeys keys = [] ↔ keys.Nodup := by
  rw [repeatedKeys, sortedCopy_nil, List.dedup_eq_nil, List.filter_eq_nil_iff, List.nodup_iff_count_le_one]
  refine ⟨fun h key => ?_, fun h key _ => ?_⟩
  · by_cases hkey : key ∈ keys
    · simpa using h key hkey
    · rw [List.count_eq_zero.mpr hkey]
      omega
  · simpa using h key

theorem nodeIssues_nil (rawNodes : List Value) :
    nodeIssues rawNodes = [] ↔ (∀ v ∈ rawNodes, (parseNode v).isSome = true)
      ∧ ((rawNodes.filterMap parseNode).map GraphNode.nodeKey).Nodup := by
  rw [nodeIssues, List.append_eq_nil_iff, List.map_eq_nil_iff, repeatedKeys_nil]
  refine and_congr_left fun _ => flatMap_zipIdx_nil _ (fun v => (parseNode v).isSome = true) (fun v i => ?_) rawNodes
  dsimp only
  split <;> simp_all

theorem edgeIssues_nil (rawEdges : List Value) :
    edgeIssues rawEdges = [] ↔ (∀ v ∈ rawEdges, ∃ edge, parseEdge v = some edge ∧ edge.producerNodeKey ≠ edge.consumerNodeKey)
      ∧ ((rawEdges.filterMap parseEdge).map GraphEdge.edgeKey).Nodup := by
  rw [edgeIssues, List.append_eq_nil_iff, List.map_eq_nil_iff, repeatedKeys_nil]
  refine and_congr_left fun _ => flatMap_zipIdx_nil _
    (fun v => ∃ edge, parseEdge v = some edge ∧ edge.producerNodeKey ≠ edge.consumerNodeKey) (fun v i => ?_) rawEdges
  dsimp only
  cases parseEdge v with
  | none => simp
  | some edge =>
    by_cases hself : edge.producerNodeKey = edge.consumerNodeKey <;> simp [hself]

theorem missingEndpointIssues_nil (parsed : ParsedGraphInput) (hshape : parsed.nodeShapeOk = true) :
    missingEndpointIssues parsed = [] ↔
      ∀ edge ∈ parsed.edges, edge.producerNodeKey ∈ parsed.nodeKeys ∧ edge.consumerNodeKey ∈ parsed.nodeKeys := by
  rw [missingEndpointIssues, if_pos hshape, List.flatMap_eq_nil_iff]
  refine forall_congr' fun edge => imp_congr_right fun _ => ?_
  by_cases hp : edge.producerNodeKey ∈ parsed.nodeKeys <;> by_cases hc : edge.consumerNodeKey ∈ parsed.nodeKeys
    <;> simp [hp, hc]

theorem completionIssues_nil (parsed : ParsedGraphInput) (hshape : parsed.nodeShapeOk = true) :
    completionIssues parsed = [] ↔ parsed.completionNodeKey ∈ parsed.nodeKeys
      ∧ ∀ edge ∈ parsed.edges, edge.kind = .HARD → edge.producerNodeKey ≠ parsed.completionNodeKey := by
  have hout : outgoingHard parsed = [] ↔
      ∀ edge ∈ parsed.edges, edge.kind = .HARD → edge.producerNodeKey ≠ parsed.completionNodeKey := by
    rw [outgoingHard, List.map_eq_nil_iff, List.filter_eq_nil_iff]
    simp
  rw [← hout, completionIssues, hshape]
  by_cases hin : parsed.completionNodeKey ∈ parsed.nodeKeys <;> by_cases hnil : outgoingHard parsed = []
    <;> simp [hin, hnil]

theorem policyLimitIssues_nil (parsed : ParsedGraphInput) (policy : GraphPolicy) :
    policyLimitIssues parsed policy = [] ↔ parsed.nodes.length ≤ policy.maxNodes
      ∧ parsed.hardEdgeCount ≤ policy.maxHardEdges ∧ parsed.edges.length ≤ policy.maxTotalEdges := by
  simp [policyLimitIssues]

/-- What `parseGraphInput` makes of the parts of a snapshot. -/
def parsedParts (rawNodes rawEdges : List Value) (completionNodeKey : JsString) : ParsedGraphInput :=
  { nodes := rawNodes.filterMap parseNode
    edges := rawEdges.filterMap parseEdge
    completionNodeKey
    nodeShapeOk := rawNodes.all fun candidate => (parseNode candidate).isSome
    issues := nodeIssues rawNodes ++ edgeIssues rawEdges }

theorem structureIssues_nil (policy : GraphPolicy) (rawNodes rawEdges : List Value) (completionNodeKey : JsString) :
    structureIssues (parsedParts rawNodes rawEdges completionNodeKey) policy = [] ↔
      ∃ nodes edges, rawNodes.mapM parseNode = some nodes ∧ rawEdges.mapM parseEdge = some edges
        ∧ Acceptable policy nodes edges completionNodeKey := by
  have hissues : (parsedParts rawNodes rawEdges completionNodeKey).issues = nodeIssues rawNodes ++ edgeIssues rawEdges := rfl
  rw [structureIssues, List.append_eq_nil_iff, List.append_eq_nil_iff, List.append_eq_nil_iff, hissues,
    List.append_eq_nil_iff, nodeIssues_nil, edgeIssues_nil, policyLimitIssues_nil]
  constructor
  · rintro ⟨⟨⟨⟨⟨hnodes, hdistinct⟩, hedges, hedgesDistinct⟩, hmissing⟩, hcompletion⟩, hnode, hhard, hedge⟩
    have hshape : (parsedParts rawNodes rawEdges completionNodeKey).nodeShapeOk = true := List.all_eq_true.mpr hnodes
    obtain ⟨hin, hterminal⟩ := (completionIssues_nil _ hshape).mp hcompletion
    refine ⟨_, _, (mapM_eq_some_iff _ _ _).mpr ⟨hnodes, rfl⟩, (mapM_eq_some_iff _ _ _).mpr ⟨fun v hv => ?_, rfl⟩, ?_⟩
    · obtain ⟨edge, hparse, -⟩ := hedges v hv
      rw [hparse]
      rfl
    · refine ⟨hdistinct, hedgesDistinct, fun edge he => ?_, (missingEndpointIssues_nil _ hshape).mp hmissing, hin,
        hterminal, hnode, hhard, hedge⟩
      obtain ⟨v, hv, hparse⟩ := List.mem_filterMap.mp he
      obtain ⟨edge', hparse', hne⟩ := hedges v hv
      obtain rfl := Option.some.inj (hparse.symm.trans hparse')
      exact hne
  · rintro ⟨nodes, edges, hnodes, hedges, h⟩
    obtain ⟨hallNodes, rfl⟩ := (mapM_eq_some_iff _ _ _).mp hnodes
    obtain ⟨hallEdges, rfl⟩ := (mapM_eq_some_iff _ _ _).mp hedges
    have hshape : (parsedParts rawNodes rawEdges completionNodeKey).nodeShapeOk = true := List.all_eq_true.mpr hallNodes
    refine ⟨⟨⟨⟨⟨hallNodes, h.nodesDistinct⟩, fun v hv => ?_, h.edgesDistinct⟩,
      (missingEndpointIssues_nil _ hshape).mpr h.linked⟩,
      (completionIssues_nil _ hshape).mpr ⟨h.completion, h.terminal⟩⟩, h.nodeLimit, h.hardLimit, h.edgeLimit⟩
    obtain ⟨edge, hparse⟩ := Option.isSome_iff_exists.mp (hallEdges v hv)
    exact ⟨edge, hparse, h.selfless edge (List.mem_filterMap.mpr ⟨v, hv, hparse⟩)⟩

/-! ### The accepted graph (`validate-graph.ts:43-88`) -/

structure Accepted (policy : GraphPolicy) (view : GraphStructureView) : Prop where
  acceptable : Acceptable policy view.nodes view.edges view.completionNodeKey
  nodesSorted : (view.nodes.map GraphNode.nodeKey).Pairwise (· < ·)
  edgesSorted : (view.edges.map GraphEdge.edgeKey).Pairwise (· < ·)
  nodeKeys : ∀ node ∈ view.nodes, isGraphKey node.nodeKey = true
  edgeKeys : ∀ edge ∈ view.edges, isGraphKey edge.edgeKey = true
  ceiling : policy.maxNodes ≤ absoluteMaxGraphNodes
  acyclic : (topologicalOrder (buildHardGraphIndex view)).acyclic = true
  closed : closureOrphans (buildHardGraphIndex view) = []

/-- A graph that passed validation, with the policy that was applied. -/
structure AcceptedGraph extends GraphStructureView where
  policy : GraphPolicy
  accepted : Accepted policy toGraphStructureView

theorem graphKeyOf_some (v : Value) (key : JsString) (h : graphKeyOf v = some key) : isGraphKey key = true := by
  unfold graphKeyOf at h
  split at h
  · split at h
    · rename_i hkey
      exact Option.some.inj h ▸ hkey
    · cases h
  · cases h

theorem parseNode_key (v : Value) (node : GraphNode) (h : parseNode v = some node) : isGraphKey node.nodeKey = true := by
  unfold parseNode at h
  obtain ⟨fields, -, h⟩ := Option.bind_eq_some_iff.mp h
  obtain ⟨nodeKey, hkey, h⟩ := Option.bind_eq_some_iff.mp h
  obtain ⟨executionBearing, -, h⟩ := Option.bind_eq_some_iff.mp h
  obtain rfl := Option.some.inj h
  exact graphKeyOf_some _ _ hkey

theorem parseEdge_key (v : Value) (edge : GraphEdge) (h : parseEdge v = some edge) : isGraphKey edge.edgeKey = true := by
  simp only [parseEdge, ↓bind_some_iff] at h
  obtain ⟨_, -, _, hkey, _, -, _, -, _, -, h⟩ := h
  obtain rfl := Option.some.inj h
  exact graphKeyOf_some _ _ hkey

theorem resolveGraphPolicy_ceiling (override : Value) (policy : GraphPolicy) (h : resolveGraphPolicy override = some policy) :
    policy.maxNodes ≤ absoluteMaxGraphNodes := by
  unfold resolveGraphPolicy at h
  split at h
  · obtain rfl := Option.some.inj h
    decide
  · split at h
    · simp only [↓bind_some_iff] at h
      obtain ⟨_, hlimit, _, -, _, -, _, -, h⟩ := h
      obtain rfl := Option.some.inj h
      unfold limitOf at hlimit
      split at hlimit
      · obtain rfl := Option.some.inj hlimit
        show defaultGraphPolicy.maxNodes ≤ absoluteMaxGraphNodes
        decide
      · exact of_decide_eq_true (Option.filter_eq_some_iff.mp hlimit).2
    · cases h
  · cases h

theorem sorted_keys {A : Type} (key : A → JsString) (l : List A) (hl : (l.map key).Nodup) :
    ((l.insertionSort fun a b => key a ≤ key b).map key).Pairwise (· < ·) := by
  have hperm := (List.perm_insertionSort (fun a b => key a ≤ key b) l).map key
  have hsorted : ((l.insertionSort fun a b => key a ≤ key b).map key).Pairwise (· ≤ ·) := by
    rw [List.pairwise_map]
    exact List.pairwise_insertionSort (fun a b => key a ≤ key b) l
  exact (hsorted.and (hperm.nodup_iff.mpr hl)).imp fun h => lt_of_le_of_ne h.1 h.2

theorem sortedStructureView_accepted (policy : GraphPolicy) (nodes : List GraphNode) (edges : List GraphEdge)
    (completionNodeKey : JsString) (h : Acceptable policy nodes edges completionNodeKey)
    (hkeys : ∀ node ∈ nodes, isGraphKey node.nodeKey = true) (hedgeKeys : ∀ edge ∈ edges, isGraphKey edge.edgeKey = true)
    (hceiling : policy.maxNodes ≤ absoluteMaxGraphNodes)
    (hacyclic : (topologicalOrder (buildHardGraphIndex (sortedStructureView nodes edges completionNodeKey))).acyclic = true)
    (hclosed : closureOrphans (buildHardGraphIndex (sortedStructureView nodes edges completionNodeKey)) = []) :
    Accepted policy (sortedStructureView nodes edges completionNodeKey) where
  acceptable := h.sorted
  nodesSorted := sorted_keys GraphNode.nodeKey nodes h.nodesDistinct
  edgesSorted := sorted_keys GraphEdge.edgeKey edges h.edgesDistinct
  nodeKeys node hn := hkeys node ((List.mem_insertionSort _).mp hn)
  edgeKeys edge he := hedgeKeys edge ((List.mem_insertionSort _).mp he)
  ceiling := hceiling
  acyclic := hacyclic
  closed := hclosed

theorem validateGraphStructure_ok (policy : GraphPolicy) (parsed : ParsedGraphInput) (view : GraphStructureView)
    (h : validateGraphStructure parsed policy = .ok view) :
    structureIssues parsed policy = [] ∧ view = sortedStructureView parsed.nodes parsed.edges parsed.completionNodeKey
      ∧ (topologicalOrder (buildHardGraphIndex view)).acyclic = true ∧ closureOrphans (buildHardGraphIndex view) = [] := by
  unfold validateGraphStructure at h
  split at h
  · rename_i hissues
    dsimp only at h
    split at h
    · rename_i hacyclic
      split at h
      · rename_i hclosed
        obtain rfl := Except.ok.inj h
        exact ⟨hissues, rfl, hacyclic, hclosed⟩
      · cases h
    · cases h
  · cases h

theorem parseGraphInput_ok (policy : GraphPolicy) (snapshot : Value) (parsed : ParsedGraphInput)
    (h : parseGraphInput snapshot policy = .ok parsed) :
    ∃ rawNodes rawEdges completionNodeKey, snapshotParts snapshot = .ok (rawNodes, rawEdges, completionNodeKey)
      ∧ slotIssues rawNodes rawEdges policy = [] ∧ parsed = parsedParts rawNodes rawEdges completionNodeKey := by
  unfold parseGraphInput at h
  split at h
  · cases h
  · rename_i rawNodes rawEdges completionNodeKey hparts
    split at h
    · rename_i hslots
      exact ⟨rawNodes, rawEdges, completionNodeKey, hparts, hslots, (Except.ok.inj h).symm⟩
    · cases h

theorem validated_accepted (override snapshot : Value) (policy : GraphPolicy) (parsed : ParsedGraphInput)
    (view : GraphStructureView) (hpolicy : resolveGraphPolicy override = some policy)
    (hparse : parseGraphInput snapshot policy = .ok parsed) (hview : validateGraphStructure parsed policy = .ok view) :
    Accepted policy view := by
  obtain ⟨rawNodes, rawEdges, completionNodeKey, -, -, rfl⟩ := parseGraphInput_ok policy snapshot parsed hparse
  obtain ⟨hissues, rfl, hacyclic, hclosed⟩ := validateGraphStructure_ok policy _ view hview
  obtain ⟨nodes, edges, hnodes, hedges, hacceptable⟩ :=
    (structureIssues_nil policy rawNodes rawEdges completionNodeKey).mp hissues
  obtain ⟨-, rfl⟩ := (mapM_eq_some_iff _ _ _).mp hnodes
  obtain ⟨-, rfl⟩ := (mapM_eq_some_iff _ _ _).mp hedges
  refine sortedStructureView_accepted policy _ _ completionNodeKey hacceptable (fun node hn => ?_) (fun edge he => ?_)
    (resolveGraphPolicy_ceiling override policy hpolicy) hacyclic hclosed
  · obtain ⟨v, -, hparse⟩ := List.mem_filterMap.mp hn
    exact parseNode_key v node hparse
  · obtain ⟨v, -, hparse⟩ := List.mem_filterMap.mp he
    exact parseEdge_key v edge hparse

def validateGraphSnapshot (snapshot policyOverride : Value) : Except (List GraphIssue) AcceptedGraph :=
  match hpolicy : resolveGraphPolicy policyOverride with
  | none => .error (sortIssues [⟨.GRAPH_MALFORMED_POLICY,
      lit "policy override is malformed, has unsupported fields, or exceeds parser ceilings", [], []⟩])
  | some policy =>
    match hparse : parseGraphInput snapshot policy with
    | .error issues => .error (sortIssues issues)
    | .ok parsed =>
      match hview : validateGraphStructure parsed policy with
      | .error issues => .error (sortIssues issues)
      | .ok view => .ok ⟨view, policy, validated_accepted policyOverride snapshot policy parsed view hpolicy hparse hview⟩

end MoeNG.Graph
