import MoeNG.Graph.Cycles

/-!
# Validation is sound and complete (`validate-graph-structure.ts:148-241`, `graph-traversal.ts:102-245`)
-/

namespace MoeNG.Graph
open MoeNG.Kernel MoeNG.Lib

/-- What a graph must be to pass: no integrity rule broken, no HARD cycle, and no execution-bearing node astray. -/
structure Valid (policy : GraphPolicy) (graph : GraphStructureView) : Prop where
  acceptable : Acceptable policy graph.nodes graph.edges graph.completionNodeKey
  acyclic : ∀ key, ¬ graph.HardBefore key key
  closed : ∀ node ∈ graph.nodes, node.executionBearing = true →
    node.nodeKey = graph.completionNodeKey ∨ graph.HardBefore node.nodeKey graph.completionNodeKey

/-- The edge is HARD and lies on a HARD cycle. -/
def GraphStructureView.OnCycle (graph : GraphStructureView) (edge : GraphEdge) : Prop :=
  edge.kind = .HARD ∧ graph.HardReach edge.consumerNodeKey edge.producerNodeKey

/-! ### Sorting changes nothing -/

theorem hardStep_sorted (nodes : List GraphNode) (edges : List GraphEdge) (completionNodeKey : JsString) :
    (sortedStructureView nodes edges completionNodeKey).HardStep
      = (⟨nodes, edges, completionNodeKey⟩ : GraphStructureView).HardStep := by
  funext u v
  refine propext (exists_congr fun edge => and_congr_left fun _ => ?_)
  exact List.mem_insertionSort _

theorem reach_closed_iff (graph : GraphStructureView) (u v : JsString) : graph.HardReach u v ↔ u = v ∨ graph.HardBefore u v := by
  rw [GraphStructureView.HardReach, Relation.reflTransGen_iff_eq_or_transGen, eq_comm]
  rfl

/-- The rules hold of a graph when its sorted form passes the two traversals. -/
theorem valid_sorted_iff {policy : GraphPolicy} {nodes : List GraphNode} {edges : List GraphEdge} {completionNodeKey : JsString}
    (h : Acceptable policy nodes edges completionNodeKey) :
    Valid policy ⟨nodes, edges, completionNodeKey⟩
      ↔ (topologicalOrder (buildHardGraphIndex (sortedStructureView nodes edges completionNodeKey))).acyclic = true
        ∧ closureOrphans (buildHardGraphIndex (sortedStructureView nodes edges completionNodeKey)) = [] := by
  have hsorted := h.sorted
  have hstep := hardStep_sorted nodes edges completionNodeKey
  have hlinked : (sortedStructureView nodes edges completionNodeKey).Linked := hsorted.linked
  rw [acyclic_iff hlinked hsorted.nodesDistinct, closureOrphans_nil hlinked hsorted.nodesDistinct hsorted.completion]
  constructor
  · rintro ⟨-, hacyclic, hclosed⟩
    refine ⟨fun key hcycle => hacyclic key ?_, fun node hnode hbearing => ?_⟩
    · rwa [GraphStructureView.HardBefore, hstep] at hcycle
    · have hreach := hclosed node ((List.mem_insertionSort _).mp hnode) hbearing
      rw [← reach_closed_iff] at hreach
      rw [GraphStructureView.HardReach, hstep]
      exact hreach
  · rintro ⟨hacyclic, hclosed⟩
    refine ⟨h, fun key hcycle => hacyclic key ?_, fun node hnode hbearing => ?_⟩
    · rwa [GraphStructureView.HardBefore, hstep]
    · have hreach := hclosed node ((List.mem_insertionSort _).mpr hnode) hbearing
      rw [GraphStructureView.HardReach, hstep] at hreach
      exact (reach_closed_iff _ _ _).mp hreach

/-! ### The codes of the other issues -/

theorem slotIssues_code (rawNodes rawEdges : List Value) (policy : GraphPolicy) (issue : GraphIssue)
    (h : issue ∈ slotIssues rawNodes rawEdges policy) : issue.code ≠ .GRAPH_CYCLE := by
  rw [slotIssues, List.mem_append] at h
  rcases h with h | h <;> split at h <;> simp_all [limitIssue]

theorem nodeIssues_code (rawNodes : List Value) (issue : GraphIssue) (h : issue ∈ nodeIssues rawNodes) :
    issue.code ≠ .GRAPH_CYCLE := by
  rw [nodeIssues, List.mem_append, List.mem_flatMap, List.mem_map] at h
  rcases h with ⟨entry, -, h⟩ | ⟨key, -, rfl⟩
  · split at h <;> simp_all [malformedAt]
  · rintro ⟨⟩

theorem edgeIssues_code (rawEdges : List Value) (issue : GraphIssue) (h : issue ∈ edgeIssues rawEdges) :
    issue.code ≠ .GRAPH_CYCLE := by
  rw [edgeIssues, List.mem_append, List.mem_flatMap, List.mem_map] at h
  rcases h with ⟨entry, -, h⟩ | ⟨key, -, rfl⟩
  · split at h
    · simp_all [malformedAt]
    · split at h <;> simp_all
  · rintro ⟨⟩

theorem structureIssues_code (parsed : ParsedGraphInput) (policy : GraphPolicy)
    (hparsed : ∀ issue ∈ parsed.issues, issue.code ≠ .GRAPH_CYCLE) (issue : GraphIssue)
    (h : issue ∈ structureIssues parsed policy) : issue.code ≠ .GRAPH_CYCLE := by
  rw [structureIssues, List.mem_append, List.mem_append, List.mem_append] at h
  rcases h with ((h | h) | h) | h
  · exact hparsed issue h
  · unfold missingEndpointIssues at h
    split at h
    · obtain ⟨edge, -, h⟩ := List.mem_flatMap.mp h
      dsimp only at h
      split at h <;> simp_all
    · cases h
  · unfold completionIssues at h
    dsimp only at h
    split at h
    · cases h
    · split at h
      · simp_all
      · split at h <;> simp_all
  · unfold policyLimitIssues at h
    rw [List.mem_append, List.mem_append] at h
    dsimp only at h
    rcases h with (h | h) | h <;> split at h <;> simp_all [limitIssue]

/-! ### The verdict -/

variable {snapshot override : Value} {policy : GraphPolicy} {nodes : List GraphNode} {edges : List GraphEdge}
  {completionNodeKey : JsString}

theorem Reads.keys (h : Reads snapshot nodes edges completionNodeKey) :
    (∀ node ∈ nodes, isGraphKey node.nodeKey = true) ∧ ∀ edge ∈ edges, isGraphKey edge.edgeKey = true := by
  obtain ⟨rawNodes, rawEdges, -, hnodes, hedges⟩ := h.parts
  constructor
  · intro node hnode
    obtain ⟨v, -, hparse⟩ := mem_of_mapM_some _ _ _ hnodes node hnode
    exact parseNode_key v node hparse
  · intro edge hedge
    obtain ⟨v, -, hparse⟩ := mem_of_mapM_some _ _ _ hedges edge hedge
    exact parseEdge_key v edge hparse

theorem accepts_iff (hpolicy : resolveGraphPolicy override = some policy)
    (hreads : Reads snapshot nodes edges completionNodeKey) :
    (∃ graph, validateGraphSnapshot snapshot override = .ok graph) ↔ Valid policy ⟨nodes, edges, completionNodeKey⟩ := by
  constructor
  · rintro ⟨graph, hok⟩
    obtain ⟨hsame, nodes', edges', hreads', hacceptable, hview⟩ := validateGraphSnapshot_ok snapshot override graph hok
    obtain ⟨rawNodes, rawEdges, hparts, -, -⟩ := hreads.parts
    obtain ⟨_, _, hparts', -, -⟩ := hreads'.parts
    obtain ⟨-, hrest⟩ := Prod.mk.inj (Except.ok.inj (hparts.symm.trans hparts'))
    obtain ⟨-, hkey⟩ := Prod.mk.inj hrest
    obtain rfl := Option.some.inj (hpolicy.symm.trans hsame)
    rw [← hkey] at hreads' hacceptable hview
    obtain ⟨rfl, rfl⟩ := hreads.unique hreads'
    have haccepted := graph.accepted
    rw [hview] at haccepted
    exact (valid_sorted_iff hacceptable).mpr ⟨haccepted.acyclic, haccepted.closed⟩
  · intro hvalid
    obtain ⟨hacyclic, hclosed⟩ := (valid_sorted_iff hvalid.acceptable).mp hvalid
    have haccepted := sortedStructureView_accepted policy nodes edges completionNodeKey hvalid.acceptable hreads.keys.1
      hreads.keys.2 (resolveGraphPolicy_ceiling override policy hpolicy) hacyclic hclosed
    exact ⟨⟨_, policy, haccepted⟩, validateGraphSnapshot_of snapshot override nodes edges ⟨_, policy, haccepted⟩ hpolicy hreads
      hvalid.acceptable rfl⟩

theorem cycle_refusal (hpolicy : resolveGraphPolicy override = some policy)
    (hreads : Reads snapshot nodes edges completionNodeKey) {issues : List GraphIssue} {issue : GraphIssue}
    (h : validateGraphSnapshot snapshot override = .error issues) (hissue : issue ∈ issues) (hcode : issue.code = .GRAPH_CYCLE) :
    Acceptable policy nodes edges completionNodeKey
      ∧ issue = cycleIssue (buildHardGraphIndex (sortedStructureView nodes edges completionNodeKey)) := by
  obtain ⟨rawNodes, rawEdges, hparts, hnodes, hedges⟩ := hreads.parts
  unfold validateGraphSnapshot at h
  split at h
  · rename_i hnone
    rw [hpolicy] at hnone
    cases hnone
  · rename_i policy' hsome
    obtain rfl := Option.some.inj (hpolicy.symm.trans hsome)
    split at h
    · rename_i found hparse
      obtain rfl := Except.error.inj h
      rw [sortIssues, List.mem_insertionSort] at hissue
      rw [parseGraphInput, hparts] at hparse
      dsimp only at hparse
      split at hparse
      · cases hparse
      · obtain rfl := Except.error.inj hparse
        exact absurd hcode (slotIssues_code _ _ _ issue hissue)
    · rename_i parsed hparse
      obtain ⟨rawNodes', rawEdges', completionNodeKey', hparts', -, rfl⟩ := parseGraphInput_ok policy snapshot parsed hparse
      obtain ⟨rfl, hrest⟩ := Prod.mk.inj (Except.ok.inj (hparts.symm.trans hparts'))
      obtain ⟨rfl, rfl⟩ := Prod.mk.inj hrest
      split at h
      · rename_i found hstructure
        obtain rfl := Except.error.inj h
        rw [sortIssues, List.mem_insertionSort] at hissue
        unfold validateGraphStructure at hstructure
        split at hstructure
        · rename_i hnil
          obtain ⟨nodes', edges', hnodes', hedges', hacceptable⟩ :=
            (structureIssues_nil policy rawNodes rawEdges completionNodeKey).mp hnil
          obtain rfl := Option.some.inj (hnodes.symm.trans hnodes')
          obtain rfl := Option.some.inj (hedges.symm.trans hedges')
          obtain ⟨-, hfilterNodes⟩ := (mapM_eq_some_iff _ _ _).mp hnodes
          obtain ⟨-, hfilterEdges⟩ := (mapM_eq_some_iff _ _ _).mp hedges
          have hview : sortedStructureView (parsedParts rawNodes rawEdges completionNodeKey).nodes
              (parsedParts rawNodes rawEdges completionNodeKey).edges completionNodeKey
                = sortedStructureView nodes edges completionNodeKey := by
            rw [← hfilterNodes, ← hfilterEdges]
            rfl
          refine ⟨hacceptable, ?_⟩
          dsimp only at hstructure
          split at hstructure
          · split at hstructure
            · cases hstructure
            · obtain rfl := Except.error.inj hstructure
              rw [List.mem_singleton.mp hissue] at hcode
              cases hcode
          · obtain rfl := Except.error.inj hstructure
            rw [← hview]
            exact List.mem_singleton.mp hissue
        · obtain rfl := Except.error.inj hstructure
          refine absurd hcode (structureIssues_code _ policy (fun other hother => ?_) issue hissue)
          have hother' : other ∈ nodeIssues rawNodes ++ edgeIssues rawEdges := hother
          rcases List.mem_append.mp hother' with hother | hother
          · exact nodeIssues_code rawNodes other hother
          · exact edgeIssues_code rawEdges other hother
      · cases h

/-- On a snapshot that has its shape: what is accepted, and what a cycle refusal names. -/
structure Exact (snapshot override : Value) (policy : GraphPolicy) (graph : GraphStructureView) : Prop where
  accepts : (∃ accepted, validateGraphSnapshot snapshot override = .ok accepted) ↔ Valid policy graph
  nodesOnCycles : ∀ issues, validateGraphSnapshot snapshot override = .error issues → ∀ issue ∈ issues,
    issue.code = .GRAPH_CYCLE → ∀ key, key ∈ issue.nodeKeys ↔ graph.HardBefore key key
  edgesOnCycles : ∀ issues, validateGraphSnapshot snapshot override = .error issues → ∀ issue ∈ issues,
    issue.code = .GRAPH_CYCLE → ∀ edgeKey, edgeKey ∈ issue.edgeKeys ↔ ∃ edge ∈ graph.edges, graph.OnCycle edge
      ∧ edge.edgeKey = edgeKey

theorem validation_exact (hpolicy : resolveGraphPolicy override = some policy)
    (hreads : Reads snapshot nodes edges completionNodeKey) : Exact snapshot override policy ⟨nodes, edges,
      completionNodeKey⟩ := by
  have hstep := hardStep_sorted nodes edges completionNodeKey
  refine ⟨accepts_iff hpolicy hreads, fun issues h issue hissue hcode key => ?_, fun issues h issue hissue hcode edgeKey => ?_⟩
  · obtain ⟨hacceptable, rfl⟩ := cycle_refusal hpolicy hreads h hissue hcode
    have hsorted := hacceptable.sorted
    have hlinked : (sortedStructureView nodes edges completionNodeKey).Linked := hsorted.linked
    rw [mem_cycle_nodes hlinked hsorted.nodesDistinct hsorted.selfless, GraphStructureView.HardBefore, hstep]
    rfl
  · obtain ⟨hacceptable, rfl⟩ := cycle_refusal hpolicy hreads h hissue hcode
    have hsorted := hacceptable.sorted
    have hlinked : (sortedStructureView nodes edges completionNodeKey).Linked := hsorted.linked
    rw [mem_cycle_edges hlinked hsorted.selfless, GraphStructureView.HardReach, hstep]
    refine exists_congr fun edge => and_congr (List.mem_insertionSort _) ?_
    exact ⟨fun ⟨hkind, hkey, hback⟩ => ⟨⟨hkind, hback⟩, hkey⟩, fun ⟨⟨hkind, hback⟩, hkey⟩ => ⟨hkind, hkey, hback⟩⟩

def nodeRecord (node : GraphNode) : Value :=
  recordOf [("executionBearing", .bool node.executionBearing), ("nodeKey", .string node.nodeKey)]

def edgeRecord (edge : GraphEdge) : Value :=
  recordOf [("edgeKey", .string edge.edgeKey), ("producerNodeKey", .string edge.producerNodeKey),
    ("consumerNodeKey", .string edge.consumerNodeKey),
    ("kind", .string (if edge.kind = .HARD then lit "HARD" else lit "ADVISORY"))]

def snapshotRecord (graph : GraphStructureView) : Value :=
  recordOf [("nodes", .array (graph.nodes.map nodeRecord)), ("edges", .array (graph.edges.map edgeRecord)),
    ("completionNodeKey", .string graph.completionNodeKey)]

/-- A cycle of two nodes, with a bridge to a third. -/
def bridgedGraph : GraphStructureView :=
  ⟨[⟨lit "a", true⟩, ⟨lit "b", true⟩, ⟨lit "c", true⟩],
    [⟨lit "ab", lit "a", lit "b", .HARD⟩, ⟨lit "ba", lit "b", lit "a", .HARD⟩, ⟨lit "bc", lit "b", lit "c", .HARD⟩], lit "c"⟩

def refusedKeys (snapshot : Value) : List (List JsString × List JsString) :=
  match validateGraphSnapshot snapshot .undefined with
  | .error issues => issues.map fun issue => (issue.nodeKeys, issue.edgeKeys)
  | .ok _ => []

theorem validation_exact_bridged :
    refusedKeys (snapshotRecord bridgedGraph) = [([lit "a", lit "b"], [lit "ab", lit "ba"])]
      ∧ Exact (snapshotRecord bridgedGraph) .undefined defaultGraphPolicy bridgedGraph :=
  ⟨by decide +kernel, validation_exact (by decide)
    ⟨bridgedGraph.nodes.map nodeRecord, bridgedGraph.edges.map edgeRecord, by rfl, by decide +kernel, by decide +kernel⟩⟩

end MoeNG.Graph
