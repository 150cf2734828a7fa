import MoeNG.Graph.Accepted
import MoeNG.Kernel.JsonCode

/-!
# Acceptance does not depend on the order of a snapshot
-/

namespace MoeNG.Graph
open MoeNG.Kernel MoeNG.Lib

theorem sort_eq_of_perm {A : Type} (key : A → JsString) (l l' : List A) (hperm : l'.Perm l) (hl : (l.map key).Nodup) :
    (l'.insertionSort fun a b => key a ≤ key b) = l.insertionSort fun a b => key a ≤ key b := by
  have hl' : (l'.map key).Nodup := (hperm.map key).nodup_iff.mpr hl
  have hstrict := sorted_keys key l hl
  have hstrict' := sorted_keys key l' hl'
  rw [List.pairwise_map] at hstrict hstrict'
  refine List.Perm.eq_of_pairwise (fun a b _ _ hab hba => absurd (lt_trans hab hba) (lt_irrefl _)) hstrict' hstrict ?_
  exact (List.perm_insertionSort _ l').trans (hperm.trans (List.perm_insertionSort _ l).symm)

theorem slotIssues_nil (rawNodes rawEdges : List Value) (policy : GraphPolicy) :
    slotIssues rawNodes rawEdges policy = [] ↔ rawNodes.length ≤ policy.maxNodes ∧ rawEdges.length ≤ policy.maxTotalEdges := by
  simp [slotIssues]

/-- The records of a snapshot and the graph they make. -/
structure Reads (snapshot : Value) (nodes : List GraphNode) (edges : List GraphEdge) (completionNodeKey : JsString) : Prop where
  parts : ∃ rawNodes rawEdges, snapshotParts snapshot = .ok (rawNodes, rawEdges, completionNodeKey)
    ∧ rawNodes.mapM parseNode = some nodes ∧ rawEdges.mapM parseEdge = some edges

theorem Reads.unique {snapshot : Value} {nodes nodes' : List GraphNode} {edges edges' : List GraphEdge}
    {completionNodeKey completionNodeKey' : JsString} (h : Reads snapshot nodes edges completionNodeKey)
    (h' : Reads snapshot nodes' edges' completionNodeKey') : nodes = nodes' ∧ edges = edges' := by
  obtain ⟨rawNodes, rawEdges, hparts, hnodes, hedges⟩ := h.parts
  obtain ⟨_, _, hparts', hnodes', hedges'⟩ := h'.parts
  obtain ⟨rfl, hrest⟩ := Prod.mk.inj (Except.ok.inj (hparts.symm.trans hparts'))
  obtain ⟨rfl, -⟩ := Prod.mk.inj hrest
  exact ⟨Option.some.inj (hnodes.symm.trans hnodes'), Option.some.inj (hedges.symm.trans hedges')⟩

theorem validateGraphSnapshot_ok (snapshot override : Value) (graph : AcceptedGraph)
    (h : validateGraphSnapshot snapshot override = .ok graph) :
    resolveGraphPolicy override = some graph.policy ∧ ∃ nodes edges,
      Reads snapshot nodes edges graph.completionNodeKey ∧ Acceptable graph.policy nodes edges graph.completionNodeKey
        ∧ graph.toGraphStructureView = sortedStructureView nodes edges graph.completionNodeKey := by
  unfold validateGraphSnapshot at h
  split at h
  · cases h
  · rename_i policy hpolicy
    split at h
    · cases h
    · rename_i parsed hparse
      split at h
      · cases h
      · rename_i view hview
        obtain rfl := Except.ok.inj h
        obtain ⟨rawNodes, rawEdges, completionNodeKey, hparts, -, rfl⟩ := parseGraphInput_ok policy snapshot parsed hparse
        obtain ⟨hissues, rfl, -, -⟩ := validateGraphStructure_ok policy _ view hview
        obtain ⟨nodes, edges, hnodes, hedges, hacceptable⟩ :=
          (structureIssues_nil policy rawNodes rawEdges completionNodeKey).mp hissues
        refine ⟨hpolicy, nodes, edges, ⟨rawNodes, rawEdges, hparts, hnodes, hedges⟩, hacceptable, ?_⟩
        obtain ⟨-, rfl⟩ := (mapM_eq_some_iff _ _ _).mp hnodes
        obtain ⟨-, rfl⟩ := (mapM_eq_some_iff _ _ _).mp hedges
        rfl

theorem validateGraphSnapshot_of (snapshot override : Value) (nodes : List GraphNode) (edges : List GraphEdge)
    (graph : AcceptedGraph) (hpolicy : resolveGraphPolicy override = some graph.policy)
    (hreads : Reads snapshot nodes edges graph.completionNodeKey)
    (hacceptable : Acceptable graph.policy nodes edges graph.completionNodeKey)
    (hview : graph.toGraphStructureView = sortedStructureView nodes edges graph.completionNodeKey) :
    validateGraphSnapshot snapshot override = .ok graph := by
  obtain ⟨rawNodes, rawEdges, hparts, hnodes, hedges⟩ := hreads.parts
  have hslots : slotIssues rawNodes rawEdges graph.policy = [] := by
    rw [slotIssues_nil, ← length_of_mapM_some _ _ _ hnodes, ← length_of_mapM_some _ _ _ hedges]
    exact ⟨hacceptable.nodeLimit, hacceptable.edgeLimit⟩
  have hissues := (structureIssues_nil graph.policy rawNodes rawEdges graph.completionNodeKey).mpr
    ⟨nodes, edges, hnodes, hedges, hacceptable⟩
  obtain ⟨-, hfilterNodes⟩ := (mapM_eq_some_iff _ _ _).mp hnodes
  obtain ⟨-, hfilterEdges⟩ := (mapM_eq_some_iff _ _ _).mp hedges
  have hparse : parseGraphInput snapshot graph.policy = .ok (parsedParts rawNodes rawEdges graph.completionNodeKey) := by
    rw [parseGraphInput, hparts]
    exact if_pos hslots
  have hsorted : sortedStructureView (parsedParts rawNodes rawEdges graph.completionNodeKey).nodes
      (parsedParts rawNodes rawEdges graph.completionNodeKey).edges
      (parsedParts rawNodes rawEdges graph.completionNodeKey).completionNodeKey = graph.toGraphStructureView := by
    rw [hview, ← hfilterNodes, ← hfilterEdges]
    rfl
  have hstructure : validateGraphStructure (parsedParts rawNodes rawEdges graph.completionNodeKey) graph.policy
      = .ok graph.toGraphStructureView := by
    rw [validateGraphStructure, if_pos hissues]
    dsimp only
    rw [hsorted, if_pos graph.accepted.acyclic, if_pos graph.accepted.closed]
  unfold validateGraphSnapshot
  split
  · rename_i hnone
    rw [hpolicy] at hnone
    cases hnone
  · rename_i policy hsome
    obtain rfl := Option.some.inj (hpolicy.symm.trans hsome)
    split
    · rename_i issues herror
      rw [hparse] at herror
      cases herror
    · rename_i parsed hok
      obtain rfl := Except.ok.inj (hparse.symm.trans hok)
      split
      · rename_i issues herror
        rw [hstructure] at herror
        cases herror
      · rename_i view hok'
        obtain rfl := Except.ok.inj (hstructure.symm.trans hok')
        rfl

/-- Two snapshots with the same nodes and edges, in any order. -/
structure SameSnapshot (snapshot snapshot' : Value) : Prop where
  parts : ∃ rawNodes rawEdges rawNodes' rawEdges' completionNodeKey,
    snapshotParts snapshot = .ok (rawNodes, rawEdges, completionNodeKey)
      ∧ snapshotParts snapshot' = .ok (rawNodes', rawEdges', completionNodeKey)
      ∧ rawNodes'.Perm rawNodes ∧ rawEdges'.Perm rawEdges

theorem validateGraphSnapshot_perm (snapshot snapshot' override : Value) (graph : AcceptedGraph)
    (hsame : SameSnapshot snapshot snapshot') (h : validateGraphSnapshot snapshot override = .ok graph) :
    validateGraphSnapshot snapshot' override = .ok graph := by
  obtain ⟨hpolicy, nodes, edges, hreads, hacceptable, hview⟩ := validateGraphSnapshot_ok snapshot override graph h
  obtain ⟨rawNodes, rawEdges, hparts, hnodes, hedges⟩ := hreads.parts
  obtain ⟨_, _, rawNodes', rawEdges', _, hparts', hother, hpermNodes, hpermEdges⟩ := hsame.parts
  obtain ⟨rfl, hrest⟩ := Prod.mk.inj (Except.ok.inj (hparts.symm.trans hparts'))
  obtain ⟨rfl, rfl⟩ := Prod.mk.inj hrest
  obtain ⟨nodes', hnodes', hn⟩ := mapM_perm parseNode _ _ nodes hpermNodes hnodes
  obtain ⟨edges', hedges', he⟩ := mapM_perm parseEdge _ _ edges hpermEdges hedges
  refine validateGraphSnapshot_of snapshot' override nodes' edges' graph hpolicy ⟨rawNodes', rawEdges', hother, hnodes', hedges'⟩
    (hacceptable.perm hn he) (hview.trans ?_)
  rw [sortedStructureView, sortedStructureView, sort_eq_of_perm GraphNode.nodeKey nodes nodes' hn hacceptable.nodesDistinct,
    sort_eq_of_perm GraphEdge.edgeKey edges edges' he hacceptable.edgesDistinct]

def AcceptedGraph.validated (graph : AcceptedGraph) : ValidatedGraph where
  nodes := graph.nodes
  edges := graph.edges
  completionNodeKey := graph.completionNodeKey
  nodesSorted := graph.accepted.nodesSorted
  edgesSorted := graph.accepted.edgesSorted
  nodeKeys := graph.accepted.nodeKeys
  endpoints := graph.accepted.acceptable.linked
  nodeLimit := graph.accepted.acceptable.nodeLimit.trans graph.accepted.ceiling

end MoeNG.Graph

/-!
## The identity of a graph determines its structure (`graph-internal.ts:154-179`)
-/

namespace MoeNG.Graph
open MoeNG.Kernel MoeNG.Lib

/-! ### Framed tokens -/

theorem decimal_free (stop : CodeUnit) (h : stop.val < 48 ∨ 57 < stop.val) (n : ℕ) : stop ∉ decimal n := by
  intro hm
  have hdigit := decimal_digit n stop hm
  omega

theorem frame_prefixCode : PrefixCode frame := by
  intro a b x y h
  have hcolon : lit ":" = [58] := by decide
  unfold frame at h
  rw [hcolon, List.append_assoc, List.append_assoc, List.append_assoc, List.append_assoc] at h
  obtain ⟨hlength, h⟩ := append_separator_inj 58 _ _ _ _ (decimal_free 58 (by decide) _) (decimal_free 58 (by decide) _) h
  exact List.append_inj h (decimal_injective hlength)

/-- A count, behind its letter and before the joiner. -/
theorem count_prefixCode (letter : JsString) : PrefixCode fun n => letter ++ decimal n ++ lit "\n" := by
  intro m n x y h
  have hjoiner : lit "\n" = [10] := by decide
  rw [hjoiner, List.append_assoc, List.append_assoc, List.append_assoc, List.append_assoc] at h
  obtain ⟨hcount, h⟩ := append_separator_inj 10 _ _ _ _ (decimal_free 10 (by decide) _) (decimal_free 10 (by decide) _)
    (List.append_cancel_left h)
  exact ⟨decimal_injective hcount, h⟩

def nodeText (node : GraphNode) : JsString := frame node.nodeKey ++ if node.executionBearing then lit "1" else lit "0"

def edgeText (edge : GraphEdge) : JsString :=
  frame edge.edgeKey ++ frame edge.producerNodeKey ++ frame edge.consumerNodeKey
    ++ if edge.kind = .HARD then lit "H" else lit "A"

theorem nodeText_prefixCode : PrefixCode fun node => nodeText node ++ lit "\n" := by
  intro a b x y h
  unfold nodeText at h
  rw [List.append_assoc, List.append_assoc, List.append_assoc, List.append_assoc] at h
  obtain ⟨hkey, h⟩ := frame_prefixCode _ _ _ _ h
  obtain ⟨_, bearing⟩ := a
  obtain ⟨_, bearing'⟩ := b
  obtain rfl := hkey
  cases bearing <;> cases bearing'
  · exact ⟨rfl, List.append_cancel_left (List.append_cancel_left h)⟩
  · exact absurd (List.cons.inj h).1 (by decide)
  · exact absurd (List.cons.inj h).1 (by decide)
  · exact ⟨rfl, List.append_cancel_left (List.append_cancel_left h)⟩

theorem edgeText_prefixCode : PrefixCode fun edge => edgeText edge ++ lit "\n" := by
  intro a b x y h
  unfold edgeText at h
  simp only [List.append_assoc] at h
  obtain ⟨hkey, h⟩ := frame_prefixCode _ _ _ _ h
  obtain ⟨hproducer, h⟩ := frame_prefixCode _ _ _ _ h
  obtain ⟨hconsumer, h⟩ := frame_prefixCode _ _ _ _ h
  obtain ⟨_, _, _, kind⟩ := a
  obtain ⟨_, _, _, kind'⟩ := b
  obtain rfl := hkey
  obtain rfl := hproducer
  obtain rfl := hconsumer
  cases kind <;> cases kind'
  · exact ⟨rfl, List.append_cancel_left (List.append_cancel_left h)⟩
  · exact absurd (List.cons.inj h).1 (by decide)
  · exact absurd (List.cons.inj h).1 (by decide)
  · exact ⟨rfl, List.append_cancel_left (List.append_cancel_left h)⟩

/-! ### The whole text -/

theorem computeGraphIdentity_eq (nodes : List GraphNode) (edges : List GraphEdge) (completionNodeKey : JsString) :
    computeGraphIdentity nodes edges completionNodeKey
      = lit "MOE-GRAPH-IDENTITY/1" ++ lit "\n" ++ ((lit "N" ++ decimal nodes.length ++ lit "\n")
        ++ ((nodes.flatMap fun node => nodeText node ++ lit "\n") ++ ((lit "E" ++ decimal edges.length ++ lit "\n")
          ++ ((edges.flatMap fun edge => edgeText edge ++ lit "\n") ++ (lit "C" ++ frame completionNodeKey))))) := by
  unfold computeGraphIdentity
  rw [intercalate_snoc]
  simp only [List.flatMap_append, List.flatMap_cons, List.flatMap_nil, List.flatMap_map, List.append_nil, List.append_assoc,
    nodeText, edgeText]

theorem computeGraphIdentity_inj (nodes nodes' : List GraphNode) (edges edges' : List GraphEdge)
    (completionNodeKey completionNodeKey' : JsString)
    (h : computeGraphIdentity nodes edges completionNodeKey = computeGraphIdentity nodes' edges' completionNodeKey') :
    nodes = nodes' ∧ edges = edges' ∧ completionNodeKey = completionNodeKey' := by
  rw [computeGraphIdentity_eq, computeGraphIdentity_eq] at h
  obtain ⟨hnodeCount, h⟩ := count_prefixCode _ _ _ _ _ (List.append_cancel_left h)
  obtain ⟨hnodes, h⟩ := nodeText_prefixCode.flatMap_append_inj _ _ _ _ hnodeCount h
  obtain ⟨hedgeCount, h⟩ := count_prefixCode _ _ _ _ _ h
  obtain ⟨hedges, h⟩ := edgeText_prefixCode.flatMap_append_inj _ _ _ _ hedgeCount h
  have hframe : frame completionNodeKey ++ [] = frame completionNodeKey' ++ [] := by
    rw [List.append_nil, List.append_nil]
    exact List.append_cancel_left h
  exact ⟨hnodes, hedges, (frame_prefixCode _ _ _ _ hframe).1⟩

/-! ### Accepted graphs -/

def AcceptedGraph.graphIdentity (graph : AcceptedGraph) : JsString := graph.validated.graphIdentity

theorem graphIdentity_eq_iff (graph graph' : AcceptedGraph) : graph.graphIdentity = graph'.graphIdentity
    ↔ graph.nodes = graph'.nodes ∧ graph.edges = graph'.edges ∧ graph.completionNodeKey = graph'.completionNodeKey := by
  refine ⟨computeGraphIdentity_inj _ _ _ _ _ _, fun ⟨hnodes, hedges, hcompletion⟩ => ?_⟩
  show computeGraphIdentity graph.nodes graph.edges graph.completionNodeKey
    = computeGraphIdentity graph'.nodes graph'.edges graph'.completionNodeKey
  rw [hnodes, hedges, hcompletion]

theorem sortedStructureView_eq_iff {policy : GraphPolicy} {nodes nodes' : List GraphNode}
    {edges edges' : List GraphEdge} {completionNodeKey completionNodeKey' : JsString}
    (h : Acceptable policy nodes edges completionNodeKey) :
    sortedStructureView nodes edges completionNodeKey = sortedStructureView nodes' edges' completionNodeKey'
      ↔ nodes'.Perm nodes ∧ edges'.Perm edges ∧ completionNodeKey = completionNodeKey' := by
  rw [sortedStructureView, sortedStructureView, GraphStructureView.mk.injEq]
  constructor
  · rintro ⟨hnodes, hedges, hcompletion⟩
    refine ⟨?_, ?_, hcompletion⟩
    · exact (List.perm_insertionSort _ nodes').symm.trans (hnodes ▸ List.perm_insertionSort _ nodes)
    · exact (List.perm_insertionSort _ edges').symm.trans (hedges ▸ List.perm_insertionSort _ edges)
  · rintro ⟨hnodes, hedges, hcompletion⟩
    exact ⟨(sort_eq_of_perm GraphNode.nodeKey nodes nodes' hnodes h.nodesDistinct).symm,
      (sort_eq_of_perm GraphEdge.edgeKey edges edges' hedges h.edgesDistinct).symm, hcompletion⟩

/-- Two accepted snapshots have one identity exactly when they are the same up to the order of nodes and edges. -/
structure GraphIdentityLaw : Prop where
  structural : ∀ graph graph' : AcceptedGraph, graph.graphIdentity = graph'.graphIdentity
    ↔ graph.nodes = graph'.nodes ∧ graph.edges = graph'.edges ∧ graph.completionNodeKey = graph'.completionNodeKey
  snapshots : ∀ snapshot snapshot' override override' graph graph' nodes nodes' edges edges',
    validateGraphSnapshot snapshot override = .ok graph → validateGraphSnapshot snapshot' override' = .ok graph' →
    Reads snapshot nodes edges graph.completionNodeKey → Reads snapshot' nodes' edges' graph'.completionNodeKey →
    (graph.graphIdentity = graph'.graphIdentity
      ↔ nodes'.Perm nodes ∧ edges'.Perm edges ∧ graph.completionNodeKey = graph'.completionNodeKey)
  reordered : ∀ snapshot snapshot' override graph, SameSnapshot snapshot snapshot' →
    validateGraphSnapshot snapshot override = .ok graph → validateGraphSnapshot snapshot' override = .ok graph

theorem graph_identity_law : GraphIdentityLaw where
  structural := graphIdentity_eq_iff
  snapshots snapshot snapshot' override override' graph graph' nodes nodes' edges edges' h h' hreads hreads' := by
    obtain ⟨-, found, foundEdges, hfound, hacceptable, hview⟩ := validateGraphSnapshot_ok snapshot override graph h
    obtain ⟨-, found', foundEdges', hfound', -, hview'⟩ := validateGraphSnapshot_ok snapshot' override' graph' h'
    obtain ⟨rfl, rfl⟩ := hfound.unique hreads
    obtain ⟨rfl, rfl⟩ := hfound'.unique hreads'
    rw [graphIdentity_eq_iff, ← sortedStructureView_eq_iff hacceptable, ← hview, ← hview', GraphStructureView.mk.injEq]
  reordered snapshot snapshot' override graph := validateGraphSnapshot_perm snapshot snapshot' override graph

end MoeNG.Graph
