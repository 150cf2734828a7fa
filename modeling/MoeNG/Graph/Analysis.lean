import MoeNG.Graph.Frontier
import MoeNG.Graph.Identity
import MoeNG.Graph.Redundancy

/-!
# Structural analysis (`packages/scheduler/src/analyze-graph.ts`)
-/

namespace MoeNG.Graph
open MoeNG.Kernel MoeNG.Lib

/-! ### Results (`graph-model.ts:146-233`, `graph-analysis-error.ts`) -/

inductive GraphAnalysisErrorCode where
  | FRONTIER_GRAPH_IDENTITY_MISMATCH
  | FRONTIER_VALIDATION_PROVENANCE_INVALID
  | GRAPH_ANALYSIS_CYCLE_PRECONDITION_INVALID
  deriving DecidableEq

structure GraphAnalysisError where
  code : GraphAnalysisErrorCode
  detail : String
  deriving DecidableEq

structure NodeStructuralFacts where
  nodeKey : JsString
  hardAncestorKeys : List JsString
  hardDescendantKeys : List JsString
  hardDescendantCount : ℕ
  deriving DecidableEq

structure CriticalPathEdge where
  edgeKey : JsString
  producerNodeKey : JsString
  consumerNodeKey : JsString
  gatedDescendantCount : ℕ
  deriving DecidableEq

inductive StructuralDiagnosticCode where
  | INTERFACE_FIRST_REVIEW_REQUIRED
  deriving DecidableEq

structure StructuralDiagnostic where
  code : StructuralDiagnosticCode
  edgeKey : JsString
  gatedDescendantCount : ℕ
  reviewOnly : Bool
  deriving DecidableEq

structure GraphStructuralAnalysis where
  topologicalOrder : List JsString
  hardEdgeCount : ℕ
  structuralStageCount : ℕ
  structuralCriticalPathNodeKeys : List JsString
  criticalPathHardEdges : List CriticalPathEdge
  nodes : List NodeStructuralFacts
  rootNodeKeys : List JsString
  leafNodeKeys : List JsString
  logicalReadyWidth : Option ℕ
  admissionReadyWidth : Option ℕ
  dispatchableWidth : Option ℕ
  structuralRedundancyCandidates : List RedundancyCandidate
  diagnostics : List StructuralDiagnostic
  durationEstimate : Option ℕ
  deriving DecidableEq

/-! ### Masks (`analyze-graph.ts:24-44`, `analyze-graph.ts:91-119`) -/

def maskToKeys (mask : ℕ) (nodeKeys : List JsString) : List JsString :=
  ((List.range nodeKeys.length).filter fun i => hasBit mask i).map fun i => nodeKeys.getD i []

def popcount (mask n : ℕ) : ℕ := (List.range n).countP fun i => hasBit mask i

/-- The bits of the nodes that some arcs lead to, and of what these lead to. -/
def maskOf (arcs : List HardArc) (masks : List ℕ) : ℕ :=
  arcs.foldl (fun mask arc => mask ||| (bit arc.nodeIndex ||| masks.getD arc.nodeIndex 0)) 0

def ancestorMasks (index : HardGraphIndex) (order : List ℕ) : List ℕ :=
  order.foldl (fun masks u => masks.set u (maskOf (index.inArcs u) masks)) (List.replicate index.size 0)

def descendantMasks (index : HardGraphIndex) (order : List ℕ) : List ℕ :=
  order.reverse.foldl (fun masks u => masks.set u (maskOf (index.outArcs u) masks)) (List.replicate index.size 0)

/-! ### Stages (`analyze-graph.ts:121-167`) -/

structure StageEntry where
  bestExec : ℕ
  parent : Option ℕ
  deriving DecidableEq

def noStage : StageEntry := ⟨0, none⟩

def bestPredecessor (arcs : List HardArc) (entries : List StageEntry) : ℕ × Option ℕ :=
  arcs.foldl (fun best arc =>
    if best.1 < (entries.getD arc.nodeIndex noStage).bestExec then
      ((entries.getD arc.nodeIndex noStage).bestExec, some arc.nodeIndex)
    else best) (0, none)

def HardGraphIndex.execution (index : HardGraphIndex) (node : ℕ) : ℕ := if index.executionBearing.getD node false then 1 else 0

def stageEntry (index : HardGraphIndex) (entries : List StageEntry) (u : ℕ) : StageEntry :=
  let best := bestPredecessor (index.inArcs u) entries
  ⟨index.execution u + best.1, best.2⟩

def stageEntries (index : HardGraphIndex) (order : List ℕ) : List StageEntry :=
  order.foldl (fun entries u => entries.set u (stageEntry index entries u)) (List.replicate index.size noStage)

/-- The stage count and the first node that attains it. -/
def stageEnd (n : ℕ) (entries : List StageEntry) : ℕ × Option ℕ :=
  (List.range n).foldl (fun best i =>
    if best.1 < (entries.getD i noStage).bestExec then ((entries.getD i noStage).bestExec, some i) else best) (0, none)

def walkParents (entries : List StageEntry) : ℕ → Option ℕ → List ℕ
  | 0, _ => []
  | _ + 1, none => []
  | fuel + 1, some cursor => cursor :: walkParents entries fuel (entries.getD cursor noStage).parent

-- a parent stands before its child in the order
def criticalPath (n : ℕ) (entries : List StageEntry) : List ℕ := (walkParents entries n (stageEnd n entries).2).reverse

def criticalPathEdge (index : HardGraphIndex) (descendantMask : List ℕ) (pair : ℕ × ℕ) : Option CriticalPathEdge :=
  ((index.inArcs pair.2).find? fun arc => arc.nodeIndex = pair.1).map fun arc =>
    ⟨arc.edgeKey, index.nodeKeys.getD pair.1 [], index.nodeKeys.getD pair.2 [],
      popcount (descendantMask.getD pair.2 0) index.size⟩

def criticalPathEdges (index : HardGraphIndex) (descendantMask : List ℕ) (path : List ℕ) : List CriticalPathEdge :=
  (path.zip path.tail).filterMap (criticalPathEdge index descendantMask)

def bottleneckDiagnostics (edges : List CriticalPathEdge) (threshold : ℕ) : List StructuralDiagnostic :=
  ((edges.filter fun edge => threshold ≤ edge.gatedDescendantCount).map fun edge =>
    (⟨.INTERFACE_FIRST_REVIEW_REQUIRED, edge.edgeKey, edge.gatedDescendantCount, true⟩ : StructuralDiagnostic)).insertionSort
      fun a b => a.edgeKey ≤ b.edgeKey

/-! ### The analysis (`analyze-graph.ts:53-247`) -/

/-- A partition, and whether it was made for this very graph. -/
structure SuppliedFrontier where
  partition : FrontierPartition
  bound : Bool

def nodeFacts (index : HardGraphIndex) (ancestorMask descendantMask : List ℕ) (i : ℕ) : NodeStructuralFacts :=
  { nodeKey := index.nodeKeys.getD i []
    hardAncestorKeys := maskToKeys (ancestorMask.getD i 0) index.nodeKeys
    hardDescendantKeys := maskToKeys (descendantMask.getD i 0) index.nodeKeys
    hardDescendantCount := popcount (descendantMask.getD i 0) index.size }

def frontierRefusal (graph : AcceptedGraph) : Option SuppliedFrontier → Option GraphAnalysisError
  | none => none
  | some frontier =>
    if !frontier.bound then
      some ⟨.FRONTIER_VALIDATION_PROVENANCE_INVALID, "frontier was not produced for this exact validated graph"⟩
    else if frontier.partition.graphIdentity ≠ graph.graphIdentity then
      some ⟨.FRONTIER_GRAPH_IDENTITY_MISMATCH, "frontier graphIdentity does not match the validated graph"⟩
    else none

def analyzeGraphStructure (graph : AcceptedGraph) (frontier : Option SuppliedFrontier) :
    Except GraphAnalysisError GraphStructuralAnalysis :=
  match frontierRefusal graph frontier with
  | some refusal => .error refusal
  | none =>
    let index := buildHardGraphIndex graph.toGraphStructureView
    let n := index.size
    let topo := topologicalOrder index
    if topo.acyclic then
      let ancestorMask := ancestorMasks index topo.order
      let descendantMask := descendantMasks index topo.order
      let entries := stageEntries index topo.order
      let path := criticalPath n entries
      let pathEdges := criticalPathEdges index descendantMask path
      .ok
        { topologicalOrder := topo.order.map fun i => index.nodeKeys.getD i []
          hardEdgeCount := index.hardEdgeCount
          structuralStageCount := (stageEnd n entries).1
          structuralCriticalPathNodeKeys := path.map fun i => index.nodeKeys.getD i []
          criticalPathHardEdges := pathEdges
          nodes := (List.range n).map (nodeFacts index ancestorMask descendantMask)
          rootNodeKeys := ((List.range n).filter fun i => (index.inArcs i).isEmpty).map fun i => index.nodeKeys.getD i []
          leafNodeKeys := ((List.range n).filter fun i => (index.outArcs i).isEmpty).map fun i => index.nodeKeys.getD i []
          logicalReadyWidth := frontier.map fun f => f.partition.logicalReady.length
          admissionReadyWidth := frontier.map fun f => f.partition.admissionReady.length
          dispatchableWidth := frontier.map fun f => f.partition.dispatchable.length
          structuralRedundancyCandidates := findRedundancyCandidates graph.toGraphStructureView index descendantMask
          diagnostics := bottleneckDiagnostics pathEdges graph.policy.minGatedDescendantsForReview
          durationEstimate := none }
    else .error ⟨.GRAPH_ANALYSIS_CYCLE_PRECONDITION_INVALID, "the HARD subgraph is cyclic despite validated provenance"⟩

end MoeNG.Graph
