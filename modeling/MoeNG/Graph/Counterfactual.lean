import MoeNG.Graph.Analysis

/-!
# Counterfactuals of HARD edges (`packages/scheduler/src/hard-edge-counterfactual.ts`, `hard-edge-counterfactual-model.ts`)
-/

namespace MoeNG.Graph
open MoeNG.Kernel MoeNG.Lib

inductive DependencyNecessity where
  | UNKNOWN
  deriving DecidableEq

structure HardEdgeCounterfactual where
  edgeKey : JsString
  producerNodeKey : JsString
  consumerNodeKey : JsString
  structuralStageCountWithoutEdge : ℕ
  structuralStageReduction : ℤ
  executionBearingHardRootCountWithoutEdge : ℕ
  newlyHardRootedExecutionNodeKeys : List JsString
  alternateHardPathPresent : Bool
  completionClosureIntactWithoutEdge : Bool
  dependencyNecessity : DependencyNecessity
  requiresSemanticProof : Bool
  reviewOnly : Bool
  deriving DecidableEq

structure HardEdgeCounterfactualAnalysis where
  graphIdentity : JsString
  sourceGraphStructuralStageCount : ℕ
  sourceGraphExecutionBearingHardRootCount : ℕ
  edges : List HardEdgeCounterfactual
  durationEstimate : Option ℕ
  deriving DecidableEq

/-! ### One graph (`hard-edge-counterfactual.ts:75-160`) -/

def predecessorMaximum (arcs : List HardArc) (best : List ℕ) : ℕ :=
  arcs.foldl (fun most arc => max most (best.getD arc.nodeIndex 0)) 0

def structuralStageCount (index : HardGraphIndex) : Except GraphAnalysisError ℕ :=
  let topo := topologicalOrder index
  if topo.acyclic then
    .ok (topo.order.foldl (fun state node =>
      let value := predecessorMaximum (index.inArcs node) state.1 + index.execution node
      (state.1.set node value, max state.2 value)) (List.replicate index.size 0, 0)).2
  else
    .error ⟨.GRAPH_ANALYSIS_CYCLE_PRECONDITION_INVALID, "removing a HARD edge unexpectedly produced a cyclic graph"⟩

def executionBearingHardRoots (index : HardGraphIndex) : List JsString :=
  ((List.range index.size).filter fun node => index.executionBearing.getD node false && (index.inArcs node).isEmpty).map
    fun node => index.nodeKeys.getD node []

/-- The arcs of one node: nothing when one of them leads to the target. -/
def scanForTarget (target : ℕ) : List HardArc → List ℕ × List Bool → Option (List ℕ × List Bool)
  | [], state => some state
  | arc :: rest, state => if arc.nodeIndex = target then none else scanForTarget target rest (reachArc state arc)

def searchFor (index : HardGraphIndex) (target : ℕ) : ℕ → List ℕ → List Bool → Bool
  | 0, _, _ => false
  | _ + 1, [], _ => false
  | fuel + 1, node :: queue, seen =>
    match scanForTarget target (index.outArcs node) (queue, seen) with
    | none => true
    | some (queue, seen) => searchFor index target fuel queue seen

-- a node joins the queue once
def hardPathExists (index : HardGraphIndex) (start target : ℕ) : Bool :=
  searchFor index target index.size [start] ((List.replicate index.size false).set start true)

def completionClosureIntact (index : HardGraphIndex) : Bool :=
  let reachesCompletion := reachCompletion index index.size [index.completionIndex]
    ((List.replicate index.size false).set index.completionIndex true)
  (List.range index.size).all fun node => !index.executionBearing.getD node false || reachesCompletion.getD node false

/-! ### Every HARD edge (`hard-edge-counterfactual.ts:26-73`) -/

def GraphStructureView.withoutEdge (graph : GraphStructureView) (edgeKey : JsString) : GraphStructureView :=
  { graph with edges := graph.edges.filter fun edge => edge.edgeKey ≠ edgeKey }

def counterfactual (graph : GraphStructureView) (baselineStageCount : ℕ) (baselineRoots : List JsString)
    (removedEdge : GraphEdge) : Except GraphAnalysisError HardEdgeCounterfactual := do
  let index := buildHardGraphIndex (graph.withoutEdge removedEdge.edgeKey)
  let stageCount ← structuralStageCount index
  let counterfactualRoots := executionBearingHardRoots index
  let producer := index.nodeKeys.idxOf removedEdge.producerNodeKey
  let consumer := index.nodeKeys.idxOf removedEdge.consumerNodeKey
  .ok
    { edgeKey := removedEdge.edgeKey
      producerNodeKey := removedEdge.producerNodeKey
      consumerNodeKey := removedEdge.consumerNodeKey
      structuralStageCountWithoutEdge := stageCount
      structuralStageReduction := (baselineStageCount : ℤ) - stageCount
      executionBearingHardRootCountWithoutEdge := counterfactualRoots.length
      newlyHardRootedExecutionNodeKeys := counterfactualRoots.filter fun nodeKey => nodeKey ∉ baselineRoots
      alternateHardPathPresent := hardPathExists index producer consumer
      completionClosureIntactWithoutEdge := completionClosureIntact index
      dependencyNecessity := .UNKNOWN
      requiresSemanticProof := true
      reviewOnly := true }

def analyzeHardEdgeCounterfactuals (graph : AcceptedGraph) : Except GraphAnalysisError HardEdgeCounterfactualAnalysis := do
  let baseline ← analyzeGraphStructure graph none
  let baselineRoots := executionBearingHardRoots (buildHardGraphIndex graph.toGraphStructureView)
  let records ← (graph.edges.filter fun edge => edge.kind = .HARD).mapM
    (counterfactual graph.toGraphStructureView baseline.structuralStageCount baselineRoots)
  .ok
    { graphIdentity := graph.graphIdentity
      sourceGraphStructuralStageCount := baseline.structuralStageCount
      sourceGraphExecutionBearingHardRootCount := baselineRoots.length
      edges := records.insertionSort fun left right => left.edgeKey ≤ right.edgeKey
      durationEstimate := none }

end MoeNG.Graph
