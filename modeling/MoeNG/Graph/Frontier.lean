import MoeNG.Graph.Model
import MoeNG.Lib.Keyed

/-!
# The frontier partition (`packages/scheduler/src/frontier-cursor.ts`, `frontier.ts`)
-/

namespace MoeNG.Graph
open MoeNG.Kernel MoeNG.Lib

inductive HardEdgeSatisfaction where
  | SATISFIED
  | UNSATISFIED
  | UNKNOWN
  deriving DecidableEq

def HardEdgeSatisfaction.text : HardEdgeSatisfaction → String
  | .SATISFIED => "SATISFIED"
  | .UNSATISFIED => "UNSATISFIED"
  | .UNKNOWN => "UNKNOWN"

structure NodeAvailability where
  admissionEligible : Bool
  dispatchAvailable : Bool
  deriving DecidableEq

inductive BlockedReasonCode where
  | HARD_DEPENDENCY_UNSATISFIED
  | HARD_DEPENDENCY_UNKNOWN
  deriving DecidableEq

structure BlockedReason where
  code : BlockedReasonCode
  edgeKey : JsString
  producerNodeKey : JsString
  deriving DecidableEq

structure BlockedNode where
  nodeKey : JsString
  reasons : List BlockedReason
  deriving DecidableEq

structure FrontierPartition where
  graphIdentity : JsString
  logicalReady : List JsString
  admissionReady : List JsString
  dispatchable : List JsString
  blocked : List BlockedNode
  deriving DecidableEq

/-! ### The cursor (`frontier-cursor.ts:56-240`) -/

def malformed (detail : JsString) : GraphIssue := ⟨.FRONTIER_MALFORMED_CURSOR, detail, [], []⟩

def hardEdgeKeysOf (graph : ValidatedGraph) : List JsString :=
  (graph.edges.filter fun edge => edge.kind = .HARD).map GraphEdge.edgeKey

def hardEdgeFact (fact : Value) : Option (JsString × HardEdgeSatisfaction) := do
  let item ← readRecord fact ["edgeKey", "state"] ["edgeKey", "state"]
  let edgeKey ← graphKeyOf (item.field "edgeKey")
  let state ← oneOf HardEdgeSatisfaction.text [.SATISFIED, .UNSATISFIED, .UNKNOWN] (item.field "state")
  some (edgeKey, state)

def readHardEdgeFacts (graph : ValidatedGraph) (facts : List Value) : Reading JsString HardEdgeSatisfaction GraphIssue :=
  readKeyed hardEdgeFact (fun edgeKey => edgeKey ∈ hardEdgeKeysOf graph)
    (fun i => malformed (lit "hardEdgeFacts[" ++ decimal i ++ lit "] is malformed or has an invalid state"))
    (fun edgeKey => ⟨.FRONTIER_EDGE_FACT_UNKNOWN_EDGE,
      lit "hardEdgeFacts references " ++ quoted edgeKey ++ lit ", which is not a HARD edge", [], [edgeKey]⟩)
    (fun edgeKey => ⟨.FRONTIER_EDGE_FACT_DUPLICATE,
      lit "duplicate satisfaction fact for HARD edge " ++ quoted edgeKey, [], [edgeKey]⟩)
    facts

def missingEdgeFacts (graph : ValidatedGraph) (edgeState : OrdMap JsString HardEdgeSatisfaction) : List GraphIssue :=
  ((sortedCopy (hardEdgeKeysOf graph)).filter fun edgeKey => !edgeState.has edgeKey).map fun edgeKey =>
    ⟨.FRONTIER_EDGE_FACT_MISSING, lit "no satisfaction fact supplied for HARD edge " ++ quoted edgeKey, [], [edgeKey]⟩

def countRefusals (hardEdgeFactCount nodeAvailabilityFactCount : ℕ) : List GraphIssue :=
  (if absoluteMaxGraphTotalEdges < hardEdgeFactCount then
      [malformed (lit "cursor declares " ++ decimal hardEdgeFactCount ++ lit " HARD-edge facts; parser ceiling is "
        ++ decimal absoluteMaxGraphTotalEdges)]
    else [])
    ++ if absoluteMaxGraphNodes < nodeAvailabilityFactCount then
      [malformed (lit "cursor declares " ++ decimal nodeAvailabilityFactCount ++ lit " node facts; parser ceiling is "
        ++ decimal absoluteMaxGraphNodes)]
    else []

structure CursorCollections where
  hardEdgeFacts : List Value
  nodeAvailabilityFacts : List Value

def readCollections (cursor : Value) : Option CursorCollections := do
  let item ← readRecord cursor ["hardEdgeFacts", "nodeAvailabilityFacts"] ["hardEdgeFacts", "nodeAvailabilityFacts"]
  match item.field "hardEdgeFacts", item.field "nodeAvailabilityFacts" with
  | .array hardEdgeFacts, .array nodeAvailabilityFacts => some ⟨hardEdgeFacts, nodeAvailabilityFacts⟩
  | _, _ => none

/-! ### Node facts (`frontier.ts:77-167`) -/

def availabilityFact (fact : Value) : Option (JsString × NodeAvailability) := do
  let item ← readRecord fact ["admissionEligible", "dispatchAvailable", "nodeKey"]
    ["admissionEligible", "dispatchAvailable", "nodeKey"]
  let nodeKey ← graphKeyOf (item.field "nodeKey")
  let admission ← boolOf (item.field "admissionEligible")
  let dispatch ← boolOf (item.field "dispatchAvailable")
  some (nodeKey, ⟨admission, dispatch⟩)

def nodeKeysOf (graph : ValidatedGraph) : List JsString := graph.nodes.map GraphNode.nodeKey

def readAvailabilityFacts (graph : ValidatedGraph) (facts : List Value) : Reading JsString NodeAvailability GraphIssue :=
  readKeyed availabilityFact (fun nodeKey => nodeKey ∈ nodeKeysOf graph)
    (fun i => malformed (lit "nodeAvailabilityFacts[" ++ decimal i ++ lit "] is malformed or missing boolean flags"))
    (fun nodeKey => ⟨.FRONTIER_NODE_FACT_UNKNOWN_NODE,
      lit "nodeAvailabilityFacts references unknown node " ++ quoted nodeKey, [nodeKey], []⟩)
    (fun nodeKey => ⟨.FRONTIER_NODE_FACT_DUPLICATE,
      lit "duplicate availability fact for node " ++ quoted nodeKey, [nodeKey], []⟩)
    facts

def missingNodeFacts (graph : ValidatedGraph) (available : OrdMap JsString NodeAvailability) : List GraphIssue :=
  ((sortedCopy (nodeKeysOf graph)).filter fun nodeKey => !available.has nodeKey).map fun nodeKey =>
    ⟨.FRONTIER_NODE_FACT_MISSING, lit "no availability fact supplied for node " ++ quoted nodeKey, [nodeKey], []⟩

/-! ### The partition (`frontier.ts:168-250`) -/

def incomingHard (graph : ValidatedGraph) (nodeKey : JsString) : List GraphEdge :=
  graph.edges.filter fun edge => edge.kind = .HARD && edge.consumerNodeKey = nodeKey

def blockedReason (edgeState : OrdMap JsString HardEdgeSatisfaction) (edge : GraphEdge) : Option BlockedReason :=
  match edgeState.get edge.edgeKey with
  | some .UNSATISFIED => some ⟨.HARD_DEPENDENCY_UNSATISFIED, edge.edgeKey, edge.producerNodeKey⟩
  | some .UNKNOWN => some ⟨.HARD_DEPENDENCY_UNKNOWN, edge.edgeKey, edge.producerNodeKey⟩
  | _ => none

def blockedReasons (graph : ValidatedGraph) (edgeState : OrdMap JsString HardEdgeSatisfaction) (nodeKey : JsString) :
    List BlockedReason :=
  ((incomingHard graph nodeKey).filterMap (blockedReason edgeState)).insertionSort fun a b => a.edgeKey ≤ b.edgeKey

section Partition
variable (graph : ValidatedGraph) (edgeState : OrdMap JsString HardEdgeSatisfaction)
  (available : OrdMap JsString NodeAvailability)

-- nodes without execution authority enter none of the lists
def isLogicalReady (node : GraphNode) : Bool := node.executionBearing && blockedReasons graph edgeState node.nodeKey = []

def isAdmissionReady (node : GraphNode) : Bool :=
  isLogicalReady graph edgeState node && (available.get node.nodeKey).any NodeAvailability.admissionEligible

def isDispatchable (node : GraphNode) : Bool :=
  isAdmissionReady graph edgeState available node && (available.get node.nodeKey).any NodeAvailability.dispatchAvailable

def keysWhere (ready : GraphNode → Bool) : List JsString := sortedCopy ((graph.nodes.filter ready).map GraphNode.nodeKey)

def blockedNodes : List BlockedNode :=
  ((graph.nodes.filter fun node => node.executionBearing && blockedReasons graph edgeState node.nodeKey ≠ []).map
    fun node => ⟨node.nodeKey, blockedReasons graph edgeState node.nodeKey⟩).insertionSort fun a b => a.nodeKey ≤ b.nodeKey

def partition : FrontierPartition :=
  { graphIdentity := graph.graphIdentity
    logicalReady := keysWhere graph (isLogicalReady graph edgeState)
    admissionReady := keysWhere graph (isAdmissionReady graph edgeState available)
    dispatchable := keysWhere graph (isDispatchable graph edgeState available)
    blocked := blockedNodes graph edgeState }

end Partition

def partitionFrontier (graph : ValidatedGraph) (cursor : Value) : Except (List GraphIssue) FrontierPartition :=
  match readCollections cursor with
  | none =>
    .error [malformed (lit ("cursor schema is malformed; it requires only own hardEdgeFacts and "
      ++ "nodeAvailabilityFacts arrays"))]
  | some collections =>
    let countIssues := countRefusals collections.hardEdgeFacts.length collections.nodeAvailabilityFacts.length
    if countIssues ≠ [] then .error (sortIssues countIssues)
    else
      let edges := readHardEdgeFacts graph collections.hardEdgeFacts
      let nodes := readAvailabilityFacts graph collections.nodeAvailabilityFacts
      let issues := edges.issues ++ missingEdgeFacts graph edges.values ++ nodes.issues ++ missingNodeFacts graph nodes.values
      if issues ≠ [] then .error (sortIssues issues) else .ok (partition graph edges.values nodes.values)

end MoeNG.Graph
