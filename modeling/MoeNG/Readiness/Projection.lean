import MoeNG.Readiness.Facts

/-!
# The readiness projection (`packages/scheduler/src/readiness/readiness-cursor.ts`,
`readiness-projection.ts`, `readiness-explanation.ts`)

The graph is a validated one by its type, so the two provenance checks always
pass.
-/

namespace MoeNG.Readiness
open MoeNG.Kernel MoeNG.Lib MoeNG.Graph

/-! ### Reasons and issues (`readiness-model.ts:100-195`) -/

inductive ReasonCode where
  | caller (code : CallerFactCode)
  | READINESS_NOT_EXECUTION_BEARING
  | blocked (code : BlockedReasonCode)
  deriving DecidableEq

def ReasonCode.text : ReasonCode → String
  | .caller code => code.text
  | .READINESS_NOT_EXECUTION_BEARING => "READINESS_NOT_EXECUTION_BEARING"
  | .blocked .HARD_DEPENDENCY_UNSATISFIED => "HARD_DEPENDENCY_UNSATISFIED"
  | .blocked .HARD_DEPENDENCY_UNKNOWN => "HARD_DEPENDENCY_UNKNOWN"

structure ReadinessReason where
  code : ReasonCode
  layer : ReadinessLayer
  confidence : FactConfidence
  nodeKey : JsString
  edgeKey : Option JsString
  provenance : Option DependencyFactBinding
  recoveryRef : Option JsString
  deriving DecidableEq

inductive ReadinessIssueCode where
  | READINESS_INPUT_MALFORMED
  | READINESS_NODE_FACTS_MISSING
  | READINESS_NODE_FACTS_DUPLICATE
  | READINESS_NODE_FACTS_UNKNOWN_NODE
  | graph (code : GraphIssueCode)
  deriving DecidableEq

def ReadinessIssueCode.text : ReadinessIssueCode → String
  | .READINESS_INPUT_MALFORMED => "READINESS_INPUT_MALFORMED"
  | .READINESS_NODE_FACTS_MISSING => "READINESS_NODE_FACTS_MISSING"
  | .READINESS_NODE_FACTS_DUPLICATE => "READINESS_NODE_FACTS_DUPLICATE"
  | .READINESS_NODE_FACTS_UNKNOWN_NODE => "READINESS_NODE_FACTS_UNKNOWN_NODE"
  | .graph code => code.text

structure ReadinessIssue where
  code : ReadinessIssueCode
  message : JsString
  nodeKeys : List JsString
  deriving DecidableEq

inductive ReadinessWithholdReason where
  | AVAILABILITY_UNKNOWN
  deriving DecidableEq

/-! ### The cursor (`readiness-cursor.ts:47-173`) -/

def readinessIssueKey (issue : ReadinessIssue) : JsString :=
  jsonRecord [("code", jsonString (lit issue.code.text)), ("message", jsonString issue.message),
    ("nodeKeys", jsonArray (issue.nodeKeys.map jsonString))]

def sortReadinessIssues (issues : List ReadinessIssue) : List ReadinessIssue :=
  issues.insertionSort fun left right => readinessIssueKey left ≤ readinessIssueKey right

def bundle (entry : Value) : Option (JsString × NodeReadinessFacts) :=
  (parseNodeReadinessFacts entry).map fun parsed => (parsed.nodeKey, parsed)

def readBundles (graph : ValidatedGraph) (entries : List Value) : Reading JsString NodeReadinessFacts ReadinessIssue :=
  readKeyed bundle (fun nodeKey => nodeKey ∈ nodeKeysOf graph)
    (fun index => ⟨.READINESS_INPUT_MALFORMED, lit "nodeFacts[" ++ decimal index ++ lit "] is malformed", []⟩)
    (fun nodeKey => ⟨.READINESS_NODE_FACTS_UNKNOWN_NODE, lit "nodeFacts references unknown node " ++ quoted nodeKey, [nodeKey]⟩)
    (fun nodeKey => ⟨.READINESS_NODE_FACTS_DUPLICATE, lit "duplicate fact bundle for node " ++ quoted nodeKey, [nodeKey]⟩)
    entries

def missingBundles (graph : ValidatedGraph) (facts : OrdMap JsString NodeReadinessFacts) : List ReadinessIssue :=
  ((nodeKeysOf graph).filter fun nodeKey => !facts.has nodeKey).map fun nodeKey =>
    ⟨.READINESS_NODE_FACTS_MISSING, lit "no fact bundle supplied for node " ++ quoted nodeKey, [nodeKey]⟩

def parseBundles (graph : ValidatedGraph) (value : Value) : Reading JsString NodeReadinessFacts ReadinessIssue :=
  match dense value 0 with
  | none => ⟨OrdMap.empty, [⟨.READINESS_INPUT_MALFORMED, lit "nodeFacts must be a bounded dense array", []⟩]⟩
  | some entries =>
    let r := readBundles graph entries
    { r with issues := r.issues ++ missingBundles graph r.values }

def withholdReason (graph : ValidatedGraph) (facts : OrdMap JsString NodeReadinessFacts) : Option ReadinessWithholdReason :=
  if graph.nodes.any fun node => node.executionBearing && (facts.get node.nodeKey).any fun supplied =>
      supplied.admission = .UNKNOWN || supplied.dispatch = .UNKNOWN then some .AVAILABILITY_UNKNOWN
  else none

def nodeAvailability (facts : OrdMap JsString NodeReadinessFacts) (withheld : Option ReadinessWithholdReason)
    (node : GraphNode) : NodeAvailability :=
  if !node.executionBearing || withheld.isSome then ⟨false, false⟩
  else
    ⟨(facts.get node.nodeKey).any fun supplied => supplied.admission = .CONFIRMED_TRUE,
      (facts.get node.nodeKey).any fun supplied => supplied.dispatch = .CONFIRMED_TRUE⟩

def availabilityValue (nodeKey : JsString) (available : NodeAvailability) : Value :=
  recordOf [("admissionEligible", .bool available.admissionEligible), ("dispatchAvailable", .bool available.dispatchAvailable),
    ("nodeKey", .string nodeKey)]

structure ReadinessCursor where
  facts : OrdMap JsString NodeReadinessFacts
  cursor : Value
  withheld : Option ReadinessWithholdReason

def cursorValue (graph : ValidatedGraph) (hardEdgeFacts : Value) (facts : OrdMap JsString NodeReadinessFacts)
    (withheld : Option ReadinessWithholdReason) : Value :=
  recordOf [("hardEdgeFacts", hardEdgeFacts),
    ("nodeAvailabilityFacts", .array (graph.nodes.map fun node =>
      availabilityValue node.nodeKey (nodeAvailability facts withheld node)))]

def buildReadinessCursor (graph : ValidatedGraph) (input : Value) : Except (List ReadinessIssue) ReadinessCursor :=
  match readRecord input ["hardEdgeFacts", "nodeFacts"] ["hardEdgeFacts", "nodeFacts"] with
  | none =>
    .error [⟨.READINESS_INPUT_MALFORMED, lit "readiness input requires only own hardEdgeFacts and nodeFacts", []⟩]
  | some item =>
    let bundles := parseBundles graph (item.field "nodeFacts")
    if bundles.issues ≠ [] then .error (sortReadinessIssues bundles.issues)
    else
      let withheld := withholdReason graph bundles.values
      .ok ⟨bundles.values, cursorValue graph (item.field "hardEdgeFacts") bundles.values withheld, withheld⟩

/-! ### The projection (`readiness-projection.ts:39-248`) -/

structure NodeReadinessProjection where
  nodeKey : JsString
  executionBearing : Bool
  logical : FactConfidence
  admission : FactConfidence
  dispatch : FactConfidence
  reasons : List ReadinessReason
  waitCurrent : Bool
  deriving DecidableEq

structure ReadinessProjection where
  graphIdentity : JsString
  logicalReady : List JsString
  blocked : List BlockedNode
  admissionReady : List JsString
  dispatchable : List JsString
  partition : Option FrontierPartition
  withheld : Option ReadinessWithholdReason
  nodes : List NodeReadinessProjection
  deriving DecidableEq

def weaken (inner outer : FactConfidence) : FactConfidence :=
  if inner = .CONFIRMED_FALSE || outer = .CONFIRMED_FALSE then .CONFIRMED_FALSE
  else if inner = .UNKNOWN || outer = .UNKNOWN then .UNKNOWN
  else .CONFIRMED_TRUE

def logicalConfidence (executionBearing : Bool) (logicalReady : List JsString) (blocked : Option BlockedNode)
    (nodeKey : JsString) : FactConfidence :=
  if !executionBearing then .CONFIRMED_FALSE
  else if nodeKey ∈ logicalReady then .CONFIRMED_TRUE
  else if blocked.any fun b => b.reasons.any fun reason => reason.code = .HARD_DEPENDENCY_UNKNOWN then .UNKNOWN
  else .CONFIRMED_FALSE

def blockedReasonOf (nodeKey : JsString) (reason : BlockedReason) : ReadinessReason :=
  { code := .blocked reason.code
    layer := .LOGICAL
    confidence := if reason.code = .HARD_DEPENDENCY_UNKNOWN then .UNKNOWN else .CONFIRMED_FALSE
    nodeKey := nodeKey
    edgeKey := some reason.edgeKey
    provenance := none
    recoveryRef := some reason.producerNodeKey }

def predicateReason (nodeKey : JsString) (predicate : ReadinessPredicateFact) : ReadinessReason :=
  ⟨.caller predicate.code, predicate.layer, predicate.confidence, nodeKey, none, predicate.provenance, predicate.recoveryRef⟩

/-- Layer, then code text, then the edge key printed by `String(...)`. -/
def reasonLe (a b : ReadinessReason) : Bool :=
  if a.layer.rank ≠ b.layer.rank then a.layer.rank < b.layer.rank
  else if lit a.code.text ≠ lit b.code.text then lit a.code.text < lit b.code.text
  else a.edgeKey.getD (lit "null") ≤ b.edgeKey.getD (lit "null")

def outstanding (nodeKey : JsString) (executionBearing : Bool) (supplied : NodeReadinessFacts)
    (blocked : Option BlockedNode) : List ReadinessReason :=
  (if executionBearing then []
    else [⟨.READINESS_NOT_EXECUTION_BEARING, .LOGICAL, .CONFIRMED_FALSE, nodeKey, none, none, none⟩])
    ++ ((blocked.map BlockedNode.reasons).getD []).map (blockedReasonOf nodeKey)
    ++ (supplied.predicates.filter fun predicate => predicate.confidence ≠ .CONFIRMED_TRUE).map (predicateReason nodeKey)

def collectReasons (nodeKey : JsString) (executionBearing : Bool) (supplied : NodeReadinessFacts)
    (blocked : Option BlockedNode) : List ReadinessReason :=
  (outstanding nodeKey executionBearing supplied blocked).insertionSort fun a b => reasonLe a b

def projectNode (partition : FrontierPartition) (node : GraphNode) (supplied : NodeReadinessFacts) :
    NodeReadinessProjection :=
  let blocked := partition.blocked.find? fun entry => entry.nodeKey = node.nodeKey
  let logical := logicalConfidence node.executionBearing partition.logicalReady blocked node.nodeKey
  let admission := weaken supplied.admission logical
  { nodeKey := node.nodeKey
    executionBearing := node.executionBearing
    logical := logical
    admission := admission
    dispatch := weaken supplied.dispatch admission
    reasons := collectReasons node.nodeKey node.executionBearing supplied blocked
    waitCurrent := supplied.waitCurrent }

-- every node of the graph has a bundle once `parseBundles` reports no issue
def projectNodes (graph : ValidatedGraph) (partition : FrontierPartition) (facts : OrdMap JsString NodeReadinessFacts) :
    List NodeReadinessProjection :=
  graph.nodes.filterMap fun node => (facts.get node.nodeKey).map (projectNode partition node)

def project (graph : ValidatedGraph) (built : ReadinessCursor) (partition : FrontierPartition) : ReadinessProjection :=
  let nodes := projectNodes graph partition built.facts
  { graphIdentity := partition.graphIdentity
    logicalReady := partition.logicalReady
    blocked := partition.blocked
    admissionReady := sortedCopy ((nodes.filter fun node => node.admission = .CONFIRMED_TRUE).map
      NodeReadinessProjection.nodeKey)
    dispatchable := sortedCopy ((nodes.filter fun node => node.dispatch = .CONFIRMED_TRUE).map
      NodeReadinessProjection.nodeKey)
    partition := if built.withheld = none then some partition else none
    withheld := built.withheld
    nodes := nodes.insertionSort fun a b => a.nodeKey ≤ b.nodeKey }

def projectReadiness (graph : ValidatedGraph) (input : Value) : Except (List ReadinessIssue) ReadinessProjection :=
  match buildReadinessCursor graph input with
  | .error issues => .error issues
  | .ok built =>
    match partitionFrontier graph built.cursor with
    | .error issues =>
      .error (sortReadinessIssues (issues.map fun issue => ⟨.graph issue.code, issue.message, issue.nodeKeys⟩))
    | .ok partition => .ok (project graph built partition)

/-! ### Explanation (`readiness-model.ts:25-45`, `readiness-explanation.ts:39-170`) -/

inductive ReadinessClass where
  | READY_NOW
  | UNBLOCK_NEXT
  | INTENTIONAL_WAIT
  | UNSAFE_OR_UNKNOWN
  deriving DecidableEq

def ReadinessClass.rank : ReadinessClass → ℕ
  | .READY_NOW => 0
  | .UNBLOCK_NEXT => 1
  | .INTENTIONAL_WAIT => 2
  | .UNSAFE_OR_UNKNOWN => 3

inductive LegalChoice where
  | RETRY_PREDECESSOR
  | SUBSTITUTE_COMPATIBLE_APPROVED_RESULT
  | PROPOSE_SUPERSEDING_REWIRE
  | CANCEL
  deriving DecidableEq

def legalChoices : List LegalChoice :=
  [.RETRY_PREDECESSOR, .SUBSTITUTE_COMPATIBLE_APPROVED_RESULT, .PROPOSE_SUPERSEDING_REWIRE, .CANCEL]

structure FailedContract where
  edgeKey : JsString
  producerNodeKey : JsString
  deriving DecidableEq

structure ReadinessExplanation where
  nodeKey : JsString
  readinessClass : ReadinessClass
  reasons : List ReadinessReason
  remainingCount : ℕ
  failedContracts : List FailedContract
  affectedDescendants : List JsString
  legalChoices : List LegalChoice
  deriving DecidableEq

structure ReadinessExplanationReport where
  graphIdentity : JsString
  entries : List ReadinessExplanation
  deriving DecidableEq

inductive GraphAnalysisError where
  | FRONTIER_GRAPH_IDENTITY_MISMATCH
  deriving DecidableEq

def classifyNode (node : NodeReadinessProjection) : ReadinessClass :=
  if !node.executionBearing then .UNSAFE_OR_UNKNOWN
  else if node.reasons.any fun reason => reason.confidence = .UNKNOWN then .UNSAFE_OR_UNKNOWN
  else if node.waitCurrent then .INTENTIONAL_WAIT
  else if node.dispatch = .CONFIRMED_TRUE then .READY_NOW
  else match node.reasons with
    | [only] => if only.recoveryRef.isSome then .UNBLOCK_NEXT else .UNSAFE_OR_UNKNOWN
    | _ => .UNSAFE_OR_UNKNOWN

def hardConsumers (graph : ValidatedGraph) (nodeKey : JsString) : List JsString :=
  (graph.edges.filter fun edge => edge.kind = .HARD && edge.producerNodeKey = nodeKey).map GraphEdge.consumerNodeKey

def visit (walk : List JsString × List JsString) (consumer : JsString) : List JsString × List JsString :=
  if consumer ∈ walk.1 then walk else (walk.1 ++ [consumer], consumer :: walk.2)

/-- The stack walk; a node is pushed when it is first seen, so one step for each node and the start is enough. -/
def descend (graph : ValidatedGraph) : ℕ → List JsString × List JsString → List JsString
  | 0, (seen, _) => seen
  | _ + 1, (seen, []) => seen
  | fuel + 1, (seen, current :: stack) => descend graph fuel ((hardConsumers graph current).foldl visit (seen, stack))

def descendantsOf (graph : ValidatedGraph) (nodeKey : JsString) : List JsString :=
  sortedCopy ((descend graph (graph.nodes.length + 1) ([], [nodeKey])).filter fun key => key ≠ nodeKey)

def failedContract (reason : ReadinessReason) : Option FailedContract :=
  match reason.code, reason.edgeKey, reason.recoveryRef with
  | .blocked .HARD_DEPENDENCY_UNSATISFIED, some edgeKey, some producerNodeKey => some ⟨edgeKey, producerNodeKey⟩
  | _, _, _ => none

def explainNode (graph : ValidatedGraph) (node : NodeReadinessProjection) : ReadinessExplanation :=
  let failedContracts := node.reasons.filterMap failedContract
  { nodeKey := node.nodeKey
    readinessClass := classifyNode node
    reasons := node.reasons
    remainingCount := node.reasons.length
    failedContracts := failedContracts
    affectedDescendants := if failedContracts.length > 0 then descendantsOf graph node.nodeKey else []
    legalChoices := if failedContracts.length > 0 then legalChoices else [] }

def entryLe (a b : ReadinessExplanation) : Bool :=
  if a.readinessClass.rank ≠ b.readinessClass.rank then a.readinessClass.rank < b.readinessClass.rank
  else if a.remainingCount ≠ b.remainingCount then a.remainingCount < b.remainingCount
  else a.nodeKey ≤ b.nodeKey

def explainReadiness (graph : ValidatedGraph) (projection : ReadinessProjection) :
    Except GraphAnalysisError ReadinessExplanationReport :=
  if projection.graphIdentity ≠ graph.graphIdentity then .error .FRONTIER_GRAPH_IDENTITY_MISMATCH
  else .ok ⟨projection.graphIdentity, (projection.nodes.map (explainNode graph)).insertionSort fun a b => entryLe a b⟩

end MoeNG.Readiness
