import MoeNG.Graph.TopoOrder

/-!
# Graph validation (`packages/scheduler/src/graph-policy.ts`, `validate-graph-input.ts`, `validate-graph-structure.ts`)
-/

namespace MoeNG.Graph
open MoeNG.Kernel MoeNG.Lib

/-! ### Policy (`graph-policy.ts:8-125`) -/

structure GraphPolicy where
  maxNodes : ℕ
  maxHardEdges : ℕ
  maxTotalEdges : ℕ
  minGatedDescendantsForReview : ℕ
  deriving DecidableEq

def absoluteMaxGraphHardEdges : ℕ := 128

def defaultGraphPolicy : GraphPolicy := ⟨24, 64, 64, 1⟩

def policyKeys : List String := ["maxHardEdges", "maxNodes", "maxTotalEdges", "minGatedDescendantsForReview"]

-- `isNonNegativeInteger`, which takes `-0` for `0`
def nonNegativeOf : Value → Option ℕ
  | .number (.integer z) => if isSafeCount z then some z.toNat else none
  | .number .negativeZero => some 0
  | _ => none

def limitOf (override : Value) (key : String) (fallback ceiling : ℕ) : Option ℕ :=
  match readOwnDataProperty override (lit key) with
  | none => some fallback
  | some value => (nonNegativeOf value).filter fun limit => limit ≤ ceiling

def resolveGraphPolicy (override : Value) : Option GraphPolicy :=
  match override with
  | .undefined => some defaultGraphPolicy
  | .record properties =>
    if properties.all fun p => policyKeys.any fun key => lit key = p.1 then do
      let maxNodes ← limitOf override "maxNodes" defaultGraphPolicy.maxNodes absoluteMaxGraphNodes
      let maxHardEdges ← limitOf override "maxHardEdges" defaultGraphPolicy.maxHardEdges absoluteMaxGraphHardEdges
      let maxTotalEdges ← limitOf override "maxTotalEdges" defaultGraphPolicy.maxTotalEdges absoluteMaxGraphTotalEdges
      let minGatedDescendantsForReview ← limitOf override "minGatedDescendantsForReview"
        defaultGraphPolicy.minGatedDescendantsForReview absoluteMaxGraphNodes
      some { maxNodes, maxHardEdges, maxTotalEdges, minGatedDescendantsForReview }
    else none
  | _ => none

/-! ### Records (`validate-graph-input.ts:62-204`) -/

def edgeKindOf : Value → Option GraphEdgeKind
  | .string s => if s = lit "HARD" then some .HARD else if s = lit "ADVISORY" then some .ADVISORY else none
  | _ => none

def parseNode (candidate : Value) : Option GraphNode := do
  let fields ← exactRecord candidate ["executionBearing", "nodeKey"]
  let nodeKey ← graphKeyOf (fields.field "nodeKey")
  let executionBearing ← boolOf (fields.field "executionBearing")
  some { nodeKey, executionBearing }

def parseEdge (candidate : Value) : Option GraphEdge := do
  let fields ← exactRecord candidate ["consumerNodeKey", "edgeKey", "kind", "producerNodeKey"]
  let edgeKey ← graphKeyOf (fields.field "edgeKey")
  let producerNodeKey ← graphKeyOf (fields.field "producerNodeKey")
  let consumerNodeKey ← graphKeyOf (fields.field "consumerNodeKey")
  let kind ← edgeKindOf (fields.field "kind")
  some { edgeKey, producerNodeKey, consumerNodeKey, kind }

/-- Keys that stand more than once, each once and in order. -/
def repeatedKeys (keys : List JsString) : List JsString := sortedCopy (keys.filter fun key => 1 < keys.count key).dedup

def malformedAt (code : GraphIssueCode) (what : String) (i : ℕ) : GraphIssue :=
  ⟨code, lit what ++ lit " at index " ++ decimal i ++ lit " is malformed, sparse, or missing required fields", [], []⟩

def nodeIssues (rawNodes : List Value) : List GraphIssue :=
  (rawNodes.zipIdx.flatMap fun entry =>
      if (parseNode entry.1).isSome then [] else [malformedAt .GRAPH_MALFORMED_NODE "node" entry.2])
    ++ (repeatedKeys ((rawNodes.filterMap parseNode).map GraphNode.nodeKey)).map fun key =>
      ⟨.GRAPH_DUPLICATE_NODE, lit "duplicate nodeKey " ++ quoted key, [key], []⟩

def edgeIssues (rawEdges : List Value) : List GraphIssue :=
  (rawEdges.zipIdx.flatMap fun entry =>
      match parseEdge entry.1 with
      | none => [malformedAt .GRAPH_MALFORMED_EDGE "edge" entry.2]
      | some edge =>
        if edge.producerNodeKey = edge.consumerNodeKey then
          [⟨.GRAPH_SELF_EDGE, lit "edge " ++ quoted edge.edgeKey ++ lit " connects node " ++ quoted edge.producerNodeKey
            ++ lit " to itself", [edge.producerNodeKey], [edge.edgeKey]⟩]
        else [])
    ++ (repeatedKeys ((rawEdges.filterMap parseEdge).map GraphEdge.edgeKey)).map fun key =>
      ⟨.GRAPH_DUPLICATE_EDGE, lit "duplicate edgeKey " ++ quoted key, [], [key]⟩

/-! ### The snapshot (`validate-graph-input.ts:42-60`, `validate-graph-input.ts:214-331`) -/

structure ParsedGraphInput where
  nodes : List GraphNode
  edges : List GraphEdge
  completionNodeKey : JsString
  nodeShapeOk : Bool
  issues : List GraphIssue

def ParsedGraphInput.nodeKeys (parsed : ParsedGraphInput) : List JsString := parsed.nodes.map GraphNode.nodeKey

def ParsedGraphInput.hardEdgeCount (parsed : ParsedGraphInput) : ℕ := parsed.edges.countP fun edge => edge.kind = .HARD

def malformedSnapshot (message : JsString) : List GraphIssue := [⟨.GRAPH_MALFORMED_SNAPSHOT, message, [], []⟩]

def limitIssue (code : GraphIssueCode) (subject : JsString) (limit : ℕ) : GraphIssue :=
  ⟨code, subject ++ lit "; policy limit is " ++ decimal limit, [], []⟩

def slotIssues (rawNodes rawEdges : List Value) (policy : GraphPolicy) : List GraphIssue :=
  (if policy.maxNodes < rawNodes.length then
    [limitIssue .GRAPH_NODE_LIMIT_EXCEEDED
      (lit "graph declares " ++ decimal rawNodes.length ++ lit " node slots") policy.maxNodes] else [])
    ++ if policy.maxTotalEdges < rawEdges.length then
      [limitIssue .GRAPH_TOTAL_EDGE_LIMIT_EXCEEDED
        (lit "graph declares " ++ decimal rawEdges.length ++ lit " total edge slots") policy.maxTotalEdges] else []

/-- The collections and the completion key of a snapshot, or what is malformed about it. -/
def snapshotParts (snapshot : Value) : Except JsString (List Value × List Value × JsString) :=
  match snapshot with
  | .record properties =>
    if properties.all fun p => ["completionNodeKey", "edges", "nodes"].any fun key => lit key = p.1 then
      match readOwnDataProperty snapshot (lit "nodes"), readOwnDataProperty snapshot (lit "edges"),
          readOwnDataProperty snapshot (lit "completionNodeKey") with
      | some nodes, some edges, some completion =>
        match nodes, edges with
        | .array rawNodes, .array rawEdges =>
          match graphKeyOf completion with
          | some completionNodeKey => .ok (rawNodes, rawEdges, completionNodeKey)
          | none => .error (lit "snapshot.completionNodeKey must be a 1.." ++ decimal maxGraphKeyCodeUnits
              ++ lit "-code-unit ASCII machine identifier matching [A-Za-z0-9_][A-Za-z0-9._:@/+~-]*")
        | _, _ => .error (lit "snapshot.nodes and snapshot.edges must both be arrays")
      | _, _, _ => .error (lit "snapshot requires own data properties for nodes, edges, and completionNodeKey")
    else .error (lit "snapshot schema is malformed or contains unsupported fields")
  | _ => .error (lit "snapshot schema is malformed or contains unsupported fields")

def parseGraphInput (snapshot : Value) (policy : GraphPolicy) : Except (List GraphIssue) ParsedGraphInput :=
  match snapshotParts snapshot with
  | .error message => .error (malformedSnapshot message)
  | .ok (rawNodes, rawEdges, completionNodeKey) =>
    if slotIssues rawNodes rawEdges policy = [] then
      .ok
        { nodes := rawNodes.filterMap parseNode
          edges := rawEdges.filterMap parseEdge
          completionNodeKey
          nodeShapeOk := rawNodes.all fun candidate => (parseNode candidate).isSome
          issues := nodeIssues rawNodes ++ edgeIssues rawEdges }
    else .error (slotIssues rawNodes rawEdges policy)

/-! ### The structure (`validate-graph-structure.ts:30-241`) -/

def missingEndpointIssues (parsed : ParsedGraphInput) : List GraphIssue :=
  if parsed.nodeShapeOk then
    parsed.edges.flatMap fun edge =>
      let missing := [edge.producerNodeKey, edge.consumerNodeKey].filter fun key => key ∉ parsed.nodeKeys
      if missing = [] then []
      else [⟨.GRAPH_MISSING_ENDPOINT, lit "edge " ++ quoted edge.edgeKey ++ lit " references unknown node(s)",
        sortedCopy missing.dedup, [edge.edgeKey]⟩]
  else []

def outgoingHard (parsed : ParsedGraphInput) : List JsString :=
  (parsed.edges.filter fun edge => edge.kind = .HARD && edge.producerNodeKey = parsed.completionNodeKey).map
    GraphEdge.edgeKey

def completionIssues (parsed : ParsedGraphInput) : List GraphIssue :=
  let completion := parsed.completionNodeKey
  if !parsed.nodeShapeOk then []
  else if completion ∉ parsed.nodeKeys then
    [⟨.GRAPH_COMPLETION_NODE_MISSING, lit "completionNodeKey " ++ quoted completion ++ lit " is not a declared node",
      [completion], []⟩]
  else if outgoingHard parsed = [] then []
  else
    [⟨.GRAPH_COMPLETION_NOT_TERMINAL, lit "completion node " ++ quoted completion
      ++ lit " has outgoing HARD edge(s); it must be a terminal HARD sink", [completion], sortedCopy (outgoingHard parsed)⟩]

def policyLimitIssues (parsed : ParsedGraphInput) (policy : GraphPolicy) : List GraphIssue :=
  let exceeded (code : GraphIssueCode) (count limit : ℕ) (what : String) : List GraphIssue :=
    if limit < count then [limitIssue code (lit "graph has " ++ decimal count ++ lit what) limit] else []
  exceeded .GRAPH_NODE_LIMIT_EXCEEDED parsed.nodes.length policy.maxNodes " nodes"
    ++ exceeded .GRAPH_HARD_EDGE_LIMIT_EXCEEDED parsed.hardEdgeCount policy.maxHardEdges " hard edges"
    ++ exceeded .GRAPH_TOTAL_EDGE_LIMIT_EXCEEDED parsed.edges.length policy.maxTotalEdges
      " total edges (HARD + ADVISORY)"

def sortedStructureView (nodes : List GraphNode) (edges : List GraphEdge) (completionNodeKey : JsString) :
    GraphStructureView :=
  { nodes := nodes.insertionSort fun a b => a.nodeKey ≤ b.nodeKey
    edges := edges.insertionSort fun a b => a.edgeKey ≤ b.edgeKey
    completionNodeKey }

/-- One arc of the reverse search: the queue and the nodes it has met. -/
def reachArc (state : List ℕ × List Bool) (arc : HardArc) : List ℕ × List Bool :=
  if state.2.getD arc.nodeIndex false then state
  else (state.1 ++ [arc.nodeIndex], state.2.set arc.nodeIndex true)

def reachCompletion (index : HardGraphIndex) : ℕ → List ℕ → List Bool → List Bool
  | 0, _, reached => reached
  | _ + 1, [], reached => reached
  | fuel + 1, node :: queue, reached =>
    let (queue, reached) := (index.inArcs node).foldl reachArc (queue, reached)
    reachCompletion index fuel queue reached

-- a node joins the queue once
def closureOrphans (index : HardGraphIndex) : List JsString :=
  let reached := reachCompletion index index.size [index.completionIndex]
    ((List.replicate index.size false).set index.completionIndex true)
  ((List.range index.size).filter fun i => index.executionBearing.getD i false && !reached.getD i false).map
    fun i => index.nodeKeys.getD i []

def structureIssues (parsed : ParsedGraphInput) (policy : GraphPolicy) : List GraphIssue :=
  parsed.issues ++ missingEndpointIssues parsed ++ completionIssues parsed ++ policyLimitIssues parsed policy

def cycleIssue (index : HardGraphIndex) : GraphIssue :=
  let core := findCycleCore index
  ⟨.GRAPH_CYCLE, lit "the HARD-edge subgraph contains a cycle",
    sortedCopy (core.nodeIndices.map fun i => index.nodeKeys.getD i []), core.edgeKeys⟩

def closureIssue (orphans : List JsString) : GraphIssue :=
  ⟨.COMPLETION_CLOSURE_INCOMPLETE, lit ("execution-bearing node(s) are neither the completion node nor a transitive HARD "
    ++ "predecessor of it (advisory edges cannot satisfy closure)"), sortedCopy orphans, []⟩

def validateGraphStructure (parsed : ParsedGraphInput) (policy : GraphPolicy) :
    Except (List GraphIssue) GraphStructureView :=
  if structureIssues parsed policy = [] then
    let view := sortedStructureView parsed.nodes parsed.edges parsed.completionNodeKey
    let index := buildHardGraphIndex view
    if (topologicalOrder index).acyclic then
      if closureOrphans index = [] then .ok view else .error [closureIssue (closureOrphans index)]
    else .error [cycleIssue index]
  else .error (structureIssues parsed policy)

end MoeNG.Graph
