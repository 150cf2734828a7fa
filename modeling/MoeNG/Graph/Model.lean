import Mathlib.Data.List.Sort
import MoeNG.Kernel.Utf8
import MoeNG.Kernel.Value

/-!
# Structural graphs (`packages/scheduler/src/graph-model.ts`, `graph-key.ts`, `graph-internal.ts`)

A validated graph carries what `validateGraphSnapshot` guarantees of the parts
that the frontier and the readiness projection read.
-/

namespace MoeNG.Graph
open MoeNG.Kernel

/-! ### Keys (`graph-key.ts:9-17`, `graph-policy.ts:38-42`) -/

def absoluteMaxGraphNodes : ℕ := 64
def absoluteMaxGraphTotalEdges : ℕ := 128
def maxGraphKeyCodeUnits : ℕ := 128

def isWordUnit (c : CodeUnit) : Bool := (48 ≤ c ∧ c ≤ 57) ∨ (65 ≤ c ∧ c ≤ 90) ∨ (97 ≤ c ∧ c ≤ 122) ∨ c = 95

-- `.`, `:`, `@`, `/`, `+`, `~` and `-`
def isKeyUnit (c : CodeUnit) : Bool :=
  isWordUnit c || c = 46 || c = 58 || c = 64 || c = 47 || c = 43 || c = 126 || c = 45

def isGraphKey (value : JsString) : Bool :=
  value.length ≤ maxGraphKeyCodeUnits && match value with
    | [] => false
    | first :: rest => isWordUnit first && rest.all isKeyUnit

def graphKeyOf : Value → Option JsString
  | .string s => if isGraphKey s then some s else none
  | _ => none

/-! ### Graphs (`graph-model.ts:20-112`) -/

inductive GraphEdgeKind where
  | HARD
  | ADVISORY
  deriving DecidableEq

structure GraphNode where
  nodeKey : JsString
  executionBearing : Bool
  deriving DecidableEq

structure GraphEdge where
  edgeKey : JsString
  producerNodeKey : JsString
  consumerNodeKey : JsString
  kind : GraphEdgeKind
  deriving DecidableEq

/-- What the checks of `validateGraphSnapshot` leave: valid and distinct keys in order, endpoints that are nodes, and
no more nodes than the parser ceiling. -/
structure ValidatedGraph where
  nodes : List GraphNode
  edges : List GraphEdge
  completionNodeKey : JsString
  nodesSorted : (nodes.map GraphNode.nodeKey).Pairwise (· < ·)
  edgesSorted : (edges.map GraphEdge.edgeKey).Pairwise (· < ·)
  nodeKeys : ∀ node ∈ nodes, isGraphKey node.nodeKey = true
  endpoints : ∀ edge ∈ edges, edge.producerNodeKey ∈ nodes.map GraphNode.nodeKey
    ∧ edge.consumerNodeKey ∈ nodes.map GraphNode.nodeKey
  nodeLimit : nodes.length ≤ absoluteMaxGraphNodes

theorem ValidatedGraph.nodup (graph : ValidatedGraph) : (graph.nodes.map GraphNode.nodeKey).Nodup :=
  graph.nodesSorted.imp fun h => ne_of_lt h

/-! ### Identity (`graph-internal.ts:156-181`, `kernel-primitives.ts:72-74`) -/

def frame (token : JsString) : JsString := decimal token.length ++ lit ":" ++ token

def computeGraphIdentity (nodes : List GraphNode) (edges : List GraphEdge) (completionNodeKey : JsString) : JsString :=
  (lit "\n").intercalate
    ([lit "MOE-GRAPH-IDENTITY/1", lit "N" ++ decimal nodes.length]
      ++ nodes.map (fun node => frame node.nodeKey ++ if node.executionBearing then lit "1" else lit "0")
      ++ [lit "E" ++ decimal edges.length]
      ++ edges.map (fun edge => frame edge.edgeKey ++ frame edge.producerNodeKey ++ frame edge.consumerNodeKey
        ++ if edge.kind = .HARD then lit "H" else lit "A")
      ++ [lit "C" ++ frame completionNodeKey])

def ValidatedGraph.graphIdentity (graph : ValidatedGraph) : JsString :=
  computeGraphIdentity graph.nodes graph.edges graph.completionNodeKey

/-! ### Issues (`graph-model.ts:54-91`, `graph-internal.ts:36-62`) -/

inductive GraphIssueCode where
  | GRAPH_MALFORMED_POLICY
  | GRAPH_MALFORMED_SNAPSHOT
  | GRAPH_MALFORMED_NODE
  | GRAPH_MALFORMED_EDGE
  | GRAPH_DUPLICATE_NODE
  | GRAPH_DUPLICATE_EDGE
  | GRAPH_MISSING_ENDPOINT
  | GRAPH_SELF_EDGE
  | GRAPH_CYCLE
  | GRAPH_COMPLETION_NODE_MISSING
  | GRAPH_COMPLETION_NOT_TERMINAL
  | COMPLETION_CLOSURE_INCOMPLETE
  | GRAPH_NODE_LIMIT_EXCEEDED
  | GRAPH_HARD_EDGE_LIMIT_EXCEEDED
  | GRAPH_TOTAL_EDGE_LIMIT_EXCEEDED
  | FRONTIER_MALFORMED_CURSOR
  | FRONTIER_EDGE_FACT_MISSING
  | FRONTIER_EDGE_FACT_DUPLICATE
  | FRONTIER_EDGE_FACT_UNKNOWN_EDGE
  | FRONTIER_NODE_FACT_MISSING
  | FRONTIER_NODE_FACT_DUPLICATE
  | FRONTIER_NODE_FACT_UNKNOWN_NODE
  deriving DecidableEq

def GraphIssueCode.text : GraphIssueCode → String
  | .GRAPH_MALFORMED_POLICY => "GRAPH_MALFORMED_POLICY"
  | .GRAPH_MALFORMED_SNAPSHOT => "GRAPH_MALFORMED_SNAPSHOT"
  | .GRAPH_MALFORMED_NODE => "GRAPH_MALFORMED_NODE"
  | .GRAPH_MALFORMED_EDGE => "GRAPH_MALFORMED_EDGE"
  | .GRAPH_DUPLICATE_NODE => "GRAPH_DUPLICATE_NODE"
  | .GRAPH_DUPLICATE_EDGE => "GRAPH_DUPLICATE_EDGE"
  | .GRAPH_MISSING_ENDPOINT => "GRAPH_MISSING_ENDPOINT"
  | .GRAPH_SELF_EDGE => "GRAPH_SELF_EDGE"
  | .GRAPH_CYCLE => "GRAPH_CYCLE"
  | .GRAPH_COMPLETION_NODE_MISSING => "GRAPH_COMPLETION_NODE_MISSING"
  | .GRAPH_COMPLETION_NOT_TERMINAL => "GRAPH_COMPLETION_NOT_TERMINAL"
  | .COMPLETION_CLOSURE_INCOMPLETE => "COMPLETION_CLOSURE_INCOMPLETE"
  | .GRAPH_NODE_LIMIT_EXCEEDED => "GRAPH_NODE_LIMIT_EXCEEDED"
  | .GRAPH_HARD_EDGE_LIMIT_EXCEEDED => "GRAPH_HARD_EDGE_LIMIT_EXCEEDED"
  | .GRAPH_TOTAL_EDGE_LIMIT_EXCEEDED => "GRAPH_TOTAL_EDGE_LIMIT_EXCEEDED"
  | .FRONTIER_MALFORMED_CURSOR => "FRONTIER_MALFORMED_CURSOR"
  | .FRONTIER_EDGE_FACT_MISSING => "FRONTIER_EDGE_FACT_MISSING"
  | .FRONTIER_EDGE_FACT_DUPLICATE => "FRONTIER_EDGE_FACT_DUPLICATE"
  | .FRONTIER_EDGE_FACT_UNKNOWN_EDGE => "FRONTIER_EDGE_FACT_UNKNOWN_EDGE"
  | .FRONTIER_NODE_FACT_MISSING => "FRONTIER_NODE_FACT_MISSING"
  | .FRONTIER_NODE_FACT_DUPLICATE => "FRONTIER_NODE_FACT_DUPLICATE"
  | .FRONTIER_NODE_FACT_UNKNOWN_NODE => "FRONTIER_NODE_FACT_UNKNOWN_NODE"

structure GraphIssue where
  code : GraphIssueCode
  message : JsString
  nodeKeys : List JsString
  edgeKeys : List JsString
  deriving DecidableEq

def issueKey (issue : GraphIssue) : JsString :=
  jsonArray [jsonString (lit issue.code.text), jsonArray (issue.nodeKeys.map jsonString),
    jsonArray (issue.edgeKeys.map jsonString), jsonString issue.message]

def sortIssues (issues : List GraphIssue) : List GraphIssue := issues.insertionSort fun left right =>
    issueKey left ≤ issueKey right

def quoted (key : JsString) : JsString := lit "\"" ++ key ++ lit "\""

def sortedCopy (values : List JsString) : List JsString := values.insertionSort fun left right => left ≤ right

end MoeNG.Graph
