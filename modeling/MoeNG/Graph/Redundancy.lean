import MoeNG.Graph.Traversal

/-!
# Redundancy candidates (`packages/scheduler/src/redundancy.ts`)
-/

namespace MoeNG.Graph
open MoeNG.Kernel MoeNG.Lib

/-! ### Bitsets (`graph-internal.ts:28-31`) -/

def bit (i : ℕ) : ℕ := 1 <<< i

def hasBit (mask i : ℕ) : Bool := mask &&& bit i ≠ 0

/-! ### The witness path (`redundancy.ts:75-130`) -/

structure WitnessPath where
  nodeIndices : List ℕ
  edgeKeys : List JsString
  deriving DecidableEq

/-- The node that a search came from, and the edge it took. -/
structure Crumb where
  node : ℕ
  edgeKey : JsString
  deriving DecidableEq

/-- What the search remembers of a node: nothing before it comes there, and no crumb at its start. -/
abbrev Trace := List (Option (Option Crumb))

-- it descends only where the target remains reachable
def visitArc (descendantMask : List ℕ) (target node : ℕ) (state : List ℕ × Trace) (arc : HardArc) : List ℕ × Trace :=
  let next := arc.nodeIndex
  if (state.2.getD next none).isSome then state
  else if next ≠ target && !hasBit (descendantMask.getD next 0) target then state
  else (state.1 ++ [next], state.2.set next (some (some ⟨node, arc.edgeKey⟩)))

-- a node joins the queue once
def searchTarget (index : HardGraphIndex) (descendantMask : List ℕ) (target : ℕ) : ℕ → List ℕ → Trace → Trace
  | 0, _, trace => trace
  | _ + 1, [], trace => trace
  | fuel + 1, node :: queue, trace =>
    if node = target then trace
    else
      let (queue, trace) := (index.outArcs node).foldl (visitArc descendantMask target node) (queue, trace)
      searchTarget index descendantMask target fuel queue trace

/-- The nodes and the edge keys from a node back to the start. -/
def traceBack (trace : Trace) : ℕ → ℕ → WitnessPath
  | 0, _ => ⟨[], []⟩
  | fuel + 1, cursor =>
    match trace.getD cursor none with
    | some (some crumb) =>
      let rest := traceBack trace fuel crumb.node
      ⟨cursor :: rest.nodeIndices, crumb.edgeKey :: rest.edgeKeys⟩
    | _ => ⟨[cursor], []⟩

def reconstructPath (index : HardGraphIndex) (descendantMask : List ℕ) (start target : ℕ) : WitnessPath :=
  if start = target then ⟨[start], []⟩
  else
    let n := index.size
    let trace := searchTarget index descendantMask target n [start] ((List.replicate n none).set start (some none))
    let back := traceBack trace n target
    ⟨back.nodeIndices.reverse, back.edgeKeys.reverse⟩

/-! ### The candidates (`redundancy.ts:28-73`) -/

structure RedundancyCandidate where
  edgeKey : JsString
  producerNodeKey : JsString
  consumerNodeKey : JsString
  alternateHardPathNodeKeys : List JsString
  alternateHardPathEdgeKeys : List JsString
  requiresSemanticProof : Bool
  deriving DecidableEq

/-- The first other arc of the producer that leads to the consumer. -/
def alternateArc (index : HardGraphIndex) (descendantMask : List ℕ) (edgeKey : JsString)
    (producer consumer : ℕ) : Option HardArc :=
  (index.outArcs producer).find? fun arc =>
    arc.edgeKey ≠ edgeKey && (arc.nodeIndex = consumer || hasBit (descendantMask.getD arc.nodeIndex 0) consumer)

def redundancyCandidate (graph : GraphStructureView) (index : HardGraphIndex) (descendantMask : List ℕ) (edge : GraphEdge) :
    Option RedundancyCandidate :=
  if edge.kind ≠ .HARD then none
  else
    let producer := (graph.nodes.map GraphNode.nodeKey).idxOf edge.producerNodeKey
    let consumer := (graph.nodes.map GraphNode.nodeKey).idxOf edge.consumerNodeKey
    (alternateArc index descendantMask edge.edgeKey producer consumer).map fun arc =>
      let tail := reconstructPath index descendantMask arc.nodeIndex consumer
      { edgeKey := edge.edgeKey
        producerNodeKey := edge.producerNodeKey
        consumerNodeKey := edge.consumerNodeKey
        alternateHardPathNodeKeys := edge.producerNodeKey :: tail.nodeIndices.map fun i => index.nodeKeys.getD i []
        alternateHardPathEdgeKeys := arc.edgeKey :: tail.edgeKeys
        requiresSemanticProof := true }

def findRedundancyCandidates (graph : GraphStructureView) (index : HardGraphIndex) (descendantMask : List ℕ) :
    List RedundancyCandidate :=
  (graph.edges.filterMap (redundancyCandidate graph index descendantMask)).insertionSort fun a b => a.edgeKey ≤ b.edgeKey

end MoeNG.Graph
