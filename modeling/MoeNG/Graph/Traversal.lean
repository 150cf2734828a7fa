import Mathlib.Logic.Relation
import MoeNG.Graph.Model
import MoeNG.Lib.Kahn
import MoeNG.Lib.MinHeap

/-!
# The HARD index and its traversals (`packages/scheduler/src/graph-internal.ts`, `graph-traversal.ts`)
-/

namespace MoeNG.Graph
open MoeNG.Kernel MoeNG.Lib

/-! ### The index (`graph-internal.ts:18-25`, `graph-internal.ts:77-146`) -/

structure GraphStructureView where
  nodes : List GraphNode
  edges : List GraphEdge
  completionNodeKey : JsString
  deriving DecidableEq

structure HardArc where
  edgeKey : JsString
  nodeIndex : ℕ
  deriving DecidableEq

structure HardGraphIndex where
  nodeKeys : List JsString
  executionBearing : List Bool
  completionIndex : ℕ
  hardOut : List (List HardArc)
  hardIn : List (List HardArc)
  hardEdgeCount : ℕ

/-- By the key of the node the arc leads to, then by its own. -/
def arcOrder (nodeKeys : List JsString) (a b : HardArc) : Bool :=
  let left := nodeKeys.getD a.nodeIndex []
  let right := nodeKeys.getD b.nodeIndex []
  left < right || left = right && a.edgeKey ≤ b.edgeKey

def buildHardGraphIndex (graph : GraphStructureView) : HardGraphIndex :=
  let nodeKeys := graph.nodes.map GraphNode.nodeKey
  let hard := graph.edges.filter fun edge => edge.kind = .HARD
  let outArcs (i : ℕ) := (hard.filter fun edge => nodeKeys.idxOf edge.producerNodeKey = i).map fun edge =>
    (⟨edge.edgeKey, nodeKeys.idxOf edge.consumerNodeKey⟩ : HardArc)
  let inArcs (i : ℕ) := (hard.filter fun edge => nodeKeys.idxOf edge.consumerNodeKey = i).map fun edge =>
    (⟨edge.edgeKey, nodeKeys.idxOf edge.producerNodeKey⟩ : HardArc)
  { nodeKeys
    executionBearing := graph.nodes.map GraphNode.executionBearing
    completionIndex := nodeKeys.idxOf graph.completionNodeKey
    hardOut := (List.range nodeKeys.length).map fun i => (outArcs i).insertionSort fun a b => arcOrder nodeKeys a b
    hardIn := (List.range nodeKeys.length).map fun i => (inArcs i).insertionSort fun a b => arcOrder nodeKeys a b
    hardEdgeCount := hard.length }

def HardGraphIndex.size (index : HardGraphIndex) : ℕ := index.nodeKeys.length

def HardGraphIndex.outArcs (index : HardGraphIndex) (node : ℕ) : List HardArc := index.hardOut.getD node []

def HardGraphIndex.inArcs (index : HardGraphIndex) (node : ℕ) : List HardArc := index.hardIn.getD node []

/-! ### Kahn's order (`graph-traversal.ts:95-141`) -/

structure TopoState where
  indegree : List ℤ
  ready : List ℕ
  order : List ℕ

structure TopoResult where
  order : List ℕ
  acyclic : Bool

def relaxArc (state : TopoState) (arc : HardArc) : TopoState :=
  let next := arc.nodeIndex
  let degree := state.indegree.getD next 0 - 1
  { state with
    indegree := state.indegree.set next degree
    ready := if degree = 0 then heapPush state.ready next else state.ready }

def visitNode (index : HardGraphIndex) (state : TopoState) (node : ℕ) (ready : List ℕ) : TopoState :=
  (index.outArcs node).foldl relaxArc { state with ready := ready, order := state.order ++ [node] }

def drainReady (index : HardGraphIndex) : ℕ → TopoState → TopoState
  | 0, state => state
  | fuel + 1, state =>
    match heapPop state.ready with
    | none => state
    | some (node, ready) => drainReady index fuel (visitNode index state node ready)

def topoStart (index : HardGraphIndex) : TopoState :=
  let indegree := (List.range index.size).map fun node => ((index.inArcs node).length : ℤ)
  { indegree
    ready := ((List.range index.size).filter fun node => indegree.getD node 0 = 0).foldl heapPush []
    order := [] }

-- no node is popped twice, so the loop ends within as many rounds as there are nodes
def topologicalOrder (index : HardGraphIndex) : TopoResult :=
  let order := (drainReady index index.size (topoStart index)).order
  { order, acyclic := order.length = index.size }

/-! ### The cycle core (`graph-traversal.ts:143-243`) -/

structure TarjanState where
  vindex : List ℤ
  lowlink : List ℤ
  onStack : List Bool
  sccId : List ℤ
  sccSize : List ℕ
  tarjan : List ℕ
  counter : ℤ

structure TarjanFrame where
  node : ℕ
  arc : ℕ

def enterNode (state : TarjanState) (v : ℕ) : TarjanState :=
  { state with
    vindex := state.vindex.set v state.counter
    lowlink := state.lowlink.set v state.counter
    counter := state.counter + 1
    tarjan := v :: state.tarjan
    onStack := state.onStack.set v true }

def lowerLink (state : TarjanState) (v : ℕ) (bound : ℤ) : TarjanState :=
  { state with lowlink := state.lowlink.set v (min (state.lowlink.getD v 0) bound) }

/-- The arcs from `arc` on: the place after the first one that leads to a new node, and that node. -/
def scanArcs (v : ℕ) : List HardArc → ℕ → TarjanState → TarjanState × ℕ × Option ℕ
  | [], arc, state => (state, arc, none)
  | next :: rest, arc, state =>
    let w := next.nodeIndex
    if state.vindex.getD w 0 = -1 then (state, arc + 1, some w)
    else if state.onStack.getD w false then scanArcs v rest (arc + 1) (lowerLink state v (state.vindex.getD w 0))
    else scanArcs v rest (arc + 1) state

def popComponent (v id : ℕ) : List ℕ → TarjanState → ℕ → TarjanState × ℕ
  | [], state, size => (state, size)
  | w :: rest, state, size =>
    let popped : TarjanState :=
      { state with tarjan := rest, onStack := state.onStack.set w false, sccId := state.sccId.set w id }
    if w = v then (popped, size + 1) else popComponent v id rest popped (size + 1)

def closeComponent (state : TarjanState) (v : ℕ) : TarjanState :=
  if state.lowlink.getD v 0 = state.vindex.getD v 0 then
    let (popped, size) := popComponent v state.sccSize.length state.tarjan state 0
    { popped with sccSize := popped.sccSize ++ [size] }
  else state

def walkStack (index : HardGraphIndex) : ℕ → List TarjanFrame → TarjanState → TarjanState
  | 0, _, state => state
  | _ + 1, [], state => state
  | fuel + 1, frame :: callStack, state =>
    let v := frame.node
    let entered := if frame.arc = 0 then enterNode state v else state
    match scanArcs v ((index.outArcs v).drop frame.arc) frame.arc entered with
    | (scanned, arc, some w) => walkStack index fuel (⟨w, 0⟩ :: ⟨v, arc⟩ :: callStack) scanned
    | (scanned, _, none) =>
      let closed := closeComponent scanned v
      match callStack with
      | [] => walkStack index fuel [] closed
      | parent :: _ => walkStack index fuel callStack (lowerLink closed parent.node (closed.lowlink.getD v 0))

structure CycleCore where
  nodeIndices : List ℕ
  edgeKeys : List JsString

-- a node is pushed once and every round pushes one or pops one
def components (index : HardGraphIndex) : TarjanState :=
  let n := index.size
  (List.range n).foldl (fun state start =>
      if state.vindex.getD start 0 = -1 then walkStack index (2 * n + 1) [⟨start, 0⟩] state else state)
    ⟨List.replicate n (-1), List.replicate n 0, List.replicate n false, List.replicate n (-1), [], [], 0⟩

def findCycleCore (index : HardGraphIndex) : CycleCore :=
  let final := components index
  let idOf (node : ℕ) : ℕ := (final.sccId.getD node 0).toNat
  let cyclic (node : ℕ) : Bool := 2 ≤ final.sccSize.getD (idOf node) 0
  let core := (List.range index.size).filter cyclic
  { nodeIndices := core
    edgeKeys := sortedCopy (core.flatMap fun node =>
      ((index.outArcs node).filter fun arc => idOf arc.nodeIndex = idOf node).map HardArc.edgeKey) }

end MoeNG.Graph

/-!
## The HARD relation of a graph
-/

namespace MoeNG.Graph
open MoeNG.Kernel MoeNG.Lib

/-- A HARD edge leads from the one node to the other. -/
def GraphStructureView.HardStep (graph : GraphStructureView) (producer consumer : JsString) : Prop :=
  ∃ edge ∈ graph.edges, edge.kind = .HARD ∧ edge.producerNodeKey = producer ∧ edge.consumerNodeKey = consumer

/-- A HARD path, of any number of edges. -/
def GraphStructureView.HardReach (graph : GraphStructureView) : JsString → JsString → Prop :=
  Relation.ReflTransGen graph.HardStep

/-- A HARD path of at least one edge. -/
def GraphStructureView.HardBefore (graph : GraphStructureView) : JsString → JsString → Prop :=
  Relation.TransGen graph.HardStep

end MoeNG.Graph
