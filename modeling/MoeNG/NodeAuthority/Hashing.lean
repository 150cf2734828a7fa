import MoeNG.Kernel.JsonCode
import MoeNG.Lib.Merkle
import MoeNG.NodeAuthority.Closing

/-!
# The tree a node identity stands for
-/

namespace MoeNG.NodeAuthority
open MoeNG.Kernel MoeNG.Lib MoeNG.Graph
open MoeNG.Dependencies (DependencyContract)

/-! ### The tree of a node -/

def incomingEdges (graph : GraphStructureView) (nodeKey : JsString) : List GraphEdge :=
  graph.hardEdges.filter fun edge => edge.consumerNodeKey = nodeKey

def contractOf (definitions : List NodeDefinition) (edgeKey : JsString) : Option DependencyContract :=
  ((definitions.flatMap NodeDefinition.directHardDependencies).find? fun entry => entry.edgeKey = edgeKey).map
    NodeDependencyEntry.contract

def fieldsOf (definitions : List NodeDefinition) (nodeKey : JsString) : Option NodePreimage :=
  (definitions.find? fun definition => definition.nodeKey = nodeKey).map NodeDefinition.toNodePreimage

/-- An incoming HARD edge: its key, its contract and its producer. -/
abbrev IncomingArc := JsString × Option DependencyContract

def incomingArcs (graph : GraphStructureView) (definitions : List NodeDefinition) (nodeKey : JsString) :
    List (IncomingArc × JsString) :=
  (incomingEdges graph nodeKey).map fun edge => ((edge.edgeKey, contractOf definitions edge.edgeKey), edge.producerNodeKey)

abbrev AuthorityTree := Unfolding (Option NodePreimage) IncomingArc

/-- The preimage fields of a node and, for each incoming HARD edge in the order of the edge keys, the edge key, the
contract and the tree of the producer. -/
def authorityTree (graph : GraphStructureView) (definitions : List NodeDefinition) (nodeKey : JsString) : AuthorityTree :=
  unfoldTo (fieldsOf definitions) (incomingArcs graph definitions) graph.nodes.length nodeKey

/-- The statements of a list of bodies. -/
def statedBy (definitions : List NodeDefinition) : List (JsString × NodeDependencyEntry) :=
  definitions.flatMap fun definition => definition.directHardDependencies.map fun entry => (definition.nodeKey, entry)

/-- What a derivation accepts: one body per node, one contract per HARD edge, and no disagreement. -/
structure Closes (graph : AcceptedGraph) (binding : JsString) (definitions : List NodeDefinition) : Prop where
  bodies : (definitions.map NodeDefinition.nodeKey).Perm (graph.nodes.map GraphNode.nodeKey)
  contracts : ContractsClose graph binding (statedBy definitions)
  agree : BodiesAgree graph definitions

variable {graph : AcceptedGraph} {binding : JsString} {definitions : List NodeDefinition}

theorem Closes.distinct (h : Closes graph binding definitions) : (definitions.map NodeDefinition.nodeKey).Nodup :=
  h.bodies.nodup_iff.mpr graph.validated.nodup

/-! ### Producers come first -/

theorem index_coherent (graph : AcceptedGraph) : (buildHardGraphIndex graph.toGraphStructureView).Coherent :=
  buildHardGraphIndex_coherent graph.accepted.acceptable.linked

def rankOf (graph : AcceptedGraph) (nodeKey : JsString) : ℕ :=
  (topologicalOrder (buildHardGraphIndex graph.toGraphStructureView)).order.idxOf (graph.place nodeKey)

theorem mem_incomingEdges {nodeKey : JsString} {edge : GraphEdge} (h : edge ∈ incomingEdges graph.toGraphStructureView nodeKey) :
    edge ∈ graph.edges ∧ edge.kind = .HARD ∧ edge.consumerNodeKey = nodeKey := by
  obtain ⟨hhard, hconsumer⟩ := List.mem_filter.mp h
  obtain ⟨hedge, hkind⟩ := List.mem_filter.mp hhard
  exact ⟨hedge, of_decide_eq_true hkind, of_decide_eq_true hconsumer⟩

theorem idxOf_lt_of_front {A : Type} [DecidableEq A] (front back : List A) (u v : A) (hu : u ∈ front) (hv : v ∉ front) :
    (front ++ v :: back).idxOf u < (front ++ v :: back).idxOf v := by
  rw [List.idxOf_append_of_mem hu, List.idxOf_append_of_notMem hv]
  exact Nat.lt_add_right _ (List.idxOf_lt_length_iff.mpr hu)

theorem rank_descends (graph : AcceptedGraph) (edge : GraphEdge) (hedge : edge ∈ graph.edges) (hkind : edge.kind = .HARD) :
    rankOf graph edge.producerNodeKey < rankOf graph edge.consumerNodeKey := by
  have hcoherent := index_coherent graph
  obtain ⟨hproducer, hconsumer⟩ := graph.accepted.acceptable.linked edge hedge
  have hplaceProducer := (place_lt graph.toGraphStructureView _).mpr hproducer
  have hplaceConsumer := (place_lt graph.toGraphStructureView _).mpr hconsumer
  have hmem := (mem_topologicalOrder hcoherent graph.accepted.acyclic _).mpr hplaceConsumer
  have hstage := topologicalOrder_stage hcoherent
  obtain ⟨front, back, hsplit⟩ := List.append_of_mem hmem
  have harc : graph.place edge.consumerNodeKey
      ∈ (buildHardGraphIndex graph.toGraphStructureView).heads (graph.place edge.producerNodeKey) := by
    refine (heads_perm graph.toGraphStructureView _ hplaceProducer).mem_iff.mpr (List.mem_map.mpr ⟨edge, ?_, rfl⟩)
    exact List.mem_filter.mpr ⟨List.mem_filter.mpr ⟨hedge, decide_eq_true hkind⟩, decide_eq_true rfl⟩
  have hfront := hstage.closed front _ back hsplit _ (List.mem_range.mpr hplaceProducer) harc
  have hnodup := topologicalOrder_nodup hcoherent
  rw [hsplit] at hnodup
  have hfresh : graph.place edge.consumerNodeKey ∉ front := fun hm =>
    (List.disjoint_of_nodup_append hnodup) hm (List.mem_cons_self ..)
  unfold rankOf
  rw [hsplit]
  exact idxOf_lt_of_front front back _ _ hfront hfresh

theorem rank_lt (graph : AcceptedGraph) (nodeKey : JsString) (h : nodeKey ∈ graph.nodes.map GraphNode.nodeKey) :
    rankOf graph nodeKey < graph.nodes.length := by
  have hcoherent := index_coherent graph
  have hmem := (mem_topologicalOrder hcoherent graph.accepted.acyclic _).mpr ((place_lt graph.toGraphStructureView _).mpr h)
  have hlength : (topologicalOrder (buildHardGraphIndex graph.toGraphStructureView)).order.length = graph.nodes.length :=
    (of_decide_eq_true graph.accepted.acyclic).trans (buildHardGraphIndex_size _)
  exact hlength ▸ List.idxOf_lt_length_iff.mpr hmem

def authorityDag (graph : AcceptedGraph) (definitions : List NodeDefinition) :
    LabelledDag JsString (Option NodePreimage) IncomingArc where
  vertex nodeKey := nodeKey ∈ graph.nodes.map GraphNode.nodeKey
  label := fieldsOf definitions
  incoming := incomingArcs graph.toGraphStructureView definitions
  rank := rankOf graph
  descends nodeKey _ p hp := by
    obtain ⟨edge, hedge, rfl⟩ := List.mem_map.mp hp
    obtain ⟨hmem, hkind, hconsumer⟩ := mem_incomingEdges hedge
    refine ⟨(graph.accepted.acceptable.linked edge hmem).1, ?_⟩
    have hrank := rank_descends graph edge hmem hkind
    rwa [hconsumer] at hrank

theorem authorityTree_solves (graph : AcceptedGraph) (definitions : List NodeDefinition) :
    (authorityDag graph definitions).Solves Unfolding.node (authorityTree graph.toGraphStructureView definitions) :=
  (authorityDag graph definitions).foldTo_solves Unfolding.node graph.nodes.length fun nodeKey h => rank_lt graph nodeKey h

end MoeNG.NodeAuthority

/-!
## The hashing loop solves the recursive equation
-/

namespace MoeNG.NodeAuthority
open MoeNG.Kernel MoeNG.Lib MoeNG.Graph
open MoeNG.Dependencies (DependencyContract)

/-! ### The equation -/

def producerOf (arc : IncomingArc × JsString) : JsString := (arc.1.2.map DependencyContract.producerNodeKey).getD []

/-- By producer, then by edge. -/
def arcBefore (a b : IncomingArc × JsString) : Prop :=
  producerOf a < producerOf b ∨ producerOf a = producerOf b ∧ a.1.1 ≤ b.1.1

instance : DecidableRel arcBefore := fun _ _ => inferInstanceAs (Decidable (_ ∨ _ ∧ _))

def arcTokens (arc : IncomingArc × JsString) : List JsString :=
  [arc.1.1, lit "HARD", (arc.1.2.map fun contract => contract.satisfactionPredicate.predicateRef).getD [],
    (arc.1.2.map fun contract => canonicalText contract.value).getD [], arc.2]

def encodeNode (sha256 : List Byte → JsString) : Option NodePreimage → List (IncomingArc × JsString) → JsString
  | none, _ => []
  | some fields, arcs =>
    sha256 (utf8 (preimage fields ((arcs.insertionSort arcBefore).map fun arc => (arcTokens arc).flatMap frame)))

def authorityHash (sha256 : List Byte → JsString) (graph : GraphStructureView) (definitions : List NodeDefinition)
    (nodeKey : JsString) : JsString :=
  foldTo (encodeNode sha256) (fieldsOf definitions) (incomingArcs graph definitions) graph.nodes.length nodeKey

variable {graph : AcceptedGraph} {binding : JsString} {definitions : List NodeDefinition} (sha256 : List Byte → JsString)

theorem authorityHash_solves (graph : AcceptedGraph) (definitions : List NodeDefinition) :
    (authorityDag graph definitions).Solves (encodeNode sha256) (authorityHash sha256 graph.toGraphStructureView definitions) :=
  (authorityDag graph definitions).foldTo_solves _ graph.nodes.length fun nodeKey h => rank_lt graph nodeKey h

/-! ### Every lookup finds its entry -/

theorem edgeOf_mem (graph : AcceptedGraph) (edge : GraphEdge) (h : edge ∈ graph.edges) :
    edgeOf graph edge.edgeKey = some edge :=
  find_key_of_mem GraphEdge.edgeKey graph.edges graph.accepted.acceptable.edgesDistinct edge h

theorem Closes.definition (h : Closes graph binding definitions) (nodeKey : JsString)
    (hnode : nodeKey ∈ graph.nodes.map GraphNode.nodeKey) :
    ∃ definition ∈ definitions, definition.nodeKey = nodeKey
      ∧ (definitions.find? fun d => d.nodeKey = nodeKey) = some definition := by
  obtain ⟨definition, hmem, rfl⟩ := List.mem_map.mp (h.bodies.mem_iff.mpr hnode)
  exact ⟨definition, hmem, rfl, find_key_of_mem NodeDefinition.nodeKey definitions h.distinct definition hmem⟩

theorem statedBy_entries (definitions : List NodeDefinition) :
    (statedBy definitions).map Prod.snd = definitions.flatMap NodeDefinition.directHardDependencies := by
  unfold statedBy
  rw [List.map_flatMap]
  simp only [List.map_map, Function.comp_def, List.map_id']

/-- The contract of a HARD edge: the one that is filed on the consumer. -/
theorem Closes.contract (h : Closes graph binding definitions) (edge : GraphEdge) (hedge : edge ∈ graph.edges)
    (hkind : edge.kind = .HARD) : ∃ entry, (edge.consumerNodeKey, entry) ∈ statedBy definitions
      ∧ entry.edgeKey = edge.edgeKey ∧ contractOf definitions edge.edgeKey = some entry.contract
      ∧ entry.contract.producerNodeKey = edge.producerNodeKey := by
  obtain ⟨stated, hstated, hkey⟩ := List.mem_map.mp (h.contracts.complete edge hedge hkind)
  obtain ⟨edge', hedge', -, hconsumer, -, hproducer, -⟩ := h.contracts.filed stated hstated
  rw [hkey, edgeOf_mem graph edge hedge] at hedge'
  obtain rfl := Option.some.inj hedge'
  obtain ⟨nodeKey, entry⟩ := stated
  obtain rfl : edge.consumerNodeKey = nodeKey := hconsumer
  refine ⟨entry, hstated, hkey, ?_, hproducer⟩
  have hnodup : ((definitions.flatMap NodeDefinition.directHardDependencies).map NodeDependencyEntry.edgeKey).Nodup := by
    rw [← statedBy_entries, List.map_map]
    exact h.contracts.once
  have hmem : entry ∈ definitions.flatMap NodeDefinition.directHardDependencies := by
    rw [← statedBy_entries]
    exact List.mem_map.mpr ⟨_, hstated, rfl⟩
  have hfind := find_key_of_mem NodeDependencyEntry.edgeKey _ hnodup entry hmem
  have hkey' : entry.edgeKey = edge.edgeKey := hkey
  rw [hkey'] at hfind
  rw [contractOf, hfind, Option.map_some]

theorem statedContracts_eq (byKey : BodyMap)
    (h : byKey.entries = definitions.map fun definition => (definition.nodeKey, definition)) :
    statedContracts byKey = statedBy definitions := by
  rw [statedContracts, h, List.flatMap_map]
  rfl

/-! ### One node of the loop -/

def edgeBefore (a b : GraphEdge) : Prop :=
  a.producerNodeKey < b.producerNodeKey ∨ a.producerNodeKey = b.producerNodeKey ∧ a.edgeKey ≤ b.edgeKey

instance : DecidableRel edgeBefore := fun _ _ => inferInstanceAs (Decidable (_ ∨ _ ∧ _))

theorem getD_place (graph : GraphStructureView) (nodeKey : JsString) (h : nodeKey ∈ graph.nodes.map GraphNode.nodeKey) :
    (graph.nodes.map GraphNode.nodeKey).getD (graph.place nodeKey) [] = nodeKey := by
  have hlt : graph.place nodeKey < (graph.nodes.map GraphNode.nodeKey).length := List.idxOf_lt_length_iff.mpr h
  rw [List.getD, List.getElem?_eq_getElem hlt, Option.getD_some]
  exact List.getElem_idxOf _

/-- The arcs that the index lists at a node are its incoming HARD edges, by producer and edge. -/
theorem inArcs_sorted (graph : AcceptedGraph) (nodeKey : JsString) (h : nodeKey ∈ graph.nodes.map GraphNode.nodeKey) :
    (buildHardGraphIndex graph.toGraphStructureView).inArcs (graph.place nodeKey)
      = ((incomingEdges graph.toGraphStructureView nodeKey).insertionSort edgeBefore).map
          fun edge => ⟨edge.edgeKey, graph.place edge.producerNodeKey⟩ := by
  have hlinked := graph.accepted.acceptable.linked
  rw [inArcs_eq _ _ ((place_lt _ _).mpr h)]
  have hedges : (graph.hardEdges.filter fun edge => graph.place edge.consumerNodeKey = graph.place nodeKey)
      = incomingEdges graph.toGraphStructureView nodeKey := by
    refine List.filter_congr fun edge he => decide_eq_decide.mpr ?_
    have hconsumer := (hlinked edge (List.mem_filter.mp he).1).2
    refine ⟨fun hplace => ?_, fun hkey => by rw [hkey]⟩
    rw [← getD_place _ _ hconsumer, hplace, getD_place _ _ h]
  rw [hedges]
  refine (List.map_insertionSort edgeBefore _ _ _ fun a ha b hb => ?_).symm
  have hproducer (e : GraphEdge) (he : e ∈ incomingEdges graph.toGraphStructureView nodeKey) :
      (graph.nodes.map GraphNode.nodeKey).getD (graph.place e.producerNodeKey) [] = e.producerNodeKey :=
    getD_place _ _ (hlinked e (mem_incomingEdges he).1).1
  simp only [arcOrder, edgeBefore, hproducer a ha, hproducer b hb, Bool.or_eq_true, Bool.and_eq_true, decide_eq_true_eq]

/-- The same arcs, with their contracts and the hashes of their producers. -/
theorem sortedArcs_eq (h : Closes graph binding definitions) (nodeKey : JsString) (hash : JsString → JsString) :
    ((incomingArcs graph.toGraphStructureView definitions nodeKey).map fun p => (p.1, hash p.2)).insertionSort arcBefore
      = ((incomingEdges graph.toGraphStructureView nodeKey).insertionSort edgeBefore).map fun edge =>
          ((edge.edgeKey, contractOf definitions edge.edgeKey), hash edge.producerNodeKey) := by
  rw [incomingArcs, List.map_map]
  refine (List.map_insertionSort edgeBefore arcBefore _ _ fun a ha b hb => ?_).symm
  have hproducer (e : GraphEdge) (he : e ∈ incomingEdges graph.toGraphStructureView nodeKey) :
      ((contractOf definitions e.edgeKey).map DependencyContract.producerNodeKey).getD [] = e.producerNodeKey := by
    obtain ⟨hedge, hkind, -⟩ := mem_incomingEdges he
    obtain ⟨entry, -, -, hcontract, hentry⟩ := h.contract e hedge hkind
    rw [hcontract, Option.map_some, Option.getD_some, hentry]
  simp only [edgeBefore, arcBefore, producerOf, Function.comp_apply, hproducer a ha, hproducer b hb]

theorem filed_get (h : Closes graph binding definitions) (filed : OrdMap JsString ContractView)
    (hfiled : filed.entries = (statedBy definitions).map fun s => (s.2.edgeKey, viewOf s.2)) (edge : GraphEdge)
    (hedge : edge ∈ graph.edges) (hkind : edge.kind = .HARD) : ∃ entry, filed.get edge.edgeKey = some (viewOf entry)
      ∧ contractOf definitions edge.edgeKey = some entry.contract := by
  obtain ⟨entry, hstated, hkey, hcontract, -⟩ := h.contract edge hedge hkind
  refine ⟨entry, OrdMap.get_of_mem_entries filed _ _ ?_, hcontract⟩
  rw [hfiled, ← hkey]
  exact List.mem_map.mpr ⟨_, hstated, rfl⟩

theorem nodeKeys_getElem (graph : AcceptedGraph) (nodeKey : JsString) (h : nodeKey ∈ graph.nodes.map GraphNode.nodeKey) :
    (buildHardGraphIndex graph.toGraphStructureView).nodeKeys[graph.place nodeKey]? = some nodeKey := by
  show (graph.nodes.map GraphNode.nodeKey)[graph.place nodeKey]? = some nodeKey
  have hlt : graph.place nodeKey < (graph.nodes.map GraphNode.nodeKey).length := List.idxOf_lt_length_iff.mpr h
  rw [List.getElem?_eq_getElem hlt]
  exact congrArg some (List.getElem_idxOf _)

/-- A node whose producers are hashed is hashed as the equation says. -/
theorem hashNode_eq (h : Closes graph binding definitions) (byKey : BodyMap) (filed : OrdMap JsString ContractView)
    (hashes : OrdMap JsString JsString)
    (hbyKey : byKey.entries = definitions.map fun definition => (definition.nodeKey, definition))
    (hfiled : filed.entries = (statedBy definitions).map fun s => (s.2.edgeKey, viewOf s.2)) (nodeKey : JsString)
    (hnode : nodeKey ∈ graph.nodes.map GraphNode.nodeKey)
    (hproducers : ∀ edge ∈ incomingEdges graph.toGraphStructureView nodeKey, hashes.get edge.producerNodeKey
      = some (authorityHash sha256 graph.toGraphStructureView definitions edge.producerNodeKey)) :
    hashNode sha256 graph (buildHardGraphIndex graph.toGraphStructureView) byKey filed hashes (graph.place nodeKey)
      = some (hashes.set nodeKey (authorityHash sha256 graph.toGraphStructureView definitions nodeKey)) := by
  obtain ⟨definition, hmem, hkey, hfind⟩ := h.definition nodeKey hnode
  have hbody : byKey.get nodeKey = some definition := by
    refine OrdMap.get_of_mem_entries byKey _ _ ?_
    rw [hbyKey, ← hkey]
    exact List.mem_map.mpr ⟨definition, hmem, rfl⟩
  have hincoming : ((buildHardGraphIndex graph.toGraphStructureView).inArcs (graph.place nodeKey)).mapM
      (incomingOf graph filed hashes) = some (((incomingEdges graph.toGraphStructureView nodeKey).insertionSort edgeBefore).map
        fun edge => (arcTokens ((edge.edgeKey, contractOf definitions edge.edgeKey),
          authorityHash sha256 graph.toGraphStructureView definitions edge.producerNodeKey)).flatMap frame) := by
    rw [inArcs_sorted graph nodeKey hnode, List.mapM_map]
    refine mapM_eq_some_map _ _ _ fun edge he => ?_
    have hincoming := (List.mem_insertionSort _).mp he
    obtain ⟨hedge, hkind, -⟩ := mem_incomingEdges hincoming
    obtain ⟨entry, hview, hcontract⟩ := filed_get h filed hfiled edge hedge hkind
    rw [Function.comp_apply, incomingOf, edgeOf_mem graph edge hedge, hview]
    show (hashes.get edge.producerNodeKey).bind _ = _
    rw [hproducers edge hincoming, hcontract, Option.bind_some, incomingText, hkind]
    rfl
  have hsolved := authorityHash_solves sha256 graph definitions nodeKey hnode
  have hlabel : (authorityDag graph definitions).label nodeKey = some definition.toNodePreimage := by
    show (definitions.find? fun d => d.nodeKey = nodeKey).map _ = _
    rw [hfind, Option.map_some]
  have hincomingArcs : (authorityDag graph definitions).incoming nodeKey
      = incomingArcs graph.toGraphStructureView definitions nodeKey := rfl
  rw [hlabel, hincomingArcs, encodeNode, sortedArcs_eq h, List.map_map] at hsolved
  refine Option.bind_eq_some_iff.mpr ⟨nodeKey, nodeKeys_getElem graph nodeKey hnode, ?_⟩
  refine Option.bind_eq_some_iff.mpr ⟨_, hincoming, Option.bind_eq_some_iff.mpr ⟨definition, hbody, ?_⟩⟩
  rw [hsolved]
  rfl

end MoeNG.NodeAuthority
