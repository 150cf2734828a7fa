import MoeNG.Graph.Traversal
import MoeNG.Kernel.Utf8
import MoeNG.NodeAuthority.Injective

/-!
# The law of node authority hashes
-/

namespace MoeNG.NodeAuthority
open MoeNG.Kernel MoeNG.Lib MoeNG.Graph
open MoeNG.Dependencies (DependencyContract)

variable {sha256 : List Byte → JsString}

/-! ### Accepted inputs -/

/-- An input that the derivation answered, with the graph and the definitions it was read as. -/
structure Acceptance (sha256 : List Byte → JsString) where
  {I : Type}
  {B : Type}
  admitNode : B → Except I NodeDefinition
  snapshotInput : Value
  bodies : List B
  policyOverride : Value
  graph : AcceptedGraph
  definitions : List NodeDefinition
  set : NodeAuthoritySet
  valid : validateGraphSnapshot snapshotInput policyOverride = .ok graph
  admitted : bodies.mapM admitNode = .ok definitions
  answered : deriveNodeAuthoritySet sha256 admitNode snapshotInput (some bodies) policyOverride = .ok set

def Acceptance.tree (a : Acceptance sha256) (nodeKey : JsString) : AuthorityTree :=
  authorityTree a.graph.toGraphStructureView a.definitions nodeKey

def Acceptance.body (a : Acceptance sha256) (nodeKey : JsString) : Option NodeDefinition :=
  a.definitions.find? fun definition => definition.nodeKey = nodeKey

theorem mapM_mapError {A E E' B : Type} (f : A → Except E B) (g : E → E') (l : List A) (out : List B) :
    l.mapM (fun a => (f a).mapError g) = .ok out ↔ l.mapM f = .ok out := by
  rw [except_mapM_ok_iff, except_mapM_ok_iff]
  have hsame (a : A) (b : B) : (f a).mapError g = .ok b ↔ f a = .ok b := by
    cases f a with
    | error e => exact ⟨nofun, nofun⟩
    | ok c => exact ⟨fun h => congrArg Except.ok (Except.ok.inj h), fun h => congrArg Except.ok (Except.ok.inj h)⟩
  simp only [hsame]

theorem Acceptance.derived (a : Acceptance sha256) :
    Derived sha256 a.admitNode a.snapshotInput a.bodies a.policyOverride a.graph a.definitions
      ∧ a.set = authoritySet sha256 a.graph a.definitions := by
  obtain ⟨bodies, graph, definitions, hbodies, hderived, hset⟩ := (derive_ok_iff sha256 _ _).mp a.answered
  obtain rfl := Option.some.inj hbodies
  obtain rfl : a.graph = graph := Except.ok.inj (a.valid.symm.trans hderived.valid)
  obtain rfl : a.definitions = definitions :=
    Except.ok.inj (a.admitted.symm.trans ((mapM_mapError _ _ _ _).mp hderived.admitted))
  exact ⟨hderived, hset⟩

theorem Acceptance.closes (a : Acceptance sha256) :
    Closes a.graph (snapshotIdentityHash sha256 a.graph) a.definitions := a.derived.1.closes

theorem Acceptance.mem_value (a : Acceptance sha256) (entry : NodeAuthorityEntry) (h : entry ∈ a.set.value) :
    entry.nodeKey ∈ a.graph.nodes.map GraphNode.nodeKey
      ∧ entry.nodeAuthorityHash = authorityHash sha256 a.graph.toGraphStructureView a.definitions entry.nodeKey := by
  rw [a.derived.2] at h
  obtain ⟨node, hnode, rfl⟩ := List.mem_map.mp h
  exact ⟨List.mem_map_of_mem hnode, rfl⟩

/-! ### Order -/

theorem Closes.perm {graph : AcceptedGraph} {binding : JsString} {definitions definitions' : List NodeDefinition}
    (h : Closes graph binding definitions) (hperm : definitions'.Perm definitions) : Closes graph binding definitions' where
  bodies := (hperm.map _).trans h.bodies
  contracts := h.contracts.perm (hperm.flatMap_right _)
  agree := ⟨fun d hd d' hd' => h.agree.base d (hperm.mem_iff.mp hd) d' (hperm.mem_iff.mp hd'),
    fun d hd => h.agree.role d (hperm.mem_iff.mp hd)⟩

theorem Closes.edge_keys {graph : AcceptedGraph} {binding : JsString} {definitions : List NodeDefinition}
    (h : Closes graph binding definitions) :
    ((definitions.flatMap NodeDefinition.directHardDependencies).map NodeDependencyEntry.edgeKey).Nodup := by
  rw [← statedBy_entries, List.map_map]
  exact h.contracts.once

theorem authoritySet_perm {graph : AcceptedGraph} {binding : JsString} {definitions definitions' : List NodeDefinition}
    (h : Closes graph binding definitions) (hperm : definitions'.Perm definitions) :
    authoritySet sha256 graph definitions' = authoritySet sha256 graph definitions := by
  have hfind (nodeKey : JsString) : (definitions'.find? fun d => d.nodeKey = nodeKey) =
      definitions.find? fun d => d.nodeKey = nodeKey := find_key_perm NodeDefinition.nodeKey hperm h.distinct nodeKey
  have hfields : fieldsOf definitions' = fieldsOf definitions := funext fun nodeKey => by
    rw [fieldsOf, fieldsOf, hfind]
  have hcontracts : contractOf definitions' = contractOf definitions := funext fun edgeKey => by
    rw [contractOf, contractOf,
      find_key_perm NodeDependencyEntry.edgeKey (hperm.flatMap_right NodeDefinition.directHardDependencies) h.edge_keys]
  have hhash : authorityHash sha256 graph.toGraphStructureView definitions'
      = authorityHash sha256 graph.toGraphStructureView definitions := funext fun nodeKey => by
    have harcs : incomingArcs graph.toGraphStructureView definitions'
        = incomingArcs graph.toGraphStructureView definitions := funext fun k => by
      rw [incomingArcs, incomingArcs, hcontracts]
    rw [authorityHash, authorityHash, hfields, harcs]
  rw [authoritySet, authoritySet, authorityEntries, authorityEntries, hhash, bodiesInOrder, bodiesInOrder]
  simp only [hfind]

/-! ### Ancestors -/

theorem arc_iff (graph : AcceptedGraph) (definitions : List NodeDefinition) (m k : JsString) :
    (∃ e, (e, m) ∈ (authorityDag graph definitions).incoming k) ↔ graph.HardStep m k := by
  constructor
  · rintro ⟨e, he⟩
    obtain ⟨edge, hedge, heq⟩ := List.mem_map.mp he
    obtain ⟨hin, hkind, hconsumer⟩ := mem_incomingEdges hedge
    exact ⟨edge, hin, hkind, (Prod.mk.inj heq).2, hconsumer⟩
  · rintro ⟨edge, hin, hkind, rfl, rfl⟩
    refine ⟨_, List.mem_map.mpr ⟨edge, ?_, rfl⟩⟩
    exact List.mem_filter.mpr ⟨List.mem_filter.mpr ⟨hin, decide_eq_true hkind⟩, decide_eq_true rfl⟩

theorem ancestor_iff (graph : AcceptedGraph) (definitions : List NodeDefinition) (m k : JsString) :
    (authorityDag graph definitions).Ancestor m k ↔ graph.HardReach m k :=
  ⟨Relation.ReflTransGen.mono (fun a b hab => (arc_iff graph definitions a b).mp hab) m k,
    Relation.ReflTransGen.mono (fun a b hab => (arc_iff graph definitions a b).mpr hab) m k⟩

/-- The contract of an incoming edge is read off the body of its consumer. -/
theorem contract_of_body {graph graph' : AcceptedGraph} {binding binding' : JsString}
    {definitions definitions' : List NodeDefinition} (h : Closes graph binding definitions)
    (h' : Closes graph' binding' definitions') (edge : GraphEdge) (hedge : edge ∈ graph.edges) (hkind : edge.kind = .HARD)
    (hbody : (definitions.find? fun d => d.nodeKey = edge.consumerNodeKey) =
      definitions'.find? fun d => d.nodeKey = edge.consumerNodeKey) :
    contractOf definitions edge.edgeKey = contractOf definitions' edge.edgeKey := by
  obtain ⟨entry, hstated, hkey, hcontract, -⟩ := h.contract edge hedge hkind
  obtain ⟨definition, hdefinition, hentry⟩ := List.mem_flatMap.mp hstated
  obtain ⟨stated, hmem, heq⟩ := List.mem_map.mp hentry
  obtain ⟨hconsumer, rfl⟩ := Prod.mk.inj heq
  have hfind := find_key_of_mem NodeDefinition.nodeKey definitions h.distinct definition hdefinition
  rw [hconsumer, hbody] at hfind
  have hin : stated ∈ definitions'.flatMap NodeDefinition.directHardDependencies :=
    List.mem_flatMap.mpr ⟨definition, List.mem_of_find?_eq_some hfind, hmem⟩
  have hfind' := find_key_of_mem NodeDependencyEntry.edgeKey _ h'.edge_keys stated hin
  rw [hkey] at hfind'
  rw [hcontract, contractOf, hfind', Option.map_some]

/-! ### The law -/

structure NodeAuthorityLaw (sha256 : List Byte → JsString) : Prop where
  read : ∀ {I B : Type} (admitNode : B → Except I NodeDefinition) (snapshotInput : Value) (bodiesInput : Option (List B))
    (policyOverride : Value) (set : NodeAuthoritySet),
    deriveNodeAuthoritySet sha256 admitNode snapshotInput bodiesInput policyOverride = .ok set →
      ∃ bodies graph definitions, bodiesInput = some bodies
        ∧ validateGraphSnapshot snapshotInput policyOverride = .ok graph ∧ bodies.mapM admitNode = .ok definitions
  identity : ∀ a a' : Acceptance sha256, ∀ entry ∈ a.set.value, ∀ entry' ∈ a'.set.value,
    entry.nodeAuthorityHash = entry'.nodeAuthorityHash ↔ a.tree entry.nodeKey = a'.tree entry'.nodeKey
  reordered : ∀ (a : Acceptance sha256) (snapshotInput : Value) (bodies : List a.B),
    SameSnapshot a.snapshotInput snapshotInput → bodies.Perm a.bodies →
      deriveNodeAuthoritySet sha256 a.admitNode snapshotInput (some bodies) a.policyOverride = .ok a.set
  changed : ∀ a a' : Acceptance sha256, a'.graph.toGraphStructureView = a.graph.toGraphStructureView →
    ∀ entry ∈ a.set.value, ∀ entry' ∈ a'.set.value, entry'.nodeKey = entry.nodeKey →
      ∀ ancestor, a.graph.HardReach ancestor entry.nodeKey →
        (fieldsOf a.definitions ancestor ≠ fieldsOf a'.definitions ancestor
          ∨ ∃ edge ∈ incomingEdges a.graph.toGraphStructureView ancestor,
            contractOf a.definitions edge.edgeKey ≠ contractOf a'.definitions edge.edgeKey) →
        entry.nodeAuthorityHash ≠ entry'.nodeAuthorityHash
  unchanged : ∀ a a' : Acceptance sha256, a'.graph.toGraphStructureView = a.graph.toGraphStructureView →
    ∀ entry ∈ a.set.value, ∀ entry' ∈ a'.set.value, entry'.nodeKey = entry.nodeKey →
      (∀ ancestor, a.graph.HardReach ancestor entry.nodeKey → a.body ancestor = a'.body ancestor) →
        entry.nodeAuthorityHash = entry'.nodeAuthorityHash
  nodes : ∀ a : Acceptance sha256, a.set.value.map NodeAuthorityEntry.nodeKey = a.graph.nodes.map GraphNode.nodeKey
    ∧ (a.set.value.map NodeAuthorityEntry.nodeKey).Nodup
  contracts : ∀ a : Acceptance sha256, ∀ edge ∈ a.graph.edges, edge.kind = .HARD →
    ∃ entry, entry.edgeKey = edge.edgeKey
      ∧ ((statedBy a.definitions).filter fun stated => stated.2.edgeKey = edge.edgeKey) = [(edge.consumerNodeKey, entry)]
  noCycle : ∀ {I B : Type} (admitNode : B → Except I NodeDefinition) (snapshotInput : Value)
    (bodiesInput : Option (List B)) (policyOverride : Value) (message : JsString),
    deriveNodeAuthoritySet sha256 admitNode snapshotInput bodiesInput policyOverride ≠ .error (.refused .CYCLE message)

theorem identity_law (hsha : Function.Injective sha256) (hplain : ∀ bytes, wellFormed (sha256 bytes) = true)
    (a a' : Acceptance sha256) (entry entry' : NodeAuthorityEntry) (h : entry ∈ a.set.value) (h' : entry' ∈ a'.set.value) :
    entry.nodeAuthorityHash = entry'.nodeAuthorityHash ↔ a.tree entry.nodeKey = a'.tree entry'.nodeKey := by
  obtain ⟨hnode, hhash⟩ := a.mem_value entry h
  obtain ⟨hnode', hhash'⟩ := a'.mem_value entry' h'
  rw [hhash, hhash']
  exact authorityHash_eq_iff hsha hplain a.closes a'.closes _ _ hnode hnode'

theorem reordered_law (a : Acceptance sha256) (snapshotInput : Value) (bodies : List a.B)
    (hsnapshot : SameSnapshot a.snapshotInput snapshotInput) (hbodies : bodies.Perm a.bodies) :
    deriveNodeAuthoritySet sha256 a.admitNode snapshotInput (some bodies) a.policyOverride = .ok a.set := by
  obtain ⟨hderived, hset⟩ := a.derived
  obtain ⟨definitions, hadmitted, hperm⟩ := except_mapM_perm _ _ bodies _ hbodies hderived.admitted
  refine (derive_ok_iff sha256 _ _).mpr ⟨bodies, a.graph, definitions, rfl, ⟨?_, hadmitted, hderived.closes.perm hperm⟩, ?_⟩
  · exact validateGraphSnapshot_perm _ _ _ _ hsnapshot hderived.valid
  · rw [hset, authoritySet_perm hderived.closes hperm]

theorem contracts_law (a : Acceptance sha256) (edge : GraphEdge) (hedge : edge ∈ a.graph.edges)
    (hkind : edge.kind = .HARD) : ∃ entry, entry.edgeKey = edge.edgeKey
      ∧ ((statedBy a.definitions).filter fun stated => stated.2.edgeKey = edge.edgeKey) = [(edge.consumerNodeKey, entry)] := by
  obtain ⟨entry, hstated, hkey, -⟩ := a.closes.contract edge hedge hkind
  refine ⟨entry, hkey, ?_⟩
  have honce := a.closes.contracts.once
  have hmem : (edge.consumerNodeKey, entry) ∈ (statedBy a.definitions).filter fun stated => stated.2.edgeKey = edge.edgeKey :=
    List.mem_filter.mpr ⟨hstated, decide_eq_true hkey⟩
  obtain ⟨front, back, hsplit⟩ := List.append_of_mem hmem
  have hnodup : (((statedBy a.definitions).filter fun stated => stated.2.edgeKey = edge.edgeKey).map
      fun stated => stated.2.edgeKey).Nodup := (List.filter_sublist.map _).nodup honce
  have hsame : ∀ stated ∈ (statedBy a.definitions).filter (fun stated => stated.2.edgeKey = edge.edgeKey),
      stated = (edge.consumerNodeKey, entry) := fun stated hs =>
    List.inj_on_of_nodup_map hnodup hs hmem ((of_decide_eq_true (List.mem_filter.mp hs).2).trans hkey.symm)
  have hcount := List.nodup_iff_count_le_one.mp hnodup.of_map (edge.consumerNodeKey, entry)
  obtain ⟨n, hn⟩ := List.eq_replicate_iff.mpr ⟨rfl, hsame⟩ |> fun h => (⟨_, h⟩ : ∃ n, _ = List.replicate n _)
  rw [hn, List.count_replicate_self] at hcount
  rw [hn] at hmem ⊢
  have hpos := List.length_pos_of_mem hmem
  rw [List.length_replicate] at hpos
  obtain rfl : n = 1 := by omega
  rfl

/-- What two derivations over one graph share when one node has one hash in both. -/
theorem same_ancestor (a a' : Acceptance sha256) (hgraph : a'.graph.toGraphStructureView = a.graph.toGraphStructureView)
    (nodeKey ancestor : JsString) (hnode : nodeKey ∈ a.graph.nodes.map GraphNode.nodeKey)
    (hreach : a.graph.HardReach ancestor nodeKey) (htree : a.tree nodeKey = a'.tree nodeKey) :
    fieldsOf a.definitions ancestor = fieldsOf a'.definitions ancestor
      ∧ incomingArcs a.graph.toGraphStructureView a.definitions ancestor
        = incomingArcs a.graph.toGraphStructureView a'.definitions ancestor := by
  have hvertex : ∀ k, (authorityDag a.graph a.definitions).vertex k → (authorityDag a'.graph a'.definitions).vertex k := by
    intro k hk
    show k ∈ a'.graph.toGraphStructureView.nodes.map GraphNode.nodeKey
    rw [hgraph]
    exact hk
  have hproducers (definitions : List NodeDefinition) (k : JsString) :
      (incomingArcs a.graph.toGraphStructureView definitions k).map Prod.snd
        = (incomingEdges a.graph.toGraphStructureView k).map GraphEdge.producerNodeKey := by
    rw [incomingArcs, List.map_map]
    rfl
  have hshape : ∀ k, ((authorityDag a.graph a.definitions).incoming k).map Prod.snd
      = ((authorityDag a'.graph a'.definitions).incoming k).map Prod.snd := by
    intro k
    show _ = (incomingArcs a'.graph.toGraphStructureView a'.definitions k).map Prod.snd
    rw [hgraph, hproducers]
    exact hproducers a.definitions k
  have hsame := LabelledDag.unfolding_ancestor (authorityTree_solves a.graph a.definitions)
    (authorityTree_solves a'.graph a'.definitions) hvertex hshape ((ancestor_iff a.graph a.definitions _ _).mpr hreach)
    hnode htree
  refine ⟨hsame.1, hsame.2.trans ?_⟩
  show incomingArcs a'.graph.toGraphStructureView a'.definitions ancestor = _
  rw [hgraph]

theorem changed_law (hsha : Function.Injective sha256) (hplain : ∀ bytes, wellFormed (sha256 bytes) = true)
    (a a' : Acceptance sha256) (hgraph : a'.graph.toGraphStructureView = a.graph.toGraphStructureView)
    (entry entry' : NodeAuthorityEntry) (h : entry ∈ a.set.value) (h' : entry' ∈ a'.set.value)
    (hkey : entry'.nodeKey = entry.nodeKey) (ancestor : JsString) (hreach : a.graph.HardReach ancestor entry.nodeKey)
    (hdiffer : fieldsOf a.definitions ancestor ≠ fieldsOf a'.definitions ancestor
      ∨ ∃ edge ∈ incomingEdges a.graph.toGraphStructureView ancestor,
        contractOf a.definitions edge.edgeKey ≠ contractOf a'.definitions edge.edgeKey) :
    entry.nodeAuthorityHash ≠ entry'.nodeAuthorityHash := by
  intro heq
  have htree := (identity_law hsha hplain a a' entry entry' h h').mp heq
  rw [hkey] at htree
  obtain ⟨hfields, harcs⟩ := same_ancestor a a' hgraph entry.nodeKey ancestor (a.mem_value entry h).1 hreach htree
  rcases hdiffer with hdiffer | ⟨edge, hedge, hdiffer⟩
  · exact hdiffer hfields
  · have hall := List.map_inj_left.mp harcs edge hedge
    exact hdiffer (Prod.mk.inj (Prod.mk.inj hall).1).2

theorem unchanged_law (hsha : Function.Injective sha256) (hplain : ∀ bytes, wellFormed (sha256 bytes) = true)
    (a a' : Acceptance sha256) (hgraph : a'.graph.toGraphStructureView = a.graph.toGraphStructureView)
    (entry entry' : NodeAuthorityEntry) (h : entry ∈ a.set.value) (h' : entry' ∈ a'.set.value)
    (hkey : entry'.nodeKey = entry.nodeKey)
    (hbodies : ∀ ancestor, a.graph.HardReach ancestor entry.nodeKey → a.body ancestor = a'.body ancestor) :
    entry.nodeAuthorityHash = entry'.nodeAuthorityHash := by
  refine (identity_law hsha hplain a a' entry entry' h h').mpr ?_
  rw [hkey]
  refine LabelledDag.unfolding_congr (authorityTree_solves a.graph a.definitions)
    (authorityTree_solves a'.graph a'.definitions) (fun k hk => ?_) entry.nodeKey (a.mem_value entry h).1 fun m hm => ?_
  · show k ∈ a'.graph.toGraphStructureView.nodes.map GraphNode.nodeKey
    rw [hgraph]
    exact hk
  · have hbody := hbodies m ((ancestor_iff a.graph a.definitions m entry.nodeKey).mp hm)
    refine ⟨congrArg (Option.map NodeDefinition.toNodePreimage) hbody, ?_⟩
    show _ = incomingArcs a'.graph.toGraphStructureView a'.definitions m
    rw [hgraph]
    refine List.map_congr_left fun edge hedge => ?_
    obtain ⟨hin, hkind, rfl⟩ := mem_incomingEdges hedge
    rw [contract_of_body a.closes a'.closes edge hin hkind hbody]

/-- The hash of a node stands for its whole execution contract. -/
theorem node_authority_law (hsha : Function.Injective sha256) (hplain : ∀ bytes, wellFormed (sha256 bytes) = true) :
    NodeAuthorityLaw sha256 where
  read := by
    intro I B admitNode snapshotInput bodiesInput policyOverride set h
    obtain ⟨bodies, graph, definitions, rfl, hderived, -⟩ := (derive_ok_iff sha256 _ _).mp h
    exact ⟨bodies, graph, definitions, rfl, hderived.valid, (mapM_mapError _ _ _ _).mp hderived.admitted⟩
  identity a a' entry h entry' h' := identity_law hsha hplain a a' entry entry' h h'
  reordered := reordered_law
  changed a a' hgraph entry h entry' h' hkey ancestor hreach hdiffer :=
    changed_law hsha hplain a a' hgraph entry entry' h h' hkey ancestor hreach hdiffer
  unchanged a a' hgraph entry h entry' h' hkey hbodies :=
    unchanged_law hsha hplain a a' hgraph entry entry' h h' hkey hbodies
  nodes a := by
    have hvalue : a.set.value.map NodeAuthorityEntry.nodeKey = a.graph.nodes.map GraphNode.nodeKey := by
      rw [a.derived.2, authoritySet, authorityEntries, List.map_map]
      rfl
    exact ⟨hvalue, hvalue ▸ a.graph.validated.nodup⟩
  contracts := contracts_law
  noCycle := by
    intro I B admitNode snapshotInput bodiesInput policyOverride message h
    exact derive_fails sha256 admitNode snapshotInput bodiesInput policyOverride _ h rfl

/-! ### A producer and its consumer -/

def sampleGraph : GraphStructureView :=
  ⟨[⟨lit "a", true⟩, ⟨lit "b", true⟩], [⟨lit "e", lit "a", lit "b", .HARD⟩], lit "b"⟩

def sampleSnapshot : Value :=
  recordOf [("nodes", .array [recordOf [("executionBearing", .bool true), ("nodeKey", .string (lit "b"))],
      recordOf [("executionBearing", .bool true), ("nodeKey", .string (lit "a"))]]),
    ("edges", .array [recordOf [("edgeKey", .string (lit "e")), ("producerNodeKey", .string (lit "a")),
      ("consumerNodeKey", .string (lit "b")), ("kind", .string (lit "HARD"))]]),
    ("completionNodeKey", .string (lit "b"))]

def sampleBinding : JsString := lit "1b4aa55f62e483db8b131f19f3b3833193613c3de82c18eb8de6b4653a2dec68"

def sampleProducerHash : JsString := lit "2fe300ad190d61d404b712a8c7afae8d6b9a5732d5868672dde2e9eb146ad77b"

def sampleConsumerHash : JsString := lit "6b36fb0f2f05944118304ac1401ed1dcf7a59558da12ff7c5111e461ca8e1ee2"

def sampleContract : DependencyContract where
  producerNodeKey := lit "a"
  consumerNodeKey := lit "b"
  graphBindingDigest := sampleBinding
  producer := .SCOPE_SERIALIZATION (lit "scope:1") sampleBinding
  consumer := ⟨lit "criterion:1", sampleBinding⟩
  minimumQualifyingMilestone := .ACCEPTED
  satisfactionPredicate := ⟨lit "predicate:1", lit "schema:1", ⟨1, isSafeCount_one⟩, sampleBinding⟩
  stability := .MONOTONIC
  satisfactionWitnesses := [⟨lit "witness:1", ⟨1, isSafeCount_one⟩, sampleBinding, .SCOPE_OBSERVATION⟩]
  consumptionHorizon := .STEP_START
  necessity := ⟨lit "criterion:1", .SCOPE_CONFLICT, .OBSERVED⟩
  alternativeRuling := .NOT_APPLICABLE (lit "one scope")
  alternateProducers := []
  truthClass := .OBSERVED
  invalidationFacts := []
  recheckPredicateRef := lit "predicate:2"

def sampleBody (nodeKey : JsString) (joinRole : NodeJoinRole) (dependencies : List NodeDependencyEntry) : NodeDefinition where
  admissionAmounts := [⟨.EXECUTION, .attemptCount, ⟨1, isSafeCount_one⟩⟩]
  admissionGatePolicy := .HUMAN_APPROVAL
  capability := lit "code"
  completionLinkage := none
  constraints := []
  criterionBindings := []
  declaredMigrations := none
  joinRole := joinRole
  objective := lit "build " ++ nodeKey
  planExecutionContentDigest := sampleBinding
  policySliceHash := sampleBinding
  readScopes := [lit "src"]
  repositoryBaseTree := sampleBinding
  resources := []
  verificationRecipeRevisions := []
  writeScopes := [lit "src"]
  directHardDependencies := dependencies
  monotonicPredicateProofs := []
  nodeKey := nodeKey
  schemaVersion := .three

def sampleBodies : List NodeDefinition :=
  [sampleBody (lit "b") .COMPLETION [⟨sampleContract, lit "e"⟩], sampleBody (lit "a") .NONE []]

def sampleIdentityText : List Byte :=
  let identity := computeGraphIdentity sampleGraph.nodes sampleGraph.edges sampleGraph.completionNodeKey
  utf8 (lit "MOE-GRAPH-SNAPSHOT-IDENTITY/1\n" ++ decimal identity.length ++ lit ":" ++ identity)

def sampleText (nodeKey : JsString) : List Byte :=
  if nodeKey = lit "a" then utf8 (preimage (sampleBody (lit "a") .NONE []).toNodePreimage [])
  else utf8 (preimage (sampleBody (lit "b") .COMPLETION []).toNodePreimage
    [(arcTokens ((lit "e", some sampleContract), sampleProducerHash)).flatMap frame])

/-- The digests of the three texts below. -/
def sampleDigests : List (List Byte × JsString) :=
  [(sampleIdentityText, sampleBinding), (sampleText (lit "a"), sampleProducerHash),
    (sampleText (lit "b"), sampleConsumerHash)]

theorem digestTable_wellFormed (table : List (List Byte × JsString)) (h : ∀ e ∈ table, wellFormed e.2 = true)
    (bytes : List Byte) : wellFormed (digestTable table bytes) = true := by
  unfold digestTable
  split
  · rename_i e hfind
    exact h e (List.mem_of_find?_eq_some hfind)
  · refine wellFormed_plain _ fun c hc => isSurrogate_of_lt c ?_
    rcases List.mem_cons.mp hc with rfl | hc
    · decide
    · obtain ⟨b, -, rfl⟩ := List.mem_map.mp hc
      have hb := b.isLt
      show b.val < 0xD800
      omega

theorem node_authority_law_pair :
    (deriveNodeAuthoritySet (digestTable sampleDigests) (fun body => (.ok body : Except Unit NodeDefinition))
        sampleSnapshot (some sampleBodies) .undefined).toOption.map NodeAuthoritySet.value =
        some [⟨sampleProducerHash, lit "a"⟩, ⟨sampleConsumerHash, lit "b"⟩]
      ∧ NodeAuthorityLaw (digestTable sampleDigests) := by
  have hruns : (deriveNodeAuthoritySet (digestTable sampleDigests) (fun body => (.ok body : Except Unit NodeDefinition))
        sampleSnapshot (some sampleBodies) .undefined).toOption.map NodeAuthoritySet.value =
        some [⟨sampleProducerHash, lit "a"⟩, ⟨sampleConsumerHash, lit "b"⟩]
      ∧ (sampleDigests.map Prod.snd).Nodup ∧ (∀ e ∈ sampleDigests, e.2.head? ≠ some 0)
      ∧ ∀ e ∈ sampleDigests, wellFormed e.2 = true := by decide +kernel
  obtain ⟨hderived, hdistinct, hheads, hwell⟩ := hruns
  exact ⟨hderived, node_authority_law (digestTable_injective sampleDigests hdistinct hheads)
    (digestTable_wellFormed sampleDigests hwell)⟩

end MoeNG.NodeAuthority
