import MoeNG.NodeAuthority.Hashing

/-!
# What a derivation answers

The derivation accepts exactly the bodies that close the graph, and its answer
is a function of the graph and of the bodies as a set.
-/

namespace MoeNG.NodeAuthority
open MoeNG.Kernel MoeNG.Lib MoeNG.Graph

variable {I B : Type} {graph : AcceptedGraph} {binding : JsString} {definitions : List NodeDefinition}
  (sha256 : List Byte → JsString)

/-! ### The hashing loop -/

def keyAt (graph : AcceptedGraph) (position : ℕ) : JsString := (graph.nodes.map GraphNode.nodeKey).getD position []

def hashEntry (graph : AcceptedGraph) (definitions : List NodeDefinition) (nodeKey : JsString) : JsString × JsString :=
  (nodeKey, authorityHash sha256 graph.toGraphStructureView definitions nodeKey)

theorem keyAt_mem (graph : AcceptedGraph) (position : ℕ) (h : position < graph.nodes.length) :
    keyAt graph position ∈ graph.nodes.map GraphNode.nodeKey := by
  have hlt : position < (graph.nodes.map GraphNode.nodeKey).length := by rwa [List.length_map]
  rw [keyAt, List.getD, List.getElem?_eq_getElem hlt]
  exact List.getElem_mem hlt

theorem place_keyAt (graph : AcceptedGraph) (position : ℕ) (h : position < graph.nodes.length) :
    graph.place (keyAt graph position) = position := by
  have hlt : position < (graph.nodes.map GraphNode.nodeKey).length := by rwa [List.length_map]
  rw [keyAt, List.getD, List.getElem?_eq_getElem hlt]
  exact graph.validated.nodup.idxOf_getElem position hlt

theorem keyAt_place (graph : AcceptedGraph) (nodeKey : JsString) (h : nodeKey ∈ graph.nodes.map GraphNode.nodeKey) :
    keyAt graph (graph.place nodeKey) = nodeKey := getD_place _ nodeKey h

/-- The rest of the loop, from the hashes of what is already done. -/
theorem hashNodes_rest (h : Closes graph binding definitions) (byKey : BodyMap) (filed : OrdMap JsString ContractView)
    (hbyKey : byKey.entries = definitions.map fun definition => (definition.nodeKey, definition))
    (hfiled : filed.entries = (statedBy definitions).map fun s => (s.2.edgeKey, viewOf s.2)) (done todo : List ℕ)
    (horder : (topologicalOrder (buildHardGraphIndex graph.toGraphStructureView)).order = done ++ todo)
    (hashes : OrdMap JsString JsString)
    (hdone : hashes.entries = done.map fun i => hashEntry sha256 graph definitions (keyAt graph i)) :
    ∃ hashes', todo.foldlM (hashNode sha256 graph (buildHardGraphIndex graph.toGraphStructureView) byKey filed) hashes
        = some hashes'
      ∧ hashes'.entries = (done ++ todo).map fun i => hashEntry sha256 graph definitions (keyAt graph i) := by
  induction todo generalizing done hashes with
  | nil => exact ⟨hashes, rfl, by rw [List.append_nil, hdone]⟩
  | cons v rest ih =>
    have hcoherent := index_coherent graph
    have hmem : ∀ i ∈ done ++ v :: rest, i < graph.nodes.length := fun i hi => by
      rw [← buildHardGraphIndex_size]
      exact (mem_topologicalOrder hcoherent graph.accepted.acyclic i).mp (horder ▸ hi)
    have hv : v < graph.nodes.length := hmem v (List.mem_append_right _ (List.mem_cons_self ..))
    have hnode := keyAt_mem graph v hv
    have hproducers : ∀ edge ∈ incomingEdges graph.toGraphStructureView (keyAt graph v),
        hashes.get edge.producerNodeKey
          = some (authorityHash sha256 graph.toGraphStructureView definitions edge.producerNodeKey) := by
      intro edge hedge
      obtain ⟨hin, hkind, hconsumer⟩ := mem_incomingEdges hedge
      have hproducer := (graph.accepted.acceptable.linked edge hin).1
      have hplace := (place_lt graph.toGraphStructureView _).mpr hproducer
      have harc : v ∈ (buildHardGraphIndex graph.toGraphStructureView).heads (graph.place edge.producerNodeKey) := by
        refine (heads_perm graph.toGraphStructureView _ hplace).mem_iff.mpr (List.mem_map.mpr ⟨edge, ?_, ?_⟩)
        · exact List.mem_filter.mpr ⟨List.mem_filter.mpr ⟨hin, decide_eq_true hkind⟩, decide_eq_true rfl⟩
        · rw [hconsumer, place_keyAt graph v hv]
      have hfront := (topologicalOrder_stage hcoherent).closed done v rest horder _ (List.mem_range.mpr hplace) harc
      refine OrdMap.get_of_mem_entries hashes _ _ ?_
      rw [hdone]
      refine List.mem_map.mpr ⟨_, hfront, ?_⟩
      rw [keyAt_place graph _ hproducer]
      rfl
    have hstep := hashNode_eq sha256 h byKey filed hashes hbyKey hfiled (keyAt graph v) hnode hproducers
    rw [place_keyAt graph v hv] at hstep
    have hfresh : keyAt graph v ∉ hashes.entries.map Prod.fst := by
      rw [hdone, List.map_map]
      intro hm
      obtain ⟨i, hi, hkey⟩ := List.mem_map.mp hm
      have hsame : i = v := by
        rw [← place_keyAt graph i (hmem i (List.mem_append_left _ hi)), ← place_keyAt graph v hv]
        exact congrArg _ hkey
      have hnodup := topologicalOrder_nodup hcoherent
      rw [horder] at hnodup
      exact (List.disjoint_of_nodup_append hnodup) (hsame ▸ hi) (List.mem_cons_self ..)
    obtain ⟨hashes', hrun, hentries⟩ := ih (done ++ [v]) (by rw [horder]; simp)
      (hashes.set (keyAt graph v) (authorityHash sha256 graph.toGraphStructureView definitions (keyAt graph v))) (by
        show OrdMap.put _ _ _ = _
        rw [put_fresh _ _ _ hfresh, hdone, List.map_append]
        rfl)
    refine ⟨hashes', ?_, by rw [hentries]; simp⟩
    rw [List.foldlM_cons, hstep]
    exact hrun

/-- The entries of an accepted set: every node of the graph with its hash. -/
def authorityEntries (graph : AcceptedGraph) (definitions : List NodeDefinition) : List NodeAuthorityEntry :=
  graph.nodes.map fun node =>
    ⟨authorityHash sha256 graph.toGraphStructureView definitions node.nodeKey, node.nodeKey⟩

theorem sort_of_perm_sorted {A : Type} (key : A → JsString) (l l' : List A) (hperm : l'.Perm l)
    (hl : (l.map key).Pairwise (· < ·)) : (l'.insertionSort fun a b => key a ≤ key b) = l := by
  have hnodup' : (l'.map key).Nodup := (hperm.map key).nodup_iff.mpr (hl.imp fun h => ne_of_lt h)
  have hsorted := sorted_keys key l' hnodup'
  rw [List.pairwise_map] at hsorted hl
  exact List.Perm.eq_of_pairwise (fun a b _ _ hab hba => absurd (lt_trans hab hba) (lt_irrefl _)) hsorted hl
    ((List.perm_insertionSort _ l').trans hperm)

theorem order_perm (graph : AcceptedGraph) :
    ((topologicalOrder (buildHardGraphIndex graph.toGraphStructureView)).order.map (keyAt graph)).Perm
      (graph.nodes.map GraphNode.nodeKey) := by
  have hcoherent := index_coherent graph
  have hperm : (topologicalOrder (buildHardGraphIndex graph.toGraphStructureView)).order.Perm
      (List.range graph.nodes.length) := by
    refine (List.perm_ext_iff_of_nodup (topologicalOrder_nodup hcoherent) List.nodup_range).mpr fun i => ?_
    rw [mem_topologicalOrder hcoherent graph.accepted.acyclic, List.mem_range, buildHardGraphIndex_size]
  refine (hperm.map (keyAt graph)).trans (List.Perm.of_eq ?_)
  refine List.ext_getElem (by simp) fun i hi hi' => ?_
  have hlt : i < graph.nodes.length := by simpa using hi
  simp [keyAt, List.getD, hlt]

theorem hashNodes_eq (h : Closes graph binding definitions) (byKey : BodyMap) (filed : OrdMap JsString ContractView)
    (hbyKey : byKey.entries = definitions.map fun definition => (definition.nodeKey, definition))
    (hfiled : filed.entries = (statedBy definitions).map fun s => (s.2.edgeKey, viewOf s.2)) :
    ∃ hashes, hashNodes sha256 graph (buildHardGraphIndex graph.toGraphStructureView) byKey filed = some hashes
      ∧ entriesOf hashes = authorityEntries sha256 graph definitions := by
  obtain ⟨hashes, hrun, hentries⟩ := hashNodes_rest sha256 h byKey filed hbyKey hfiled [] _ rfl OrdMap.empty rfl
  refine ⟨hashes, hrun, ?_⟩
  rw [entriesOf, hentries, List.nil_append]
  refine sort_of_perm_sorted NodeAuthorityEntry.nodeKey _ _ ?_ ?_
  · have hperm := (order_perm graph).map fun nodeKey =>
      (⟨authorityHash sha256 graph.toGraphStructureView definitions nodeKey, nodeKey⟩ : NodeAuthorityEntry)
    rw [List.map_map, List.map_map] at hperm
    rw [List.map_map]
    exact hperm
  · rw [authorityEntries, List.map_map]
    exact graph.accepted.nodesSorted

/-! ### The answer -/

/-- The bodies in the order of the nodes. -/
def bodiesInOrder (graph : AcceptedGraph) (definitions : List NodeDefinition) : List NodeDefinition :=
  graph.nodes.filterMap fun node => definitions.find? fun d => d.nodeKey = node.nodeKey

def authoritySet (graph : AcceptedGraph) (definitions : List NodeDefinition) : NodeAuthoritySet where
  definitions := bodiesInOrder graph definitions
  hardEdgeCount := graph.hardEdges.length
  value := authorityEntries sha256 graph definitions

theorem bodies_get (byKey : BodyMap)
    (hbyKey : byKey.entries = definitions.map fun definition => (definition.nodeKey, definition)) (nodeKey : JsString) :
    byKey.get nodeKey = definitions.find? fun d => d.nodeKey = nodeKey := by
  rw [OrdMap.get, hbyKey, List.find?_map, Option.map_map]
  exact Option.map_id'

theorem bodies_mapM (h : Closes graph binding definitions) (byKey : BodyMap)
    (hbyKey : byKey.entries = definitions.map fun definition => (definition.nodeKey, definition)) :
    (authorityEntries sha256 graph definitions).mapM (fun entry => byKey.get entry.nodeKey)
      = some (bodiesInOrder graph definitions) := by
  rw [authorityEntries, List.mapM_map, mapM_eq_some_iff]
  refine ⟨fun node hnode => ?_, List.filterMap_congr fun node _ => bodies_get byKey hbyKey node.nodeKey⟩
  obtain ⟨definition, -, -, hfind⟩ := h.definition node.nodeKey (List.mem_map_of_mem hnode)
  rw [Function.comp_apply, bodies_get byKey hbyKey, hfind]
  rfl

/-- What the derivation has read when it answers. -/
structure Derived (admitNode : B → Except I NodeDefinition) (snapshotInput : Value) (bodies : List B)
    (policyOverride : Value) (graph : AcceptedGraph) (definitions : List NodeDefinition) : Prop where
  valid : validateGraphSnapshot snapshotInput policyOverride = .ok graph
  admitted : bodies.mapM (fun body => (admitNode body).mapError RecursionFailure.admission) = .ok definitions
  closes : Closes graph (snapshotIdentityHash sha256 graph) definitions

variable {admitNode : B → Except I NodeDefinition} {snapshotInput policyOverride : Value}

theorem except_mapError_ok {E E' A : Type} (x : Except E A) (f : E → E') (a : A) (h : x.mapError f = .ok a) :
    x = .ok a := by
  cases x with
  | error e => cases h
  | ok b =>
    obtain rfl : b = a := Except.ok.inj h
    rfl

theorem closes_of_loops {byKey : BodyMap} {filed : OrdMap JsString ContractView}
    (hbodies : indexBodies (I := I) graph definitions = .ok byKey)
    (hfiled : closeContracts (I := I) graph byKey binding = .ok filed) (hagree : agree (I := I) graph byKey = .ok ()) :
    Closes graph binding definitions
      ∧ byKey.entries = definitions.map (fun definition => (definition.nodeKey, definition))
      ∧ filed.entries = (statedBy definitions).map fun s => (s.2.edgeKey, viewOf s.2) := by
  obtain ⟨hperm, hentries⟩ := (indexBodies_ok_iff graph definitions byKey).mp hbodies
  obtain ⟨hclose, hfiledEntries⟩ := (closeContracts_ok_iff graph byKey _ filed).mp hfiled
  have hsame := (agree_ok_iff graph byKey).mp hagree
  rw [statedContracts_eq byKey hentries] at hclose hfiledEntries
  rw [hentries, List.map_map, show Prod.snd ∘ (fun d : NodeDefinition => (d.nodeKey, d)) = id from rfl, List.map_id]
    at hsame
  exact ⟨⟨hperm, hclose, hsame⟩, hentries, hfiledEntries⟩

theorem loops_of_closes (h : Closes graph binding definitions) :
    ∃ byKey filed, indexBodies (I := I) graph definitions = .ok byKey
      ∧ closeContracts (I := I) graph byKey binding = .ok filed ∧ agree (I := I) graph byKey = .ok ()
      ∧ byKey.entries = definitions.map (fun definition => (definition.nodeKey, definition))
      ∧ filed.entries = (statedBy definitions).map fun s => (s.2.edgeKey, viewOf s.2) := by
  have hnodup := h.distinct
  let byKey : BodyMap := ⟨definitions.map fun definition => (definition.nodeKey, definition), by
    rw [List.map_map]
    exact hnodup⟩
  let filed : OrdMap JsString ContractView := ⟨(statedBy definitions).map fun s => (s.2.edgeKey, viewOf s.2), by
    rw [List.map_map]
    exact h.contracts.once⟩
  have hstated : statedContracts byKey = statedBy definitions := statedContracts_eq byKey rfl
  refine ⟨byKey, filed, (indexBodies_ok_iff graph definitions byKey).mpr ⟨h.bodies, rfl⟩,
    (closeContracts_ok_iff graph byKey binding filed).mpr ?_, (agree_ok_iff graph byKey).mpr ?_, rfl, rfl⟩
  · rw [hstated]
    exact ⟨h.contracts, rfl⟩
  · have hbodies : byKey.entries.map Prod.snd = definitions := by
      show (definitions.map fun definition => (definition.nodeKey, definition)).map Prod.snd = definitions
      rw [List.map_map]
      exact List.map_id' definitions
    rw [hbodies]
    exact h.agree

theorem derive_tail (hclosed : Closes graph binding definitions) (byKey : BodyMap) (filed : OrdMap JsString ContractView)
    (hbyKey : byKey.entries = definitions.map fun definition => (definition.nodeKey, definition))
    (hfiled : filed.entries = (statedBy definitions).map fun s => (s.2.edgeKey, viewOf s.2)) :
    (if (topologicalOrder (buildHardGraphIndex graph.toGraphStructureView)).acyclic then do
        let hashes ← orTypeError (hashNodes sha256 graph (buildHardGraphIndex graph.toGraphStructureView) byKey filed)
        let value := entriesOf hashes
        let definitions ← orTypeError (value.mapM fun entry => byKey.get entry.nodeKey)
        .ok { definitions, hardEdgeCount := (buildHardGraphIndex graph.toGraphStructureView).hardEdgeCount, value }
      else refuse (I := I) .CYCLE (lit "the HARD subgraph is cyclic")) = .ok (authoritySet sha256 graph definitions) := by
  obtain ⟨hashes, hrun, hentries⟩ := hashNodes_eq sha256 hclosed byKey filed hbyKey hfiled
  rw [if_pos graph.accepted.acyclic, hrun]
  show (orTypeError ((entriesOf hashes).mapM fun entry => byKey.get entry.nodeKey) >>= _) = _
  rw [hentries, bodies_mapM sha256 hclosed byKey hbyKey]
  rfl

theorem derive_ok_iff (bodiesInput : Option (List B)) (set : NodeAuthoritySet) :
    deriveNodeAuthoritySet sha256 admitNode snapshotInput bodiesInput policyOverride = .ok set ↔
      ∃ bodies graph definitions, bodiesInput = some bodies
        ∧ Derived sha256 admitNode snapshotInput bodies policyOverride graph definitions
        ∧ set = authoritySet sha256 graph definitions := by
  unfold deriveNodeAuthoritySet
  constructor
  · intro h
    obtain ⟨graph, hgraph, h⟩ := except_bind_ok _ _ _ h
    obtain ⟨definitions, hdefinitions, h⟩ := except_bind_ok _ _ _ h
    obtain ⟨byKey, hbodies, h⟩ := except_bind_ok _ _ _ h
    obtain ⟨filed, hfiled, h⟩ := except_bind_ok _ _ _ h
    obtain ⟨_, hagree, h⟩ := except_bind_ok _ _ _ h
    obtain ⟨hclosed, hbyKey, hentries⟩ := closes_of_loops hbodies hfiled hagree
    have hset := Except.ok.inj (h.symm.trans (derive_tail sha256 hclosed byKey filed hbyKey hentries))
    cases bodiesInput with
    | none => cases hdefinitions
    | some bodies =>
      exact ⟨bodies, graph, definitions, rfl, ⟨except_mapError_ok _ _ _ hgraph, hdefinitions, hclosed⟩, hset⟩
  · rintro ⟨bodies, graph, definitions, rfl, hderived, rfl⟩
    obtain ⟨byKey, filed, hbodies, hfiled, hagree, hbyKey, hentries⟩ := loops_of_closes (I := I) hderived.closes
    have hadmitted : admitBodies admitNode (some bodies) = .ok definitions := hderived.admitted
    rw [hderived.valid, hadmitted]
    show (indexBodies graph definitions >>= _) = _
    rw [hbodies]
    show (closeContracts graph byKey _ >>= _) = _
    rw [hfiled]
    show (agree graph byKey >>= _) = _
    rw [hagree]
    exact derive_tail sha256 hderived.closes byKey filed hbyKey hentries

/-! ### The refusals that can be reached -/

/-- Any failure but a cycle and a failed lookup. -/
def Reachable : RecursionFailure I → Prop
  | .refused code _ => code ≠ .CYCLE
  | .graphSnapshot _ => True
  | .admission _ => True
  | .typeError => False

def FailsWell {A : Type} (x : Except (RecursionFailure I) A) : Prop := ∀ e, x = .error e → Reachable e

theorem FailsWell.ok {A : Type} (a : A) : FailsWell (.ok a : Except (RecursionFailure I) A) := fun _ h => by cases h

theorem FailsWell.refuse {A : Type} (code : NodeAuthorityRecursionCode) (message : JsString) (h : code ≠ .CYCLE) :
    FailsWell (NodeAuthority.refuse code message : Except (RecursionFailure I) A) := fun _ he => by
  cases he
  exact h

theorem FailsWell.bind {A A' : Type} {x : Except (RecursionFailure I) A} {f : A → Except (RecursionFailure I) A'}
    (hx : FailsWell x) (hf : ∀ a, x = .ok a → FailsWell (f a)) : FailsWell (x >>= f) := by
  intro e he
  cases x with
  | error e' =>
    obtain rfl := Except.error.inj he
    exact hx e' rfl
  | ok a => exact hf a rfl e he

theorem FailsWell.ite {A : Type} {c : Prop} [Decidable c] {x y : Except (RecursionFailure I) A} (hx : FailsWell x)
    (hy : FailsWell y) : FailsWell (if c then x else y) := by
  split
  · exact hx
  · exact hy

theorem FailsWell.foldlM {S C : Type} {step : S → C → Except (RecursionFailure I) S} (h : ∀ s c, FailsWell (step s c))
    (s : S) (l : List C) : FailsWell (l.foldlM step s) := by
  induction l generalizing s with
  | nil => exact FailsWell.ok s
  | cons c rest ih =>
    rw [List.foldlM_cons]
    exact (h s c).bind fun s' _ => ih s'

theorem admitBodies_fails (admitNode : B → Except I NodeDefinition) (bodiesInput : Option (List B)) :
    FailsWell (admitBodies admitNode bodiesInput) := by
  cases bodiesInput with
  | none => exact FailsWell.refuse _ _ (by decide)
  | some bodies =>
    show FailsWell (bodies.mapM _)
    induction bodies with
    | nil => exact FailsWell.ok _
    | cons body rest ih =>
      rw [List.mapM_cons]
      refine FailsWell.bind (fun e he => ?_) fun _ _ => ih.bind fun _ _ => FailsWell.ok _
      cases hbody : admitNode body with
      | error issues =>
        rw [hbody] at he
        cases he
        trivial
      | ok definition =>
        rw [hbody] at he
        cases he

theorem indexBodies_fails (graph : AcceptedGraph) (definitions : List NodeDefinition) :
    FailsWell (indexBodies (I := I) graph definitions) := by
  refine FailsWell.bind (FailsWell.foldlM (fun byKey d => ?_) _ _) fun byKey _ => ?_
  · exact FailsWell.ite (FailsWell.refuse _ _ (by decide))
      (FailsWell.ite (FailsWell.refuse _ _ (by decide)) (FailsWell.ok _))
  · split
    · exact FailsWell.ok _
    · exact FailsWell.refuse _ _ (by decide)

theorem closeContracts_fails (graph : AcceptedGraph) (byKey : BodyMap) (binding : JsString) :
    FailsWell (closeContracts (I := I) graph byKey binding) := by
  refine FailsWell.bind (FailsWell.foldlM (fun state stated => ?_) _ _) fun state _ => ?_
  · obtain ⟨nodeKey, entry⟩ := stated
    unfold fileContract
    dsimp only
    split
    · exact FailsWell.refuse _ _ (by decide)
    · refine FailsWell.ite (FailsWell.refuse _ _ (by decide)) (FailsWell.ite (FailsWell.refuse _ _ (by decide))
        (FailsWell.ite (FailsWell.refuse _ _ (by decide)) (FailsWell.ite (FailsWell.refuse _ _ (by decide)) ?_)))
      refine FailsWell.bind (FailsWell.foldlM (fun seals witness => ?_) _ _) fun _ _ => FailsWell.ok _
      exact FailsWell.ite (FailsWell.refuse _ _ (by decide)) (FailsWell.ok _)
  · split
    · exact FailsWell.ok _
    · exact FailsWell.refuse _ _ (by decide)

theorem agree_fails (graph : AcceptedGraph) (byKey : BodyMap) : FailsWell (agree (I := I) graph byKey) := by
  refine FailsWell.bind (FailsWell.foldlM (fun base d => ?_) _ _) fun _ _ => FailsWell.ok _
  exact FailsWell.ite (FailsWell.refuse _ _ (by decide))
    (FailsWell.ite (FailsWell.refuse _ _ (by decide)) (FailsWell.ok _))

/-- Neither the cycle nor a failed lookup is ever answered. -/
theorem derive_fails (admitNode : B → Except I NodeDefinition) (snapshotInput : Value) (bodiesInput : Option (List B))
    (policyOverride : Value) :
    FailsWell (deriveNodeAuthoritySet sha256 admitNode snapshotInput bodiesInput policyOverride) := by
  unfold deriveNodeAuthoritySet
  refine FailsWell.bind (fun e he => ?_) fun graph _ => ?_
  · cases hgraph : validateGraphSnapshot snapshotInput policyOverride with
    | error issues =>
      rw [hgraph] at he
      cases he
      trivial
    | ok graph =>
      rw [hgraph] at he
      cases he
  refine (admitBodies_fails admitNode bodiesInput).bind fun definitions _ => ?_
  refine (indexBodies_fails graph definitions).bind fun byKey hbodies => ?_
  refine (closeContracts_fails graph byKey _).bind fun filed hfiled => ?_
  refine (agree_fails graph byKey).bind fun _ hagree => ?_
  obtain ⟨hclosed, hbyKey, hentries⟩ := closes_of_loops hbodies hfiled hagree
  have htail := derive_tail (I := I) sha256 hclosed byKey filed hbyKey hentries
  intro e he
  cases htail.symm.trans he

end MoeNG.NodeAuthority
