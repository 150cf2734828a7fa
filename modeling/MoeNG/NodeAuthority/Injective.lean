import MoeNG.NodeAuthority.Deriving

/-!
# The preimage of a node determines what it was built from
-/

namespace MoeNG.NodeAuthority
open MoeNG.Kernel MoeNG.Lib MoeNG.Graph
open MoeNG.Dependencies (DependencyContract)

/-! ### Texts -/

theorem points_inj (s t : JsString) (hs : wellFormed s = true) (ht : wellFormed t = true)
    (h : codePoints s = codePoints t) : s = t := by
  rw [← codePoints_units s hs, ← codePoints_units t ht, h]

theorem isKeyUnit_plain (c : CodeUnit) (h : isKeyUnit c = true) : isSurrogate c = false := by
  refine isSurrogate_of_lt c ?_
  simp [isKeyUnit, isWordUnit, Fin.le_def, Fin.ext_iff] at h
  omega

theorem graphKey_wellFormed (key : JsString) (h : isGraphKey key = true) : wellFormed key = true := by
  refine wellFormed_plain key fun c hc => isKeyUnit_plain c ?_
  cases key with
  | nil => cases hc
  | cons first rest =>
    simp only [isGraphKey, Bool.and_eq_true, List.all_eq_true] at h
    rcases List.mem_cons.mp hc with rfl | hc
    · simp [isKeyUnit, h.2.1]
    · exact h.2.2 c hc

theorem preimage_eq (fields : NodePreimage) (arcs : List (IncomingArc × JsString)) :
    preimage fields (arcs.map fun arc => (arcTokens arc).flatMap frame)
      = recursionDigestDomain ++ (canonicalText fields.value :: arcs.flatMap arcTokens).flatMap counted := by
  have hframe : frame = counted := rfl
  rw [preimage, List.flatMap_cons, hframe, List.flatMap_assoc, List.append_assoc]
  rfl

/-! ### Arcs -/

/-- What an incoming arc of an accepted graph carries. -/
structure PlainArc (arc : IncomingArc × JsString) : Prop where
  key : wellFormed arc.1.1 = true
  contract : ∃ contract, arc.1.2 = some contract
  hash : wellFormed arc.2 = true

theorem arcTokens_inj (a a' : IncomingArc × JsString) (ha : PlainArc a) (ha' : PlainArc a')
    (h : (arcTokens a).map codePoints = (arcTokens a').map codePoints) : a = a' := by
  obtain ⟨⟨key, _⟩, hash⟩ := a
  obtain ⟨⟨key', _⟩, hash'⟩ := a'
  obtain ⟨hkey, ⟨contract, rfl⟩, hhash⟩ := ha
  obtain ⟨hkey', ⟨contract', rfl⟩, hhash'⟩ := ha'
  simp only [arcTokens, List.map_cons, List.map_nil, List.cons.injEq, Option.map_some, Option.getD_some] at h
  obtain ⟨hkeys, -, -, hcontracts, hhashes, -⟩ := h
  have hsame : key = key' := points_inj _ _ hkey hkey' hkeys
  have hcontract : contract = contract' := DependencyContract.canonical.text_inj _ _ hcontracts
  have hproducer : hash = hash' := points_inj _ _ hhash hhash' hhashes
  rw [hsame, hcontract, hproducer]

theorem map_points_inj (l l' : List (IncomingArc × JsString)) (hl : ∀ a ∈ l, PlainArc a) (hl' : ∀ a ∈ l', PlainArc a)
    (h : l.map (fun a => (arcTokens a).map codePoints) = l'.map fun a => (arcTokens a).map codePoints) : l = l' := by
  induction l generalizing l' with
  | nil =>
    cases l' with
    | nil => rfl
    | cons b rest => cases h
  | cons a rest ih =>
    cases l' with
    | nil => cases h
    | cons b rest' =>
      obtain ⟨hhead, htail⟩ := List.cons.inj h
      obtain ⟨ha, hrest⟩ := List.forall_mem_cons.mp hl
      obtain ⟨hb, hrest'⟩ := List.forall_mem_cons.mp hl'
      rw [arcTokens_inj a b ha hb hhead, ih rest' hrest hrest' htail]

theorem encodeNode_inj {sha256 : List Byte → JsString} (hsha : Function.Injective sha256) (fields fields' : NodePreimage)
    (arcs arcs' : List (IncomingArc × JsString)) (harcs : ∀ a ∈ arcs, PlainArc a) (harcs' : ∀ a ∈ arcs', PlainArc a)
    (h : encodeNode sha256 (some fields) arcs = encodeNode sha256 (some fields') arcs') :
    fields = fields' ∧ arcs.Perm arcs' := by
  have hpoints := (utf8_eq_iff _ _).mp (hsha h)
  rw [preimage_eq, preimage_eq, codePoints_append _ _ (counted_flatMap_head _),
    codePoints_append _ _ (counted_flatMap_head _)] at hpoints
  have htexts := counted_points_inj _ _ (List.append_cancel_left hpoints)
  obtain ⟨hfields, htokens⟩ := List.cons.inj htexts
  rw [List.map_flatMap, List.map_flatMap] at htokens
  have hblocks := flatMap_blocks_inj (fun a => (arcTokens a).map codePoints) 5 (by decide) (fun _ => rfl) _ _ htokens
  have hsorted := map_points_inj _ _ (fun a ha => harcs a ((List.mem_insertionSort _).mp ha))
    (fun a ha => harcs' a ((List.mem_insertionSort _).mp ha)) hblocks
  exact ⟨NodePreimage.canonical.text_inj _ _ hfields,
    (List.perm_insertionSort arcBefore arcs).symm.trans (hsorted ▸ List.perm_insertionSort arcBefore arcs')⟩

/-! ### Two accepted graphs -/

variable {sha256 : List Byte → JsString}

def hashedArcs (sha256 : List Byte → JsString) (graph : AcceptedGraph) (definitions : List NodeDefinition)
    (nodeKey : JsString) : List (IncomingArc × JsString) :=
  (incomingArcs graph.toGraphStructureView definitions nodeKey).map fun p =>
    (p.1, authorityHash sha256 graph.toGraphStructureView definitions p.2)

variable {graph graph' : AcceptedGraph} {binding binding' : JsString} {definitions definitions' : List NodeDefinition}

theorem authorityHash_wellFormed (hplain : ∀ bytes, wellFormed (sha256 bytes) = true)
    (h : Closes graph binding definitions) (nodeKey : JsString) (hnode : nodeKey ∈ graph.nodes.map GraphNode.nodeKey) :
    wellFormed (authorityHash sha256 graph.toGraphStructureView definitions nodeKey) = true := by
  obtain ⟨definition, -, -, hfind⟩ := h.definition nodeKey hnode
  have hlabel : (authorityDag graph definitions).label nodeKey = some definition.toNodePreimage := by
    show (definitions.find? fun d => d.nodeKey = nodeKey).map _ = _
    rw [hfind, Option.map_some]
  rw [authorityHash_solves sha256 graph definitions nodeKey hnode, hlabel]
  exact hplain _

theorem hashedArcs_plain (hplain : ∀ bytes, wellFormed (sha256 bytes) = true) (h : Closes graph binding definitions)
    (nodeKey : JsString) : ∀ a ∈ hashedArcs sha256 graph definitions nodeKey, PlainArc a := by
  intro a ha
  obtain ⟨p, hp, rfl⟩ := List.mem_map.mp ha
  obtain ⟨edge, hedge, rfl⟩ := List.mem_map.mp hp
  obtain ⟨hin, hkind, -⟩ := mem_incomingEdges hedge
  obtain ⟨entry, -, -, hcontract, -⟩ := h.contract edge hin hkind
  exact ⟨graphKey_wellFormed _ (graph.accepted.edgeKeys edge hin), ⟨entry.contract, hcontract⟩,
    authorityHash_wellFormed hplain h _ (graph.accepted.acceptable.linked edge hin).1⟩

theorem hashedArcs_sorted (sha256 : List Byte → JsString) (graph : AcceptedGraph) (definitions : List NodeDefinition)
    (nodeKey : JsString) : (hashedArcs sha256 graph definitions nodeKey).Pairwise fun a b => a.1.1 < b.1.1 := by
  have hsorted := graph.accepted.edgesSorted
  rw [List.pairwise_map] at hsorted
  rw [hashedArcs, incomingArcs, List.map_map, List.pairwise_map]
  exact (hsorted.filter _).filter _

/-- Equal hashes were computed from equal fields and equal arcs. -/
theorem authorityHash_inj (hsha : Function.Injective sha256) (hplain : ∀ bytes, wellFormed (sha256 bytes) = true)
    (h : Closes graph binding definitions) (h' : Closes graph' binding' definitions') (nodeKey nodeKey' : JsString)
    (hnode : nodeKey ∈ graph.nodes.map GraphNode.nodeKey) (hnode' : nodeKey' ∈ graph'.nodes.map GraphNode.nodeKey)
    (heq : encodeNode sha256 (fieldsOf definitions nodeKey) (hashedArcs sha256 graph definitions nodeKey)
      = encodeNode sha256 (fieldsOf definitions' nodeKey') (hashedArcs sha256 graph' definitions' nodeKey')) :
    fieldsOf definitions nodeKey = fieldsOf definitions' nodeKey'
      ∧ hashedArcs sha256 graph definitions nodeKey = hashedArcs sha256 graph' definitions' nodeKey' := by
  obtain ⟨definition, -, -, hfind⟩ := h.definition nodeKey hnode
  obtain ⟨definition', -, -, hfind'⟩ := h'.definition nodeKey' hnode'
  rw [fieldsOf, fieldsOf, hfind, hfind', Option.map_some, Option.map_some] at heq ⊢
  obtain ⟨hfields, hperm⟩ := encodeNode_inj hsha _ _ _ _ (hashedArcs_plain hplain h nodeKey)
    (hashedArcs_plain hplain h' nodeKey') heq
  refine ⟨congrArg some hfields, ?_⟩
  exact List.Perm.eq_of_pairwise (fun a b _ _ hab hba => absurd (lt_trans hab hba) (lt_irrefl _))
    (hashedArcs_sorted sha256 graph definitions nodeKey) (hashedArcs_sorted sha256 graph' definitions' nodeKey') hperm

theorem authorityHash_eq_iff (hsha : Function.Injective sha256) (hplain : ∀ bytes, wellFormed (sha256 bytes) = true)
    (h : Closes graph binding definitions) (h' : Closes graph' binding' definitions') (nodeKey nodeKey' : JsString)
    (hnode : nodeKey ∈ graph.nodes.map GraphNode.nodeKey) (hnode' : nodeKey' ∈ graph'.nodes.map GraphNode.nodeKey) :
    authorityHash sha256 graph.toGraphStructureView definitions nodeKey
        = authorityHash sha256 graph'.toGraphStructureView definitions' nodeKey'
      ↔ authorityTree graph.toGraphStructureView definitions nodeKey
        = authorityTree graph'.toGraphStructureView definitions' nodeKey' :=
  LabelledDag.hash_eq_iff (authorityDag graph definitions) (authorityDag graph' definitions') (encodeNode sha256) _ _
    (authorityHash_solves sha256 graph definitions) (authorityHash_solves sha256 graph' definitions')
    (fun k k' hk hk' => authorityHash_inj hsha hplain h h' k k' hk hk') _ _ (authorityTree_solves graph definitions)
    (authorityTree_solves graph' definitions') nodeKey nodeKey' hnode hnode'

end MoeNG.NodeAuthority
