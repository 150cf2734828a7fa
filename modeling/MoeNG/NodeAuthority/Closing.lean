import MoeNG.Lib.MapWrites
import MoeNG.NodeAuthority.Recursion

/-!
# When a set of bodies closes a graph

Each loop of the derivation succeeds exactly when the bodies meet a condition
that does not depend on their order.
-/

namespace MoeNG.NodeAuthority
open MoeNG.Kernel MoeNG.Lib MoeNG.Graph

variable {I : Type}

theorem ok_iff {A : Type} (x y : A) : (Except.ok x : Except (RecursionFailure I) A) = .ok y ↔ y = x :=
  ⟨fun h => (Except.ok.inj h).symm, fun h => congrArg Except.ok h.symm⟩

/-! ### One body per node -/

variable (graph : AcceptedGraph)

theorem indexBody_ok_iff (byKey : BodyMap) (definition : NodeDefinition) (byKey' : BodyMap) :
    indexBody (I := I) graph byKey definition = .ok byKey' ↔
      (byKey.get definition.nodeKey = none ∧ definition.nodeKey ∈ graph.nodes.map GraphNode.nodeKey)
        ∧ byKey' = writeItem NodeDefinition.nodeKey id byKey definition := by
  unfold indexBody refuse
  dsimp only
  rw [ite_error_ok_iff, ite_error_ok_iff, ok_iff, not_not, OrdMap.has, Bool.not_eq_true, Option.isSome_eq_false_iff,
    Option.isNone_iff_eq_none, and_assoc]
  rfl

/-- Every node has exactly one body, and no body is of another node. -/
theorem indexBodies_ok_iff (definitions : List NodeDefinition) (byKey : BodyMap) :
    indexBodies (I := I) graph definitions = .ok byKey ↔
      (definitions.map NodeDefinition.nodeKey).Perm (graph.nodes.map GraphNode.nodeKey)
        ∧ byKey.entries = definitions.map fun definition => (definition.nodeKey, definition) := by
  have hfold (byKey : BodyMap) : definitions.foldlM (indexBody (I := I) graph) OrdMap.empty = .ok byKey ↔
      ((definitions.map NodeDefinition.nodeKey).Nodup ∧ ∀ d ∈ definitions, d.nodeKey ∈ graph.nodes.map GraphNode.nodeKey)
        ∧ byKey = run (writeItem NodeDefinition.nodeKey id) OrdMap.empty definitions := by
    rw [foldlM_ok_iff _ _ _ (indexBody_ok_iff graph), Along.and_iff, fresh_writes]
    rfl
  have hentries (hnodup : (definitions.map NodeDefinition.nodeKey).Nodup) :
      (run (writeItem NodeDefinition.nodeKey id) OrdMap.empty definitions).entries
        = definitions.map fun definition => (definition.nodeKey, definition) :=
    run_fresh_writes NodeDefinition.nodeKey id OrdMap.empty definitions hnodup
  have hkeys (byKey : BodyMap) (h : byKey.entries = definitions.map fun definition => (definition.nodeKey, definition)) :
      byKey.keys = definitions.map NodeDefinition.nodeKey := by
    rw [OrdMap.keys, h, List.map_map]
    rfl
  have hfind (byKey : BodyMap) : (graph.nodes.find? fun node => !byKey.has node.nodeKey) = none ↔
      ∀ key ∈ graph.nodes.map GraphNode.nodeKey, key ∈ byKey.keys := by
    rw [List.find?_eq_none, List.forall_mem_map]
    refine forall_congr' fun node => imp_congr_right fun _ => ?_
    rw [OrdMap.has, ← not_iff_not, ← OrdMap.get_eq_none_iff]
    cases byKey.get node.nodeKey <;> simp
  have hnodup := graph.validated.nodup
  unfold indexBodies
  constructor
  · intro h
    obtain ⟨byKey', hfolded, h⟩ := except_bind_ok _ _ _ h
    obtain ⟨⟨hdistinct, hin⟩, rfl⟩ := (hfold byKey').mp hfolded
    split at h
    · rename_i hnone
      obtain rfl := Except.ok.inj h
      refine ⟨(List.perm_ext_iff_of_nodup hdistinct hnodup).mpr fun key => ⟨fun hk => ?_, fun hk => ?_⟩, hentries hdistinct⟩
      · obtain ⟨d, hd, rfl⟩ := List.mem_map.mp hk
        exact hin d hd
      · rw [← hkeys _ (hentries hdistinct)]
        exact (hfind _).mp hnone key hk
    · cases h
  · rintro ⟨hperm, hshape⟩
    have hdistinct := hperm.nodup_iff.mpr hnodup
    have hsame : byKey = run (writeItem NodeDefinition.nodeKey id) OrdMap.empty definitions :=
      OrdMap.ext (hshape.trans (hentries hdistinct).symm)
    rw [(hfold byKey).mpr ⟨⟨hdistinct, fun d hd => hperm.mem_iff.mp (List.mem_map_of_mem hd)⟩, hsame⟩]
    dsimp only [bind, Except.bind]
    rw [(hfind byKey).mpr fun key hk => by rw [hkeys byKey hshape]; exact hperm.mem_iff.mpr hk]

/-! ### One contract per HARD edge -/

theorem sealWitness_ok_iff (seals : OrdMap JsString JsString) (witness : JsString × JsString)
    (seals' : OrdMap JsString JsString) : sealWitness (I := I) seals witness = .ok seals' ↔
      (seals.get witness.1).getD witness.2 = witness.2 ∧ seals' = writeItem Prod.fst Prod.snd seals witness := by
  unfold sealWitness refuse
  rw [ite_error_ok_iff, ok_iff, not_not]
  rfl

/-- A contract stands on the consumer of a HARD edge, names its endpoints and is bound to the graph. -/
def Filed (graph : AcceptedGraph) (binding : JsString) (stated : JsString × NodeDependencyEntry) : Prop :=
  ∃ edge, edgeOf graph stated.2.edgeKey = some edge ∧ edge.kind = .HARD ∧ edge.consumerNodeKey = stated.1
    ∧ stated.2.contract.consumerNodeKey = stated.1 ∧ stated.2.contract.producerNodeKey = edge.producerNodeKey
    ∧ stated.2.contract.graphBindingDigest = binding

def fileNext (state : Closing) (stated : JsString × NodeDependencyEntry) : Closing where
  filed := writeItem (fun s => s.2.edgeKey) (fun s => viewOf s.2) state.filed stated
  seals := run (writeItem Prod.fst Prod.snd) state.seals (viewOf stated.2).witnesses

def SealsAgree (seals : OrdMap JsString JsString) (witnesses : List (JsString × JsString)) : Prop :=
  Along (writeItem Prod.fst Prod.snd) (fun seals witness => (seals.get witness.1).getD witness.2 = witness.2) seals witnesses

theorem fileContract_ok_iff (binding : JsString) (state : Closing)
    (stated : JsString × NodeDependencyEntry) (state' : Closing) :
    fileContract (I := I) graph binding state stated = .ok state' ↔
      (state.filed.get stated.2.edgeKey = none ∧ SealsAgree state.seals (viewOf stated.2).witnesses
        ∧ Filed graph binding stated) ∧ state' = fileNext state stated := by
  obtain ⟨nodeKey, entry⟩ := stated
  unfold fileContract Filed
  dsimp only
  cases hedge : edgeOf graph entry.edgeKey with
  | none => simp [refuse]
  | some edge =>
    have hseals (seals' : OrdMap JsString JsString) :
        (viewOf entry).witnesses.foldlM (sealWitness (I := I)) state.seals = .ok seals' ↔
          SealsAgree state.seals (viewOf entry).witnesses
            ∧ seals' = run (writeItem Prod.fst Prod.snd) state.seals (viewOf entry).witnesses :=
      foldlM_ok_iff _ _ _ sealWitness_ok_iff _ _ _
    have hview : (viewOf entry).consumerNodeKey = entry.contract.consumerNodeKey
        ∧ (viewOf entry).producerNodeKey = entry.contract.producerNodeKey
        ∧ (viewOf entry).graphBindingDigest = entry.contract.graphBindingDigest := ⟨rfl, rfl, rfl⟩
    have hbind : ((viewOf entry).witnesses.foldlM (sealWitness (I := I)) state.seals >>= fun seals =>
        (Except.ok { filed := state.filed.set entry.edgeKey (viewOf entry), seals } : Except (RecursionFailure I) Closing))
          = .ok state' ↔ SealsAgree state.seals (viewOf entry).witnesses ∧ state' = fileNext state (nodeKey, entry) := by
      constructor
      · intro h
        obtain ⟨seals', hfold, h⟩ := except_bind_ok _ _ _ h
        obtain ⟨hagree, rfl⟩ := (hseals seals').mp hfold
        exact ⟨hagree, (Except.ok.inj h).symm⟩
      · rintro ⟨hagree, rfl⟩
        rw [(hseals _).mpr ⟨hagree, rfl⟩]
        rfl
    unfold refuse
    rw [ite_error_ok_iff, ite_error_ok_iff, ite_error_ok_iff, ite_error_ok_iff, hbind, OrdMap.has, Bool.not_eq_true,
      Option.isSome_eq_false_iff, Option.isNone_iff_eq_none, hview.1, hview.2.1, hview.2.2]
    simp only [Bool.or_eq_true, decide_eq_true_eq, not_or, not_not, Option.some.injEq, exists_eq_left']
    constructor
    · rintro ⟨hkind, hfresh, ⟨⟨hconsumer, hedgeConsumer⟩, hproducer⟩, hbinding, hagree, hnext⟩
      exact ⟨⟨hfresh, hagree, hkind, hedgeConsumer.symm.trans hconsumer, hconsumer, hproducer, hbinding⟩, hnext⟩
    · rintro ⟨⟨hfresh, hagree, hkind, hedgeConsumer, hconsumer, hproducer, hbinding⟩, hnext⟩
      exact ⟨hkind, hfresh, ⟨⟨hconsumer, hconsumer.trans hedgeConsumer.symm⟩, hproducer⟩, hbinding, hagree, hnext⟩

theorem along_files (binding : JsString) (state : Closing) (stated : List (JsString × NodeDependencyEntry)) :
    Along fileNext (fun state stated => state.filed.get stated.2.edgeKey = none
        ∧ SealsAgree state.seals (viewOf stated.2).witnesses ∧ Filed graph binding stated) state stated ↔
      (state.filed.keys ++ stated.map fun s => s.2.edgeKey).Nodup
        ∧ SealsAgree state.seals (stated.flatMap fun s => (viewOf s.2).witnesses)
        ∧ ∀ s ∈ stated, Filed graph binding s := by
  have hfresh (filed : OrdMap JsString ContractView) (l : List (JsString × NodeDependencyEntry)) :=
    fresh_writes (fun s : JsString × NodeDependencyEntry => s.2.edgeKey) (fun s => viewOf s.2) filed l
  rw [← hfresh]
  induction stated generalizing state with
  | nil => simp [Along, SealsAgree]
  | cons s rest ih =>
    have happend : SealsAgree state.seals ((s :: rest).flatMap fun s => (viewOf s.2).witnesses) ↔
        SealsAgree state.seals (viewOf s.2).witnesses
          ∧ SealsAgree (fileNext state s).seals (rest.flatMap fun s => (viewOf s.2).witnesses) := by
      rw [List.flatMap_cons]
      exact Along.append_iff _ _ _ _ _
    have hfiled : (fileNext state s).filed = writeItem (fun s => s.2.edgeKey) (fun s => viewOf s.2) state.filed s := rfl
    have hrest := ih (fileNext state s)
    rw [hfiled] at hrest
    simp only [Along, List.forall_mem_cons, happend]
    tauto

theorem run_files (state : Closing) (stated : List (JsString × NodeDependencyEntry)) :
    (run fileNext state stated).filed = run (writeItem (fun s => s.2.edgeKey) fun s => viewOf s.2) state.filed stated := by
  induction stated generalizing state with
  | nil => rfl
  | cons s rest ih => exact ih (fileNext state s)

/-- Every statement is filed, no edge has two and no HARD edge none, and the witnesses agree. -/
structure ContractsClose (graph : AcceptedGraph) (binding : JsString) (stated : List (JsString × NodeDependencyEntry)) :
    Prop where
  filed : ∀ s ∈ stated, Filed graph binding s
  once : (stated.map fun s => s.2.edgeKey).Nodup
  sealsAgree : Agree (stated.flatMap fun s => (viewOf s.2).witnesses)
  complete : ∀ edge ∈ graph.edges, edge.kind = .HARD → edge.edgeKey ∈ stated.map fun s => s.2.edgeKey

theorem ContractsClose.perm {graph : AcceptedGraph} {binding : JsString} {stated stated' : List (JsString × NodeDependencyEntry)}
    (h : ContractsClose graph binding stated) (hperm : stated'.Perm stated) : ContractsClose graph binding stated' where
  filed s hs := h.filed s (hperm.mem_iff.mp hs)
  once := (hperm.map _).nodup_iff.mpr h.once
  sealsAgree := h.sealsAgree.of_subset fun _ hp => (hperm.flatMap_right _).mem_iff.mp hp
  complete edge he hkind := (hperm.map _).mem_iff.mpr (h.complete edge he hkind)

theorem closeContracts_ok_iff (byKey : BodyMap) (binding : JsString) (filed : OrdMap JsString ContractView) :
    closeContracts (I := I) graph byKey binding = .ok filed ↔ ContractsClose graph binding (statedContracts byKey)
      ∧ filed.entries = (statedContracts byKey).map fun s => (s.2.edgeKey, viewOf s.2) := by
  have hfold (state : Closing) : (statedContracts byKey).foldlM (fileContract (I := I) graph binding)
      ⟨OrdMap.empty, OrdMap.empty⟩ = .ok state ↔
        (((statedContracts byKey).map fun s => s.2.edgeKey).Nodup
          ∧ Agree ((statedContracts byKey).flatMap fun s => (viewOf s.2).witnesses)
          ∧ ∀ s ∈ statedContracts byKey, Filed graph binding s)
        ∧ state = run fileNext ⟨OrdMap.empty, OrdMap.empty⟩ (statedContracts byKey) := by
    have hseals : SealsAgree OrdMap.empty ((statedContracts byKey).flatMap fun s => (viewOf s.2).witnesses) ↔
        Agree ((statedContracts byKey).flatMap fun s => (viewOf s.2).witnesses) := by
      have hagree := agreeing_writes Prod.fst Prod.snd (OrdMap.empty : OrdMap JsString JsString)
        ((statedContracts byKey).flatMap fun s => (viewOf s.2).witnesses)
      rw [show (fun p : JsString × JsString => (p.1, p.2)) = id from rfl, List.map_id] at hagree
      exact hagree
    rw [foldlM_ok_iff _ _ _ (fileContract_ok_iff graph binding), along_files, ← hseals]
    rfl
  have hentries (h : ((statedContracts byKey).map fun s => s.2.edgeKey).Nodup) :
      (run fileNext ⟨OrdMap.empty, OrdMap.empty⟩ (statedContracts byKey)).filed.entries
        = (statedContracts byKey).map fun s => (s.2.edgeKey, viewOf s.2) := by
    rw [run_files]
    exact run_fresh_writes (fun s : JsString × NodeDependencyEntry => s.2.edgeKey) (fun s => viewOf s.2) OrdMap.empty _ h
  have hkeys (filed : OrdMap JsString ContractView)
      (h : filed.entries = (statedContracts byKey).map fun s => (s.2.edgeKey, viewOf s.2)) :
      filed.keys = (statedContracts byKey).map fun s => s.2.edgeKey := by
    rw [OrdMap.keys, h, List.map_map]
    rfl
  have hfind (filed : OrdMap JsString ContractView) :
      (graph.edges.find? fun edge => edge.kind = .HARD && !filed.has edge.edgeKey) = none ↔
        ∀ edge ∈ graph.edges, edge.kind = .HARD → edge.edgeKey ∈ filed.keys := by
    rw [List.find?_eq_none]
    refine forall_congr' fun edge => imp_congr_right fun _ => ?_
    have hkey := OrdMap.get_eq_none_iff filed edge.edgeKey
    rw [OrdMap.has]
    cases hget : filed.get edge.edgeKey with
    | none => simp [hkey.mp hget]
    | some view =>
      have hin : edge.edgeKey ∈ filed.keys := by
        by_contra hnot
        rw [hkey.mpr hnot] at hget
        cases hget
      simp [hin]
  unfold closeContracts
  constructor
  · intro h
    obtain ⟨state, hfolded, h⟩ := except_bind_ok _ _ _ h
    obtain ⟨⟨honce, hagree, hfiled⟩, rfl⟩ := (hfold state).mp hfolded
    split at h
    · rename_i hnone
      obtain rfl := Except.ok.inj h
      refine ⟨⟨hfiled, honce, hagree, fun edge he hkind => ?_⟩, hentries honce⟩
      rw [← hkeys _ (hentries honce)]
      exact (hfind _).mp hnone edge he hkind
    · cases h
  · rintro ⟨hclose, hshape⟩
    have hsame : filed = (run fileNext ⟨OrdMap.empty, OrdMap.empty⟩ (statedContracts byKey)).filed :=
      OrdMap.ext (hshape.trans (hentries hclose.once).symm)
    rw [(hfold _).mpr ⟨⟨hclose.once, hclose.sealsAgree, hclose.filed⟩, rfl⟩]
    dsimp only [bind, Except.bind]
    rw [← hsame, (hfind filed).mpr fun edge he hkind => by rw [hkeys filed hshape]; exact hclose.complete edge he hkind]

/-! ### Shared facts -/

structure BodiesAgree (graph : AcceptedGraph) (definitions : List NodeDefinition) : Prop where
  base : ∀ d ∈ definitions, ∀ d' ∈ definitions, d.repositoryBaseTree = d'.repositoryBaseTree
  role : ∀ d ∈ definitions, d.nodeKey = graph.completionNodeKey ↔ d.joinRole = .COMPLETION

theorem agreeBody_ok_iff (base : Option JsString) (definition : NodeDefinition)
    (base' : Option JsString) : agreeBody (I := I) graph base definition = .ok base' ↔
      ((base = none ∨ base = some definition.repositoryBaseTree)
        ∧ (definition.nodeKey = graph.completionNodeKey ↔ definition.joinRole = .COMPLETION))
        ∧ base' = some definition.repositoryBaseTree := by
  unfold agreeBody refuse
  rw [ite_error_ok_iff, ite_error_ok_iff, ok_iff, not_not, decide_eq_decide, not_and_or, not_not, not_not, and_assoc]

theorem along_agree (definitions : List NodeDefinition) (base : Option JsString) :
    Along (fun _ definition => some definition.repositoryBaseTree)
        (fun base (definition : NodeDefinition) => base = none ∨ base = some definition.repositoryBaseTree) base definitions ↔
      (∀ d ∈ definitions, base = none ∨ base = some d.repositoryBaseTree)
        ∧ ∀ d ∈ definitions, ∀ d' ∈ definitions, d.repositoryBaseTree = d'.repositoryBaseTree := by
  induction definitions generalizing base with
  | nil => simp [Along]
  | cons first rest ih =>
    rw [Along, ih]
    constructor
    · rintro ⟨hfirst, hrest, -⟩
      have hsame : ∀ d ∈ first :: rest, d.repositoryBaseTree = first.repositoryBaseTree := by
        intro d hd
        rcases List.mem_cons.mp hd with rfl | hd
        · rfl
        · exact ((hrest d hd).resolve_left (by simp)) |> Option.some.inj |> Eq.symm
      exact ⟨fun d hd => by rw [hsame d hd]; exact hfirst, fun d hd d' hd' => (hsame d hd).trans (hsame d' hd').symm⟩
    · rintro ⟨hbase, hall⟩
      refine ⟨hbase first (List.mem_cons_self ..), fun d hd => Or.inr ?_, fun d hd d' hd' => ?_⟩
      · rw [hall first (List.mem_cons_self ..) d (List.mem_cons_of_mem _ hd)]
      · exact hall d (List.mem_cons_of_mem _ hd) d' (List.mem_cons_of_mem _ hd')

theorem agree_ok_iff (byKey : BodyMap) :
    agree (I := I) graph byKey = .ok () ↔ BodiesAgree graph (byKey.entries.map Prod.snd) := by
  have hfold (base : Option JsString) : (byKey.entries.map Prod.snd).foldlM (agreeBody (I := I) graph) none = .ok base ↔
      (BodiesAgree graph (byKey.entries.map Prod.snd))
        ∧ base = run (fun _ definition => some definition.repositoryBaseTree) none (byKey.entries.map Prod.snd) := by
    rw [foldlM_ok_iff _ _ _ (agreeBody_ok_iff graph), Along.and_iff, along_agree]
    exact and_congr_left fun _ => ⟨fun h => ⟨h.1.2, h.2⟩, fun h => ⟨⟨fun _ _ => Or.inl rfl, h.base⟩, h.role⟩⟩
  unfold agree
  constructor
  · intro h
    obtain ⟨base, hfolded, -⟩ := except_bind_ok _ _ _ h
    exact ((hfold base).mp hfolded).1
  · intro h
    rw [(hfold _).mpr ⟨h, rfl⟩]
    rfl

end MoeNG.NodeAuthority
