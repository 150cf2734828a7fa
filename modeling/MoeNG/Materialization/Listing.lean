import Mathlib.Data.List.Forall2
import MoeNG.Materialization.RecheckLaw
import MoeNG.Materialization.SelectionLaw

/-!
# Listings of one closure
-/

namespace MoeNG.Materialization
open MoeNG.Kernel hiding refOf digestOf countOf isCount isRef
open MoeNG.Lib MoeNG.Supervisor

/-- The same list in another order, with what is inside its elements listed anew. -/
def Relisted (inside : Value → Value → Prop) (value value' : Value) : Prop :=
  ∃ items listed items', value = .array items ∧ value' = .array items' ∧ items'.Perm listed ∧ List.Forall₂ inside items listed

/-- A record with one of its lists in another order. -/
def FieldRelisted (keys : List String) (key : String) (value value' : Value) : Prop :=
  ∃ fields fields', exactRecord value keys = some fields ∧ exactRecord value' keys = some fields'
    ∧ (∀ name, name ≠ key → fields'.field name = fields.field name) ∧ Relisted Eq (fields.field key) (fields'.field key)

theorem relisted_eq_iff (value value' : Value) :
    Relisted Eq value value' ↔ ∃ items items', value = .array items ∧ value' = .array items' ∧ items'.Perm items := by
  simp only [Relisted, List.forall₂_eq_eq_eq]
  constructor
  · rintro ⟨items, _, items', rfl, rfl, hperm, rfl⟩
    exact ⟨items, items', rfl, rfl, hperm⟩
  · rintro ⟨items, items', rfl, rfl, hperm⟩
    exact ⟨items, items, items', rfl, rfl, hperm, rfl⟩

/-! ### Reading a listing -/

section Reading
variable {A : Type} {inside : Value → Value → Prop}

/-- A reader that sees the same inside every element reads a permutation of what it read. -/
theorem mapM_listed {items listed items' : List Value} (parse : Value → Option A)
    (hinside : ∀ value value', inside value value' → parse value' = parse value) (hperm : items'.Perm listed)
    (hlisted : List.Forall₂ inside items listed) (out : List A) (h : items.mapM parse = some out) :
    ∃ out', items'.mapM parse = some out' ∧ out'.Perm out := by
  refine mapM_perm parse listed items' out hperm ?_
  rw [← h]
  clear h hperm
  induction hlisted with
  | nil => rfl
  | cons hhead _ ih => rw [List.mapM_cons, List.mapM_cons, ih, hinside _ _ hhead]

theorem except_mapM_listed {F : Type} {items listed items' : List Value} (parse : Value → Except F A)
    (hinside : ∀ value value', inside value value' → parse value' = parse value) (hperm : items'.Perm listed)
    (hlisted : List.Forall₂ inside items listed) (out : List A) (h : items.mapM parse = .ok out) :
    ∃ out', items'.mapM parse = .ok out' ∧ out'.Perm out := by
  refine except_mapM_perm parse listed items' out hperm ?_
  rw [← h]
  clear h hperm
  induction hlisted with
  | nil => rfl
  | cons hhead _ ih => rw [List.mapM_cons, List.mapM_cons, ih, hinside _ _ hhead]

theorem mapM_none_perm (parse : Value → Option A) {items items' : List Value} (hperm : items'.Perm items)
    (h : items.mapM parse = none) : items'.mapM parse = none := by
  cases h' : items'.mapM parse with
  | none => rfl
  | some out =>
    obtain ⟨out', hout', -⟩ := mapM_perm parse items' items out hperm.symm h'
    rw [h] at hout'
    cases hout'

theorem distinctItems_relisted {K : Type} [DecidableEq K] (parse : Value → Option A) (key : A → K) (maximum : ℕ)
    {value value' : Value} (hvalue : Relisted Eq value value') (out : List A)
    (h : distinctItems parse key maximum value = some out) :
    (out.map key).Nodup ∧ ∃ out', distinctItems parse key maximum value' = some out' ∧ out'.Perm out := by
  obtain ⟨items, items', rfl, rfl, hperm⟩ := (relisted_eq_iff _ _).mp hvalue
  unfold distinctItems at h ⊢
  rw [boundedItems_array] at h ⊢
  obtain ⟨listed, hlisted, h⟩ := Option.bind_eq_some_iff.mp h
  split at hlisted
  · cases hlisted
  rename_i hlength
  obtain rfl := Option.some.inj hlisted
  obtain ⟨output, houtput, h⟩ := Option.bind_eq_some_iff.mp h
  split at h
  · cases h
  rename_i hdistinct
  obtain rfl := Option.some.inj h
  obtain ⟨out', hout', hsame⟩ := mapM_perm parse items items' output hperm houtput
  refine ⟨(hasDuplicates_eq_false _).mp (Bool.eq_false_iff.mpr hdistinct), out', ?_, hsame⟩
  rw [if_neg (by rw [hperm.length_eq]; exact hlength)]
  refine Option.bind_eq_some_iff.mpr ⟨items', rfl, Option.bind_eq_some_iff.mpr ⟨out', hout', ?_⟩⟩
  rw [if_neg (by rw [hasDuplicates_perm (hsame.map key)]; exact hdistinct)]

theorem sortedItems_relisted (parse : Value → Option A) (ref : A → JsString) {value value' : Value}
    (hvalue : Relisted Eq value value') : sortedItems parse ref value' = sortedItems parse ref value := by
  obtain ⟨items, items', rfl, rfl, hperm⟩ := (relisted_eq_iff _ _).mp hvalue
  unfold sortedItems
  rw [boundedItems_array, boundedItems_array, hperm.length_eq]
  split
  · rfl
  · simp only [Option.bind_eq_bind, Option.bind_some, hperm.length_eq]
    split
    · rfl
    · cases hmap : items.mapM parse with
      | none => rw [mapM_none_perm parse hperm hmap]
      | some out =>
        obtain ⟨out', hout', hsame⟩ := mapM_perm parse items items' out hperm hmap
        rw [hout', Option.bind_some, Option.bind_some]
        have hduplicates := hasDuplicates_perm (hsame.map ref)
        by_cases hdistinct : hasDuplicates (out.map ref) = false
        · rw [dif_pos hdistinct, dif_pos (hduplicates.trans hdistinct)]
          exact congrArg some (Subtype.ext (sortByRef_congr ref hsame hdistinct))
        · rw [dif_neg hdistinct, dif_neg fun hsame' => hdistinct (hduplicates.symm.trans hsame')]

end Reading

/-! ### Candidates -/

variable {nfc : JsString → JsString}

theorem parseArtifacts_relisted {value value' : Value} (hvalue : Relisted Eq value value') (nodeKey : GraphKey) :
    parseArtifacts nfc value' nodeKey = parseArtifacts nfc value nodeKey := by
  obtain ⟨items, items', rfl, rfl, hperm⟩ := (relisted_eq_iff _ _).mp hvalue
  unfold parseArtifacts readBoundedList
  simp only [hperm.length_eq]
  by_cases hlength : items.length > maxArtifactsPerPredecessor
  · simp only [if_pos hlength]
  simp only [if_neg hlength, hperm.length_eq]
  split
  · rfl
  cases hmap : items.mapM (parseArtifact nfc) with
  | none => rw [mapM_none_perm _ hperm hmap]
  | some out =>
    obtain ⟨out', hout', hsame⟩ := mapM_perm _ items items' out hperm hmap
    rw [hout']
    have hduplicates := hasDuplicates_perm (hsame.map fun artifact => artifact.artifactIdentity.val)
    by_cases hdistinct : hasDuplicates (out.map fun artifact => artifact.artifactIdentity.val) = false
    · simp only [dif_pos hdistinct, dif_pos (hduplicates.trans hdistinct)]
      exact congrArg Except.ok (Subtype.ext (sortByRef_congr _ hsame hdistinct))
    · simp only [dif_neg hdistinct, dif_neg fun hsame' => hdistinct (hduplicates.symm.trans hsame')]

theorem parseCandidate_relisted {value value' : Value} (hvalue : FieldRelisted candidateKeys "artifacts" value value') :
    parseCandidate nfc value' = parseCandidate nfc value := by
  obtain ⟨fields, fields', hread, hread', hsame, hartifacts⟩ := hvalue
  unfold parseCandidate
  rw [hread, hread']
  simp only [required, bind, Except.bind, hsame "nodeKey" (by decide), hsame "topologicalIndex" (by decide),
    hsame "resultRef" (by decide), hsame "attemptRef" (by decide), hsame "epoch" (by decide), hsame "adoptionRef" (by decide),
    hsame "milestone" (by decide), parseArtifacts_relisted hartifacts]

/-- The closure in another order, with the artifacts of each candidate in another order. -/
def ClosureRelisted : Value → Value → Prop := Relisted (FieldRelisted candidateKeys "artifacts")

/-- The selection over candidates that are read already. -/
def selectParsed (baseIdentity : CommitIdentity) (requiredMilestone : QualifyingMilestone)
    (candidates : List (ParsedCandidate nfc)) : Materialized (PredecessorSelection nfc) :=
  (keySort ParsedCandidate.key candidates).foldlM (selectCandidate requiredMilestone) .start >>= fun state =>
    if state.entries.length > maxSelectedInputs then
      .error ⟨.SELECTION_LIMIT, .SELECTION, "selected input closure exceeds its ceiling", none⟩
    else .ok ⟨baseIdentity, requiredMilestone, state.entries⟩

theorem selectPredecessorInputs_eq (base milestone : Value) (baseIdentity : CommitIdentity)
    (requiredMilestone : QualifyingMilestone) (items : List Value) (parsed : List (ParsedCandidate nfc))
    (hbase : commitOf base = some baseIdentity)
    (hmilestone : oneOf QualifyingMilestone.text qualifyingMilestones milestone = some requiredMilestone)
    (hlength : ¬ items.length > maxPredecessorCandidates) (hparsed : items.mapM (parseCandidate nfc) = .ok parsed) :
    selectPredecessorInputs nfc ⟨base, milestone, .array items⟩ = selectParsed baseIdentity requiredMilestone parsed := by
  unfold selectPredecessorInputs parseClosure readBoundedList selectParsed
  simp only [hbase, hmilestone, if_neg hlength, hparsed, required, selectionSort_eq]
  rfl

theorem selectCandidate_code (requiredMilestone : QualifyingMilestone) (state : SelectionState nfc)
    (candidate : ParsedCandidate nfc) (f : MaterializationFailure)
    (h : selectCandidate requiredMilestone state candidate = .error f) : f.code ≠ .SELECTION_LIMIT := by
  have hverdict := selectCandidate_verdict requiredMilestone state candidate
  rw [h] at hverdict
  cases hverdict <;> nofun

theorem selectParsed_perm_iff (baseIdentity : CommitIdentity) (requiredMilestone : QualifyingMilestone)
    (candidates : List (ParsedCandidate nfc)) :
    (∀ candidates' : List (ParsedCandidate nfc), candidates'.Perm candidates →
      selectParsed baseIdentity requiredMilestone candidates' = selectParsed baseIdentity requiredMilestone candidates) ↔
    CandidateTiesAgree requiredMilestone candidates := by
  rw [← candidateTiesAgree_iff]
  refine (select_tieRules requiredMilestone).finish_iff _ SelectionState.start ?_ ?_ candidates
  · rintro - - state _ - - rfl
    rfl
  intro state candidate f last hrefused hlimit
  have hcode := selectCandidate_code requiredMilestone state candidate f hrefused
  split at hlimit
  · obtain rfl := Except.error.inj hlimit
    exact hcode rfl
  · cases hlimit

/-! ### Contracts -/

/-- A contract with its witnesses and its invalidation facts in another order. -/
def ContractRelisted (value value' : Value) : Prop :=
  ∃ fields fields', exactRecord value contractKeys = some fields ∧ exactRecord value' contractKeys = some fields'
    ∧ (∀ name, name ≠ "satisfactionWitnesses" → name ≠ "invalidationFacts" → fields'.field name = fields.field name)
    ∧ Relisted Eq (fields.field "satisfactionWitnesses") (fields'.field "satisfactionWitnesses")
    ∧ Relisted Eq (fields.field "invalidationFacts") (fields'.field "invalidationFacts")

theorem parseContract_relisted {value value' : Value} (hvalue : ContractRelisted value value') :
    parseMirroredDependencyContract nfc value' = parseMirroredDependencyContract nfc value := by
  obtain ⟨fields, fields', hread, hread', hsame, hwitnesses, hfacts⟩ := hvalue
  have hwitnessesRead : parseWitnesses nfc (fields'.field "satisfactionWitnesses") = parseWitnesses nfc _ :=
    sortedItems_relisted _ _ hwitnesses
  have hfactsRead : parseFacts nfc (fields'.field "invalidationFacts") = parseFacts nfc _ := sortedItems_relisted _ _ hfacts
  unfold parseMirroredDependencyContract
  rw [hread, hread']
  simp only [Option.bind_eq_bind, Option.bind_some, hwitnessesRead, hfactsRead,
    hsame "satisfactionPredicate" (by decide) (by decide), hsame "producerNodeKey" (by decide) (by decide),
    hsame "consumerNodeKey" (by decide) (by decide), hsame "stability" (by decide) (by decide),
    hsame "consumptionHorizon" (by decide) (by decide)]

/-- Proofs with distinct keys resolve a contract in whatever order they are listed. -/
theorem resolveStability_perm {registry registry' : List (MirroredMonotonicProof nfc)} (hperm : registry'.Perm registry)
    (hdistinct : (registry.map MirroredMonotonicProof.key).Nodup) :
    (fun contract => resolveStability contract registry') = fun contract => resolveStability contract registry := by
  funext contract
  unfold resolveStability
  rw [find_key_perm MirroredMonotonicProof.key hperm hdistinct]

theorem recheckContract_perm {registry registry' : List (MirroredMonotonicProof nfc)} (hperm : registry'.Perm registry)
    (hdistinct : (registry.map MirroredMonotonicProof.key).Nodup) :
    recheckContract registry' = recheckContract registry := by
  have hresolved := resolveStability_perm hperm hdistinct
  funext state contract
  unfold recheckContract
  rw [congrFun hresolved contract]

theorem recheckVerdict_perm {facts facts' : List (CurrentWitnessFact nfc)} (hperm : facts'.Perm facts)
    (hdistinct : (facts.map fun fact => fact.witnessRef.val).Nodup) : recheckVerdict facts' = recheckVerdict facts := by
  have hcompared : compareWitnesses facts' = compareWitnesses facts := by
    funext sealed
    unfold compareWitnesses
    congr 1
    funext witness
    rw [find_key_perm (fun fact : CurrentWitnessFact nfc => fact.witnessRef.val) hperm hdistinct]
  funext state
  unfold recheckVerdict
  rw [hcompared]

/-- The recheck over contracts, proofs and facts that are read already. -/
def recheckParsed (registry : List (MirroredMonotonicProof nfc)) (facts : List (CurrentWitnessFact nfc))
    (contracts : List (MirroredDependencyContract nfc)) : Materialized WitnessRecheck :=
  (keySort MirroredDependencyContract.key contracts).foldlM (recheckContract registry) .start >>= recheckVerdict facts

theorem recheckWitnesses_eq (monotonicRegistry currentWitnessFacts : Value) (items : List Value)
    (registry : List (MirroredMonotonicProof nfc)) (contracts : List (MirroredDependencyContract nfc))
    (facts : List (CurrentWitnessFact nfc)) (hregistry : parseMonotonicRegistry nfc monotonicRegistry = some registry)
    (hlength : ¬ items.length > maxMaterializationContracts)
    (hcontracts : items.mapM (parseMirroredDependencyContract nfc) = some contracts)
    (hfacts : parseCurrentWitnessFacts nfc currentWitnessFacts = some facts) :
    recheckMaterializationSealWitnesses nfc ⟨.array items, monotonicRegistry, currentWitnessFacts⟩ =
      recheckParsed registry facts contracts := by
  unfold recheckMaterializationSealWitnesses parseContracts readBoundedList recheckParsed
  simp only [hregistry, if_neg hlength, hcontracts, hfacts, required, contractSort_eq]
  rfl

theorem resolveStability_code (registry : List (MirroredMonotonicProof nfc)) (contract : MirroredDependencyContract nfc)
    (f : MaterializationFailure) (h : resolveStability contract registry = .error f) :
    f.code = .MONOTONIC_OPERATION_MISMATCH := by
  unfold resolveStability at h
  split at h
  · split at h
    · obtain rfl := Except.error.inj h
      rfl
    · cases h
  · cases h

theorem recheckContract_code (registry : List (MirroredMonotonicProof nfc)) (state : RecheckState nfc)
    (contract : MirroredDependencyContract nfc) (f : MaterializationFailure)
    (h : recheckContract registry state contract = .error f) :
    f.code = .MONOTONIC_OPERATION_MISMATCH ∨ f.code = .CONTRACT_MALFORMED := by
  obtain hmismatch | ⟨-, witness, -, rfl⟩ := (recheckContract_error registry state contract f).mp h
  · exact .inl (resolveStability_code registry contract f hmismatch)
  · exact .inr rfl

theorem compareWitness_code (witness : MirroredWitnessBinding nfc) (fact : Option (CurrentWitnessFact nfc))
    (f : MaterializationFailure) (h : compareWitness witness fact = .error f) :
    f.code = .WITNESS_MISSING ∨ f.code = .WITNESS_VERSION_CHANGED ∨ f.code = .WITNESS_DIGEST_CHANGED := by
  unfold compareWitness at h
  split at h
  · obtain rfl := Except.error.inj h
    exact .inl rfl
  split at h
  · obtain rfl := Except.error.inj h
    exact .inr (.inl rfl)
  split at h
  · obtain rfl := Except.error.inj h
    exact .inr (.inr rfl)
  · cases h

theorem compareWitnesses_code (facts : List (CurrentWitnessFact nfc)) (witnesses : List (MirroredWitnessBinding nfc))
    (f : MaterializationFailure) (h : compareWitnesses facts witnesses = .error f) :
    f.code = .WITNESS_MISSING ∨ f.code = .WITNESS_VERSION_CHANGED ∨ f.code = .WITNESS_DIGEST_CHANGED := by
  unfold compareWitnesses at h
  induction witnesses with
  | nil => cases h
  | cons witness rest ih =>
    change (compareWitness witness _ >>= fun _ => rest.forM _) = .error f at h
    cases hfirst : compareWitness witness (facts.find? fun fact => fact.witnessRef.val = witness.witnessRef.val) with
    | error f' =>
      rw [hfirst] at h
      obtain rfl : f' = f := Except.error.inj h
      exact compareWitness_code witness _ f' hfirst
    | ok =>
      rw [hfirst] at h
      exact ih h

theorem recheckVerdict_code (facts : List (CurrentWitnessFact nfc)) (state : RecheckState nfc) (f : MaterializationFailure)
    (h : recheckVerdict facts state = .error f) :
    f.code = .WITNESS_MISSING ∨ f.code = .WITNESS_VERSION_CHANGED ∨ f.code = .WITNESS_DIGEST_CHANGED := by
  unfold recheckVerdict at h
  cases hcompared : compareWitnesses facts (sealedWitnesses state) with
  | error f' =>
    rw [hcompared] at h
    obtain rfl : f' = f := Except.error.inj h
    exact compareWitnesses_code facts _ f' hcompared
  | ok =>
    rw [hcompared] at h
    cases h

theorem recheckParsed_perm_iff (registry : List (MirroredMonotonicProof nfc)) (facts : List (CurrentWitnessFact nfc))
    (contracts : List (MirroredDependencyContract nfc)) :
    (∀ contracts' : List (MirroredDependencyContract nfc), contracts'.Perm contracts →
      recheckParsed registry facts contracts' = recheckParsed registry facts contracts) ↔
    ContractTiesAgree registry contracts := by
  rw [← contractTiesAgree_iff]
  refine (recheck_tieRules registry).finish_iff (recheckVerdict facts) RecheckState.start ?_ ?_ contracts
  · intro l l' t t' hl hl' hsame
    have hnone : ∀ ref (witness : MirroredWitnessBinding nfc),
        (RecheckState.start : RecheckState nfc).revocable.get ref = some witness → witness.witnessRef.val = ref := nofun
    exact recheckVerdict_same facts hsame (revocable_keyed registry l _ t hl hnone) (revocable_keyed registry l' _ t' hl' hnone)
  · intro state contract f last hrefused hverdict
    obtain hcode | hcode := recheckContract_code registry state contract f hrefused <;>
      obtain hcode' | hcode' | hcode' := recheckVerdict_code facts last f hverdict <;>
      · rw [hcode] at hcode'
        cases hcode'

end MoeNG.Materialization
