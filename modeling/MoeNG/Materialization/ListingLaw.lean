import MoeNG.Materialization.Listing

/-!
# What the order of a listing decides
-/

namespace MoeNG.Materialization
open MoeNG.Kernel hiding refOf digestOf countOf isCount isRef
open MoeNG.Lib MoeNG.Supervisor

variable (nfc : JsString → JsString)

def SelectionListingFree (input : SelectPredecessorInputsInput) : Prop :=
  ∀ candidates, ClosureRelisted input.candidates candidates →
    selectPredecessorInputs nfc ⟨input.baseIdentity, input.requiredMilestone, candidates⟩ = selectPredecessorInputs nfc input

def RecheckListingFree (input : RecheckWitnessesInput) : Prop :=
  ∀ contracts registry facts, Relisted ContractRelisted input.contracts contracts → Relisted Eq input.monotonicRegistry registry →
    Relisted Eq input.currentWitnessFacts facts →
    recheckMaterializationSealWitnesses nfc ⟨contracts, registry, facts⟩ = recheckMaterializationSealWitnesses nfc input

variable {nfc}

/-- Whenever the loop over the candidates is reached, the tied ones are refused alike. -/
def SelectionTiesAgree (input : SelectPredecessorInputsInput) (candidates : List (ParsedCandidate nfc)) : Prop :=
  ∀ requiredMilestone, (commitOf input.baseIdentity).isSome = true →
    oneOf QualifyingMilestone.text qualifyingMilestones input.requiredMilestone = some requiredMilestone →
    candidates.length ≤ maxPredecessorCandidates → CandidateTiesAgree requiredMilestone candidates

def RecheckTiesAgree (registry : List (MirroredMonotonicProof nfc)) (contracts : List (MirroredDependencyContract nfc)) : Prop :=
  contracts.length ≤ maxMaterializationContracts → ContractTiesAgree registry contracts

/-- The entries of each candidate once, by topological index and node key, and no identity twice. -/
def SelectionOrdered (candidates : List (ParsedCandidate nfc)) (entries : List (SelectedInput nfc)) : Prop :=
  (entries.map fun entry => entry.artifactIdentity.val).Nodup
    ∧ ∃ chosen : List (ParsedCandidate nfc), (∀ candidate, candidate ∈ chosen ↔ candidate ∈ candidates)
      ∧ chosen.Pairwise (fun a b => a.key < b.key)
      ∧ entries = chosen.flatMap fun candidate => candidate.artifacts.val.map (toEntry candidate)

/-! ### Selection -/

theorem readBoundedList_limit (items : List Value) (maximum : ℕ) :
    readBoundedList (.array items) maximum = .LIMIT ↔ items.length > maximum := by
  unfold readBoundedList
  by_cases h : items.length > maximum
  · simp [h]
  · simp [h]

theorem relisted_length {inside : Value → Value → Prop} {items items' : List Value}
    (h : Relisted inside (.array items) (.array items')) : items'.length = items.length := by
  obtain ⟨read, listed, read', hitems, hitems', hperm, hlisted⟩ := h
  obtain rfl := Value.array.inj hitems
  obtain rfl := Value.array.inj hitems'
  rw [hperm.length_eq, hlisted.length_eq]

theorem parseArtifacts_array {value : Value} {nodeKey : GraphKey}
    {artifacts : SortedBy fun artifact : ParsedArtifact nfc => artifact.artifactIdentity.val}
    (h : parseArtifacts nfc value nodeKey = .ok artifacts) : ∃ items, value = .array items := by
  cases value with
  | array items => exact ⟨items, rfl⟩
  | _ => cases h

theorem parseCandidate_listed {value : Value} {candidate : ParsedCandidate nfc} (h : parseCandidate nfc value = .ok candidate) :
    FieldRelisted candidateKeys "artifacts" value value := by
  unfold parseCandidate at h
  simp only [↓except_bind_iff] at h
  obtain ⟨fields, hfields, nodeKey, _, _, _, _, _, _, _, _, _, _, _, _, _, artifacts, hartifacts, _⟩ := h
  obtain ⟨items, hitems⟩ := parseArtifacts_array hartifacts
  have hread : exactRecord value candidateKeys = some fields := by
    cases hrecord : exactRecord value candidateKeys with
    | none =>
      rw [hrecord] at hfields
      cases hfields
    | some found =>
      rw [hrecord] at hfields
      exact congrArg some (Except.ok.inj hfields)
  refine ⟨fields, fields, hread, hread, fun _ _ => rfl, ?_⟩
  exact (relisted_eq_iff _ _).mpr ⟨items, items, hitems, hitems, List.Perm.refl _⟩

/-- Records that all read are listed as they are. -/
theorem forall₂_listed {A : Type} {inside : Value → Value → Prop} {reads : Value → A → Prop}
    (hreads : ∀ value a, reads value a → inside value value) {items : List Value} {out : List A}
    (h : List.Forall₂ reads items out) : List.Forall₂ inside items items := by
  induction h with
  | nil => exact List.Forall₂.nil
  | cons hhead _ ih => exact List.Forall₂.cons (hreads _ _ hhead) ih

theorem selectPredecessorInputs_base (base milestone closure : Value) (h : commitOf base = none) :
    selectPredecessorInputs nfc ⟨base, milestone, closure⟩ =
      .error ⟨.BASE_INVALID, .SELECTION, "graph base must be a 40- or 64-hex commit", none⟩ := by
  unfold selectPredecessorInputs
  simp only [h, required]
  rfl

theorem selectPredecessorInputs_milestone (base milestone closure : Value) (baseIdentity : CommitIdentity)
    (hbase : commitOf base = some baseIdentity)
    (h : oneOf QualifyingMilestone.text qualifyingMilestones milestone = none) :
    selectPredecessorInputs nfc ⟨base, milestone, closure⟩ =
      .error ⟨.CLOSURE_MALFORMED, .SELECTION, "required qualifying milestone is not a known milestone", none⟩ := by
  unfold selectPredecessorInputs
  simp only [hbase, h, required]
  rfl

theorem selectPredecessorInputs_limit (base milestone closure : Value) (baseIdentity : CommitIdentity)
    (requiredMilestone : QualifyingMilestone) (hbase : commitOf base = some baseIdentity)
    (hmilestone : oneOf QualifyingMilestone.text qualifyingMilestones milestone = some requiredMilestone)
    (h : readBoundedList closure maxPredecessorCandidates = .LIMIT) :
    selectPredecessorInputs nfc ⟨base, milestone, closure⟩ =
      .error ⟨.CLOSURE_LIMIT, .SELECTION, "predecessor closure exceeds its ceiling", none⟩ := by
  unfold selectPredecessorInputs parseClosure
  simp only [hbase, hmilestone, h, required]
  rfl

theorem selectionListingFree_iff (base milestone : Value) (items : List Value) (candidates : List (ParsedCandidate nfc))
    (hparsed : items.mapM (parseCandidate nfc) = .ok candidates) :
    SelectionListingFree nfc ⟨base, milestone, .array items⟩ ↔
      SelectionTiesAgree ⟨base, milestone, .array items⟩ candidates := by
  have hread := (except_mapM_ok_iff _ _ _).mp hparsed
  constructor
  · intro hfree requiredMilestone hbase hmilestone hlength
    obtain ⟨baseIdentity, hbase⟩ := Option.isSome_iff_exists.mp hbase
    refine (selectParsed_perm_iff baseIdentity requiredMilestone candidates).mp fun candidates' hperm => ?_
    obtain ⟨items', hread', hitems⟩ := List.perm_comp_forall₂ hperm hread.flip
    have hparsed' := (except_mapM_ok_iff _ _ _).mpr hread'.flip
    have hshort : ¬ items.length > maxPredecessorCandidates := by
      rw [hread.length_eq]
      omega
    have hshort' : ¬ items'.length > maxPredecessorCandidates := by
      rw [hitems.length_eq]
      exact hshort
    have hsame := hfree (.array items')
      ⟨items, items, items', rfl, rfl, hitems, forall₂_listed (fun _ _ => parseCandidate_listed) hread⟩
    rw [selectPredecessorInputs_eq base milestone baseIdentity requiredMilestone items candidates hbase hmilestone hshort hparsed,
      selectPredecessorInputs_eq base milestone baseIdentity requiredMilestone items' candidates' hbase hmilestone hshort'
        hparsed'] at hsame
    exact hsame
  · intro hagree closure hclosure
    cases hbase : commitOf base with
    | none => rw [selectPredecessorInputs_base _ _ _ hbase, selectPredecessorInputs_base _ _ _ hbase]
    | some baseIdentity =>
      cases hmilestone : oneOf QualifyingMilestone.text qualifyingMilestones milestone with
      | none =>
        rw [selectPredecessorInputs_milestone _ _ _ baseIdentity hbase hmilestone,
          selectPredecessorInputs_milestone _ _ _ baseIdentity hbase hmilestone]
      | some requiredMilestone =>
        have hlisting := hclosure
        obtain ⟨read, listed, items', hitems, rfl, hperm, hlisted⟩ := hclosure
        obtain rfl := Value.array.inj hitems
        have hlengths := relisted_length hlisting
        by_cases hlength : items.length > maxPredecessorCandidates
        · rw [selectPredecessorInputs_limit _ _ _ baseIdentity requiredMilestone hbase hmilestone
              ((readBoundedList_limit _ _).mpr hlength),
            selectPredecessorInputs_limit _ _ _ baseIdentity requiredMilestone hbase hmilestone
              ((readBoundedList_limit _ _).mpr (by omega))]
        obtain ⟨candidates', hparsed', hsame⟩ :=
          except_mapM_listed (parseCandidate nfc) (fun _ _ => parseCandidate_relisted) hperm hlisted candidates hparsed
        have hlength' : ¬ items'.length > maxPredecessorCandidates := by omega
        have hshort : candidates.length ≤ maxPredecessorCandidates := by
          rw [← hread.length_eq]
          omega
        rw [selectPredecessorInputs_eq base milestone baseIdentity requiredMilestone items candidates hbase hmilestone hlength
            hparsed,
          selectPredecessorInputs_eq base milestone baseIdentity requiredMilestone items' candidates' hbase hmilestone hlength'
            hparsed']
        have hties := hagree requiredMilestone (Option.isSome_iff_exists.mpr ⟨baseIdentity, hbase⟩) hmilestone hshort
        exact (selectParsed_perm_iff baseIdentity requiredMilestone candidates).mpr hties candidates' hsame

theorem selectParsed_ordered (baseIdentity : CommitIdentity) (requiredMilestone : QualifyingMilestone)
    (candidates : List (ParsedCandidate nfc)) (selection : PredecessorSelection nfc)
    (h : selectParsed baseIdentity requiredMilestone candidates = .ok selection) :
    SelectionOrdered candidates selection.entries := by
  obtain ⟨state, hfold, h⟩ := except_bind_ok _ _ _ h
  split at h
  · cases h
  obtain rfl := Except.ok.inj h
  have hselected := foldlM_selected requiredMilestone [] _ _ state start_selected hfold
  rw [List.nil_append] at hselected
  obtain ⟨chosen, hsub, hcovers, hkeys, hentries⟩ := hselected.entries
  have hperm := keySort_perm ParsedCandidate.key candidates
  refine ⟨hselected.claimed ▸ hselected.distinct, chosen, fun candidate => ?_, ?_, hentries⟩
  · rw [← hperm.mem_iff]
    exact ⟨fun hmem => hsub.subset hmem, hcovers candidate⟩
  · have hsorted := (keySort_pairwise ParsedCandidate.key candidates).sublist hsub
    refine (hsorted.and (List.pairwise_map.mp hkeys)).imp fun {a b} hboth => lt_of_le_of_ne hboth.1 ?_
    exact fun hkey => hboth.2 (congrArg (fun key => (ofLex key).2) hkey)

theorem selectPredecessorInputs_ordered (base milestone : Value) (items : List Value) (candidates : List (ParsedCandidate nfc))
    (hparsed : items.mapM (parseCandidate nfc) = .ok candidates) (selection : PredecessorSelection nfc)
    (h : selectPredecessorInputs nfc ⟨base, milestone, .array items⟩ = .ok selection) :
    SelectionOrdered candidates selection.entries := by
  cases hbase : commitOf base with
  | none =>
    rw [selectPredecessorInputs_base _ _ _ hbase] at h
    cases h
  | some baseIdentity =>
    cases hmilestone : oneOf QualifyingMilestone.text qualifyingMilestones milestone with
    | none =>
      rw [selectPredecessorInputs_milestone _ _ _ baseIdentity hbase hmilestone] at h
      cases h
    | some requiredMilestone =>
      by_cases hlength : items.length > maxPredecessorCandidates
      · rw [selectPredecessorInputs_limit _ _ _ baseIdentity requiredMilestone hbase hmilestone
          ((readBoundedList_limit _ _).mpr hlength)] at h
        cases h
      · rw [selectPredecessorInputs_eq base milestone baseIdentity requiredMilestone items candidates hbase hmilestone hlength
          hparsed] at h
        exact selectParsed_ordered baseIdentity requiredMilestone candidates selection h

/-! ### Recheck -/

theorem sortedItems_array {A : Type} {parse : Value → Option A} {ref : A → JsString} {value : Value} {out : SortedBy ref}
    (h : sortedItems parse ref value = some out) : ∃ items, value = .array items := by
  cases value with
  | array items => exact ⟨items, rfl⟩
  | _ => cases h

theorem parseContract_listed {value : Value} {contract : MirroredDependencyContract nfc}
    (h : parseMirroredDependencyContract nfc value = some contract) : ContractRelisted value value := by
  simp only [parseMirroredDependencyContract, ↓bind_some_iff] at h
  obtain ⟨fields, hfields, _, -, _, hwitnesses, _, hfacts, -⟩ := h
  obtain ⟨items, hitems⟩ := sortedItems_array hwitnesses
  obtain ⟨items', hitems'⟩ := sortedItems_array hfacts
  refine ⟨fields, fields, hfields, hfields, fun _ _ _ => rfl, ?_, ?_⟩
  · exact (relisted_eq_iff _ _).mpr ⟨items, items, hitems, hitems, List.Perm.refl _⟩
  · exact (relisted_eq_iff _ _).mpr ⟨items', items', hitems', hitems', List.Perm.refl _⟩

theorem distinctItems_listed {A K : Type} [DecidableEq K] {parse : Value → Option A} {key : A → K} {maximum : ℕ}
    {value : Value} {out : List A} (h : distinctItems parse key maximum value = some out) : Relisted Eq value value := by
  unfold distinctItems at h
  obtain ⟨items, hitems, _⟩ := Option.bind_eq_some_iff.mp h
  obtain ⟨harray, -⟩ := boundedItems_some hitems
  exact (relisted_eq_iff _ _).mpr ⟨items, items, harray, harray, List.Perm.refl _⟩

theorem recheckWitnesses_limit (contracts monotonicRegistry currentWitnessFacts : Value)
    (registry : List (MirroredMonotonicProof nfc)) (hregistry : parseMonotonicRegistry nfc monotonicRegistry = some registry)
    (h : readBoundedList contracts maxMaterializationContracts = .LIMIT) :
    recheckMaterializationSealWitnesses nfc ⟨contracts, monotonicRegistry, currentWitnessFacts⟩ =
      .error ⟨.CONTRACT_LIMIT, .WITNESS, "dependency contract closure exceeds its ceiling", none⟩ := by
  unfold recheckMaterializationSealWitnesses parseContracts
  simp only [hregistry, h, required]
  rfl

theorem recheckListingFree_iff (monotonicRegistry currentWitnessFacts : Value) (items : List Value)
    (registry : List (MirroredMonotonicProof nfc)) (contracts : List (MirroredDependencyContract nfc))
    (facts : List (CurrentWitnessFact nfc)) (hregistry : parseMonotonicRegistry nfc monotonicRegistry = some registry)
    (hcontracts : items.mapM (parseMirroredDependencyContract nfc) = some contracts)
    (hfacts : parseCurrentWitnessFacts nfc currentWitnessFacts = some facts) :
    RecheckListingFree nfc ⟨.array items, monotonicRegistry, currentWitnessFacts⟩ ↔ RecheckTiesAgree registry contracts := by
  have hread := (mapM_some_forall₂ _ _ _).mp hcontracts
  constructor
  · intro hfree hlength
    refine (recheckParsed_perm_iff registry facts contracts).mp fun contracts' hperm => ?_
    obtain ⟨items', hread', hitems⟩ := List.perm_comp_forall₂ hperm hread.flip
    have hcontracts' := (mapM_some_forall₂ _ _ _).mpr hread'.flip
    have hshort : ¬ items.length > maxMaterializationContracts := by
      rw [hread.length_eq]
      omega
    have hshort' : ¬ items'.length > maxMaterializationContracts := by
      rw [hitems.length_eq]
      exact hshort
    have hsame := hfree (.array items') monotonicRegistry currentWitnessFacts
      ⟨items, items, items', rfl, rfl, hitems, forall₂_listed (fun _ _ => parseContract_listed) hread⟩
      (distinctItems_listed hregistry) (distinctItems_listed hfacts)
    rw [recheckWitnesses_eq _ _ items registry contracts facts hregistry hshort hcontracts hfacts,
      recheckWitnesses_eq _ _ items' registry contracts' facts hregistry hshort' hcontracts' hfacts] at hsame
    exact hsame
  · intro hagree closure registryValue factsValue hclosure hregistryValue hfactsValue
    obtain ⟨hproofs, registry', hregistry', hregistryPerm⟩ := distinctItems_relisted _ _ _ hregistryValue registry hregistry
    obtain ⟨hrefs, facts', hfacts', hfactsPerm⟩ := distinctItems_relisted _ _ _ hfactsValue facts hfacts
    have hlisting := hclosure
    obtain ⟨read, listed, items', hitems, rfl, hperm, hlisted⟩ := hclosure
    obtain rfl := Value.array.inj hitems
    have hlengths := relisted_length hlisting
    by_cases hlength : items.length > maxMaterializationContracts
    · rw [recheckWitnesses_limit _ _ _ registry hregistry ((readBoundedList_limit _ _).mpr hlength),
        recheckWitnesses_limit _ _ _ registry' hregistry' ((readBoundedList_limit _ _).mpr (by omega))]
    obtain ⟨contracts', hcontracts', hsame⟩ :=
      mapM_listed (parseMirroredDependencyContract nfc) (fun _ _ => parseContract_relisted) hperm hlisted contracts hcontracts
    have hlength' : ¬ items'.length > maxMaterializationContracts := by omega
    have hshort : contracts.length ≤ maxMaterializationContracts := by
      rw [← hread.length_eq]
      omega
    rw [recheckWitnesses_eq _ _ items registry contracts facts hregistry hlength hcontracts hfacts,
      recheckWitnesses_eq _ _ items' registry' contracts' facts' hregistry' hlength' hcontracts' hfacts']
    have hrelisted : recheckParsed registry' facts' contracts' = recheckParsed registry facts contracts' := by
      unfold recheckParsed
      rw [recheckContract_perm hregistryPerm hproofs, recheckVerdict_perm hfactsPerm hrefs]
    rw [hrelisted]
    exact (recheckParsed_perm_iff registry facts contracts).mpr (hagree hshort) contracts' hsame

/-! ### Both listings -/

variable (nfc) in
/-- When the order of a listing decides nothing, and what a selection holds whenever it succeeds. -/
structure ListingLaw (selected : SelectPredecessorInputsInput) (candidates : List (ParsedCandidate nfc))
    (rechecked : RecheckWitnessesInput) (registry : List (MirroredMonotonicProof nfc))
    (contracts : List (MirroredDependencyContract nfc)) : Prop where
  selection : SelectionListingFree nfc selected ↔ SelectionTiesAgree selected candidates
  ordered : ∀ selection, selectPredecessorInputs nfc selected = .ok selection → SelectionOrdered candidates selection.entries
  recheck : RecheckListingFree nfc rechecked ↔ RecheckTiesAgree registry contracts

theorem listingLaw (selected : SelectPredecessorInputsInput) (candidateItems : List Value)
    (candidates : List (ParsedCandidate nfc)) (rechecked : RecheckWitnessesInput) (contractItems : List Value)
    (registry : List (MirroredMonotonicProof nfc)) (contracts : List (MirroredDependencyContract nfc))
    (facts : List (CurrentWitnessFact nfc)) (hclosure : selected.candidates = .array candidateItems)
    (hcandidates : candidateItems.mapM (parseCandidate nfc) = .ok candidates)
    (hlisted : rechecked.contracts = .array contractItems)
    (hcontracts : contractItems.mapM (parseMirroredDependencyContract nfc) = some contracts)
    (hregistry : parseMonotonicRegistry nfc rechecked.monotonicRegistry = some registry)
    (hfacts : parseCurrentWitnessFacts nfc rechecked.currentWitnessFacts = some facts) :
    ListingLaw nfc selected candidates rechecked registry contracts := by
  obtain ⟨base, milestone, closure⟩ := selected
  obtain ⟨listed, proofs, current⟩ := rechecked
  obtain rfl : closure = .array candidateItems := hclosure
  obtain rfl : listed = .array contractItems := hlisted
  exact ⟨selectionListingFree_iff base milestone candidateItems candidates hcandidates,
    selectPredecessorInputs_ordered base milestone candidateItems candidates hcandidates,
    recheckListingFree_iff proofs current contractItems registry contracts facts hregistry hcontracts hfacts⟩

/-! ### Two listings with two refusals -/

def sampleArtifact (identity : JsString) : Value := recordOf
  [("artifactIdentity", .string identity), ("sha256", .string (List.replicate 64 48)), ("byteLength", .number (.integer 1))]

def sampleCandidate (nodeKey : JsString) (index : ℤ) (result : JsString) (milestone : QualifyingMilestone)
    (artifacts : List JsString) : Value := recordOf
  [("nodeKey", .string nodeKey), ("topologicalIndex", .number (.integer index)), ("resultRef", .string result),
    ("attemptRef", .string [97]), ("epoch", .number (.integer 1)), ("adoptionRef", .string [97]),
    ("milestone", .string (lit milestone.text)), ("artifacts", .array (artifacts.map sampleArtifact))]

/-- Two records of the node `b`: one is not qualified, the other offers the artifact of the node `a`. -/
def sampleTied : List Value :=
  [sampleCandidate [98] 2 [98] .CANDIDATE_SEALED [[121]], sampleCandidate [98] 2 [99] .ACCEPTED [[120]]]

def sampleItems (tied : List Value) : List Value := sampleCandidate [97] 1 [97] .ACCEPTED [[120]] :: tied

def sampleClosure (tied : List Value) : SelectPredecessorInputsInput where
  baseIdentity := .string (List.replicate 40 48)
  requiredMilestone := .string (lit "ACCEPTED")
  candidates := .array (sampleItems tied)

def sampleWitness (ref : JsString) (version : ℤ) : Value := recordOf
  [("witnessRef", .string ref), ("witnessVersion", .number (.integer version)),
    ("witnessDigest", .string (List.replicate 64 48)), ("sourceOperationClass", .string (lit "ARTIFACT_SEAL"))]

def sampleContract (producer consumer : JsString) (stability : MirroredStability) (witnesses : List Value) : Value := recordOf
  [("producerNodeKey", .string producer), ("consumerNodeKey", .string consumer),
    ("satisfactionPredicate", recordOf
      [("predicateRef", .string [112]), ("schemaId", .string [115]), ("schemaVersion", .number (.integer 1))]),
    ("stability", .string (lit stability.text)), ("satisfactionWitnesses", .array witnesses),
    ("consumptionHorizon", .string (lit "STEP_START")),
    ("invalidationFacts", .array [recordOf
      [("sourceFactRef", .string [102]), ("sourceFactVersion", .number (.integer 1)),
        ("sourceFactDigest", .string (List.replicate 64 48))]])]

/-- Two contracts of one edge, each at odds with the first contract over another witness. -/
def sampleTiedContracts : List Value :=
  [sampleContract [98] [99] .REVOCABLE [sampleWitness [119] 2], sampleContract [98] [99] .REVOCABLE [sampleWitness [120] 2]]

def sampleContractItems (tied : List Value) : List Value :=
  sampleContract [97] [99] .REVOCABLE [sampleWitness [119] 1, sampleWitness [120] 1] :: tied

def sampleContracts (tied : List Value) : RecheckWitnessesInput where
  contracts := .array (sampleContractItems tied)
  monotonicRegistry := .array []
  currentWitnessFacts := .array []

def sampleCandidates : List (ParsedCandidate id) :=
  (sampleItems sampleTied).filterMap fun value => (parseCandidate id value).toOption

def sampleParsedContracts : List (MirroredDependencyContract id) :=
  (sampleContractItems sampleTiedContracts).filterMap (parseMirroredDependencyContract id)

theorem samples_read :
    (sampleItems sampleTied).mapM (parseCandidate id) = .ok sampleCandidates
      ∧ (sampleContractItems sampleTiedContracts).mapM (parseMirroredDependencyContract id) = some sampleParsedContracts
      ∧ parseMonotonicRegistry id (sampleContracts sampleTiedContracts).monotonicRegistry = some []
      ∧ parseCurrentWitnessFacts id (sampleContracts sampleTiedContracts).currentWitnessFacts = some [] := by
  decide +kernel

/-- The listing decides which of the two tied records is blamed, and for what. -/
theorem samples_refused :
    selectPredecessorInputs id (sampleClosure sampleTied) = .error (unqualified [98])
      ∧ selectPredecessorInputs id (sampleClosure sampleTied.reverse) = .error (ambiguous [120])
      ∧ recheckMaterializationSealWitnesses id (sampleContracts sampleTiedContracts) = .error (disagreeing [119])
      ∧ recheckMaterializationSealWitnesses id (sampleContracts sampleTiedContracts.reverse) = .error (disagreeing [120]) := by
  decide +kernel

theorem sampleLaw :
    ListingLaw id (sampleClosure sampleTied) sampleCandidates (sampleContracts sampleTiedContracts) [] sampleParsedContracts :=
  listingLaw (sampleClosure sampleTied) (sampleItems sampleTied) sampleCandidates (sampleContracts sampleTiedContracts)
    (sampleContractItems sampleTiedContracts) [] sampleParsedContracts [] rfl samples_read.1 rfl samples_read.2.1
    samples_read.2.2.1 samples_read.2.2.2

theorem listing_decides :
    (sampleItems sampleTied).mapM (parseCandidate id) = .ok sampleCandidates
      ∧ ¬ SelectionListingFree id (sampleClosure sampleTied)
      ∧ (sampleContractItems sampleTiedContracts).mapM (parseMirroredDependencyContract id) = some sampleParsedContracts
      ∧ ¬ RecheckListingFree id (sampleContracts sampleTiedContracts) := by
  obtain ⟨hselected, hselected', hrechecked, hrechecked'⟩ := samples_refused
  obtain ⟨hcandidates, hcontracts, -, -⟩ := samples_read
  refine ⟨hcandidates, fun hfree => ?_, hcontracts, fun hfree => ?_⟩
  · have hread := (except_mapM_ok_iff _ _ _).mp hcandidates
    have hsame := hfree (.array (sampleItems sampleTied.reverse)) ⟨_, _, _, rfl, rfl, (List.reverse_perm sampleTied).cons _,
      forall₂_listed (fun _ _ => parseCandidate_listed) hread⟩
    have hrefusals := hselected'.symm.trans (hsame.trans hselected)
    exact absurd hrefusals (by decide)
  · have hread := (mapM_some_forall₂ _ _ _).mp hcontracts
    have hempty : Relisted Eq (.array []) (.array []) := (relisted_eq_iff _ _).mpr ⟨[], [], rfl, rfl, List.Perm.refl _⟩
    have hsame := hfree (.array (sampleContractItems sampleTiedContracts.reverse)) (.array []) (.array [])
      ⟨_, _, _, rfl, rfl, (List.reverse_perm sampleTiedContracts).cons _,
        forall₂_listed (fun _ _ => parseContract_listed) hread⟩ hempty hempty
    have hrefusals := hrechecked'.symm.trans (hsame.trans hrechecked)
    exact absurd hrefusals (by decide)

end MoeNG.Materialization
