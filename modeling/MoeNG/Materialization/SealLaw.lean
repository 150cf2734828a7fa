import MoeNG.Materialization.ListingLaw
import MoeNG.Materialization.ManifestLaw

/-!
# Seals and their revalidation
-/

namespace MoeNG.Materialization
open MoeNG.Kernel hiding refOf digestOf countOf isCount isRef
open MoeNG.Lib MoeNG.Supervisor

variable {nfc : JsString → JsString}

theorem required_ok {A : Type} {failure : MaterializationFailure} {o : Option A} {a : A} (h : required failure o = .ok a) :
    o = some a := by
  cases o with
  | none => cases h
  | some b => exact congrArg some (Except.ok.inj h)

theorem forM_ok_iff {A : Type} (check : A → Materialized Unit) (l : List A) :
    l.forM check = .ok () ↔ ∀ a ∈ l, check a = .ok () := by
  induction l with
  | nil => simp [pure, Except.pure]
  | cons a rest ih =>
    rw [List.forall_mem_cons, ← ih]
    change (check a >>= fun _ => rest.forM check) = .ok () ↔ _
    cases check a with
    | error f => simp [bind, Except.bind]
    | ok => simp [bind, Except.bind]

/-! ### The bindings that a seal collects -/

/-- The witnesses that the contracts declare, each as often as it is declared. -/
def witnessRefs (contracts : List (MirroredDependencyContract nfc)) : List JsString :=
  contracts.flatMap fun contract => contract.satisfactionWitnesses.val.map fun witness => witness.witnessRef.val

theorem mem_keys_bind (witnesses : List (MirroredWitnessBinding nfc)) (bindings : OrdMap JsString (SealedWitnessBinding nfc))
    (ref : JsString) :
    ref ∈ (witnesses.foldl bindWitness bindings).keys ↔
      ref ∈ bindings.keys ∨ ref ∈ witnesses.map fun witness => witness.witnessRef.val := by
  induction witnesses generalizing bindings with
  | nil => simp
  | cons witness rest ih =>
    rw [List.foldl_cons, ih, List.map_cons, List.mem_cons]
    have hset : ref ∈ (bindWitness bindings witness).keys ↔ ref = witness.witnessRef.val ∨ ref ∈ bindings.keys := by
      unfold bindWitness OrdMap.set OrdMap.keys
      rw [OrdMap.put_keys]
      split
      · rename_i hold
        constructor
        · exact Or.inr
        · rintro (rfl | hmem)
          · exact hold
          · exact hmem
      · rw [List.mem_append, List.mem_singleton]
        exact or_comm
    rw [hset]
    tauto

theorem collectWitnessBindings_length (items : List Value) (contracts : List (MirroredDependencyContract nfc))
    (bindings : List (SealedWitnessBinding nfc)) (hparsed : items.mapM (parseMirroredDependencyContract nfc) = some contracts)
    (h : collectWitnessBindings nfc (.array items) = some bindings) :
    bindings.length = (witnessRefs contracts).dedup.length := by
  unfold collectWitnessBindings at h
  obtain ⟨read, hread, hcollected⟩ := Option.bind_eq_some_iff.mp h
  obtain ⟨hitems, -⟩ := boundedItems_some hread
  obtain rfl := Value.array.inj hitems
  obtain ⟨contracts', hparsed', hsorted⟩ := Option.bind_eq_some_iff.mp hcollected
  obtain rfl := Option.some.inj (hparsed.symm.trans hparsed')
  obtain rfl := Option.some.inj hsorted
  rw [(sortByRef_perm _ _).length_eq, List.length_map]
  have hkeys (map : OrdMap JsString (SealedWitnessBinding nfc)) : map.entries.length = map.keys.length := by
    unfold OrdMap.keys
    rw [List.length_map]
  rw [hkeys]
  refine List.Perm.length_eq ((List.perm_ext_iff_of_nodup (OrdMap.nodup _) (List.nodup_dedup _)).mpr fun ref => ?_)
  have hmem := mem_keys_bind (contracts.flatMap fun contract => contract.satisfactionWitnesses.val) OrdMap.empty ref
  rw [List.mem_dedup]
  refine hmem.trans ?_
  unfold witnessRefs
  rw [List.map_flatMap]
  simp [OrdMap.empty, OrdMap.keys]

/-! ### What a seal establishes -/

theorem sealNodeInputManifest_ok (sha256 : List Byte → Digest) (input : SealNodeInputManifestInput)
    (manifest : NodeInputManifest nfc) (h : sealNodeInputManifest nfc sha256 input = .ok manifest) :
    Sealable manifest.body ∧ sealDigests sha256 manifest.body = manifest.digests
      ∧ collectWitnessBindings nfc input.contracts = some manifest.body.witnessBindings := by
  simp only [sealNodeInputManifest, ↓except_bind_iff] at h
  obtain ⟨selection, hselection, _, -, _, -, environmentRequirements, henvironment, _, -, _, -, _, hbindings, hmanifest⟩ := h
  obtain rfl := Except.ok.inj hmanifest
  have hentries : ∃ v, parseSelectedInputs nfc v = some selection.entries := by
    have hread := required_ok hselection
    unfold parseSelection at hread
    simp only [↓bind_some_iff] at hread
    obtain ⟨_, -, _, -, _, -, _, hentries, hread⟩ := hread
    obtain rfl := Option.some.inj hread
    exact ⟨_, hentries⟩
  obtain ⟨v, hentries⟩ := hentries
  obtain ⟨-, hlength, hidentities⟩ := (parseSelectedInputs_iff _ _).mp hentries
  obtain ⟨-, -, -, hcount, hordered⟩ := (parseEnvironmentRequirements_iff _ _).mp (required_ok henvironment)
  exact ⟨⟨hlength, hidentities, hcount, hordered⟩, rfl, required_ok hbindings⟩

/-- Which inputs are sealed does not depend on the digest. -/
theorem seal_accepted (sha256 sha256' : List Byte → Digest) (input : SealNodeInputManifestInput)
    (manifest : NodeInputManifest nfc) (h : sealNodeInputManifest nfc sha256 input = .ok manifest) :
    sealNodeInputManifest nfc sha256' input = .ok (freezeManifest sha256' manifest.body) := by
  simp only [sealNodeInputManifest, ↓except_bind_iff] at h ⊢
  obtain ⟨_, hselection, _, hauthority, _, hruntime, _, henvironment, _, hepoch, _, hverdict, _, hbindings, hmanifest⟩ := h
  obtain rfl := Except.ok.inj hmanifest
  exact ⟨_, hselection, _, hauthority, _, hruntime, _, henvironment, _, hepoch, _, hverdict, _, hbindings, rfl⟩

/-! ### Revalidation -/

/-- Every witness, every entry and the epoch of the manifest stand as they were sealed. -/
structure StillCurrent (body : NodeInputManifestBody nfc) (facts : List (CurrentWitnessFact nfc))
    (predecessors : List (CurrentPredecessorFact nfc)) (epoch : SealedGraphEpoch nfc) : Prop where
  witnesses : ∀ binding ∈ body.witnessBindings, ∃ fact ∈ facts, fact.witnessRef = binding.witnessRef
    ∧ fact.witnessVersion = binding.witnessVersion ∧ fact.witnessDigest = binding.witnessDigest
  predecessors : ∀ entry ∈ body.entries, ∃ fact ∈ predecessors, fact.artifactIdentity = entry.artifactIdentity
    ∧ fact.sha256 = entry.sha256 ∧ fact.producerAdoptionRef = entry.producerAdoptionRef
  sameRevision : epoch.graphRevisionRef = body.graphEpoch.graphRevisionRef
  sameEpoch : epoch.graphEpoch = body.graphEpoch.graphEpoch
  sameVersion : epoch.bindingVersion = body.graphEpoch.bindingVersion

theorem checkBinding_ok (facts : List (CurrentWitnessFact nfc)) (hfacts : (facts.map fun fact => fact.witnessRef.val).Nodup)
    (binding : SealedWitnessBinding nfc) :
    checkBinding facts binding = .ok () ↔ ∃ fact ∈ facts, fact.witnessRef = binding.witnessRef
      ∧ fact.witnessVersion = binding.witnessVersion ∧ fact.witnessDigest = binding.witnessDigest := by
  unfold checkBinding
  dsimp only
  constructor
  · intro h
    split at h
    · cases h
    rename_i fact hfact
    split at h
    · cases h
    rename_i hsame
    have href := List.find?_some hfact
    exact ⟨fact, List.mem_of_find?_eq_some hfact, Subtype.ext (of_decide_eq_true href), by tauto, by tauto⟩
  · rintro ⟨fact, hmem, href, hversion, hdigest⟩
    have hfind := find_key_of_mem (fun fact : CurrentWitnessFact nfc => fact.witnessRef.val) facts hfacts fact hmem
    rw [href] at hfind
    simp only [hfind]
    rw [if_neg (by rw [hversion, hdigest]; tauto)]

theorem checkEntry_ok (predecessors : List (CurrentPredecessorFact nfc))
    (hfacts : (predecessors.map fun fact => fact.artifactIdentity.val).Nodup) (entry : SelectedInput nfc) :
    checkEntry predecessors entry = .ok () ↔ ∃ fact ∈ predecessors, fact.artifactIdentity = entry.artifactIdentity
      ∧ fact.sha256 = entry.sha256 ∧ fact.producerAdoptionRef = entry.producerAdoptionRef := by
  unfold checkEntry
  dsimp only
  constructor
  · intro h
    split at h
    · cases h
    rename_i fact hfact
    split at h
    · cases h
    rename_i hsame
    have hidentity := List.find?_some hfact
    exact ⟨fact, List.mem_of_find?_eq_some hfact, Subtype.ext (of_decide_eq_true hidentity), by tauto, by tauto⟩
  · rintro ⟨fact, hmem, hidentity, hsha256, hadoption⟩
    have hfind := find_key_of_mem (fun fact : CurrentPredecessorFact nfc => fact.artifactIdentity.val) predecessors hfacts fact
      hmem
    rw [hidentity] at hfind
    simp only [hfind]
    rw [if_neg (by rw [hsha256, hadoption]; tauto)]

theorem epochMoved_iff (sealed current : SealedGraphEpoch nfc) :
    epochMoved sealed current = false ↔ current.graphRevisionRef = sealed.graphRevisionRef
      ∧ current.graphEpoch = sealed.graphEpoch ∧ current.bindingVersion = sealed.bindingVersion := by
  unfold epochMoved
  simp only [Bool.or_eq_false_iff, decide_eq_false_iff_not, not_not, ne_eq]
  tauto

theorem revalidate_iff (sha256 : List Byte → Digest) (input : RevalidateSealedManifestInput) (manifest : NodeInputManifest nfc)
    (facts : List (CurrentWitnessFact nfc)) (predecessors : List (CurrentPredecessorFact nfc)) (epoch : SealedGraphEpoch nfc)
    (hmanifest : parseSealedManifest nfc input.manifest = some manifest)
    (hdigests : sealDigests sha256 manifest.body = manifest.digests)
    (hfacts : parseCurrentWitnessFacts nfc input.currentWitnessFacts = some facts)
    (hpredecessors : parseCurrentPredecessors nfc input.currentPredecessors = some predecessors)
    (hepoch : parseGraphEpoch nfc input.currentGraphEpoch = some epoch) :
    revalidateSealedManifest nfc sha256 input = .ok () ↔ StillCurrent manifest.body facts predecessors epoch := by
  obtain ⟨-, -, -, -, hrefs⟩ := (distinctItems_some_iff _ _ _ _ _).mp hfacts
  obtain ⟨-, -, -, -, hidentities⟩ := (distinctItems_some_iff _ _ _ _ _).mp hpredecessors
  have hcurrent : StillCurrent manifest.body facts predecessors epoch ↔
      manifest.body.witnessBindings.forM (checkBinding facts) = .ok ()
        ∧ manifest.body.entries.forM (checkEntry predecessors) = .ok ()
        ∧ epochMoved manifest.body.graphEpoch epoch = false := by
    rw [forM_ok_iff, forM_ok_iff, epochMoved_iff]
    simp only [checkBinding_ok facts hrefs, checkEntry_ok predecessors hidentities]
    exact ⟨fun h => ⟨h.witnesses, h.predecessors, h.sameRevision, h.sameEpoch, h.sameVersion⟩,
      fun ⟨hw, hp, hr, he, hv⟩ => ⟨hw, hp, hr, he, hv⟩⟩
  rw [hcurrent]
  unfold revalidateSealedManifest
  rw [hmanifest]
  simp only [hfacts, hpredecessors, hepoch, required, bind, Except.bind, hdigests, ne_eq, not_true_eq_false, if_false]
  cases manifest.body.witnessBindings.forM (checkBinding facts) with
  | error f => simp
  | ok =>
    cases manifest.body.entries.forM (checkEntry predecessors) with
    | error f => simp
    | ok => cases epochMoved manifest.body.graphEpoch epoch <;> simp

/-- A manifest that keeps the binding hash and changes anything else that it states is refused. -/
theorem tampered_refused (sha256 : List Byte → Digest) (input : RevalidateSealedManifestInput) (manifest : NodeInputManifest nfc)
    (hsealed : sealDigests sha256 manifest.body = manifest.digests)
    (hhash : ∀ fields, exactRecord input.manifest manifestKeys = some fields →
      fields.field "inputBindingHash" = .string manifest.digests.inputBindingHash)
    (hfree : ∀ manifest', parseSealedManifest nfc input.manifest = some manifest' → ¬ Collides sha256 manifest manifest')
    (hchanged : ¬ Written manifest input.manifest) :
    revalidateSealedManifest nfc sha256 input = .error malformedManifest
      ∨ revalidateSealedManifest nfc sha256 input = .error uncoveredManifest := by
  unfold revalidateSealedManifest
  cases hread : parseSealedManifest nfc input.manifest with
  | none => exact .inl rfl
  | some manifest' =>
    obtain ⟨hwritten, -, -⟩ := (parseSealedManifest_iff _ _).mp hread
    by_cases hsealed' : sealDigests sha256 manifest'.body = manifest'.digests
    · have hfields : manifest.digests.inputBindingHash = manifest'.digests.inputBindingHash := by
        obtain ⟨entries, bindings, environment, epoch, hfields, -⟩ := hwritten
        have hfield := hhash _ hfields
        simp only [manifestFields, Fields.field_cons, String.reduceEq, if_true, if_false] at hfield
        exact Subtype.ext (Value.string.inj hfield).symm
      have hsame := manifest_eq_of_hash sha256 manifest manifest' hsealed hsealed' (hfree manifest' hread) hfields
      exact absurd (hsame ▸ hwritten) hchanged
    · refine .inr ?_
      simp only [required, bind, Except.bind]
      exact if_pos hsealed'

/-! ### The law of a seal -/

/-- A sealed manifest is read back, its digests hold, and it may dispatch exactly while all it states is current. -/
structure Revalidates (sha256 : List Byte → Digest) (manifest : NodeInputManifest nfc) : Prop where
  accepted : parseSealedManifest nfc manifest.toValue = some manifest
  verified : sealDigests sha256 manifest.body = manifest.digests
  current : ∀ (input : RevalidateSealedManifestInput) (facts : List (CurrentWitnessFact nfc))
    (predecessors : List (CurrentPredecessorFact nfc)) (epoch : SealedGraphEpoch nfc), input.manifest = manifest.toValue →
    parseCurrentWitnessFacts nfc input.currentWitnessFacts = some facts →
    parseCurrentPredecessors nfc input.currentPredecessors = some predecessors →
    parseGraphEpoch nfc input.currentGraphEpoch = some epoch →
    (revalidateSealedManifest nfc sha256 input = .ok () ↔ StillCurrent manifest.body facts predecessors epoch)

/-- No value that keeps the binding hash, differs from the manifest and forges no digest passes. -/
def RefusesTampering (sha256 : List Byte → Digest) (manifest : NodeInputManifest nfc) : Prop :=
  ∀ input : RevalidateSealedManifestInput,
    (∀ fields, exactRecord input.manifest manifestKeys = some fields →
      fields.field "inputBindingHash" = .string manifest.digests.inputBindingHash) →
    (∀ manifest', parseSealedManifest nfc input.manifest = some manifest' → ¬ Collides sha256 manifest manifest') →
    ¬ Written manifest input.manifest →
    ∃ failure, revalidateSealedManifest nfc sha256 input = .error failure ∧ failure.code = .MANIFEST_TAMPERED

/-- A seal keeps what it promises exactly when no more witnesses are declared than a manifest may list. -/
theorem sealed_revalidates_iff (sha256 : List Byte → Digest) (input : SealNodeInputManifestInput) (items : List Value)
    (contracts : List (MirroredDependencyContract nfc)) (manifest : NodeInputManifest nfc)
    (hcontracts : input.contracts = .array items) (hparsed : items.mapM (parseMirroredDependencyContract nfc) = some contracts)
    (hsealed : sealNodeInputManifest nfc sha256 input = .ok manifest) :
    Revalidates sha256 manifest ∧ RefusesTampering sha256 manifest ↔
      (witnessRefs contracts).dedup.length ≤ maxMaterializationWitnesses := by
  obtain ⟨hsealable, hdigests, hcollected⟩ := sealNodeInputManifest_ok sha256 input manifest hsealed
  rw [hcontracts] at hcollected
  have hlength := collectWitnessBindings_length items contracts manifest.body.witnessBindings hparsed hcollected
  rw [← hlength]
  constructor
  · rintro ⟨hrevalidates, -⟩
    exact ((parseSealedManifest_iff _ _).mp hrevalidates.accepted).2.2
  · intro hshort
    have haccepted := (parseSealedManifest_iff _ _).mpr ⟨written_toValue manifest, hsealable, hshort⟩
    refine ⟨⟨haccepted, hdigests, fun revalidated facts predecessors epoch hvalue hfacts hpredecessors hepoch => ?_⟩, ?_⟩
    · exact revalidate_iff sha256 revalidated manifest facts predecessors epoch (hvalue ▸ haccepted) hdigests hfacts
        hpredecessors hepoch
    · intro revalidated hhash hfree hchanged
      obtain hrefused | hrefused := tampered_refused sha256 revalidated manifest hdigests hhash hfree hchanged
      · exact ⟨_, hrefused, rfl⟩
      · exact ⟨_, hrefused, rfl⟩

theorem written_length {manifest manifest' : NodeInputManifest nfc} (h : Written manifest' manifest.toValue) :
    manifest'.body.witnessBindings.length = manifest.body.witnessBindings.length := by
  obtain ⟨entries, bindings, environment, epoch, hfields, -, hbindings, -⟩ := h
  have hown : exactRecord manifest.toValue manifestKeys = some _ :=
    exactRecord_recordOf _ (show (manifestKeys.map lit).Nodup by decide)
  have hsame := congrArg (fun fields => Fields.field fields "witnessBindings") (Option.some.inj (hown.symm.trans hfields))
  simp only [manifestFields, Fields.field_cons, String.reduceEq, if_true, if_false, Value.array.injEq] at hsame
  rw [← hbindings.length_eq, ← hsame, List.length_map]

/-! ### A seal that holds, and one witness too many -/

def sampleEntry : Value := recordOf
  [("artifactIdentity", .string [120]), ("sha256", .string (List.replicate 64 48)), ("byteLength", integer 1),
    ("producerNodeKey", .string [97]), ("producerResultRef", .string [114]), ("producerAttemptRef", .string [116]),
    ("producerEpoch", integer 1), ("producerAdoptionRef", .string [100])]

def sampleProof : Value := recordOf
  [("predicateRef", .string [112]), ("schemaId", .string [115]), ("schemaVersion", integer 1),
    ("sourceOperationClass", .string (lit "ARTIFACT_SEAL"))]

def sampleSeal (contracts : List Value) : SealNodeInputManifestInput where
  selection := recordOf [("baseIdentity", .string (List.replicate 40 48)), ("requiredMilestone", .string (lit "ACCEPTED")),
    ("entries", .array [sampleEntry])]
  contracts := .array contracts
  monotonicRegistry := .array [sampleProof]
  currentWitnessFacts := .array []
  environmentRequirements := .array [.string [110], .string [101]]
  nodeAuthorityHash := .string (List.replicate 64 49)
  providerRuntimeSha256 := .null
  graphEpoch := recordOf [("graphRevisionRef", .string [103]), ("graphEpoch", integer 1), ("bindingVersion", integer 1)]

/-- As many witnesses as asked for, at one version and digest, with a character each from U+0100 on. -/
def sampleWitnesses (first count : ℕ) : List Value :=
  (List.range count).map fun i => sampleWitness [Fin.ofNat 65536 (256 + first + i)] 1

def fittingContracts : List Value := [sampleContract [97] [99] .MONOTONIC (sampleWitnesses 0 2)]

def overfullContracts : List Value :=
  [sampleContract [97] [99] .MONOTONIC (sampleWitnesses 0 128), sampleContract [98] [99] .MONOTONIC (sampleWitnesses 128 1)]

def fittingParsed : List (MirroredDependencyContract id) := fittingContracts.filterMap (parseMirroredDependencyContract id)

def sampleBody : NodeInputManifestBody id where
  baseIdentity := ⟨List.replicate 40 48, by decide⟩
  requiredMilestone := .ACCEPTED
  entries := [⟨⟨[120], by decide⟩, ⟨List.replicate 64 48, isDigest_zeros⟩, ⟨1, isCount_one⟩, ⟨[97], by decide⟩,
    ⟨[114], by decide⟩,
    ⟨[116], by decide⟩, ⟨1, isCount_one⟩, ⟨[100], by decide⟩⟩]
  witnessBindings := [⟨⟨[256], by decide⟩, ⟨1, isCount_one⟩, ⟨List.replicate 64 48, isDigest_zeros⟩⟩,
    ⟨⟨[257], by decide⟩, ⟨1, isCount_one⟩, ⟨List.replicate 64 48, isDigest_zeros⟩⟩]
  environmentRequirements := [⟨[101], by decide⟩, ⟨[110], by decide⟩]
  graphEpoch := ⟨⟨[103], by decide⟩, ⟨1, isCount_one⟩, ⟨1, isCount_one⟩⟩
  nodeAuthorityHash := ⟨List.replicate 64 49, by decide⟩
  providerRuntimeSha256 := none

def sampleSealed : SealedDigests where
  inputTreeDigest := ⟨lit "d187fef82d28cc7fc3ad9e84c3244d0ff2d96bbb14e1daaa6bb34d80867d8c14", by decide⟩
  manifestSha256 := ⟨lit "35b994632812aa701a1846c97e7ffc08cbbe9f2750faf52d163664ee87c4297b", by decide⟩
  inputBindingHash := ⟨lit "576a9949ef3290ac5aa3a8bfbc55bd46cb4f3891e46c92bd270ae71f05f19eee", by decide⟩

def sampleManifest : NodeInputManifest id := ⟨sampleBody, sampleSealed⟩

/-- The digests of the three texts of the sample. -/
def sealSha256 (bytes : List Byte) : Digest :=
  (((digestTexts sampleManifest).zip [sampleSealed.inputTreeDigest, sampleSealed.manifestSha256,
    sampleSealed.inputBindingHash]).find? fun e => e.1 = bytes).elim ⟨List.replicate 64 48, isDigest_zeros⟩
      Prod.snd

theorem samples_sealed :
    fittingContracts.mapM (parseMirroredDependencyContract id) = some fittingParsed
      ∧ sealNodeInputManifest id sealSha256 (sampleSeal fittingContracts) = .ok sampleManifest
      ∧ (sealNodeInputManifest id sealSha256 (sampleSeal overfullContracts)).isOk = true
      ∧ (collectWitnessBindings id (.array overfullContracts)).map List.length = some 129 := by
  decide +kernel

theorem sample_revalidates :
    Revalidates sealSha256 sampleManifest ∧ RefusesTampering sealSha256 sampleManifest ↔
      (witnessRefs fittingParsed).dedup.length ≤ maxMaterializationWitnesses :=
  sealed_revalidates_iff sealSha256 (sampleSeal fittingContracts) fittingContracts fittingParsed sampleManifest rfl
    samples_sealed.1 samples_sealed.2.1

/-- Under every digest the seal is accepted, and its own manifest is refused as tampered, whatever is current. -/
def RefusesOwnSeal (input : SealNodeInputManifestInput) : Prop :=
  ∀ sha256, ∃ manifest, sealNodeInputManifest id sha256 input = .ok manifest ∧ parseSealedManifest id manifest.toValue = none
    ∧ (∀ facts predecessors epoch, revalidateSealedManifest id sha256 ⟨manifest.toValue, facts, predecessors, epoch⟩ =
      .error malformedManifest)
    ∧ ¬ (Revalidates sha256 manifest ∧ RefusesTampering sha256 manifest)

/-- One witness too many. -/
theorem overfull_seal_refused : RefusesOwnSeal (sampleSeal overfullContracts) := by
  intro sha256
  obtain ⟨-, -, hsealed, hlength⟩ := samples_sealed
  obtain ⟨manifest, hsealing⟩ : ∃ manifest, sealNodeInputManifest id sha256 (sampleSeal overfullContracts) = .ok manifest := by
    cases hsample : sealNodeInputManifest id sealSha256 (sampleSeal overfullContracts) with
    | error f =>
      rw [hsample] at hsealed
      cases hsealed
    | ok sealed => exact ⟨_, seal_accepted sealSha256 sha256 _ sealed hsample⟩
  obtain ⟨-, -, hcollected⟩ := sealNodeInputManifest_ok sha256 (sampleSeal overfullContracts) manifest hsealing
  obtain ⟨bindings, hbindings, hcount⟩ := Option.map_eq_some_iff.mp hlength
  obtain rfl : bindings = manifest.body.witnessBindings := Option.some.inj (hbindings.symm.trans hcollected)
  have hunread : parseSealedManifest id manifest.toValue = none := by
    cases hread : parseSealedManifest id manifest.toValue with
    | none => rfl
    | some manifest' =>
      obtain ⟨hwritten, -, hshort⟩ := (parseSealedManifest_iff _ _).mp hread
      rw [written_length hwritten, hcount] at hshort
      exact absurd hshort (by decide)
  refine ⟨manifest, hsealing, hunread, fun facts predecessors epoch => ?_, fun hlaw => ?_⟩
  · unfold revalidateSealedManifest
    rw [hunread]
    rfl
  · have haccepted := hlaw.1.accepted
    rw [hunread] at haccepted
    cases haccepted

end MoeNG.Materialization
