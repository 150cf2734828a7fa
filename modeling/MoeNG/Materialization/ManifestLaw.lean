import Mathlib.Data.List.Forall2
import MoeNG.Materialization.Manifest
import MoeNG.Materialization.SelectionLaw

/-!
# What a sealed manifest says
-/

namespace MoeNG.Materialization
open MoeNG.Kernel hiding refOf digestOf countOf isCount isRef refOf_string digestOf_string countOf_integer
open MoeNG.Lib MoeNG.Supervisor

variable {nfc : JsString → JsString}

/-! ### Readers -/

theorem graphKeyOf_some {v : Value} {key : GraphKey} (h : graphKeyOf v = some key) : v = .string key := by
  cases v with
  | string t =>
    by_cases hkey : isMirroredGraphKey t = true
    · obtain rfl := Option.some.inj ((dif_pos hkey).symm.trans h)
      rfl
    · cases (dif_neg hkey).symm.trans h
  | _ => cases h

theorem commitOf_some {v : Value} {commit : CommitIdentity} (h : commitOf v = some commit) : v = .string commit := by
  cases v with
  | string t =>
    by_cases hcommit : isCommitIdentity t = true
    · obtain rfl := Option.some.inj ((dif_pos hcommit).symm.trans h)
      rfl
    · cases (dif_neg hcommit).symm.trans h
  | _ => cases h

theorem providerRuntimeOf_some {v : Value} {runtime : Option Digest} (h : providerRuntimeOf v = some runtime) :
    v = orNull digestValue runtime := by
  unfold providerRuntimeOf at h
  split at h
  · obtain rfl := Option.some.inj h
    rfl
  · obtain ⟨digest, hdigest, rfl⟩ := Option.map_eq_some_iff.mp h
    exact digestOf_some hdigest

theorem providerRuntimeOf_orNull (runtime : Option Digest) : providerRuntimeOf (orNull digestValue runtime) = some runtime := by
  cases runtime with
  | none => rfl
  | some digest => exact congrArg (Option.map some) (digestOf_string digest)

theorem oneOf_milestone (milestone : QualifyingMilestone) :
    oneOf QualifyingMilestone.text qualifyingMilestones (milestoneValue milestone) = some milestone := by
  cases milestone <;> decide

theorem oneOf_manifestVersion : oneOf id [nodeInputManifestVersion] manifestVersionValue = some nodeInputManifestVersion := by
  decide

theorem distinctItems_some_iff {A K : Type} [DecidableEq K] (parse : Value → Option A) (key : A → K) (maximum : ℕ)
    (value : Value) (out : List A) :
    distinctItems parse key maximum value = some out ↔
      ∃ items, value = .array items ∧ items.length ≤ maximum ∧ List.Forall₂ (fun v a => parse v = some a) items out
        ∧ (out.map key).Nodup := by
  unfold distinctItems
  constructor
  · intro h
    obtain ⟨items, hitems, hread⟩ := Option.bind_eq_some_iff.mp h
    obtain ⟨rfl, hlength⟩ := boundedItems_some hitems
    obtain ⟨output, houtput, hchecked⟩ := Option.bind_eq_some_iff.mp hread
    split at hchecked
    · cases hchecked
    rename_i hdistinct
    obtain rfl := Option.some.inj hchecked
    exact ⟨items, rfl, hlength, (mapM_some_forall₂ _ _ _).mp houtput,
      (hasDuplicates_eq_false _).mp (Bool.eq_false_iff.mpr hdistinct)⟩
  · rintro ⟨items, rfl, hlength, hread, hdistinct⟩
    have hbounded : boundedItems (.array items) maximum = some items := by
      rw [boundedItems_array, if_neg (by omega)]
    refine Option.bind_eq_some_iff.mpr ⟨items, hbounded, Option.bind_eq_some_iff.mpr ⟨out, ?_, ?_⟩⟩
    · exact (mapM_some_forall₂ _ _ _).mpr hread
    · rw [if_neg (by rw [(hasDuplicates_eq_false _).mpr hdistinct]; nofun)]

/-! ### Entries, bindings and epochs -/

def EntryWritten (v : Value) (entry : SelectedInput nfc) : Prop :=
  ∃ byteLength, exactRecord v selectedInputKeys = some (entryFields byteLength entry)
    ∧ byteCountOf byteLength = some entry.byteLength

theorem parseSelectedInput_iff (v : Value) (entry : SelectedInput nfc) :
    parseSelectedInput nfc v = some entry ↔ EntryWritten v entry := by
  unfold parseSelectedInput
  constructor
  · intro h
    simp only [↓Lib.bind_some_iff, Option.pure_def, Option.some.injEq] at h
    obtain ⟨fields, hfields, _, hidentity, _, hsha256, byteLength, hlength, _, hkey, _, hresult, _, hattempt, _, hepoch, _,
      hadoption, rfl⟩ := h
    refine ⟨fields.field "byteLength", ?_, hlength⟩
    rw [hfields]
    refine congrArg some ((eq_fields fields selectedInputKeys (exactRecord_keys _ _ _ hfields) (by decide)).trans ?_)
    simp only [selectedInputKeys, List.map_cons, List.map_nil, entryFields, refOf_some hidentity, digestOf_some hsha256,
      graphKeyOf_some hkey, refOf_some hresult, refOf_some hattempt, countOf_some hepoch, refOf_some hadoption]
  · rintro ⟨byteLength, hfields, hlength⟩
    simp only [↓Lib.bind_some_iff]
    refine ⟨_, hfields, ?_⟩
    simp only [entryFields, Fields.field_cons, String.reduceEq, if_true, if_false, refOf_string, digestOf_string,
      countOf_integer, graphKeyOf_string, hlength, Option.pure_def, Option.some.injEq, exists_eq_left']

theorem entryWritten_toValue (entry : SelectedInput nfc) : EntryWritten entry.toValue entry :=
  ⟨integer entry.byteLength, exactRecord_recordOf _ (show (selectedInputKeys.map lit).Nodup by decide),
    byteCountOf_integer entry.byteLength⟩

theorem parseSealedWitnessBinding_iff (v : Value) (binding : SealedWitnessBinding nfc) :
    parseSealedWitnessBinding nfc v = some binding ↔ exactRecord v witnessBindingKeys = some (witnessBindingFields binding) := by
  unfold parseSealedWitnessBinding
  constructor
  · intro h
    simp only [↓Lib.bind_some_iff, Option.pure_def, Option.some.injEq] at h
    obtain ⟨fields, hfields, _, href, _, hversion, _, hdigest, rfl⟩ := h
    rw [hfields]
    refine congrArg some ((eq_fields fields witnessBindingKeys (exactRecord_keys _ _ _ hfields) (by decide)).trans ?_)
    simp only [witnessBindingKeys, List.map_cons, List.map_nil, witnessBindingFields, refOf_some href, countOf_some hversion,
      digestOf_some hdigest]
  · intro hfields
    rw [hfields]
    simp only [witnessBindingFields, Fields.field_cons, String.reduceEq, if_true, if_false, Option.bind_eq_bind,
      Option.bind_some, refOf_string, digestOf_string, countOf_integer, Option.pure_def]

theorem parseGraphEpoch_iff (v : Value) (epoch : SealedGraphEpoch nfc) :
    parseGraphEpoch nfc v = some epoch ↔ exactRecord v graphEpochKeys = some (graphEpochFields epoch) := by
  unfold parseGraphEpoch
  constructor
  · intro h
    simp only [↓Lib.bind_some_iff, Option.pure_def, Option.some.injEq] at h
    obtain ⟨fields, hfields, _, href, _, hepoch, _, hversion, rfl⟩ := h
    rw [hfields]
    refine congrArg some ((eq_fields fields graphEpochKeys (exactRecord_keys _ _ _ hfields) (by decide)).trans ?_)
    simp only [graphEpochKeys, List.map_cons, List.map_nil, graphEpochFields, refOf_some href, countOf_some hepoch,
      countOf_some hversion]
  · intro hfields
    rw [hfields]
    simp only [graphEpochFields, Fields.field_cons, String.reduceEq, if_true, if_false, Option.bind_eq_bind,
      Option.bind_some, refOf_string, countOf_integer, Option.pure_def]

theorem parseEnvironmentRequirements_iff (v : Value) (refs : List (Ref nfc)) :
    parseEnvironmentRequirements nfc v = some refs ↔
      ∃ items, v = .array items ∧ items.Perm (refs.map refValue) ∧ refs.length ≤ maxEnvironmentRequirements
        ∧ refs.Pairwise fun a b => a.val < b.val := by
  unfold parseEnvironmentRequirements
  have hvalues (items : List Value) (out : List (Ref nfc)) (h : List.Forall₂ (fun v a => refOf nfc v = some a) items out) :
      items = out.map refValue := by
    induction h with
    | nil => rfl
    | cons hhead _ ih => rw [List.map_cons, ← ih, refOf_some hhead]; rfl
  constructor
  · intro h
    obtain ⟨out, hout, h⟩ := Option.bind_eq_some_iff.mp h
    obtain rfl := Option.some.inj h
    obtain ⟨items, rfl, hlength, hread, hdistinct⟩ := (distinctItems_some_iff _ _ _ _ _).mp hout
    have hperm := sortByRef_perm (fun ref : Ref nfc => ref.val) out
    refine ⟨items, rfl, ?_, ?_, sortByRef_strict _ out ((hasDuplicates_eq_false _).mpr hdistinct)⟩
    · rw [hvalues items out hread]
      exact (hperm.map refValue).symm
    · rw [hperm.length_eq, ← hread.length_eq]
      exact hlength
  · rintro ⟨items, rfl, hperm, hlength, hsorted⟩
    have hread : (refs.map refValue).mapM (refOf nfc) = some refs := by
      rw [List.mapM_map]
      exact mapM_eq_some _ refs fun ref _ => refOf_string ref
    obtain ⟨out, hout, hsame⟩ := mapM_perm _ _ items refs hperm hread
    have hdistinct : (refs.map fun ref => ref.val).Nodup := List.pairwise_map.mpr (hsorted.imp fun hlt => ne_of_lt hlt)
    refine Option.bind_eq_some_iff.mpr ⟨out, ?_, congrArg some ?_⟩
    · refine (distinctItems_some_iff _ _ _ _ _).mpr ⟨items, rfl, ?_, (mapM_some_forall₂ _ _ _).mp hout, ?_⟩
      · rw [hperm.length_eq, List.length_map]
        exact hlength
      · exact (hsame.map _).nodup_iff.mpr hdistinct
    · rw [sortByRef_congr _ hsame ((hasDuplicates_eq_false _).mpr hdistinct)]
      exact (hsorted.imp fun hlt => le_of_lt hlt).insertionSort_eq

/-! ### Manifests -/

/-- The value holds the fields of the manifest; its environment requirements may stand in another order. -/
def Written (manifest : NodeInputManifest nfc) (v : Value) : Prop :=
  ∃ entries bindings environment epoch,
    exactRecord v manifestKeys = some (manifestFields (.array entries) (.array bindings) (.array environment) epoch manifest)
      ∧ List.Forall₂ EntryWritten entries manifest.body.entries
      ∧ List.Forall₂ (fun v binding => exactRecord v witnessBindingKeys = some (witnessBindingFields binding)) bindings
        manifest.body.witnessBindings
      ∧ environment.Perm (manifest.body.environmentRequirements.map refValue)
      ∧ exactRecord epoch graphEpochKeys = some (graphEpochFields manifest.body.graphEpoch)

/-- What the sealer establishes of every body, whatever its witnesses. -/
structure Sealable (body : NodeInputManifestBody nfc) : Prop where
  entries : body.entries.length ≤ maxSelectedInputs
  identities : (body.entries.map fun entry => entry.artifactIdentity.val).Nodup
  environment : body.environmentRequirements.length ≤ maxEnvironmentRequirements
  ordered : body.environmentRequirements.Pairwise fun a b => a.val < b.val

theorem parseSelectedInputs_iff (v : Value) (entries : List (SelectedInput nfc)) :
    parseSelectedInputs nfc v = some entries ↔
      (∃ items, v = .array items ∧ List.Forall₂ EntryWritten items entries) ∧ entries.length ≤ maxSelectedInputs
        ∧ (entries.map fun entry => entry.artifactIdentity.val).Nodup := by
  unfold parseSelectedInputs
  simp only [distinctItems_some_iff, parseSelectedInput_iff]
  constructor
  · rintro ⟨items, hv, hlength, hread, hdistinct⟩
    exact ⟨⟨items, hv, hread⟩, hread.length_eq ▸ hlength, hdistinct⟩
  · rintro ⟨⟨items, hv, hread⟩, hlength, hdistinct⟩
    exact ⟨items, hv, hread.length_eq ▸ hlength, hread, hdistinct⟩

theorem parseSealedWitnessBindings_iff (v : Value) (bindings : List (SealedWitnessBinding nfc)) :
    parseSealedWitnessBindings nfc v = some bindings ↔
      (∃ items, v = .array items ∧ List.Forall₂
        (fun v binding => exactRecord v witnessBindingKeys = some (witnessBindingFields binding)) items bindings)
        ∧ bindings.length ≤ maxMaterializationWitnesses := by
  unfold parseSealedWitnessBindings
  constructor
  · intro h
    obtain ⟨items, hitems, hread⟩ := Option.bind_eq_some_iff.mp h
    obtain ⟨rfl, hlength⟩ := boundedItems_some hitems
    have hread := (mapM_some_forall₂ _ _ _).mp hread
    simp only [parseSealedWitnessBinding_iff] at hread
    exact ⟨⟨items, rfl, hread⟩, hread.length_eq ▸ hlength⟩
  · rintro ⟨⟨items, rfl, hread⟩, hlength⟩
    have hbounded : boundedItems (.array items) maxMaterializationWitnesses = some items := by
      rw [boundedItems_array, if_neg (by rw [hread.length_eq]; omega)]
    refine Option.bind_eq_some_iff.mpr ⟨items, hbounded, (mapM_some_forall₂ _ _ _).mpr ?_⟩
    simp only [parseSealedWitnessBinding_iff]
    exact hread

theorem parseSealedManifest_iff (v : Value) (manifest : NodeInputManifest nfc) :
    parseSealedManifest nfc v = some manifest ↔
      Written manifest v ∧ Sealable manifest.body ∧ manifest.body.witnessBindings.length ≤ maxMaterializationWitnesses := by
  unfold parseSealedManifest
  constructor
  · intro h
    simp only [↓Lib.bind_some_iff, Option.pure_def, Option.some.injEq] at h
    obtain ⟨fields, hfields, version, hversion, entries, hentries, _, hbindings, graphEpoch, hepoch, _, henvironment, _,
      hbase, _, hmilestone, _, hauthority, _, htree, _, hmanifest, _, hbinding, _, hruntime, rfl⟩ := h
    obtain ⟨⟨entryItems, hentryItems, hentriesRead⟩, hentriesLength, hidentities⟩ := (parseSelectedInputs_iff _ _).mp hentries
    obtain ⟨⟨bindingItems, hbindingItems, hbindingsRead⟩, hbindingsLength⟩ := (parseSealedWitnessBindings_iff _ _).mp hbindings
    obtain ⟨environment, henvironmentItems, hperm, hlength, hordered⟩ := (parseEnvironmentRequirements_iff _ _).mp henvironment
    refine ⟨⟨entryItems, bindingItems, environment, fields.field "graphEpoch", ?_, hentriesRead, hbindingsRead, hperm,
      (parseGraphEpoch_iff _ _).mp hepoch⟩, ⟨hentriesLength, hidentities, hlength, hordered⟩, hbindingsLength⟩
    obtain rfl : version = nodeInputManifestVersion := List.mem_singleton.mp (oneOf_mem hversion)
    rw [hfields]
    refine congrArg some ((eq_fields fields manifestKeys (exactRecord_keys _ _ _ hfields) (by decide)).trans ?_)
    simp only [manifestKeys, List.map_cons, List.map_nil, manifestFields, oneOf_some hversion, commitOf_some hbase,
      oneOf_some hmilestone, hentryItems, hbindingItems, henvironmentItems, digestOf_some hauthority,
      providerRuntimeOf_some hruntime, digestOf_some htree, digestOf_some hmanifest, digestOf_some hbinding,
      manifestVersionValue, milestoneValue, id]
  · rintro ⟨⟨entries, bindings, environment, epoch, hfields, hentries, hbindings, henvironment, hepoch⟩, hsealable, hlength⟩
    have hentriesRead := (parseSelectedInputs_iff (.array entries) _).mpr
      ⟨⟨entries, rfl, hentries⟩, hsealable.entries, hsealable.identities⟩
    have hbindingsRead := (parseSealedWitnessBindings_iff (.array bindings) _).mpr ⟨⟨bindings, rfl, hbindings⟩, hlength⟩
    have henvironmentRead := (parseEnvironmentRequirements_iff (.array environment) _).mpr
      ⟨environment, rfl, henvironment, hsealable.environment, hsealable.ordered⟩
    simp only [↓Lib.bind_some_iff]
    refine ⟨_, hfields, ?_⟩
    simp only [manifestFields, Fields.field_cons, String.reduceEq, if_true, if_false, oneOf_manifestVersion, hentriesRead,
      hbindingsRead, henvironmentRead, (parseGraphEpoch_iff _ _).mpr hepoch, commitOf_string, oneOf_milestone,
      digestOf_string, providerRuntimeOf_orNull, Option.pure_def, Option.some.injEq, exists_eq_left']

theorem written_toValue (manifest : NodeInputManifest nfc) : Written manifest manifest.toValue := by
  refine ⟨_, _, _, _, exactRecord_recordOf _ (show (manifestKeys.map lit).Nodup by decide), ?_, ?_, List.Perm.refl _, ?_⟩
  · rw [List.forall₂_map_left_iff, List.forall₂_same]
    exact fun entry _ => entryWritten_toValue entry
  · rw [List.forall₂_map_left_iff, List.forall₂_same]
    exact fun binding _ => exactRecord_recordOf _ (show (witnessBindingKeys.map lit).Nodup by decide)
  · exact exactRecord_recordOf _ (show (graphEpochKeys.map lit).Nodup by decide)

/-! ### Digests -/

theorem printable_integer (count : Count) : printable (integer count.val) = true := isSafeNumber_count count

theorem printable_entry (entry : SelectedInput nfc) : printable entry.toValue = true := by
  have hlength : printable (integer entry.byteLength.val) = true := isSafeNumber_of_isSafeCount _ entry.byteLength.property
  simp [SelectedInput.toValue, entryFields, printable_recordOf, hlength, printable_integer]

theorem printable_binding (binding : SealedWitnessBinding nfc) : printable binding.toValue = true := by
  simp [SealedWitnessBinding.toValue, witnessBindingFields, printable_recordOf, printable_integer]

theorem printable_epoch (epoch : SealedGraphEpoch nfc) : printable epoch.toValue = true := by
  simp [SealedGraphEpoch.toValue, graphEpochFields, printable_recordOf, printable_integer]

theorem printable_runtime (runtime : Option Digest) : printable (orNull digestValue runtime) = true := by
  cases runtime <;> rfl

theorem printable_inputTree (body : NodeInputManifestBody nfc) : printable (inputTreeDigestInput body) = true := by
  have hentries : printable (.array (body.entries.map SelectedInput.toValue)) = true := by
    simp [printable_array, printable_entry]
  simp [inputTreeDigestInput, printable_recordOf, manifestVersionValue, milestoneValue, hentries]

theorem printable_nodeInputManifest (body : NodeInputManifestBody nfc) (inputTreeDigest : Digest) :
    printable (nodeInputManifestDigestInput body inputTreeDigest) = true := by
  have hbindings : printable (.array (body.witnessBindings.map SealedWitnessBinding.toValue)) = true := by
    simp [printable_array, printable_binding]
  simp [nodeInputManifestDigestInput, printable_recordOf, manifestVersionValue, hbindings]

theorem printable_inputBinding (body : NodeInputManifestBody nfc) (inputTreeDigest manifestSha256 : Digest) :
    printable (inputBindingDigestInput body inputTreeDigest manifestSha256) = true := by
  have henvironment : printable (.array (body.environmentRequirements.map refValue)) = true := by
    refine (printable_array _).mpr fun v hv => ?_
    obtain ⟨ref, -, rfl⟩ := List.mem_map.mp hv
    rfl
  simp [inputBindingDigestInput, printable_recordOf, manifestVersionValue, henvironment, printable_runtime, printable_epoch]

theorem entry_inj (a b : SelectedInput nfc) (h : ordered a.toValue = ordered b.toValue) : a = b := by
  have hfields := ordered_recordOf_inj selectedInputKeys _ _ (by rfl) (by rfl) (by decide) h
  simp only [entryFields, Fields.ordered, List.map_cons, List.map_nil, List.cons.injEq, Prod.mk.injEq, ordered, integer,
    Value.string.injEq, Value.number.injEq, JsNumber.integer.injEq, true_and, and_true] at hfields
  obtain ⟨identity, sha256, byteLength, key, result, attempt, epoch, adoption⟩ := a
  obtain ⟨identity', sha256', byteLength', key', result', attempt', epoch', adoption'⟩ := b
  obtain ⟨hidentity, hsha256, hlength, hkey, hresult, hattempt, hepoch, hadoption⟩ := hfields
  obtain rfl := Subtype.ext hidentity
  obtain rfl := Subtype.ext hsha256
  obtain rfl := Subtype.ext hlength
  obtain rfl := Subtype.ext hkey
  obtain rfl := Subtype.ext hresult
  obtain rfl := Subtype.ext hattempt
  obtain rfl := Subtype.ext hepoch
  obtain rfl := Subtype.ext hadoption
  rfl

theorem binding_inj (a b : SealedWitnessBinding nfc) (h : ordered a.toValue = ordered b.toValue) : a = b := by
  have hfields := ordered_recordOf_inj witnessBindingKeys _ _ (by rfl) (by rfl) (by decide) h
  simp only [witnessBindingFields, Fields.ordered, List.map_cons, List.map_nil, List.cons.injEq, Prod.mk.injEq, ordered,
    integer, Value.string.injEq, Value.number.injEq, JsNumber.integer.injEq, true_and, and_true] at hfields
  obtain ⟨ref, version, digest⟩ := a
  obtain ⟨ref', version', digest'⟩ := b
  obtain ⟨href, hversion, hdigest⟩ := hfields
  obtain rfl := Subtype.ext href
  obtain rfl := Subtype.ext hversion
  obtain rfl := Subtype.ext hdigest
  rfl

theorem epoch_inj (a b : SealedGraphEpoch nfc) (h : ordered a.toValue = ordered b.toValue) : a = b := by
  have hfields := ordered_recordOf_inj graphEpochKeys _ _ (by rfl) (by rfl) (by decide) h
  simp only [graphEpochFields, Fields.ordered, List.map_cons, List.map_nil, List.cons.injEq, Prod.mk.injEq, ordered, integer,
    Value.string.injEq, Value.number.injEq, JsNumber.integer.injEq, true_and, and_true] at hfields
  obtain ⟨ref, epoch, version⟩ := a
  obtain ⟨ref', epoch', version'⟩ := b
  obtain ⟨href, hepoch, hversion⟩ := hfields
  obtain rfl := Subtype.ext href
  obtain rfl := Subtype.ext hepoch
  obtain rfl := Subtype.ext hversion
  rfl

theorem runtime_inj (a b : Option Digest) (h : ordered (orNull digestValue a) = ordered (orNull digestValue b)) : a = b := by
  cases a with
  | none =>
    cases b with
    | none => rfl
    | some digest => cases h
  | some digest =>
    cases b with
    | none => cases h
    | some digest' => exact congrArg some (Subtype.ext (Value.string.inj h))

theorem ordered_map_inj {A : Type} (toValue : A → Value) (hinj : ∀ a b, ordered (toValue a) = ordered (toValue b) → a = b)
    (l l' : List A) (h : ordered (.array (l.map toValue)) = ordered (.array (l'.map toValue))) : l = l' := by
  rw [ordered_array, ordered_array, Value.array.injEq, List.map_map, List.map_map] at h
  exact List.map_injective_iff.mpr hinj h

theorem canonicalText_bytes_inj (v w : Value) (hv : printable v = true) (hw : printable w = true)
    (h : utf8 (canonicalText v) = utf8 (canonicalText w)) : ordered v = ordered w :=
  canonicalJson_bytes_inj v w _ _ (if_pos hv) (if_pos hw) h

theorem inputTree_inj (a b : NodeInputManifestBody nfc)
    (h : utf8 (canonicalText (inputTreeDigestInput a)) = utf8 (canonicalText (inputTreeDigestInput b))) :
    a.baseIdentity = b.baseIdentity ∧ a.requiredMilestone = b.requiredMilestone ∧ a.entries = b.entries := by
  have hordered := canonicalText_bytes_inj _ _ (printable_inputTree a) (printable_inputTree b) h
  have hfields := ordered_recordOf_inj ["manifestVersion", "baseIdentity", "requiredMilestone", "entries"] _ _ (by rfl) (by rfl)
    (by decide) hordered
  simp only [Fields.ordered, List.map_cons, List.map_nil, List.cons.injEq, Prod.mk.injEq, true_and, and_true] at hfields
  obtain ⟨hbase, hmilestone, hentries⟩ := hfields
  exact ⟨Subtype.ext (Value.string.inj hbase), milestoneText_inj _ _ (Value.string.inj hmilestone),
    ordered_map_inj _ entry_inj _ _ hentries⟩

theorem nodeInputManifest_inj (a b : NodeInputManifestBody nfc) (tree tree' : Digest)
    (h : utf8 (canonicalText (nodeInputManifestDigestInput a tree)) =
      utf8 (canonicalText (nodeInputManifestDigestInput b tree'))) :
    tree = tree' ∧ a.witnessBindings = b.witnessBindings := by
  have hordered := canonicalText_bytes_inj _ _ (printable_nodeInputManifest a tree) (printable_nodeInputManifest b tree') h
  have hfields := ordered_recordOf_inj ["manifestVersion", "inputTreeDigest", "witnessBindings"] _ _ (by rfl) (by rfl)
    (by decide) hordered
  simp only [Fields.ordered, List.map_cons, List.map_nil, List.cons.injEq, Prod.mk.injEq, true_and, and_true] at hfields
  obtain ⟨htree, hbindings⟩ := hfields
  exact ⟨Subtype.ext (Value.string.inj htree), ordered_map_inj _ binding_inj _ _ hbindings⟩

theorem inputBinding_inj (a b : NodeInputManifestBody nfc) (tree tree' manifest manifest' : Digest)
    (h : utf8 (canonicalText (inputBindingDigestInput a tree manifest)) =
      utf8 (canonicalText (inputBindingDigestInput b tree' manifest'))) :
    manifest = manifest' ∧ tree = tree' ∧ a.nodeAuthorityHash = b.nodeAuthorityHash
      ∧ a.environmentRequirements = b.environmentRequirements ∧ a.providerRuntimeSha256 = b.providerRuntimeSha256
      ∧ a.graphEpoch = b.graphEpoch := by
  have hordered := canonicalText_bytes_inj _ _ (printable_inputBinding a tree manifest)
    (printable_inputBinding b tree' manifest') h
  have hfields := ordered_recordOf_inj ["manifestVersion", "nodeAuthorityHash", "nodeInputManifestSha256", "inputTreeDigest",
    "environmentRequirements", "providerRuntimeObservationSha256", "sourceGraphEpoch"] _ _ (by rfl) (by rfl) (by decide) hordered
  simp only [Fields.ordered, List.map_cons, List.map_nil, List.cons.injEq, Prod.mk.injEq, true_and, and_true] at hfields
  obtain ⟨hauthority, hmanifest, htree, henvironment, hruntime, hepoch⟩ := hfields
  exact ⟨Subtype.ext (Value.string.inj hmanifest), Subtype.ext (Value.string.inj htree),
    Subtype.ext (Value.string.inj hauthority),
    ordered_map_inj refValue (fun _ _ href => Subtype.ext (Value.string.inj href)) _ _ henvironment, runtime_inj _ _ hruntime,
    epoch_inj _ _ hepoch⟩

/-- The byte strings that the three digests of a manifest are taken of. -/
def digestTexts (manifest : NodeInputManifest nfc) : List (List Byte) :=
  [utf8 (canonicalText (inputTreeDigestInput manifest.body)),
    utf8 (canonicalText (nodeInputManifestDigestInput manifest.body manifest.digests.inputTreeDigest)),
    utf8 (canonicalText
      (inputBindingDigestInput manifest.body manifest.digests.inputTreeDigest manifest.digests.manifestSha256))]

/-- Two texts under the digests of the two manifests have one digest. -/
def Collides (sha256 : List Byte → Digest) (manifest manifest' : NodeInputManifest nfc) : Prop :=
  ∃ a ∈ digestTexts manifest, ∃ b ∈ digestTexts manifest', a ≠ b ∧ sha256 a = sha256 b

theorem sealed_text (sha256 : List Byte → Digest) {manifest manifest' : NodeInputManifest nfc}
    (hfree : ¬ Collides sha256 manifest manifest') {v w : Value} (hv : utf8 (canonicalText v) ∈ digestTexts manifest)
    (hw : utf8 (canonicalText w) ∈ digestTexts manifest') (h : sealDigest sha256 v = sealDigest sha256 w) :
    utf8 (canonicalText v) = utf8 (canonicalText w) :=
  not_not.mp fun hne => hfree ⟨_, hv, _, hw, hne, h⟩

/-- One binding hash belongs to one manifest. -/
theorem manifest_eq_of_hash (sha256 : List Byte → Digest) (manifest manifest' : NodeInputManifest nfc)
    (hsealed : sealDigests sha256 manifest.body = manifest.digests)
    (hsealed' : sealDigests sha256 manifest'.body = manifest'.digests) (hfree : ¬ Collides sha256 manifest manifest')
    (hhash : manifest.digests.inputBindingHash = manifest'.digests.inputBindingHash) : manifest = manifest' := by
  obtain ⟨body, digests⟩ := manifest
  obtain ⟨body', digests'⟩ := manifest'
  obtain rfl : sealDigests sha256 body = digests := hsealed
  obtain rfl : sealDigests sha256 body' = digests' := hsealed'
  have hthird {A : Type} (x y z : A) : z ∈ [x, y, z] := List.mem_cons_of_mem _ (List.mem_cons_of_mem _ (List.mem_cons_self ..))
  have hsecond {A : Type} (x y z : A) : y ∈ [x, y, z] := List.mem_cons_of_mem _ (List.mem_cons_self ..)
  have hbinding := sealed_text sha256 hfree (hthird ..) (hthird ..) hhash
  obtain ⟨hmanifest, htree, hauthority, henvironment, hruntime, hepoch⟩ := inputBinding_inj _ _ _ _ _ _ hbinding
  have hmanifestText := sealed_text sha256 hfree (hsecond ..) (hsecond ..) hmanifest
  obtain ⟨-, hbindings⟩ := nodeInputManifest_inj _ _ _ _ hmanifestText
  have htreeText := sealed_text sha256 hfree (List.mem_cons_self ..) (List.mem_cons_self ..) htree
  obtain ⟨hbase, hmilestone, hentries⟩ := inputTree_inj _ _ htreeText
  have hbody : body = body' := by
    cases body
    cases body'
    simp_all only
  rw [hbody]

end MoeNG.Materialization
