import MoeNG.Materialization.Recheck
import MoeNG.Materialization.Selection
import MoeNG.Supervisor.Lifecycle

/-!
# Sealed input manifests (`packages/runner/src/materialization/input-manifest-digest.ts`,
`input-manifest-seal.ts`, `manifest-staleness.ts`)
-/

namespace MoeNG.Materialization
open MoeNG.Kernel hiding refOf digestOf countOf isCount isRef
open MoeNG.Lib MoeNG.Supervisor

variable (nfc : JsString → JsString)

/-! ### Records (`input-manifest-digest.ts:40-72`) -/

structure SealedWitnessBinding where
  witnessRef : Ref nfc
  witnessVersion : Count
  witnessDigest : Digest
  deriving DecidableEq

structure SealedGraphEpoch where
  graphRevisionRef : Ref nfc
  graphEpoch : Count
  bindingVersion : Count
  deriving DecidableEq

-- `manifestVersion` is the one literal `nodeInputManifestVersion`
structure NodeInputManifestBody where
  baseIdentity : CommitIdentity
  requiredMilestone : QualifyingMilestone
  entries : List (SelectedInput nfc)
  witnessBindings : List (SealedWitnessBinding nfc)
  environmentRequirements : List (Ref nfc)
  graphEpoch : SealedGraphEpoch nfc
  nodeAuthorityHash : Digest
  providerRuntimeSha256 : Option Digest
  deriving DecidableEq

structure SealedDigests where
  inputTreeDigest : Digest
  manifestSha256 : Digest
  inputBindingHash : Digest
  deriving DecidableEq

structure NodeInputManifest where
  body : NodeInputManifestBody nfc
  digests : SealedDigests
  deriving DecidableEq

/-! ### The records as values -/

section Values
variable {nfc}

def selectedInputKeys : List String :=
  ["artifactIdentity", "sha256", "byteLength", "producerNodeKey", "producerResultRef", "producerAttemptRef", "producerEpoch",
    "producerAdoptionRef"]

/-- The fields of an entry; `byteLength` is passed as it is written. -/
def entryFields (byteLength : Value) (entry : SelectedInput nfc) : Fields :=
  [("artifactIdentity", .string entry.artifactIdentity), ("sha256", .string entry.sha256), ("byteLength", byteLength),
    ("producerNodeKey", .string entry.producerNodeKey), ("producerResultRef", .string entry.producerResultRef),
    ("producerAttemptRef", .string entry.producerAttemptRef), ("producerEpoch", integer entry.producerEpoch),
    ("producerAdoptionRef", .string entry.producerAdoptionRef)]

def SelectedInput.toValue (entry : SelectedInput nfc) : Value := recordOf (entryFields (integer entry.byteLength) entry)

def witnessBindingKeys : List String := ["witnessRef", "witnessVersion", "witnessDigest"]

def witnessBindingFields (binding : SealedWitnessBinding nfc) : Fields :=
  [("witnessRef", .string binding.witnessRef), ("witnessVersion", integer binding.witnessVersion),
    ("witnessDigest", .string binding.witnessDigest)]

def SealedWitnessBinding.toValue (binding : SealedWitnessBinding nfc) : Value := recordOf (witnessBindingFields binding)

def graphEpochKeys : List String := ["graphRevisionRef", "graphEpoch", "bindingVersion"]

def graphEpochFields (epoch : SealedGraphEpoch nfc) : Fields :=
  [("graphRevisionRef", .string epoch.graphRevisionRef), ("graphEpoch", integer epoch.graphEpoch),
    ("bindingVersion", integer epoch.bindingVersion)]

def SealedGraphEpoch.toValue (epoch : SealedGraphEpoch nfc) : Value := recordOf (graphEpochFields epoch)

def refValue (ref : Ref nfc) : Value := .string ref

def digestValue (digest : Digest) : Value := .string digest

def manifestVersionValue : Value := .string (lit nodeInputManifestVersion)

def milestoneValue (milestone : QualifyingMilestone) : Value := .string (lit milestone.text)

def manifestKeys : List String :=
  ["manifestVersion", "baseIdentity", "requiredMilestone", "entries", "witnessBindings", "environmentRequirements",
    "graphEpoch", "nodeAuthorityHash", "providerRuntimeSha256", "inputTreeDigest", "manifestSha256", "inputBindingHash"]

/-- The fields of a manifest; its lists and its epoch are passed as they are written. -/
def manifestFields (entries witnessBindings environmentRequirements graphEpoch : Value) (manifest : NodeInputManifest nfc) :
    Fields :=
  [("manifestVersion", manifestVersionValue), ("baseIdentity", .string manifest.body.baseIdentity),
    ("requiredMilestone", milestoneValue manifest.body.requiredMilestone), ("entries", entries),
    ("witnessBindings", witnessBindings), ("environmentRequirements", environmentRequirements), ("graphEpoch", graphEpoch),
    ("nodeAuthorityHash", .string manifest.body.nodeAuthorityHash),
    ("providerRuntimeSha256", orNull digestValue manifest.body.providerRuntimeSha256),
    ("inputTreeDigest", .string manifest.digests.inputTreeDigest),
    ("manifestSha256", .string manifest.digests.manifestSha256),
    ("inputBindingHash", .string manifest.digests.inputBindingHash)]

def NodeInputManifest.toValue (manifest : NodeInputManifest nfc) : Value := recordOf
  (manifestFields (.array (manifest.body.entries.map SelectedInput.toValue))
    (.array (manifest.body.witnessBindings.map SealedWitnessBinding.toValue))
    (.array (manifest.body.environmentRequirements.map refValue)) manifest.body.graphEpoch.toValue manifest)

/-! ### Digests (`input-manifest-digest.ts:74-148`) -/

def inputTreeDigestInput (body : NodeInputManifestBody nfc) : Value := recordOf
  [("manifestVersion", manifestVersionValue), ("baseIdentity", .string body.baseIdentity),
    ("requiredMilestone", milestoneValue body.requiredMilestone), ("entries", .array (body.entries.map SelectedInput.toValue))]

def nodeInputManifestDigestInput (body : NodeInputManifestBody nfc) (inputTreeDigest : Digest) : Value := recordOf
  [("manifestVersion", manifestVersionValue), ("inputTreeDigest", .string inputTreeDigest),
    ("witnessBindings", .array (body.witnessBindings.map SealedWitnessBinding.toValue))]

def inputBindingDigestInput (body : NodeInputManifestBody nfc) (inputTreeDigest manifestSha256 : Digest) : Value := recordOf
  [("manifestVersion", manifestVersionValue), ("nodeAuthorityHash", .string body.nodeAuthorityHash),
    ("nodeInputManifestSha256", .string manifestSha256), ("inputTreeDigest", .string inputTreeDigest),
    ("environmentRequirements", .array (body.environmentRequirements.map refValue)),
    ("providerRuntimeObservationSha256", orNull digestValue body.providerRuntimeSha256),
    ("sourceGraphEpoch", body.graphEpoch.toValue)]

variable (sha256 : List Byte → Digest)

/-- `canonicalDigest` of a record whose every field can be printed. -/
def sealDigest (value : Value) : Digest := sha256 (utf8 (canonicalText value))

def sealDigests (body : NodeInputManifestBody nfc) : SealedDigests :=
  let inputTreeDigest := sealDigest sha256 (inputTreeDigestInput body)
  let manifestSha256 := sealDigest sha256 (nodeInputManifestDigestInput body inputTreeDigest)
  ⟨inputTreeDigest, manifestSha256, sealDigest sha256 (inputBindingDigestInput body inputTreeDigest manifestSha256)⟩

end Values

/-! ### Parsers (`input-manifest-digest.ts:150-238`) -/

def parseSelectedInput (entry : Value) : Option (SelectedInput nfc) := do
  let item ← exactRecord entry selectedInputKeys
  let artifactIdentity ← refOf nfc (item.field "artifactIdentity")
  let sha256 ← digestOf (item.field "sha256")
  let byteLength ← byteCountOf (item.field "byteLength")
  let producerNodeKey ← graphKeyOf (item.field "producerNodeKey")
  let producerResultRef ← refOf nfc (item.field "producerResultRef")
  let producerAttemptRef ← refOf nfc (item.field "producerAttemptRef")
  let producerEpoch ← countOf (item.field "producerEpoch")
  let producerAdoptionRef ← refOf nfc (item.field "producerAdoptionRef")
  return ⟨artifactIdentity, sha256, byteLength, producerNodeKey, producerResultRef, producerAttemptRef, producerEpoch,
    producerAdoptionRef⟩

def parseSelectedInputs (value : Value) : Option (List (SelectedInput nfc)) :=
  distinctItems (parseSelectedInput nfc) (fun entry => entry.artifactIdentity.val) maxSelectedInputs value

def parseSealedWitnessBinding (entry : Value) : Option (SealedWitnessBinding nfc) := do
  let item ← exactRecord entry witnessBindingKeys
  let witnessRef ← refOf nfc (item.field "witnessRef")
  let witnessVersion ← countOf (item.field "witnessVersion")
  let witnessDigest ← digestOf (item.field "witnessDigest")
  return ⟨witnessRef, witnessVersion, witnessDigest⟩

def parseSealedWitnessBindings (value : Value) : Option (List (SealedWitnessBinding nfc)) := do
  let items ← boundedItems value maxMaterializationWitnesses
  items.mapM (parseSealedWitnessBinding nfc)

def parseGraphEpoch (value : Value) : Option (SealedGraphEpoch nfc) := do
  let item ← exactRecord value graphEpochKeys
  let graphRevisionRef ← refOf nfc (item.field "graphRevisionRef")
  let graphEpoch ← countOf (item.field "graphEpoch")
  let bindingVersion ← countOf (item.field "bindingVersion")
  return ⟨graphRevisionRef, graphEpoch, bindingVersion⟩

def parseEnvironmentRequirements (value : Value) : Option (List (Ref nfc)) := do
  let output ← distinctItems (refOf nfc) (fun ref => ref.val) maxEnvironmentRequirements value
  return sortByRef (fun ref => ref.val) output

/-- `null`, or a digest. -/
def providerRuntimeOf : Value → Option (Option Digest)
  | .null => some none
  | value => (digestOf value).map some

def parseSealedManifest (value : Value) : Option (NodeInputManifest nfc) := do
  let item ← exactRecord value manifestKeys
  let _ ← oneOf id [nodeInputManifestVersion] (item.field "manifestVersion")
  let entries ← parseSelectedInputs nfc (item.field "entries")
  let witnessBindings ← parseSealedWitnessBindings nfc (item.field "witnessBindings")
  let graphEpoch ← parseGraphEpoch nfc (item.field "graphEpoch")
  let environmentRequirements ← parseEnvironmentRequirements nfc (item.field "environmentRequirements")
  let baseIdentity ← commitOf (item.field "baseIdentity")
  let requiredMilestone ← oneOf QualifyingMilestone.text qualifyingMilestones (item.field "requiredMilestone")
  let nodeAuthorityHash ← digestOf (item.field "nodeAuthorityHash")
  let inputTreeDigest ← digestOf (item.field "inputTreeDigest")
  let manifestSha256 ← digestOf (item.field "manifestSha256")
  let inputBindingHash ← digestOf (item.field "inputBindingHash")
  let providerRuntimeSha256 ← providerRuntimeOf (item.field "providerRuntimeSha256")
  return ⟨⟨baseIdentity, requiredMilestone, entries, witnessBindings, environmentRequirements, graphEpoch, nodeAuthorityHash,
    providerRuntimeSha256⟩, ⟨inputTreeDigest, manifestSha256, inputBindingHash⟩⟩

/-! ### Seal (`input-manifest-seal.ts:36-158`) -/

structure SealNodeInputManifestInput where
  selection : Value
  contracts : Value
  monotonicRegistry : Value
  currentWitnessFacts : Value
  environmentRequirements : Value
  nodeAuthorityHash : Value
  providerRuntimeSha256 : Value
  graphEpoch : Value

def sealRefusal (code : ErrorCode) (message : String) : MaterializationFailure := ⟨code, .SEAL, message, none⟩

def parseSelection (value : Value) : Option (PredecessorSelection nfc) := do
  let item ← exactRecord value ["baseIdentity", "requiredMilestone", "entries"]
  let baseIdentity ← commitOf (item.field "baseIdentity")
  let requiredMilestone ← oneOf QualifyingMilestone.text qualifyingMilestones (item.field "requiredMilestone")
  let entries ← parseSelectedInputs nfc (item.field "entries")
  return ⟨baseIdentity, requiredMilestone, entries⟩

variable {nfc} in
def bindingOf (witness : MirroredWitnessBinding nfc) : SealedWitnessBinding nfc :=
  ⟨witness.witnessRef, witness.witnessVersion, witness.witnessDigest⟩

variable {nfc} in
/-- The last declaration of a witness is the one that is kept. -/
def bindWitness (bindings : OrdMap JsString (SealedWitnessBinding nfc)) (witness : MirroredWitnessBinding nfc) :
    OrdMap JsString (SealedWitnessBinding nfc) := bindings.set witness.witnessRef (bindingOf witness)

def collectWitnessBindings (value : Value) : Option (List (SealedWitnessBinding nfc)) := do
  let items ← boundedItems value maxMaterializationContracts
  let contracts ← items.mapM (parseMirroredDependencyContract nfc)
  let bindings := (contracts.flatMap fun contract => contract.satisfactionWitnesses.val).foldl bindWitness OrdMap.empty
  return sortByRef (fun binding => binding.witnessRef.val) (bindings.entries.map Prod.snd)

variable (sha256 : List Byte → Digest)

variable {nfc} in
def freezeManifest (body : NodeInputManifestBody nfc) : NodeInputManifest nfc := ⟨body, sealDigests sha256 body⟩

def sealNodeInputManifest (input : SealNodeInputManifestInput) : Materialized (NodeInputManifest nfc) := do
  let selection ← required (sealRefusal .SELECTION_INVALID "selection is not a sealed predecessor selection")
    (parseSelection nfc input.selection)
  let nodeAuthorityHash ← required (sealRefusal .AUTHORITY_INVALID "nodeAuthorityHash must be lowercase 64-hex")
    (digestOf input.nodeAuthorityHash)
  let providerRuntimeSha256 ←
    required (sealRefusal .PROVIDER_RUNTIME_INVALID "provider runtime observation must be 64-hex or absent")
      (providerRuntimeOf input.providerRuntimeSha256)
  let environmentRequirements ←
    required (sealRefusal .ENVIRONMENT_INVALID "environment-manifest requirements are malformed")
      (parseEnvironmentRequirements nfc input.environmentRequirements)
  let graphEpoch ← required (sealRefusal .EPOCH_INVALID "source graph/binding epoch is malformed")
    (parseGraphEpoch nfc input.graphEpoch)
  let _ ← recheckMaterializationSealWitnesses nfc ⟨input.contracts, input.monotonicRegistry, input.currentWitnessFacts⟩
  let witnessBindings ←
    required (sealRefusal .SELECTION_INVALID "dependency contracts changed shape during the seal")
      (collectWitnessBindings nfc input.contracts)
  return freezeManifest sha256 ⟨selection.baseIdentity, selection.requiredMilestone, selection.entries, witnessBindings,
    environmentRequirements, graphEpoch, nodeAuthorityHash, providerRuntimeSha256⟩

/-! ### Staleness (`manifest-staleness.ts:26-146`) -/

structure CurrentPredecessorFact where
  artifactIdentity : Ref nfc
  sha256 : Digest
  producerAdoptionRef : Ref nfc
  deriving DecidableEq

structure RevalidateSealedManifestInput where
  manifest : Value
  currentWitnessFacts : Value
  currentPredecessors : Value
  currentGraphEpoch : Value

def stale (code : ErrorCode) (message : String) (detail : Option JsString) : MaterializationFailure :=
  ⟨code, .STALENESS, message, detail⟩

def parseCurrentPredecessor (entry : Value) : Option (CurrentPredecessorFact nfc) := do
  let item ← exactRecord entry ["artifactIdentity", "sha256", "producerAdoptionRef"]
  let artifactIdentity ← refOf nfc (item.field "artifactIdentity")
  let sha256 ← digestOf (item.field "sha256")
  let producerAdoptionRef ← refOf nfc (item.field "producerAdoptionRef")
  return ⟨artifactIdentity, sha256, producerAdoptionRef⟩

def parseCurrentPredecessors (value : Value) : Option (List (CurrentPredecessorFact nfc)) :=
  distinctItems (parseCurrentPredecessor nfc) (fun fact => fact.artifactIdentity.val) maxSelectedInputs value

section Staleness
variable {nfc}

def epochMoved (sealed current : SealedGraphEpoch nfc) : Bool :=
  sealed.graphRevisionRef ≠ current.graphRevisionRef || sealed.graphEpoch ≠ current.graphEpoch
    || sealed.bindingVersion ≠ current.bindingVersion

def checkBinding (facts : List (CurrentWitnessFact nfc)) (binding : SealedWitnessBinding nfc) : Materialized Unit :=
  let refusal := stale .WITNESS_STALE "sealed witness is no longer current" (some binding.witnessRef)
  match facts.find? fun fact => fact.witnessRef.val = binding.witnessRef.val with
  | none => .error refusal
  | some fact =>
    if fact.witnessVersion ≠ binding.witnessVersion ∨ fact.witnessDigest ≠ binding.witnessDigest then .error refusal else .ok ()

def checkEntry (predecessors : List (CurrentPredecessorFact nfc)) (entry : SelectedInput nfc) : Materialized Unit :=
  let refusal := stale .PREDECESSOR_STALE "selected predecessor is no longer current" (some entry.artifactIdentity)
  match predecessors.find? fun fact => fact.artifactIdentity.val = entry.artifactIdentity.val with
  | none => .error refusal
  | some fact =>
    if fact.sha256 ≠ entry.sha256 ∨ fact.producerAdoptionRef ≠ entry.producerAdoptionRef then .error refusal else .ok ()

def malformedManifest : MaterializationFailure := stale .MANIFEST_TAMPERED "sealed manifest is malformed" none

def uncoveredManifest : MaterializationFailure :=
  stale .MANIFEST_TAMPERED "sealed digests no longer cover the manifest body" none

end Staleness

/-- `.ok ()` stands for the `null` of a manifest that may still dispatch. -/
def revalidateSealedManifest (input : RevalidateSealedManifestInput) : Materialized Unit := do
  let manifest ← required malformedManifest (parseSealedManifest nfc input.manifest)
  if sealDigests sha256 manifest.body ≠ manifest.digests then .error uncoveredManifest
  else
    let facts ← required (stale .WITNESS_FACTS_MALFORMED "current witness facts are malformed" none)
      (parseCurrentWitnessFacts nfc input.currentWitnessFacts)
    manifest.body.witnessBindings.forM (checkBinding facts)
    let predecessors ← required (stale .CANDIDATE_MALFORMED "current predecessor facts are malformed" none)
      (parseCurrentPredecessors nfc input.currentPredecessors)
    manifest.body.entries.forM (checkEntry predecessors)
    let currentEpoch ← required (stale .EPOCH_INVALID "current graph/binding epoch is malformed" none)
      (parseGraphEpoch nfc input.currentGraphEpoch)
    if epochMoved manifest.body.graphEpoch currentEpoch then
      .error (stale .EPOCH_STALE "graph/binding epoch moved after the seal" none)
    else .ok ()

end MoeNG.Materialization
