import MoeNG.Lib.OrdMap
import MoeNG.Lib.Run
import MoeNG.Materialization.Kernel

/-!
# Seal-time witness recheck (`packages/runner/src/materialization/dependency-witness-mirror.ts`, `witness-recheck.ts`)
-/

namespace MoeNG.Materialization
open MoeNG.Kernel hiding refOf digestOf countOf isCount isRef
open MoeNG.Lib MoeNG.Supervisor

/-! ### Vocabulary (`dependency-witness-mirror.ts:40-70`) -/

inductive MirroredStability where
  | MONOTONIC
  | REVOCABLE
  deriving DecidableEq

def mirroredStabilities : List MirroredStability := [.MONOTONIC, .REVOCABLE]

def MirroredStability.text : MirroredStability → String
  | MONOTONIC => "MONOTONIC"
  | REVOCABLE => "REVOCABLE"

inductive MirroredDependencyGate where
  | MATERIALIZATION_SEAL
  | EXECUTOR_CLAIM
  | EFFECT_ACTIVATE
  | STEP_START
  | CANDIDATE_SEAL
  | RESULT_SEAL
  | EVIDENCE_SEAL
  | INTEGRATION_SEAL
  | REVIEW_QUALIFICATION
  | ACCEPTANCE_QUALIFICATION
  | GOAL_COMPLETION
  deriving DecidableEq

def mirroredDependencyGates : List MirroredDependencyGate :=
  [.MATERIALIZATION_SEAL, .EXECUTOR_CLAIM, .EFFECT_ACTIVATE, .STEP_START, .CANDIDATE_SEAL, .RESULT_SEAL, .EVIDENCE_SEAL,
    .INTEGRATION_SEAL, .REVIEW_QUALIFICATION, .ACCEPTANCE_QUALIFICATION, .GOAL_COMPLETION]

def MirroredDependencyGate.text : MirroredDependencyGate → String
  | MATERIALIZATION_SEAL => "MATERIALIZATION_SEAL"
  | EXECUTOR_CLAIM => "EXECUTOR_CLAIM"
  | EFFECT_ACTIVATE => "EFFECT_ACTIVATE"
  | STEP_START => "STEP_START"
  | CANDIDATE_SEAL => "CANDIDATE_SEAL"
  | RESULT_SEAL => "RESULT_SEAL"
  | EVIDENCE_SEAL => "EVIDENCE_SEAL"
  | INTEGRATION_SEAL => "INTEGRATION_SEAL"
  | REVIEW_QUALIFICATION => "REVIEW_QUALIFICATION"
  | ACCEPTANCE_QUALIFICATION => "ACCEPTANCE_QUALIFICATION"
  | GOAL_COMPLETION => "GOAL_COMPLETION"

inductive MirroredSourceOperationClass where
  | ARTIFACT_SEAL
  | DAEMON_FACT_OBSERVATION
  | SCOPE_OBSERVATION
  | POLICY_RULE_EVALUATION
  deriving DecidableEq

def mirroredSourceOperationClasses : List MirroredSourceOperationClass :=
  [.ARTIFACT_SEAL, .DAEMON_FACT_OBSERVATION, .SCOPE_OBSERVATION, .POLICY_RULE_EVALUATION]

def MirroredSourceOperationClass.text : MirroredSourceOperationClass → String
  | ARTIFACT_SEAL => "ARTIFACT_SEAL"
  | DAEMON_FACT_OBSERVATION => "DAEMON_FACT_OBSERVATION"
  | SCOPE_OBSERVATION => "SCOPE_OBSERVATION"
  | POLICY_RULE_EVALUATION => "POLICY_RULE_EVALUATION"

variable (nfc : JsString → JsString)

/-! ### Records (`dependency-witness-mirror.ts:72-115`) -/

structure MirroredWitnessBinding where
  witnessRef : Ref nfc
  witnessVersion : Count
  witnessDigest : Digest
  sourceOperationClass : MirroredSourceOperationClass
  deriving DecidableEq

structure MirroredFactBinding where
  sourceFactRef : Ref nfc
  sourceFactVersion : Count
  sourceFactDigest : Digest
  deriving DecidableEq

structure MirroredSatisfactionPredicate where
  predicateRef : Ref nfc
  schemaId : Ref nfc
  schemaVersion : Count
  deriving DecidableEq

structure MirroredDependencyContract where
  producerNodeKey : GraphKey
  consumerNodeKey : GraphKey
  satisfactionPredicate : MirroredSatisfactionPredicate nfc
  stability : MirroredStability
  satisfactionWitnesses : SortedBy fun witness : MirroredWitnessBinding nfc => witness.witnessRef.val
  consumptionHorizon : MirroredDependencyGate
  invalidationFacts : SortedBy fun fact : MirroredFactBinding nfc => fact.sourceFactRef.val
  deriving DecidableEq

structure MirroredMonotonicProof where
  predicateRef : Ref nfc
  schemaId : Ref nfc
  schemaVersion : Count
  sourceOperationClass : MirroredSourceOperationClass
  deriving DecidableEq

structure CurrentWitnessFact where
  witnessRef : Ref nfc
  witnessVersion : Count
  witnessDigest : Digest
  deriving DecidableEq

/-! ### Parsers (`dependency-witness-mirror.ts:117-262`) -/

section Parsers
variable {nfc}

/-- A list read element by element, refused when a reference comes twice. -/
def distinctItems {A K : Type} [DecidableEq K] (parse : Value → Option A) (key : A → K) (maximum : ℕ) (value : Value) :
    Option (List A) := do
  let items ← boundedItems value maximum
  let output ← items.mapM parse
  if hasDuplicates (output.map key) then none else some output

/-- A non-empty list of records with distinct references, sorted by them. -/
def sortedItems {A : Type} (parse : Value → Option A) (ref : A → JsString) (value : Value) : Option (SortedBy ref) := do
  let items ← boundedItems value maxMaterializationWitnesses
  if items.length = 0 then none
  else
    let output ← items.mapM parse
    if h : hasDuplicates (output.map ref) = false then some ⟨sortByRef ref output, sortByRef_strict ref output h⟩ else none

variable (nfc)

def parseWitness (entry : Value) : Option (MirroredWitnessBinding nfc) := do
  let item ← exactRecord entry ["witnessRef", "witnessVersion", "witnessDigest", "sourceOperationClass"]
  let witnessRef ← refOf nfc (item.field "witnessRef")
  let witnessVersion ← countOf (item.field "witnessVersion")
  let witnessDigest ← digestOf (item.field "witnessDigest")
  let sourceOperationClass ←
    oneOf MirroredSourceOperationClass.text mirroredSourceOperationClasses (item.field "sourceOperationClass")
  return ⟨witnessRef, witnessVersion, witnessDigest, sourceOperationClass⟩

def parseWitnesses (value : Value) : Option (SortedBy fun witness : MirroredWitnessBinding nfc => witness.witnessRef.val) :=
  sortedItems (parseWitness nfc) _ value

def parseFact (entry : Value) : Option (MirroredFactBinding nfc) := do
  let item ← exactRecord entry ["sourceFactRef", "sourceFactVersion", "sourceFactDigest"]
  let sourceFactRef ← refOf nfc (item.field "sourceFactRef")
  let sourceFactVersion ← countOf (item.field "sourceFactVersion")
  let sourceFactDigest ← digestOf (item.field "sourceFactDigest")
  return ⟨sourceFactRef, sourceFactVersion, sourceFactDigest⟩

def parseFacts (value : Value) : Option (SortedBy fun fact : MirroredFactBinding nfc => fact.sourceFactRef.val) :=
  sortedItems (parseFact nfc) _ value

def contractKeys : List String :=
  ["producerNodeKey", "consumerNodeKey", "satisfactionPredicate", "stability", "satisfactionWitnesses", "consumptionHorizon",
    "invalidationFacts"]

def parseMirroredDependencyContract (value : Value) : Option (MirroredDependencyContract nfc) := do
  let item ← exactRecord value contractKeys
  let predicate ← exactRecord (item.field "satisfactionPredicate") ["predicateRef", "schemaId", "schemaVersion"]
  let witnesses ← parseWitnesses nfc (item.field "satisfactionWitnesses")
  let facts ← parseFacts nfc (item.field "invalidationFacts")
  let predicateRef ← refOf nfc (predicate.field "predicateRef")
  let schemaId ← refOf nfc (predicate.field "schemaId")
  let schemaVersion ← countOf (predicate.field "schemaVersion")
  let producerNodeKey ← graphKeyOf (item.field "producerNodeKey")
  let consumerNodeKey ← graphKeyOf (item.field "consumerNodeKey")
  let stability ← oneOf MirroredStability.text mirroredStabilities (item.field "stability")
  let consumptionHorizon ← oneOf MirroredDependencyGate.text mirroredDependencyGates (item.field "consumptionHorizon")
  return ⟨producerNodeKey, consumerNodeKey, ⟨predicateRef, schemaId, schemaVersion⟩, stability, witnesses, consumptionHorizon,
    facts⟩

def parseProof (entry : Value) : Option (MirroredMonotonicProof nfc) := do
  let item ← exactRecord entry ["predicateRef", "schemaId", "schemaVersion", "sourceOperationClass"]
  let predicateRef ← refOf nfc (item.field "predicateRef")
  let schemaId ← refOf nfc (item.field "schemaId")
  let schemaVersion ← countOf (item.field "schemaVersion")
  let sourceOperationClass ←
    oneOf MirroredSourceOperationClass.text mirroredSourceOperationClasses (item.field "sourceOperationClass")
  return ⟨predicateRef, schemaId, schemaVersion, sourceOperationClass⟩

/-- The key the registry is refused a second proof for. -/
def MirroredMonotonicProof.key {nfc : JsString → JsString} (proof : MirroredMonotonicProof nfc) :
    MirroredSatisfactionPredicate nfc :=
  ⟨proof.predicateRef, proof.schemaId, proof.schemaVersion⟩

def parseMonotonicRegistry (value : Value) : Option (List (MirroredMonotonicProof nfc)) :=
  distinctItems (parseProof nfc) MirroredMonotonicProof.key maxMaterializationContracts value

def parseCurrentWitnessFact (entry : Value) : Option (CurrentWitnessFact nfc) := do
  let item ← exactRecord entry ["witnessRef", "witnessVersion", "witnessDigest"]
  let witnessRef ← refOf nfc (item.field "witnessRef")
  let witnessVersion ← countOf (item.field "witnessVersion")
  let witnessDigest ← digestOf (item.field "witnessDigest")
  return ⟨witnessRef, witnessVersion, witnessDigest⟩

def parseCurrentWitnessFacts (value : Value) : Option (List (CurrentWitnessFact nfc)) :=
  distinctItems (parseCurrentWitnessFact nfc) (fun fact => fact.witnessRef.val) maxMaterializationWitnesses value

end Parsers

/-! ### Recheck (`witness-recheck.ts:27-210`) -/

structure RecheckWitnessesInput where
  contracts : Value
  monotonicRegistry : Value
  currentWitnessFacts : Value

structure WitnessRecheck where
  rechecked : List JsString
  exempt : List JsString
  deriving DecidableEq

def registryRefusal : MaterializationFailure :=
  ⟨.REGISTRY_MALFORMED, .WITNESS, "monotonic predicate registry is malformed", none⟩

def contractMalformed : MaterializationFailure :=
  ⟨.CONTRACT_MALFORMED, .WITNESS, "dependency contract is malformed or incomplete", none⟩

def operationMismatch (detail : JsString) : MaterializationFailure :=
  ⟨.MONOTONIC_OPERATION_MISMATCH, .WITNESS, "witness source operation does not match the registered predicate", some detail⟩

def disagreeing (detail : JsString) : MaterializationFailure :=
  ⟨.CONTRACT_MALFORMED, .WITNESS, "one witness is declared with disagreeing versions or digests", some detail⟩

variable {nfc}

def resolveStability (contract : MirroredDependencyContract nfc) (registry : List (MirroredMonotonicProof nfc)) :
    Materialized MirroredStability :=
  match contract.stability, registry.find? fun entry => entry.key = contract.satisfactionPredicate with
  | .MONOTONIC, some proof =>
    match contract.satisfactionWitnesses.val.find? fun entry => entry.sourceOperationClass ≠ proof.sourceOperationClass with
    | some mismatch => .error (operationMismatch mismatch.witnessRef)
    | none => .ok .MONOTONIC
  -- an unproved `MONOTONIC` is read as `REVOCABLE`
  | _, _ => .ok .REVOCABLE

/-- `byWitnessText` on the producers, then on the consumers, is at most zero. -/
def contractOrder (left right : MirroredDependencyContract nfc) : Prop :=
  left.producerNodeKey.val < right.producerNodeKey.val
    ∨ left.producerNodeKey.val = right.producerNodeKey.val ∧ left.consumerNodeKey.val ≤ right.consumerNodeKey.val

instance : DecidableRel (@contractOrder nfc) := fun left right =>
  inferInstanceAs (Decidable (left.producerNodeKey.val < right.producerNodeKey.val
    ∨ left.producerNodeKey.val = right.producerNodeKey.val ∧ left.consumerNodeKey.val ≤ right.consumerNodeKey.val))

variable (nfc) in
def parseContracts (value : Value) : Materialized (List (MirroredDependencyContract nfc)) :=
  match readBoundedList value maxMaterializationContracts with
  | .LIMIT => .error ⟨.CONTRACT_LIMIT, .WITNESS, "dependency contract closure exceeds its ceiling", none⟩
  | .MALFORMED => .error contractMalformed
  | .OK items => do
    let output ← required contractMalformed (items.mapM (parseMirroredDependencyContract nfc))
    return output.insertionSort contractOrder

def compareWitness (witness : MirroredWitnessBinding nfc) (fact : Option (CurrentWitnessFact nfc)) : Materialized Unit :=
  match fact with
  | none => .error ⟨.WITNESS_MISSING, .WITNESS, "revocable witness has no current fact", some witness.witnessRef⟩
  | some fact =>
    if fact.witnessVersion ≠ witness.witnessVersion then
      .error ⟨.WITNESS_VERSION_CHANGED, .WITNESS, "revocable witness version is not the sealed version",
        some witness.witnessRef⟩
    else if fact.witnessDigest ≠ witness.witnessDigest then
      .error ⟨.WITNESS_DIGEST_CHANGED, .WITNESS, "revocable witness digest is not the sealed digest", some witness.witnessRef⟩
    else .ok ()

variable (nfc) in
/-- What the loop over the contracts keeps; `exempt` lists a reference once for every time it is added. -/
structure RecheckState where
  revocable : OrdMap JsString (MirroredWitnessBinding nfc)
  exempt : List JsString
  declared : OrdMap JsString (MirroredWitnessBinding nfc)

def RecheckState.start : RecheckState nfc := ⟨OrdMap.empty, [], OrdMap.empty⟩

def disagrees (previous witness : MirroredWitnessBinding nfc) : Bool :=
  previous.witnessVersion ≠ witness.witnessVersion || previous.witnessDigest ≠ witness.witnessDigest

def declareWitness (stability : MirroredStability) (state : RecheckState nfc) (witness : MirroredWitnessBinding nfc) :
    Materialized (RecheckState nfc) :=
  if (state.declared.get witness.witnessRef).any fun previous => disagrees previous witness then
    .error (disagreeing witness.witnessRef)
  else
    let declared := state.declared.set witness.witnessRef witness
    match stability with
    | .MONOTONIC => .ok ⟨state.revocable, state.exempt ++ [witness.witnessRef.val], declared⟩
    | .REVOCABLE => .ok ⟨state.revocable.set witness.witnessRef witness, state.exempt, declared⟩

def recheckContract (registry : List (MirroredMonotonicProof nfc)) (state : RecheckState nfc)
    (contract : MirroredDependencyContract nfc) : Materialized (RecheckState nfc) := do
  let stability ← resolveStability contract registry
  contract.satisfactionWitnesses.val.foldlM (declareWitness stability) state

/-- The facts are read by reference. -/
def compareWitnesses (facts : List (CurrentWitnessFact nfc)) (sealed : List (MirroredWitnessBinding nfc)) : Materialized Unit :=
  sealed.forM fun witness => compareWitness witness (facts.find? fun fact => fact.witnessRef.val = witness.witnessRef.val)

def sealedWitnesses (state : RecheckState nfc) : List (MirroredWitnessBinding nfc) :=
  sortByRef (fun witness => witness.witnessRef.val) (state.revocable.entries.map Prod.snd)

/-- A reference that is revocable under any contract is not reported exempt. -/
def exemptRefs (state : RecheckState nfc) : List JsString :=
  (state.exempt.dedup.filter fun ref => !state.revocable.has ref).insertionSort (· ≤ ·)

def recheckVerdict (facts : List (CurrentWitnessFact nfc)) (state : RecheckState nfc) : Materialized WitnessRecheck := do
  compareWitnesses facts (sealedWitnesses state)
  return ⟨(sealedWitnesses state).map fun witness => witness.witnessRef.val, exemptRefs state⟩

variable (nfc) in
def recheckMaterializationSealWitnesses (input : RecheckWitnessesInput) : Materialized WitnessRecheck := do
  let registry ← required registryRefusal (parseMonotonicRegistry nfc input.monotonicRegistry)
  let contracts ← parseContracts nfc input.contracts
  let facts ← required ⟨.WITNESS_FACTS_MALFORMED, .WITNESS, "current witness facts are malformed", none⟩
    (parseCurrentWitnessFacts nfc input.currentWitnessFacts)
  let state ← contracts.foldlM (recheckContract registry) .start
  recheckVerdict facts state

end MoeNG.Materialization
