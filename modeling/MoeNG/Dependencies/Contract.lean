import MoeNG.Authority.Lease
import MoeNG.Kernel.CanonicalForm
import MoeNG.Readiness.Facts

/-!
# Dependency contracts (`packages/scheduler/src/dependencies/dependency-contract.ts:11-66`)

The edge kind of a contract is the kind of its producer fact. Every record is
written with its keys in the canonical order.
-/

namespace MoeNG.Dependencies
open MoeNG.Kernel
open MoeNG.Authority (TruthClass truthClasses)
open MoeNG.Readiness (DependencyGate dependencyGates)

/-! ### Vocabulary -/

inductive HardDependencyKind where
  | ARTIFACT_CONSUMPTION
  | STATE_PRECONDITION
  | SCOPE_SERIALIZATION
  | POLICY_SEQUENCE
  deriving DecidableEq

def HardDependencyKind.text : HardDependencyKind → String
  | ARTIFACT_CONSUMPTION => "ARTIFACT_CONSUMPTION"
  | STATE_PRECONDITION => "STATE_PRECONDITION"
  | SCOPE_SERIALIZATION => "SCOPE_SERIALIZATION"
  | POLICY_SEQUENCE => "POLICY_SEQUENCE"

inductive SourceOperationClass where
  | ARTIFACT_SEAL
  | DAEMON_FACT_OBSERVATION
  | SCOPE_OBSERVATION
  | POLICY_RULE_EVALUATION
  deriving DecidableEq

def SourceOperationClass.text : SourceOperationClass → String
  | ARTIFACT_SEAL => "ARTIFACT_SEAL"
  | DAEMON_FACT_OBSERVATION => "DAEMON_FACT_OBSERVATION"
  | SCOPE_OBSERVATION => "SCOPE_OBSERVATION"
  | POLICY_RULE_EVALUATION => "POLICY_RULE_EVALUATION"

def sourceOperationClasses : List SourceOperationClass :=
  [.ARTIFACT_SEAL, .DAEMON_FACT_OBSERVATION, .SCOPE_OBSERVATION, .POLICY_RULE_EVALUATION]

inductive QualifyingMilestone where
  | CANDIDATE_SEALED
  | RESULT_SEALED
  | EVIDENCE_SEALED
  | INTEGRATION_SEALED
  | REVIEW_QUALIFIED
  | ACCEPTED
  deriving DecidableEq

def QualifyingMilestone.text : QualifyingMilestone → String
  | CANDIDATE_SEALED => "CANDIDATE_SEALED"
  | RESULT_SEALED => "RESULT_SEALED"
  | EVIDENCE_SEALED => "EVIDENCE_SEALED"
  | INTEGRATION_SEALED => "INTEGRATION_SEALED"
  | REVIEW_QUALIFIED => "REVIEW_QUALIFIED"
  | ACCEPTED => "ACCEPTED"

def milestones : List QualifyingMilestone :=
  [.CANDIDATE_SEALED, .RESULT_SEALED, .EVIDENCE_SEALED, .INTEGRATION_SEALED, .REVIEW_QUALIFIED, .ACCEPTED]

inductive NecessityFailureKind where
  | MISSING_ARTIFACT
  | PRECONDITION_FALSE
  | SCOPE_CONFLICT
  | POLICY_VIOLATION
  deriving DecidableEq

def NecessityFailureKind.text : NecessityFailureKind → String
  | MISSING_ARTIFACT => "MISSING_ARTIFACT"
  | PRECONDITION_FALSE => "PRECONDITION_FALSE"
  | SCOPE_CONFLICT => "SCOPE_CONFLICT"
  | POLICY_VIOLATION => "POLICY_VIOLATION"

def necessityFailureKinds : List NecessityFailureKind :=
  [.MISSING_ARTIFACT, .PRECONDITION_FALSE, .SCOPE_CONFLICT, .POLICY_VIOLATION]

inductive Stability where
  | MONOTONIC
  | REVOCABLE
  deriving DecidableEq

def Stability.text : Stability → String
  | MONOTONIC => "MONOTONIC"
  | REVOCABLE => "REVOCABLE"

/-! ### Records -/

inductive ProducerFact where
  | ARTIFACT_CONSUMPTION (artifactOrInterfaceRef digest : JsString)
  | STATE_PRECONDITION (daemonFactRef digest : JsString)
  | SCOPE_SERIALIZATION (scopeCollisionObservationRef digest : JsString)
  | POLICY_SEQUENCE (policyRuleId policyHash : JsString)
  deriving DecidableEq

def ProducerFact.kind : ProducerFact → HardDependencyKind
  | ARTIFACT_CONSUMPTION _ _ => .ARTIFACT_CONSUMPTION
  | STATE_PRECONDITION _ _ => .STATE_PRECONDITION
  | SCOPE_SERIALIZATION _ _ => .SCOPE_SERIALIZATION
  | POLICY_SEQUENCE _ _ => .POLICY_SEQUENCE

structure PreconditionConsumer where
  criterionRef : JsString
  contractHash : JsString
  deriving DecidableEq

structure SatisfactionPredicate where
  predicateRef : JsString
  schemaId : JsString
  schemaVersion : SafeCount
  parametersDigest : JsString
  deriving DecidableEq

structure DependencyWitnessBinding where
  witnessRef : JsString
  witnessVersion : SafeCount
  witnessDigest : JsString
  sourceOperationClass : SourceOperationClass
  deriving DecidableEq

structure DependencyFactBinding where
  sourceFactRef : JsString
  sourceFactVersion : SafeCount
  sourceFactDigest : JsString
  deriving DecidableEq

structure DependencyNecessity where
  failedConsumerCriterionRef : JsString
  failureKind : NecessityFailureKind
  truthClass : TruthClass
  deriving DecidableEq

inductive AlternativeRuling where
  | NOT_APPLICABLE (reason : JsString)
  | RULED_OUT (reason : JsString)
  | INTERFACE_AVAILABLE (ref digest : JsString)
  | FIXTURE_AVAILABLE (ref digest : JsString)
  deriving DecidableEq

structure DependencyContract where
  producerNodeKey : JsString
  consumerNodeKey : JsString
  graphBindingDigest : JsString
  producer : ProducerFact
  consumer : PreconditionConsumer
  minimumQualifyingMilestone : QualifyingMilestone
  satisfactionPredicate : SatisfactionPredicate
  stability : Stability
  satisfactionWitnesses : List DependencyWitnessBinding
  consumptionHorizon : DependencyGate
  necessity : DependencyNecessity
  alternativeRuling : AlternativeRuling
  alternateProducers : List JsString
  truthClass : TruthClass
  invalidationFacts : List DependencyFactBinding
  recheckPredicateRef : JsString
  deriving DecidableEq

def DependencyContract.edgeKind (contract : DependencyContract) : HardDependencyKind := contract.producer.kind

structure MonotonicPredicateRegistryEntry where
  predicateRef : JsString
  schemaId : JsString
  schemaVersion : SafeCount
  parameterSchemaDigest : JsString
  sourceOperationClass : SourceOperationClass
  proofRationale : JsString
  deriving DecidableEq

/-! ### Writers -/

def ProducerFact.fields : ProducerFact → List (String × Value)
  | ARTIFACT_CONSUMPTION ref digest =>
    [("artifactOrInterfaceRef", .string ref), ("digest", .string digest), ("kind", word "ARTIFACT_CONSUMPTION")]
  | STATE_PRECONDITION ref digest =>
    [("daemonFactRef", .string ref), ("digest", .string digest), ("kind", word "STATE_PRECONDITION")]
  | SCOPE_SERIALIZATION ref digest =>
    [("digest", .string digest), ("kind", word "SCOPE_SERIALIZATION"), ("scopeCollisionObservationRef", .string ref)]
  | POLICY_SEQUENCE ruleId hash =>
    [("kind", word "POLICY_SEQUENCE"), ("policyHash", .string hash), ("policyRuleId", .string ruleId)]

def ProducerFact.value (producer : ProducerFact) : Value := .record (objectOf producer.fields)

def PreconditionConsumer.fields (consumer : PreconditionConsumer) : List (String × Value) :=
  [("contractHash", .string consumer.contractHash), ("criterionRef", .string consumer.criterionRef),
    ("kind", word "PRECONDITION")]

def PreconditionConsumer.value (consumer : PreconditionConsumer) : Value := .record (objectOf consumer.fields)

def SatisfactionPredicate.fields (predicate : SatisfactionPredicate) : List (String × Value) :=
  [("parametersDigest", .string predicate.parametersDigest), ("predicateRef", .string predicate.predicateRef),
    ("schemaId", .string predicate.schemaId), ("schemaVersion", writeCount predicate.schemaVersion)]

def SatisfactionPredicate.value (predicate : SatisfactionPredicate) : Value := .record (objectOf predicate.fields)

def DependencyWitnessBinding.fields (witness : DependencyWitnessBinding) : List (String × Value) :=
  [("sourceOperationClass", word witness.sourceOperationClass.text), ("witnessDigest", .string witness.witnessDigest),
    ("witnessRef", .string witness.witnessRef), ("witnessVersion", writeCount witness.witnessVersion)]

def DependencyWitnessBinding.value (witness : DependencyWitnessBinding) : Value := .record (objectOf witness.fields)

def DependencyFactBinding.fields (fact : DependencyFactBinding) : List (String × Value) :=
  [("sourceFactDigest", .string fact.sourceFactDigest), ("sourceFactRef", .string fact.sourceFactRef),
    ("sourceFactVersion", writeCount fact.sourceFactVersion)]

def DependencyFactBinding.value (fact : DependencyFactBinding) : Value := .record (objectOf fact.fields)

def DependencyNecessity.fields (necessity : DependencyNecessity) : List (String × Value) :=
  [("failedConsumerCriterionRef", .string necessity.failedConsumerCriterionRef),
    ("failureKind", word necessity.failureKind.text), ("truthClass", word necessity.truthClass.text)]

def DependencyNecessity.value (necessity : DependencyNecessity) : Value := .record (objectOf necessity.fields)

def AlternativeRuling.fields : AlternativeRuling → List (String × Value)
  | NOT_APPLICABLE reason => [("kind", word "NOT_APPLICABLE"), ("reason", .string reason)]
  | RULED_OUT reason => [("kind", word "RULED_OUT"), ("reason", .string reason)]
  | INTERFACE_AVAILABLE ref digest =>
    [("digest", .string digest), ("kind", word "INTERFACE_AVAILABLE"), ("ref", .string ref)]
  | FIXTURE_AVAILABLE ref digest =>
    [("digest", .string digest), ("kind", word "FIXTURE_AVAILABLE"), ("ref", .string ref)]

def AlternativeRuling.value (ruling : AlternativeRuling) : Value := .record (objectOf ruling.fields)

def DependencyContract.fields (contract : DependencyContract) : List (String × Value) :=
  [("alternateProducers", writeList .string contract.alternateProducers),
    ("alternativeRuling", contract.alternativeRuling.value),
    ("consumer", contract.consumer.value),
    ("consumerNodeKey", .string contract.consumerNodeKey),
    ("consumptionHorizon", word contract.consumptionHorizon.text),
    ("edgeKind", word contract.edgeKind.text),
    ("graphBindingDigest", .string contract.graphBindingDigest),
    ("invalidationFacts", writeList DependencyFactBinding.value contract.invalidationFacts),
    ("minimumQualifyingMilestone", word contract.minimumQualifyingMilestone.text),
    ("necessity", contract.necessity.value),
    ("producer", contract.producer.value),
    ("producerNodeKey", .string contract.producerNodeKey),
    ("recheckPredicateRef", .string contract.recheckPredicateRef),
    ("satisfactionPredicate", contract.satisfactionPredicate.value),
    ("satisfactionWitnesses", writeList DependencyWitnessBinding.value contract.satisfactionWitnesses),
    ("stability", word contract.stability.text),
    ("truthClass", word contract.truthClass.text)]

def DependencyContract.value (contract : DependencyContract) : Value := .record (objectOf contract.fields)

end MoeNG.Dependencies

/-!
## The canonical text of a contract tells contracts apart
-/

namespace MoeNG.Dependencies
open MoeNG.Kernel
open MoeNG.Authority (TruthClass truthClasses)
open MoeNG.Readiness (DependencyGate dependencyGates)

/-! ### Words -/

theorem HardDependencyKind.word_injective : Function.Injective fun k : HardDependencyKind => word k.text :=
  MoeNG.Kernel.word_injective _ [.ARTIFACT_CONSUMPTION, .STATE_PRECONDITION, .SCOPE_SERIALIZATION, .POLICY_SEQUENCE]
    fun k => by cases k <;> rfl

theorem SourceOperationClass.word_injective : Function.Injective fun c : SourceOperationClass => word c.text :=
  MoeNG.Kernel.word_injective _ sourceOperationClasses fun c => by cases c <;> rfl

theorem QualifyingMilestone.word_injective : Function.Injective fun m : QualifyingMilestone => word m.text :=
  MoeNG.Kernel.word_injective _ milestones fun m => by cases m <;> rfl

theorem NecessityFailureKind.word_injective : Function.Injective fun k : NecessityFailureKind => word k.text :=
  MoeNG.Kernel.word_injective _ necessityFailureKinds fun k => by cases k <;> rfl

theorem Stability.word_injective : Function.Injective fun s : Stability => word s.text :=
  MoeNG.Kernel.word_injective _ [.MONOTONIC, .REVOCABLE] fun s => by cases s <;> rfl

theorem truthClass_word_injective : Function.Injective fun t : TruthClass => word t.text :=
  MoeNG.Kernel.word_injective _ truthClasses fun t => by cases t <;> rfl

theorem gate_word_injective : Function.Injective fun g : DependencyGate => word g.text :=
  MoeNG.Kernel.word_injective _ dependencyGates fun g => by cases g <;> rfl

/-! ### Unions -/

/-- No other key of a producer fact reads as its kind. -/
theorem producer_keys : lit "artifactOrInterfaceRef" ≠ lit "kind" ∧ lit "daemonFactRef" ≠ lit "kind"
    ∧ lit "digest" ≠ lit "kind" := by decide

theorem ProducerFact.kind_read (producer : ProducerFact) :
    readOwnDataProperty producer.value (lit "kind") = some (word producer.kind.text) := by
  cases producer <;>
    simp [value, fields, objectOf, readOwnDataProperty, producer_keys, kind, HardDependencyKind.text]

theorem ruling_words : lit "NOT_APPLICABLE" ≠ lit "RULED_OUT" ∧ lit "INTERFACE_AVAILABLE" ≠ lit "FIXTURE_AVAILABLE" := by
  decide

theorem ProducerFact.canonical : CanonicalForm ProducerFact.value where
  settled producer := by
    cases producer with
    | ARTIFACT_CONSUMPTION ref digest =>
      exact settled_record _ ["artifactOrInterfaceRef", "digest", "kind"] rfl (by decide)
        (by simp [fields, settled_string, settled_word])
    | STATE_PRECONDITION ref digest =>
      exact settled_record _ ["daemonFactRef", "digest", "kind"] rfl (by decide)
        (by simp [fields, settled_string, settled_word])
    | SCOPE_SERIALIZATION ref digest =>
      exact settled_record _ ["digest", "kind", "scopeCollisionObservationRef"] rfl (by decide)
        (by simp [fields, settled_string, settled_word])
    | POLICY_SEQUENCE ruleId hash =>
      exact settled_record _ ["kind", "policyHash", "policyRuleId"] rfl (by decide)
        (by simp [fields, settled_string, settled_word])
  injective a b h := by
    have hread := a.kind_read
    rw [h, b.kind_read] at hread
    have hkind := HardDependencyKind.word_injective (Option.some.inj hread)
    cases a <;> cases b <;> simp only [kind, reduceCtorEq] at hkind
    all_goals simpa [value, fields, objectOf, and_comm] using h

theorem AlternativeRuling.canonical : CanonicalForm AlternativeRuling.value where
  settled ruling := by
    cases ruling with
    | NOT_APPLICABLE reason =>
      exact settled_record _ ["kind", "reason"] rfl (by decide) (by simp [fields, settled_string, settled_word])
    | RULED_OUT reason =>
      exact settled_record _ ["kind", "reason"] rfl (by decide) (by simp [fields, settled_string, settled_word])
    | INTERFACE_AVAILABLE ref digest =>
      exact settled_record _ ["digest", "kind", "ref"] rfl (by decide) (by simp [fields, settled_string, settled_word])
    | FIXTURE_AVAILABLE ref digest =>
      exact settled_record _ ["digest", "kind", "ref"] rfl (by decide) (by simp [fields, settled_string, settled_word])
  injective a b h := by
    have hrecord := Value.record.inj h
    cases a <;> cases b <;>
      simp [fields, objectOf, word_eq_iff, ruling_words, ruling_words.1.symm, ruling_words.2.symm] at hrecord
    all_goals simp [hrecord]

/-! ### Records -/

theorem PreconditionConsumer.canonical : CanonicalForm PreconditionConsumer.value :=
  CanonicalForm.record fields ["contractHash", "criterionRef", "kind"] (fun _ => rfl) (by decide)
    (fun consumer => by simp [fields, settled_string, settled_word]) fun a b h => by
      cases a
      cases b
      simpa [fields, and_comm] using h

theorem SatisfactionPredicate.canonical : CanonicalForm SatisfactionPredicate.value :=
  CanonicalForm.record fields ["parametersDigest", "predicateRef", "schemaId", "schemaVersion"] (fun _ => rfl) (by decide)
    (fun predicate => by simp [fields, settled_string, settled_count]) fun a b h => by
      cases a
      cases b
      simp [fields, writeCount_injective.eq_iff] at h
      simp [h]

theorem DependencyWitnessBinding.canonical : CanonicalForm DependencyWitnessBinding.value :=
  CanonicalForm.record fields ["sourceOperationClass", "witnessDigest", "witnessRef", "witnessVersion"] (fun _ => rfl)
    (by decide) (fun witness => by simp [fields, settled_string, settled_word, settled_count]) fun a b h => by
      cases a
      cases b
      simp [fields, writeCount_injective.eq_iff, SourceOperationClass.word_injective.eq_iff] at h
      simp [h]

theorem DependencyFactBinding.canonical : CanonicalForm DependencyFactBinding.value :=
  CanonicalForm.record fields ["sourceFactDigest", "sourceFactRef", "sourceFactVersion"] (fun _ => rfl) (by decide)
    (fun fact => by simp [fields, settled_string, settled_count]) fun a b h => by
      cases a
      cases b
      simp [fields, writeCount_injective.eq_iff] at h
      simp [h]

theorem DependencyNecessity.canonical : CanonicalForm DependencyNecessity.value :=
  CanonicalForm.record fields ["failedConsumerCriterionRef", "failureKind", "truthClass"] (fun _ => rfl) (by decide)
    (fun necessity => by simp [fields, settled_string, settled_word]) fun a b h => by
      cases a
      cases b
      simp [fields, NecessityFailureKind.word_injective.eq_iff, truthClass_word_injective.eq_iff] at h
      simp [h]

def contractKeys : List String :=
  ["alternateProducers", "alternativeRuling", "consumer", "consumerNodeKey", "consumptionHorizon", "edgeKind",
    "graphBindingDigest", "invalidationFacts", "minimumQualifyingMilestone", "necessity", "producer", "producerNodeKey",
    "recheckPredicateRef", "satisfactionPredicate", "satisfactionWitnesses", "stability", "truthClass"]

theorem DependencyContract.canonical : CanonicalForm DependencyContract.value :=
  CanonicalForm.record fields contractKeys (fun _ => rfl) (by decide)
    (fun contract => by
      simp [fields, settled_string, settled_word, canonicalForm_string.list.settled,
        DependencyFactBinding.canonical.list.settled, DependencyWitnessBinding.canonical.list.settled,
        AlternativeRuling.canonical.settled, PreconditionConsumer.canonical.settled, DependencyNecessity.canonical.settled,
        ProducerFact.canonical.settled, SatisfactionPredicate.canonical.settled]) fun a b h => by
      cases a
      cases b
      simp [fields, canonicalForm_string.list.injective.eq_iff, DependencyFactBinding.canonical.list.injective.eq_iff,
        DependencyWitnessBinding.canonical.list.injective.eq_iff, AlternativeRuling.canonical.injective.eq_iff,
        PreconditionConsumer.canonical.injective.eq_iff, DependencyNecessity.canonical.injective.eq_iff,
        ProducerFact.canonical.injective.eq_iff, SatisfactionPredicate.canonical.injective.eq_iff,
        gate_word_injective.eq_iff, QualifyingMilestone.word_injective.eq_iff, Stability.word_injective.eq_iff,
        truthClass_word_injective.eq_iff] at h
      simp [h]

end MoeNG.Dependencies
