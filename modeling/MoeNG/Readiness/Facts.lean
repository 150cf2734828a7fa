import MoeNG.Graph.Frontier

/-!
# Caller facts (`packages/scheduler/src/readiness/readiness-model.ts`, `readiness-fact-shapes.ts`, `readiness-facts.ts`)
-/

namespace MoeNG.Readiness
open MoeNG.Kernel MoeNG.Lib MoeNG.Graph

/-! ### Vocabulary (`readiness-model.ts:25-195`) -/

inductive FactConfidence where
  | CONFIRMED_TRUE
  | CONFIRMED_FALSE
  | UNKNOWN
  deriving DecidableEq

def FactConfidence.text : FactConfidence → String
  | .CONFIRMED_TRUE => "CONFIRMED_TRUE"
  | .CONFIRMED_FALSE => "CONFIRMED_FALSE"
  | .UNKNOWN => "UNKNOWN"

inductive ReadinessLayer where
  | LOGICAL
  | ADMISSION
  | DISPATCH
  deriving DecidableEq

/-- `READINESS_LAYERS.indexOf`. -/
def ReadinessLayer.rank : ReadinessLayer → ℕ
  | .LOGICAL => 0
  | .ADMISSION => 1
  | .DISPATCH => 2

inductive CallerFactCode where
  | READINESS_PHASE_OWNERSHIP
  | READINESS_EXACT_PLAN
  | READINESS_INPUT_MANIFEST
  | READINESS_CONTEXT
  | READINESS_DOWNSTREAM_PROOF_BUDGET
  | READINESS_CAPABILITY
  | READINESS_RISK_POLICY
  | READINESS_RESOURCE_CONFIRMED_ACTIVE
  | READINESS_PROVIDER_SLOT_RESERVABLE
  | READINESS_NO_ACTIVE_LEASE
  | READINESS_NO_PAUSE
  | READINESS_NO_SUPERSESSION
  | READINESS_NO_RECONCILIATION_HOLD
  deriving DecidableEq

def CallerFactCode.text : CallerFactCode → String
  | .READINESS_PHASE_OWNERSHIP => "READINESS_PHASE_OWNERSHIP"
  | .READINESS_EXACT_PLAN => "READINESS_EXACT_PLAN"
  | .READINESS_INPUT_MANIFEST => "READINESS_INPUT_MANIFEST"
  | .READINESS_CONTEXT => "READINESS_CONTEXT"
  | .READINESS_DOWNSTREAM_PROOF_BUDGET => "READINESS_DOWNSTREAM_PROOF_BUDGET"
  | .READINESS_CAPABILITY => "READINESS_CAPABILITY"
  | .READINESS_RISK_POLICY => "READINESS_RISK_POLICY"
  | .READINESS_RESOURCE_CONFIRMED_ACTIVE => "READINESS_RESOURCE_CONFIRMED_ACTIVE"
  | .READINESS_PROVIDER_SLOT_RESERVABLE => "READINESS_PROVIDER_SLOT_RESERVABLE"
  | .READINESS_NO_ACTIVE_LEASE => "READINESS_NO_ACTIVE_LEASE"
  | .READINESS_NO_PAUSE => "READINESS_NO_PAUSE"
  | .READINESS_NO_SUPERSESSION => "READINESS_NO_SUPERSESSION"
  | .READINESS_NO_RECONCILIATION_HOLD => "READINESS_NO_RECONCILIATION_HOLD"

def admissionReasonCodes : List CallerFactCode :=
  [.READINESS_PHASE_OWNERSHIP, .READINESS_EXACT_PLAN, .READINESS_INPUT_MANIFEST, .READINESS_CONTEXT,
    .READINESS_DOWNSTREAM_PROOF_BUDGET, .READINESS_CAPABILITY, .READINESS_RISK_POLICY]

def dispatchReasonCodes : List CallerFactCode :=
  [.READINESS_RESOURCE_CONFIRMED_ACTIVE, .READINESS_PROVIDER_SLOT_RESERVABLE, .READINESS_NO_ACTIVE_LEASE,
    .READINESS_NO_PAUSE, .READINESS_NO_SUPERSESSION, .READINESS_NO_RECONCILIATION_HOLD]

def callerFactCodes : List CallerFactCode := admissionReasonCodes ++ dispatchReasonCodes

/-- `READINESS_REASON_LAYERS` on the caller codes. -/
def CallerFactCode.layer : CallerFactCode → ReadinessLayer
  | .READINESS_PHASE_OWNERSHIP => .ADMISSION
  | .READINESS_EXACT_PLAN => .ADMISSION
  | .READINESS_INPUT_MANIFEST => .ADMISSION
  | .READINESS_CONTEXT => .ADMISSION
  | .READINESS_DOWNSTREAM_PROOF_BUDGET => .ADMISSION
  | .READINESS_CAPABILITY => .ADMISSION
  | .READINESS_RISK_POLICY => .ADMISSION
  | .READINESS_RESOURCE_CONFIRMED_ACTIVE => .DISPATCH
  | .READINESS_PROVIDER_SLOT_RESERVABLE => .DISPATCH
  | .READINESS_NO_ACTIVE_LEASE => .DISPATCH
  | .READINESS_NO_PAUSE => .DISPATCH
  | .READINESS_NO_SUPERSESSION => .DISPATCH
  | .READINESS_NO_RECONCILIATION_HOLD => .DISPATCH

/-! ### Gates (`dependencies/dependency-contract.ts:18-22`, `dependencies/dependency-witness.ts:8-12`) -/

inductive DependencyGate where
  | MATERIALIZATION_SEAL
  | EXECUTOR_CLAIM
  | EFFECT_ACTIVATE
  | STEP_START
  | CANDIDATE_SEAL
  | RESULT_SEAL
  | EVIDENCE_SEAL
  | INTEGRATION_SEAL
  | REVIEW_QUALIFICATION
  | ACCEPTANCE_QUALIFICATION
  | GOAL_COMPLETION
  deriving DecidableEq

def DependencyGate.text : DependencyGate → String
  | .MATERIALIZATION_SEAL => "MATERIALIZATION_SEAL"
  | .EXECUTOR_CLAIM => "EXECUTOR_CLAIM"
  | .EFFECT_ACTIVATE => "EFFECT_ACTIVATE"
  | .STEP_START => "STEP_START"
  | .CANDIDATE_SEAL => "CANDIDATE_SEAL"
  | .RESULT_SEAL => "RESULT_SEAL"
  | .EVIDENCE_SEAL => "EVIDENCE_SEAL"
  | .INTEGRATION_SEAL => "INTEGRATION_SEAL"
  | .REVIEW_QUALIFICATION => "REVIEW_QUALIFICATION"
  | .ACCEPTANCE_QUALIFICATION => "ACCEPTANCE_QUALIFICATION"
  | .GOAL_COMPLETION => "GOAL_COMPLETION"

def dependencyGates : List DependencyGate :=
  [.MATERIALIZATION_SEAL, .EXECUTOR_CLAIM, .EFFECT_ACTIVATE, .STEP_START, .CANDIDATE_SEAL, .RESULT_SEAL, .EVIDENCE_SEAL,
    .INTEGRATION_SEAL, .REVIEW_QUALIFICATION, .ACCEPTANCE_QUALIFICATION, .GOAL_COMPLETION]

def gateOf (value : Value) : Option DependencyGate := oneOf DependencyGate.text dependencyGates value

def isWithinHorizon (gate horizon : DependencyGate) : Bool := dependencyGates.idxOf gate ≤ dependencyGates.idxOf horizon

/-! ### Fact shapes (`readiness-fact-shapes.ts:42-114`) -/

structure DependencyFactBinding where
  sourceFactRef : JsString
  sourceFactVersion : ℤ
  sourceFactDigest : JsString
  deriving DecidableEq

structure RawReadinessFact where
  code : CallerFactCode
  confidence : Value
  provenance : Option DependencyFactBinding
  horizonGate : Value
  recoveryRef : Option JsString

def parseProvenance (value : Value) : Option DependencyFactBinding := do
  let item ← readRecord value ["sourceFactRef", "sourceFactVersion", "sourceFactDigest"]
    ["sourceFactRef", "sourceFactVersion", "sourceFactDigest"]
  let sourceFactRef ← refOf (item.field "sourceFactRef")
  let sourceFactVersion ← versionOf (item.field "sourceFactVersion")
  let sourceFactDigest ← digestOf (item.field "sourceFactDigest")
  some ⟨sourceFactRef, sourceFactVersion, sourceFactDigest⟩

def factVersion (value : Value) : Option (JsString × ℤ) := do
  let item ← readRecord value ["sourceFactRef", "version"] ["sourceFactRef", "version"]
  let sourceFactRef ← refOf (item.field "sourceFactRef")
  let version ← versionOf (item.field "version")
  some (sourceFactRef, version)

def parseVersions (value : Value) (minimum : ℕ) : Option (List (JsString × ℤ)) := do
  let entries ← dense value minimum
  let versions ← entries.mapM factVersion
  if hasDuplicates (versions.map Prod.fst) then none else some versions

def parseCurrentVersions : Value → Option (List (JsString × ℤ))
  | .undefined => some []
  | .null => some []
  | value => parseVersions value 0

def factKeys : List String := ["code", "confidence", "provenance", "horizonGate", "recoveryRef"]

def parseRawFact (value : Value) : Option RawReadinessFact := do
  let item ← readRecord value factKeys factKeys
  let code ← oneOf CallerFactCode.text callerFactCodes (item.field "code")
  some ⟨code, item.field "confidence", parseProvenance (item.field "provenance"), item.field "horizonGate",
    refOf (item.field "recoveryRef")⟩

/-! ### Intentional waits (`admission/admission-wait.ts:31-127`) -/

inductive WaitEscalationKind where
  | ESCALATE_TO_HUMAN
  | ESCALATE_TO_PLANNER
  | NO_ESCALATION
  deriving DecidableEq

def WaitEscalationKind.text : WaitEscalationKind → String
  | .ESCALATE_TO_HUMAN => "ESCALATE_TO_HUMAN"
  | .ESCALATE_TO_PLANNER => "ESCALATE_TO_PLANNER"
  | .NO_ESCALATION => "NO_ESCALATION"

structure WaitPredicate where
  predicateRef : JsString
  schemaId : JsString
  schemaVersion : ℤ
  parametersDigest : JsString
  deriving DecidableEq

structure WaitEscalation where
  kind : WaitEscalationKind
  ref : JsString
  deriving DecidableEq

structure WaitBinding where
  graphIdentity : JsString
  sourceFactVersions : List (JsString × ℤ)
  deriving DecidableEq

structure IntentionalWait where
  waitRef : JsString
  ownerNodeKey : JsString
  reason : JsString
  predicate : WaitPredicate
  affectedScope : List JsString
  recheckAtGate : DependencyGate
  deadlineGate : DependencyGate
  escalation : WaitEscalation
  binding : WaitBinding
  deriving DecidableEq

inductive WaitIssueCode where
  | ADMISSION_WAIT_MALFORMED
  | ADMISSION_WAIT_HORIZON_INVALID
  deriving DecidableEq

structure WaitIssue where
  code : WaitIssueCode
  message : JsString
  deriving DecidableEq

def parseScope (value : Value) : Option (List JsString) := do
  let entries ← dense value 1
  let scope ← entries.mapM graphKeyOf
  if hasDuplicates scope then none else some scope

def waitPredicate (value : Value) : Option WaitPredicate := do
  let item ← readRecord value ["predicateRef", "schemaId", "schemaVersion", "parametersDigest"]
    ["predicateRef", "schemaId", "schemaVersion", "parametersDigest"]
  let predicateRef ← refOf (item.field "predicateRef")
  let schemaId ← refOf (item.field "schemaId")
  let schemaVersion ← versionOf (item.field "schemaVersion")
  let parametersDigest ← digestOf (item.field "parametersDigest")
  some ⟨predicateRef, schemaId, schemaVersion, parametersDigest⟩

def waitEscalation (value : Value) : Option WaitEscalation := do
  let item ← readRecord value ["kind", "ref"] ["kind", "ref"]
  let kind ← oneOf WaitEscalationKind.text [.ESCALATE_TO_HUMAN, .ESCALATE_TO_PLANNER, .NO_ESCALATION] (item.field "kind")
  let ref ← refOf (item.field "ref")
  some ⟨kind, ref⟩

def waitBinding (value : Value) : Option WaitBinding := do
  let item ← readRecord value ["graphIdentity", "sourceFactVersions"] ["graphIdentity", "sourceFactVersions"]
  let graphIdentity ← refOf (item.field "graphIdentity")
  let sourceFactVersions ← parseVersions (item.field "sourceFactVersions") 1
  some ⟨graphIdentity, sourceFactVersions⟩

def waitKeys : List String :=
  ["waitRef", "ownerNodeKey", "reason", "predicate", "affectedScope", "recheckAtGate", "deadlineGate", "escalation",
    "binding"]

def parseWait (value : Value) : Option IntentionalWait := do
  let item ← readRecord value waitKeys waitKeys
  let waitRef ← refOf (item.field "waitRef")
  let ownerNodeKey ← graphKeyOf (item.field "ownerNodeKey")
  let reason ← refOf (item.field "reason")
  let predicate ← waitPredicate (item.field "predicate")
  let affectedScope ← parseScope (item.field "affectedScope")
  let recheckAtGate ← gateOf (item.field "recheckAtGate")
  let deadlineGate ← gateOf (item.field "deadlineGate")
  let escalation ← waitEscalation (item.field "escalation")
  let binding ← waitBinding (item.field "binding")
  some ⟨waitRef, ownerNodeKey, reason, predicate, affectedScope, recheckAtGate, deadlineGate, escalation, binding⟩

def validateIntentionalWait (value : Value) : Except WaitIssue IntentionalWait :=
  match parseWait value with
  | none => .error ⟨.ADMISSION_WAIT_MALFORMED, lit "intentional wait record is malformed"⟩
  | some wait =>
    if isWithinHorizon wait.recheckAtGate wait.deadlineGate then .ok wait
    else .error ⟨.ADMISSION_WAIT_HORIZON_INVALID, lit "wait recheck gate is beyond the wait deadline"⟩

/-! ### Classification (`readiness-facts.ts:46-175`) -/

structure ReadinessPredicateFact where
  code : CallerFactCode
  layer : ReadinessLayer
  confidence : FactConfidence
  provenance : Option DependencyFactBinding
  recoveryRef : Option JsString
  deriving DecidableEq

structure NodeReadinessFacts where
  nodeKey : JsString
  currentGate : DependencyGate
  predicates : List ReadinessPredicateFact
  admission : FactConfidence
  dispatch : FactConfidence
  wait : Option IntentionalWait
  waitCurrent : Bool
  deriving DecidableEq

def claimed (confidence : Value) : FactConfidence :=
  (oneOf FactConfidence.text [.CONFIRMED_TRUE, .CONFIRMED_FALSE] confidence).getD .UNKNOWN

def versionMoved (versions : List (JsString × ℤ)) (provenance : DependencyFactBinding) : Bool :=
  ((versions.find? fun e => e.1 = provenance.sourceFactRef).map Prod.snd).any fun current =>
    current ≠ provenance.sourceFactVersion

def classify (raw : RawReadinessFact) (currentGate : DependencyGate) (currentVersions : List (JsString × ℤ)) :
    FactConfidence :=
  match raw.provenance, gateOf raw.horizonGate with
  | some provenance, some horizon =>
    if !isWithinHorizon currentGate horizon then .UNKNOWN
    else if versionMoved currentVersions provenance then .UNKNOWN
    else claimed raw.confidence
  | _, _ => .UNKNOWN

def fold (predicates : List ReadinessPredicateFact) (codes : List CallerFactCode) : FactConfidence :=
  let wanted := predicates.filter fun predicate => predicate.code ∈ codes
  if wanted.any fun predicate => predicate.confidence = .CONFIRMED_FALSE then .CONFIRMED_FALSE
  else if wanted.any fun predicate => predicate.confidence = .UNKNOWN then .UNKNOWN
  else .CONFIRMED_TRUE

/-- `[...CALLER_FACT_CODES].sort()`. -/
def sortedCallerFactCodes : List CallerFactCode := callerFactCodes.insertionSort fun a b => lit a.text ≤ lit b.text

def predicateFact (raw : List RawReadinessFact) (currentGate : DependencyGate) (currentVersions : List (JsString × ℤ))
    (code : CallerFactCode) : ReadinessPredicateFact :=
  let supplied := raw.find? fun fact => fact.code = code
  { code := code
    layer := code.layer
    confidence := (supplied.map fun fact => classify fact currentGate currentVersions).getD .UNKNOWN
    provenance := supplied.bind RawReadinessFact.provenance
    recoveryRef := supplied.bind RawReadinessFact.recoveryRef }

def classifyAll (raw : List RawReadinessFact) (currentGate : DependencyGate) (currentVersions : List (JsString × ℤ)) :
    List ReadinessPredicateFact :=
  sortedCallerFactCodes.map (predicateFact raw currentGate currentVersions)

def currentWait (currentGate : DependencyGate) (wait : Value) : Option IntentionalWait :=
  match validateIntentionalWait wait with
  | .ok wait => if isWithinHorizon currentGate wait.deadlineGate then some wait else none
  | .error _ => none

def parseRawFacts (value : Value) : Option (List RawReadinessFact) := do
  let entries ← dense value 0
  let raw ← entries.mapM parseRawFact
  if hasDuplicates (raw.map RawReadinessFact.code) then none else some raw

def parseNodeReadinessFacts (input : Value) : Option NodeReadinessFacts := do
  let item ← readRecord input ["nodeKey", "currentGate", "facts", "wait", "currentFactVersions"]
    ["nodeKey", "currentGate", "facts"]
  let nodeKey ← graphKeyOf (item.field "nodeKey")
  let currentGate ← gateOf (item.field "currentGate")
  let currentVersions ← parseCurrentVersions (item.field "currentFactVersions")
  let raw ← parseRawFacts (item.field "facts")
  let predicates := classifyAll raw currentGate currentVersions
  let wait := currentWait currentGate (item.field "wait")
  some ⟨nodeKey, currentGate, predicates, fold predicates admissionReasonCodes, fold predicates dispatchReasonCodes, wait,
    wait.isSome⟩

end MoeNG.Readiness
