import MoeNG.Review.Contract

/-!
# Review rounds (`packages/review/src/review-findings.ts`,
`packages/review/src/review-continuation.ts`, `packages/review/src/reviewer-eligibility.ts`)
-/

namespace MoeNG.Review
open MoeNG.Kernel MoeNG.Lib MoeNG.Core.Policy

/-! ### Continuations (`review-continuation.ts:5-54`) -/

structure ReviewContinuationApproval where
  version : JsString
  projectId : JsString
  subjectRef : JsString
  decisionId : JsString
  decisionResultSha256 : JsString
  decisionVersion : ℤ
  sourceDecisionId : JsString
  sourceResultSha256 : JsString
  sourceAggregateVersion : ℤ
  sourceLineageDigest : JsString
  sourceRound : ℤ
  unsuccessfulRounds : ℤ
  deriving DecidableEq

structure ReviewContinuationUse where
  projectId : JsString
  subjectRef : JsString
  round : ℤ
  approval : ReviewContinuationApproval
  deriving DecidableEq

def validReviewContinuationApproval (item : ReviewContinuationApproval) : Bool :=
  item.version = lit "moe-review-continuation/1"
    && isRef item.projectId && isRef item.subjectRef && isRef item.decisionId && isRef item.sourceDecisionId
    && isDigest item.decisionResultSha256 && isDigest item.sourceResultSha256 && isDigest item.sourceLineageDigest
    && isSafeCount item.decisionVersion && isSafeCount item.sourceAggregateVersion
    && item.decisionVersion > item.sourceAggregateVersion
    && isSafeCount item.sourceRound && isSafeCount item.unsuccessfulRounds

def reviewContinuationMatches (lineage : ReviewLineage) (round : ℤ) (use : ReviewContinuationUse) : Bool :=
  let approval := use.approval
  validReviewContinuationApproval approval
    && use.projectId = approval.projectId && use.subjectRef = approval.subjectRef
    && isSafeCount round && use.round = round && round > approval.sourceRound
    && lineage.highestRound = approval.sourceRound && lineage.digest = approval.sourceLineageDigest
    && lineage.unsuccessfulRounds = approval.unsuccessfulRounds

/-! ### Rounds (`review-findings.ts:45-244`) -/

/-- The round number as the caller gave it. -/
structure ReviewRoundInput where
  findings : List (Finding Value)
  round : JsNumber

structure ReviewRoundOutcome where
  lineage : ReviewLineage
  routing : ReviewRouting
  deriving DecidableEq

def refuse {α : Type} (code : ReviewReasonCode) : ReviewResult α := .error (.refusal code .FINDINGS [])

def controlCharacter (c : CodeUnit) : Bool := c ≤ 0x1f || c = 0x7f

def attributionRef : Value → Option JsString
  | .string s => if 0 < s.length && s.length ≤ attributionRefLength && !s.any controlCharacter then some s else none
  | _ => none

/-- `none` when a present attribution is not the closed shape. -/
def inertAttribution (finding : Finding Value) : Option (Option ReviewFindingAttribution) :=
  match finding.attributedTo with
  | .undefined => some none
  | .record value => do
    if value.length ≠ 2 then none
    let nodeKey ← attributionRef (Obj.get value "nodeKey")
    match Obj.get value "criterionIds" with
    | .array listed =>
      if listed.length = 0 || attributionCriteria < listed.length then none
      let criterionIds ← listed.mapM attributionRef
      if hasDuplicates criterionIds then none
      some (some ⟨criterionIds.insertionSort (· ≤ ·), nodeKey⟩)
    | _ => none
  | _ => none

def inertFinding (finding : Finding Value) (attributedTo : Option ReviewFindingAttribution) : ReviewFinding :=
  ⟨attributedTo, finding.detail, finding.ruleId, finding.severity, finding.subject⟩

/-- `Number.isSafeInteger(round) && round >= 0`. -/
def admissibleRound : JsNumber → Option ℤ
  | .integer z => if isSafeCount z then some z else none
  | .negativeZero => some 0
  | .other => none

def owned (record : ReviewFindingRecord) : Bool := record.finding.attributedTo = none

def blocks (record : ReviewFindingRecord) : Bool := owned record && record.finding.severity ≠ .MINOR

section Digests
variable (sha256 : List Byte → JsString)

def fingerprintValue (ruleId : JsString) (subject : ReviewFindingSubject) : Value :=
  .record (objectOf [("ruleId", .string ruleId), ("subject", subjectValue subject)])

def findingFingerprint (finding : ReviewFinding) : ReviewResult JsString :=
  canonicalDigest sha256 (fingerprintValue finding.ruleId finding.subject)

def lineageDigest (records : List ReviewFindingRecord) (unsuccessfulRounds highestRound : ℤ) : ReviewResult JsString :=
  canonicalDigest sha256 (lineageValue records unsuccessfulRounds highestRound)

def emptyReviewLineage : ReviewLineage where
  digest := sha256 (utf8 (canonicalText (lineageValue [] 0 0)))
  highestRound := 0
  records := []
  unsuccessfulRounds := 0

def lineageAttested (lineage : ReviewLineage) : ReviewResult Bool := do
  let digest ← lineageDigest sha256 lineage.records lineage.unsuccessfulRounds lineage.highestRound
  return lineage.digest = digest

def addedRecord (round : ℤ) (finding : Finding Value) : ReviewResult ReviewFindingRecord :=
  match inertAttribution finding with
  | none => refuse .FINDING_ATTRIBUTION_INVALID
  | some attributedTo => do
    let inert := inertFinding finding attributedTo
    let fingerprint ← findingFingerprint sha256 inert
    return ⟨inert, fingerprint, round⟩

/-- `[...new Set(fingerprints)].sort()` of the blocking records that were seen before. -/
def repeats (records added : List ReviewFindingRecord) : List JsString :=
  let seen := (records.filter owned).map (·.fingerprint)
  ((((added.filter blocks).map (·.fingerprint)).filter fun entry => seen.contains entry).dedup).insertionSort (· ≤ ·)

def routeOf (escalated clean : Bool) (repeatFingerprints : List JsString) : ReviewRoute :=
  if escalated then .ESCALATE
  else if clean then .ACCEPT
  else if repeatFingerprints.length > 0 then .REJECT_PLAN
  else .REJECT_IMPLEMENTATION

def recordReviewRound (lineage : ReviewLineage) (round : ReviewRoundInput) (continuation : Option ReviewContinuationUse) :
    ReviewResult ReviewRoundOutcome := do
  if !(← lineageAttested sha256 lineage) then refuse .FINDING_LINEAGE_DIGEST_MISMATCH
  else match admissibleRound round.round with
    | none => refuse .FINDING_ROUND_INVALID
    | some number =>
      if number ≤ lineage.highestRound then refuse .FINDING_LINEAGE_APPEND_ONLY
      else if continuation.any fun use => !reviewContinuationMatches lineage number use then
        refuse .REVIEW_CONTINUATION_INVALID
      else do
        let added ← round.findings.mapM (addedRecord sha256 number)
        let repeatFingerprints := repeats lineage.records added
        let clean : Bool := (added.filter blocks).length = 0
        let unsuccessfulRounds := lineage.unsuccessfulRounds + if clean then 0 else 1
        let records := lineage.records ++ added
        let escalated := unsuccessfulRounds ≥ reviewEscalationRoundLimit && !(clean && continuation.isSome)
        let digest ← lineageDigest sha256 records unsuccessfulRounds number
        return {
          lineage := ⟨digest, number, records, unsuccessfulRounds⟩
          routing := ⟨.FINDINGS, if escalated then [.REVIEW_ROUND_CAP_REACHED] else [], repeatFingerprints,
            routeOf escalated clean repeatFingerprints⟩ }

/-! ### Spending a continuation (`review-continuation.ts:56-75`) -/

def reviewContinuationAccepts (lineage : ReviewLineage) (use : ReviewContinuationUse) : ReviewResult Bool :=
  if !validReviewContinuationApproval use.approval || lineage.highestRound ≠ use.round
      || lineage.records.any fun record => record.round > use.approval.sourceRound && blocks record then .ok false
  else do
    let records := lineage.records.filter fun record => record.round ≤ use.approval.sourceRound
    let digest ← lineageDigest sha256 records lineage.unsuccessfulRounds use.approval.sourceRound
    return reviewContinuationMatches ⟨digest, use.approval.sourceRound, records, lineage.unsuccessfulRounds⟩ use.round use

end Digests

end MoeNG.Review

/-!
## Acceptance of a reviewed lineage (`packages/review/src/reviewer-eligibility.ts`,
`packages/review/src/review-findings.ts:246-313`)
-/

namespace MoeNG.Review
open MoeNG.Kernel MoeNG.Lib MoeNG.Core.Policy

/-! ### Reviewer eligibility (`reviewer-eligibility.ts:31-160`) -/

def identified (input : ReviewerIndependenceInput) : Bool := input.reviewer.length > 0 && input.subjectRef.length > 0

def authorshipKnown (input : ReviewerIndependenceInput) : Bool :=
  input.authorshipResolved && identified input && input.authors.length > 0

def leaseHistoryKnown (input : ReviewerIndependenceInput) : Bool := input.leaseHistoryResolved && identified input

def heldMutatingLease (input : ReviewerIndependenceInput) : Bool :=
  input.leaseHistory.any fun lease =>
    lease.kind = .MUTATING && lease.principal = input.reviewer && lease.subjectRef = input.subjectRef

def leaseValue (lease : ReviewLeaseRecord) : Value :=
  .record (objectOf
    [("kind", .string (lit lease.kind.text)), ("principal", .string lease.principal), ("subjectRef", .string lease.subjectRef)])

def calibrationFacts (input : ReviewerIndependenceInput) : Value :=
  .record (objectOf
    [("authors", .array ((input.authors.insertionSort (· ≤ ·)).map .string)),
      ("authorshipResolved", .bool input.authorshipResolved),
      ("leaseHistory", .array ((input.leaseHistory.map leaseValue).insertionSort fun left right =>
        canonicalText left ≤ canonicalText right)),
      ("leaseHistoryResolved", .bool input.leaseHistoryResolved), ("reviewer", .string input.reviewer),
      ("subjectRef", .string input.subjectRef)])

/-- The codes in the order of their texts. -/
def independenceCodes (input : ReviewerIndependenceInput) : List ReviewReasonCode :=
  (if leaseHistoryKnown input && heldMutatingLease input then [.REVIEWER_HELD_MUTATING_LEASE] else []) ++
    (if authorshipKnown input && input.authors.contains input.reviewer then [.REVIEWER_IS_AUTHOR] else []) ++
      if !authorshipKnown input || !leaseHistoryKnown input then [.UNKNOWN_REVIEWER_INDEPENDENCE] else []

def provenCode (codes : List ReviewReasonCode) : Option ReviewReasonCode :=
  codes.find? fun code => code ≠ .UNKNOWN_REVIEWER_INDEPENDENCE

def calibrationCodes (calibration : ReviewerCalibration) : List ReviewReasonCode :=
  (if calibration.staleness = .STALE then [.REVIEWER_CALIBRATION_STALE] else []) ++
    if calibration.staleness = .UNKNOWN || !calibration.sentinelPassed || calibration.corpusRevision.length = 0 then
      [.REVIEWER_CALIBRATION_UNPROVEN]
    else []

structure ReviewAcceptanceInput where
  continuation : Option ReviewContinuationUse
  calibration : ReviewerCalibration
  lineage : ReviewLineage
  policy : PolicyEvaluationInput
  proof : ReviewProofState
  reviewInputDigest : JsString
  reviewer : ReviewerIndependenceInput
  deriving DecidableEq

structure ReviewAcceptanceQualification where
  policyDecision : PolicyOutcome
  policyReasonCodes : List PolicyReasonCode
  reviewInputDigest : JsString
  reviewerCalibrationDigest : JsString
  deriving DecidableEq

section Digests
variable (sha256 : List Byte → JsString)

def assessReviewerIndependence (input : ReviewerIndependenceInput) : ReviewResult ReviewerIndependenceAssessment := do
  let codes := independenceCodes input
  let digest ← canonicalDigest sha256 (calibrationFacts input)
  return ⟨digest, codes,
    if (provenCode codes).isSome then .NOT_INDEPENDENT else if codes.length > 0 then .UNKNOWN else .INDEPENDENT⟩

def qualifyReviewerForAcceptance (input : ReviewerIndependenceInput) (calibration : ReviewerCalibration) :
    ReviewResult ReviewerIndependenceAssessment := do
  let independence ← assessReviewerIndependence sha256 input
  if independence.verdict ≠ .INDEPENDENT then
    .error (.refusal ((provenCode independence.reasonCodes).getD .UNKNOWN_REVIEWER_INDEPENDENCE) .ELIGIBILITY [])
  else match calibrationCodes calibration with
    | refusal :: _ => .error (.refusal refusal .ELIGIBILITY [])
    | [] => .ok independence

/-! ### The acceptance gates (`review-findings.ts:246-313`) -/

def acceptanceRefusal {α : Type} (code : ReviewReasonCode) (layer : ReviewDecisionLayer)
    (policyReasonCodes : List PolicyReasonCode) : ReviewResult α := .error (.refusal code layer policyReasonCodes)

def calibrationValue (calibration : ReviewerCalibration) (independenceDigest : JsString) : Value :=
  .record (objectOf
    [("calibration", .record (objectOf
        [("corpusRevision", .string calibration.corpusRevision), ("sentinelPassed", .bool calibration.sentinelPassed),
          ("staleness", .string (lit calibration.staleness.text))])),
      ("independence", .string independenceDigest)])

def continuationRefused (input : ReviewAcceptanceInput) : ReviewResult Bool :=
  match input.continuation with
  | none => .ok false
  | some use =>
    if input.reviewer.subjectRef ≠ use.subjectRef then .ok true
    else (reviewContinuationAccepts sha256 input.lineage use).map not

def qualifyReviewAcceptance (opaqueCharacter : JsString → Bool) (nfc : JsString → JsString) (input : ReviewAcceptanceInput) :
    ReviewResult ReviewAcceptanceQualification := do
  let eligible ← qualifyReviewerForAcceptance sha256 input.reviewer input.calibration
  if !(← lineageAttested sha256 input.lineage) then
    acceptanceRefusal .FINDING_LINEAGE_DIGEST_MISMATCH .FINDINGS []
  else if ← continuationRefused sha256 input then acceptanceRefusal .REVIEW_CONTINUATION_INVALID .FINDINGS []
  else if input.lineage.unsuccessfulRounds ≥ reviewEscalationRoundLimit && input.continuation = none then
    acceptanceRefusal .REVIEW_ROUND_CAP_REACHED .FINDINGS []
  else match input.proof with
    | .FAILED => acceptanceRefusal .PROOF_FAILED .ACCEPTANCE []
    | .UNKNOWN => acceptanceRefusal .PROOF_UNKNOWN .ACCEPTANCE []
    | .PASSED =>
      match evaluatePolicy opaqueCharacter nfc input.policy with
      | none => acceptanceRefusal .ACCEPTANCE_POLICY_REFUSED .ACCEPTANCE []
      | some evaluated =>
        if evaluated.decision ≠ .ALLOW then
          acceptanceRefusal .ACCEPTANCE_POLICY_REFUSED .ACCEPTANCE evaluated.reasonCodes
        else do
          let digest ← canonicalDigest sha256 (calibrationValue input.calibration eligible.calibrationDigest)
          return ⟨evaluated.decision, evaluated.reasonCodes, input.reviewInputDigest, digest⟩

end Digests

end MoeNG.Review
