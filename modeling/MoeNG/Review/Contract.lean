import MoeNG.Core.PolicyDecision
import MoeNG.Kernel.CanonicalJson
import MoeNG.Lib.Run

/-!
# Review records (`packages/review/src/review-contract.ts`, `packages/review/src/canonical.ts`)
-/

namespace MoeNG.Review
open MoeNG.Kernel MoeNG.Lib

/-! ### Vocabulary (`review-contract.ts:22-120`) -/

inductive ReviewIndependenceVerdict where
  | INDEPENDENT
  | NOT_INDEPENDENT
  | UNKNOWN
  deriving DecidableEq

inductive ReviewLeaseKind where
  | MUTATING
  | READ_ONLY
  deriving DecidableEq

inductive ReviewCalibrationStaleness where
  | CURRENT
  | STALE
  | UNKNOWN
  deriving DecidableEq

inductive ReviewProofState where
  | PASSED
  | FAILED
  | UNKNOWN
  deriving DecidableEq

inductive ReviewRoute where
  | ACCEPT
  | REJECT_IMPLEMENTATION
  | REJECT_PLAN
  | UNKNOWN_EVIDENCE
  | ESCALATE
  deriving DecidableEq

inductive ReviewDecisionLayer where
  | ELIGIBILITY
  | PACKAGE
  | FINDINGS
  | ACCEPTANCE
  deriving DecidableEq

def reviewEscalationRoundLimit : ℤ := 3

inductive ReviewReasonCode where
  | ACCEPTANCE_POLICY_REFUSED
  | FINDING_ATTRIBUTION_INVALID
  | FINDING_LINEAGE_APPEND_ONLY
  | FINDING_LINEAGE_DIGEST_MISMATCH
  | FINDING_ROUND_INVALID
  | PROOF_FAILED
  | PROOF_UNKNOWN
  | REVIEWER_CALIBRATION_STALE
  | REVIEWER_CALIBRATION_UNPROVEN
  | REVIEWER_HELD_MUTATING_LEASE
  | REVIEWER_IS_AUTHOR
  | REVIEW_CONTINUATION_INVALID
  | REVIEW_ROUND_CAP_REACHED
  | UNKNOWN_REVIEWER_INDEPENDENCE
  deriving DecidableEq

/-- A refusal, or the `TypeError` the canonical printer throws. -/
inductive ReviewFailure where
  | refusal (code : ReviewReasonCode) (layer : ReviewDecisionLayer) (policyReasonCodes : List Core.Policy.PolicyReasonCode)
  | typeError
  deriving DecidableEq

abbrev ReviewResult (α : Type) := Except ReviewFailure α

/-! ### Reviewers (`review-contract.ts:122-165`) -/

structure ReviewLeaseRecord where
  kind : ReviewLeaseKind
  principal : JsString
  subjectRef : JsString
  deriving DecidableEq

structure ReviewerIndependenceInput where
  authors : List JsString
  authorshipResolved : Bool
  leaseHistory : List ReviewLeaseRecord
  leaseHistoryResolved : Bool
  reviewer : JsString
  subjectRef : JsString
  deriving DecidableEq

structure ReviewerIndependenceAssessment where
  calibrationDigest : JsString
  reasonCodes : List ReviewReasonCode
  verdict : ReviewIndependenceVerdict
  deriving DecidableEq

structure ReviewerCalibration where
  corpusRevision : JsString
  sentinelPassed : Bool
  staleness : ReviewCalibrationStaleness
  deriving DecidableEq

/-! ### Findings (`review-contract.ts:225-295`) -/

inductive ReviewFindingSubjectKind where
  | ARTIFACT
  | CRITERION
  | NODE
  | RECEIPT
  deriving DecidableEq

inductive ReviewFindingSeverity where
  | CRITICAL
  | MAJOR
  | MINOR
  deriving DecidableEq

structure ReviewFindingSubject where
  kind : ReviewFindingSubjectKind
  locator : JsString
  deriving DecidableEq

def attributionCriteria : ℕ := 32
def attributionRefLength : ℕ := 256

structure ReviewFindingAttribution where
  criterionIds : List JsString
  nodeKey : JsString
  deriving DecidableEq

/-- A finding with its attribution as `A`: the raw value of a caller, or the one that was read. -/
structure Finding (A : Type) where
  attributedTo : A
  detail : JsString
  ruleId : JsString
  severity : ReviewFindingSeverity
  subject : ReviewFindingSubject
  deriving DecidableEq

abbrev ReviewFinding := Finding (Option ReviewFindingAttribution)

structure ReviewFindingRecord where
  finding : ReviewFinding
  fingerprint : JsString
  round : ℤ
  deriving DecidableEq

structure ReviewLineage where
  digest : JsString
  highestRound : ℤ
  records : List ReviewFindingRecord
  unsuccessfulRounds : ℤ
  deriving DecidableEq

structure ReviewRouting where
  layer : ReviewDecisionLayer
  reasonCodes : List ReviewReasonCode
  repeatFingerprints : List JsString
  route : ReviewRoute
  deriving DecidableEq

/-! ### The records as values -/

def ReviewFindingSubjectKind.text : ReviewFindingSubjectKind → String
  | .ARTIFACT => "ARTIFACT"
  | .CRITERION => "CRITERION"
  | .NODE => "NODE"
  | .RECEIPT => "RECEIPT"

def ReviewFindingSeverity.text : ReviewFindingSeverity → String
  | .CRITICAL => "CRITICAL"
  | .MAJOR => "MAJOR"
  | .MINOR => "MINOR"

def ReviewLeaseKind.text : ReviewLeaseKind → String
  | .MUTATING => "MUTATING"
  | .READ_ONLY => "READ_ONLY"

def ReviewCalibrationStaleness.text : ReviewCalibrationStaleness → String
  | .CURRENT => "CURRENT"
  | .STALE => "STALE"
  | .UNKNOWN => "UNKNOWN"

def integer (z : ℤ) : Value := .number (.integer z)

def subjectValue (subject : ReviewFindingSubject) : Value :=
  .record (objectOf [("kind", .string (lit subject.kind.text)), ("locator", .string subject.locator)])

def attributionValue (attribution : ReviewFindingAttribution) : Value :=
  .record (objectOf [("criterionIds", .array (attribution.criterionIds.map .string)), ("nodeKey", .string attribution.nodeKey)])

def findingValue (finding : ReviewFinding) : Value :=
  .record (objectOf
    ((finding.attributedTo.toList.map fun attribution => ("attributedTo", attributionValue attribution)) ++
      [("detail", .string finding.detail), ("ruleId", .string finding.ruleId),
        ("severity", .string (lit finding.severity.text)), ("subject", subjectValue finding.subject)]))

def recordValue (record : ReviewFindingRecord) : Value :=
  .record (objectOf
    [("finding", findingValue record.finding), ("fingerprint", .string record.fingerprint), ("round", integer record.round)])

def lineageValue (records : List ReviewFindingRecord) (unsuccessfulRounds highestRound : ℤ) : Value :=
  .record (objectOf
    [("highestRound", integer highestRound), ("records", .array (records.map recordValue)),
      ("unsuccessfulRounds", integer unsuccessfulRounds)])

/-! ### Digests (`canonical.ts:36-38`) -/

def canonicalDigest (sha256 : List Byte → JsString) (value : Value) : ReviewResult JsString :=
  match canonicalJson value with
  | some text => .ok (sha256 (utf8 text))
  | none => .error .typeError

end MoeNG.Review
