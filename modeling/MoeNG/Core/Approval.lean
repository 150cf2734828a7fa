import MoeNG.Core.Policy
import MoeNG.Lib.Run

/-!
# Approval records (`packages/core/src/policy/approval-contract.ts`, `approval-validation.ts`, `approval-invalidation.ts`)

An approval is decided or withdrawn by a command and made stale by an impact
set. The two write different fields of one record.
-/

namespace MoeNG.Core.Approval
open MoeNG.Kernel MoeNG.Lib MoeNG.Core MoeNG.Core.Policy

/-! ### Contract (`approval-contract.ts:14-101`) -/

inductive ApprovalLifecycle where
  | PENDING
  | DECIDED
  | WITHDRAWN
  deriving DecidableEq

inductive ApprovalDecision where
  | APPROVE
  | REJECT
  deriving DecidableEq

inductive ApprovalValidity where
  | CURRENT
  | INVALIDATED
  | SUPERSEDED
  deriving DecidableEq

inductive ApprovalActorKind where
  | HUMAN
  | SYSTEM_POLICY
  deriving DecidableEq

structure ApprovalDependencyChanges where
  additions : List JsString
  challenges : List JsString
  removals : List JsString
  deriving DecidableEq

structure ApprovalDecisionRecord where
  actor : JsString
  actorKind : ApprovalActorKind
  applicablePolicyRef : JsString
  approvalRef : JsString
  approvedNodeScope : List JsString
  budgetRef : JsString
  criteriaRef : JsString
  decision : Option ApprovalDecision
  decisionReason : Option JsString
  dependencyChanges : ApprovalDependencyChanges
  exactRevisionHash : JsString
  lifecycle : ApprovalLifecycle
  planQualityAssessmentRef : JsString
  policyDecisionRef : Option JsString
  riskTier : PolicyRiskTier
  stepUpAuthRef : Option JsString
  truthClass : RuntimeTruthClass
  validity : ApprovalValidity
  deriving DecidableEq

inductive ApprovalCommand where
  | decide (decision : ApprovalDecision) (decisionReason stepUpAuthRef : Option JsString)
  | withdraw
  deriving DecidableEq

inductive ApprovalCommandKind where
  | decide
  | withdraw
  deriving DecidableEq

def ApprovalCommand.kind : ApprovalCommand → ApprovalCommandKind
  | .decide .. => .decide
  | .withdraw => .withdraw

structure ApprovalImpactSet where
  canonicalizerVersion : JsString
  changedNodeRefs : List JsString
  changedRevisionHashes : List JsString
  deriving DecidableEq

structure ApprovalSuccessorLink where
  predecessorApprovalRef : JsString
  successorApprovalRef : JsString
  deriving DecidableEq

structure ApprovalInvalidationInput where
  approvals : List ApprovalDecisionRecord
  impactSet : ApprovalImpactSet
  successorLinks : List ApprovalSuccessorLink
  supportedCanonicalizerVersions : List JsString
  deriving DecidableEq

inductive ApprovalRefusal where
  | inputInvalid
  | illegalTransition (commandKind : ApprovalCommandKind) (sourceState : ApprovalLifecycle)
  deriving DecidableEq

abbrev ApprovalResult (α : Type) := Except ApprovalRefusal α

/-! ### Validation (`approval-validation.ts:26-124`) -/

/-- `/^policy:[0-9a-f]{64}$/` -/
def policyActor (actor : JsString) : Bool := (lit "policy:").isPrefixOf actor && validHex64 (actor.drop 7)

def optionalRef (value : Option JsString) : Bool := value.all validRef

def validDependencyChanges (value : ApprovalDependencyChanges) : Bool :=
  value.additions.all validRef && value.challenges.all validRef && value.removals.all validRef

def validLifecycleFields (record : ApprovalDecisionRecord) : Bool := record.decision.isSome = (record.lifecycle = .DECIDED)

def validActorAuthority (record : ApprovalDecisionRecord) : Bool :=
  match record.actorKind with
  | .HUMAN => record.truthClass = .HUMAN_APPROVED && record.stepUpAuthRef.any validRef
  | .SYSTEM_POLICY =>
    record.truthClass = .DAEMON_VERIFIED && (record.riskTier = .R0 || record.riskTier = .R1)
      && record.policyDecisionRef.any validHex64 && record.stepUpAuthRef = none && policyActor record.actor

def validateApprovalRecord (record : ApprovalDecisionRecord) : Bool :=
  validRef record.actor && validRef record.approvalRef
    && validHex64 record.applicablePolicyRef && validHex64 record.budgetRef && validHex64 record.criteriaRef
    && validHex64 record.exactRevisionHash && validHex64 record.planQualityAssessmentRef
    && record.approvedNodeScope.all validRef && validDependencyChanges record.dependencyChanges
    && optionalRef record.decisionReason && optionalRef record.stepUpAuthRef && record.policyDecisionRef.all validHex64
    && validLifecycleFields record && validActorAuthority record

def validateApprovalCommand : ApprovalCommand → Bool
  | .withdraw => true
  | .decide _ decisionReason stepUpAuthRef => optionalRef decisionReason && optionalRef stepUpAuthRef

/-! ### Commands (`approval-invalidation.ts:52-89`) -/

def illegalTransition (record : ApprovalDecisionRecord) (command : ApprovalCommand) : ApprovalResult ApprovalDecisionRecord :=
  .error (.illegalTransition command.kind record.lifecycle)

/-- A human steps up, and the daemon cannot. -/
def steppedUp (record : ApprovalDecisionRecord) (stepUpAuthRef : Option JsString) : Bool :=
  (record.actorKind = .HUMAN && stepUpAuthRef.any validRef) || (record.actorKind = .SYSTEM_POLICY && stepUpAuthRef = none)

def applyApprovalCommand (record : ApprovalDecisionRecord) (command : ApprovalCommand) :
    ApprovalResult ApprovalDecisionRecord :=
  if !validateApprovalRecord record then .error .inputInvalid
  else if !validateApprovalCommand command then .error .inputInvalid
  else if record.validity ≠ .CURRENT then illegalTransition record command
  else if record.lifecycle ≠ .PENDING then illegalTransition record command
  else match command with
    | .withdraw => .ok { record with lifecycle := .WITHDRAWN }
    | .decide decision decisionReason stepUpAuthRef =>
      if !steppedUp record stepUpAuthRef then illegalTransition record command
      else if record.riskTier = .R3 && !decisionReason.any validRef then illegalTransition record command
      else
        .ok { record with
          decision := some decision, decisionReason := decisionReason, lifecycle := .DECIDED,
          stepUpAuthRef := stepUpAuthRef }

/-! ### Invalidation (`approval-invalidation.ts:91-148`) -/

def validImpactSet (value : ApprovalImpactSet) (supported : List JsString) : Bool :=
  validRef value.canonicalizerVersion && value.canonicalizerVersion ∈ supported
    && value.changedNodeRefs.all validRef && value.changedRevisionHashes.all validHex64

def validLink (link : ApprovalSuccessorLink) : Bool :=
  validRef link.predecessorApprovalRef && validRef link.successorApprovalRef

def validateInvalidationInput (input : ApprovalInvalidationInput) : Bool :=
  input.supportedCanonicalizerVersions ≠ [] && input.supportedCanonicalizerVersions.all validRef
    && validImpactSet input.impactSet input.supportedCanonicalizerVersions && input.successorLinks.all validLink
    && input.approvals.all validateApprovalRecord

/-- A link names the record as the one it replaces. -/
def named (record : ApprovalDecisionRecord) (links : List ApprovalSuccessorLink) : Bool :=
  links.any fun link => link.predecessorApprovalRef = record.approvalRef

def intersects (record : ApprovalDecisionRecord) (impactSet : ApprovalImpactSet) : Bool :=
  record.exactRevisionHash ∈ impactSet.changedRevisionHashes
    || record.approvedNodeScope.any fun ref => ref ∈ impactSet.changedNodeRefs

def nextValidity (record : ApprovalDecisionRecord) (impactSet : ApprovalImpactSet) (links : List ApprovalSuccessorLink) :
    ApprovalValidity :=
  if record.validity ≠ .CURRENT then record.validity
  else if named record links then .SUPERSEDED
  else if intersects record impactSet then .INVALIDATED
  else .CURRENT

def invalidated (impactSet : ApprovalImpactSet) (links : List ApprovalSuccessorLink) (record : ApprovalDecisionRecord) :
    ApprovalDecisionRecord :=
  { record with validity := nextValidity record impactSet links }

def applyApprovalInvalidation (input : ApprovalInvalidationInput) : ApprovalResult (List ApprovalDecisionRecord) :=
  if validateInvalidationInput input then .ok (input.approvals.map (invalidated input.impactSet input.successorLinks))
  else .error .inputInvalid

end MoeNG.Core.Approval
