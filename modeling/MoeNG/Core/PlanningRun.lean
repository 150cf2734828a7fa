import MoeNG.Core.Snapshot

/-!
# Planning runs (`packages/core/src/planning/planning-command-contract.ts`,
`planning-event-contract.ts`, `planning-validation.ts`, `planning-expansion-validation.ts`,
`planning-results.ts`, `planning-run-submission.ts`, `planning-run-reducer.ts`)

The admission of a carried plan authority (`planning-authority-submission.ts`)
is a parameter: it decides whether a proposal is refused and what its sealed
event records, and no state depends on it.
-/

namespace MoeNG.Core.PlanningRun
open MoeNG.Kernel MoeNG.Core

/-! ### Contract (`planning-command-contract.ts:12-250`, `planning-event-contract.ts:16-175`) -/

inductive PlanningRunKind where
  | INITIAL
  | REVISION
  | EXPANSION
  deriving DecidableEq

inductive PlanningRunLifecycle where
  | DRAFT
  | READY
  | PLANNING
  | SUBMISSION_DRAINING
  | PLAN_REVIEW
  | APPROVED
  | ACTIVATED
  | REJECTED
  | CANCELLED
  deriving DecidableEq

inductive PlanningRunCommandKind where
  | createDraft
  | ready
  | claim
  | release
  | recoverAbsent
  | propose
  | finalizeSubmission
  | planApprove
  | planRevise
  | graphApprove
  | goalCancel
  | planningCancel
  deriving DecidableEq

structure PlanningReadinessWitness where
  acceptanceCriteriaRef : JsString
  intentBaseRef : JsString
  planningBudgetRef : JsString
  truthClass : RuntimeTruthClass
  deriving DecidableEq

structure PlanningClaimWitness where
  attemptRef : JsString
  contextRef : JsString
  leaseRef : JsString
  providerSlotRef : JsString
  truthClass : RuntimeTruthClass
  deriving DecidableEq

inductive HandoffKind where
  | SAFE_RELEASE_HANDOFF
  | NO_HANDOFF_RECOVERY
  deriving DecidableEq

structure PlanningResumeProof where
  handoffKind : HandoffKind
  handoffRef : JsString
  priorAttemptTerminalRef : JsString
  truthClass : RuntimeTruthClass
  deriving DecidableEq

structure PlanningReleaseWitness where
  attemptTerminalRef : JsString
  handoffRef : JsString
  truthClass : RuntimeTruthClass
  deriving DecidableEq

structure PlanningAbsenceRecoveryWitness where
  effectsAbsentRef : JsString
  leaseFencedRef : JsString
  missingInMemoryState : JsString
  priorAttemptTerminalRef : JsString
  recoverySealRef : JsString
  resourcesAbsentRef : JsString
  truthClass : RuntimeTruthClass
  deriving DecidableEq

structure PlanSubmissionWitness where
  attemptRef : JsString
  submissionRef : JsString
  truthClass : RuntimeTruthClass
  deriving DecidableEq

structure PlanningEffectTerminalProof where
  effectTerminalRef : JsString
  resourcesTerminalRef : JsString
  truthClass : RuntimeTruthClass
  deriving DecidableEq

structure NodeSummary where
  executionBearing : Bool
  nodeKey : JsString
  deriving DecidableEq

structure SubmissionFinalizeWitness where
  attemptTerminalRef : JsString
  effectTerminalRef : JsString
  nodeSummaries : List NodeSummary
  providerSlotTerminalRef : JsString
  resourcesTerminalRef : JsString
  truthClass : RuntimeTruthClass
  deriving DecidableEq

structure PlanRevisionHashes where
  dependencyHash : JsString
  graphContentHash : JsString
  planHash : JsString
  qualityHash : JsString
  deriving DecidableEq

structure PlanRevisionSeal extends PlanRevisionHashes where
  graphRevisionRef : JsString
  deriving DecidableEq

structure PlanningRefusalWitness where
  findingsRef : JsString
  successorRunId : JsString
  truthClass : RuntimeTruthClass
  deriving DecidableEq

structure PlanApprovalWitness extends PlanRevisionHashes where
  approvalRef : JsString
  truthClass : RuntimeTruthClass
  deriving DecidableEq

structure PlanningActivationWitness where
  activationRef : JsString
  budgetHash : JsString
  expectedGoalVersion : ℤ
  goalDraftNoActiveRevision : Bool
  graphHash : JsString
  policyHash : JsString
  qualityHash : JsString
  truthClass : RuntimeTruthClass
  deriving DecidableEq

structure PlanningCancellationWitness where
  authorizationRef : JsString
  noLiveOrUnknownEffect : Bool
  truthClass : RuntimeTruthClass
  deriving DecidableEq

inductive PlanningHoldLifecycle where
  | ACTIVE
  | RESOLVED
  | SUPERSEDED
  | CANCELLED
  deriving DecidableEq

structure ExpansionHandoffBinding where
  digest : JsString
  ref : JsString
  deriving DecidableEq

structure PlanningExpansionHoldBinding where
  generation : ℤ
  goalVersion : ℤ
  graphEpoch : ℤ
  holdId : JsString
  lifecycle : PlanningHoldLifecycle
  parentNodeRef : JsString
  parentRunRef : JsString
  proposalBaseHash : JsString
  sourceFingerprint : JsString
  truthClass : RuntimeTruthClass
  workerHandoff : ExpansionHandoffBinding
  deriving DecidableEq

structure PlanningExpansionProposalIdentity where
  proposalHash : JsString
  proposalRef : JsString
  truthClass : RuntimeTruthClass
  deriving DecidableEq

structure PlanProposal (Authority : Type) where
  proposalKind : PlanningRunKind
  submissionHash : JsString
  witness : PlanSubmissionWitness
  effectTerminalProof : Option PlanningEffectTerminalProof
  authority : Option Authority
  expansion : Option PlanningExpansionHoldBinding
  sealedProposal : Option PlanningExpansionProposalIdentity
  deriving DecidableEq

inductive PlanningRunRequest (Authority : Type) where
  | createDraft (runId goalRef : JsString) (runKind : PlanningRunKind) (expansion : Option PlanningExpansionHoldBinding)
  | ready (witness : PlanningReadinessWitness)
  | claim (resumeProof : Option PlanningResumeProof) (witness : PlanningClaimWitness)
  | release (witness : PlanningReleaseWitness)
  | recoverAbsent (witness : PlanningAbsenceRecoveryWitness)
  | propose (proposal : PlanProposal Authority)
  | finalizeSubmission (refusal : Option PlanningRefusalWitness) (revision : Option PlanRevisionSeal)
      (witness : SubmissionFinalizeWitness)
  | planApprove (witness : PlanApprovalWitness)
  | planRevise (witness : PlanningRefusalWitness)
  | graphApprove (planApproval : Option PlanApprovalWitness) (witness : PlanningActivationWitness)
  | goalCancel (witness : PlanningCancellationWitness)
  | planningCancel (witness : PlanningCancellationWitness)
  deriving DecidableEq

structure PlanningRunCommand (Authority : Type) where
  commandId : JsString
  expectedVersion : ℤ
  request : PlanningRunRequest Authority
  deriving DecidableEq

def PlanningRunRequest.kind {Authority : Type} : PlanningRunRequest Authority → PlanningRunCommandKind
  | .createDraft .. => .createDraft
  | .ready _ => .ready
  | .claim .. => .claim
  | .release _ => .release
  | .recoverAbsent _ => .recoverAbsent
  | .propose _ => .propose
  | .finalizeSubmission .. => .finalizeSubmission
  | .planApprove _ => .planApprove
  | .planRevise _ => .planRevise
  | .graphApprove .. => .graphApprove
  | .goalCancel _ => .goalCancel
  | .planningCancel _ => .planningCancel

structure PlanningRunFacets where
  leaseSuspect : Bool
  livePlannerEffect : Bool
  owned : Bool
  resumable : Bool
  deriving DecidableEq

/-- The two members that only the state of an expansion run has. -/
structure ExpansionCarrier where
  expansion : PlanningExpansionHoldBinding
  sealedProposal : Option PlanningExpansionProposalIdentity
  deriving DecidableEq

structure PlanningRunState where
  approvedHashes : Option PlanRevisionHashes
  attemptRef : Option JsString
  carrier : Option ExpansionCarrier
  facets : PlanningRunFacets
  goalRef : JsString
  graphRevisionRef : Option JsString
  leaseRef : Option JsString
  lifecycle : PlanningRunLifecycle
  runId : JsString
  runKind : PlanningRunKind
  sealedHashes : Option PlanRevisionHashes
  submissionHash : Option JsString
  version : ℤ
  deriving DecidableEq

structure PlanAuthorityIdentity where
  criteriaDigest : JsString
  criteriaRef : JsString
  graphContentHash : JsString
  graphRevisionRef : JsString
  planHash : JsString
  revisionId : JsString
  deriving DecidableEq

inductive PlanningRunFact where
  | PlanningRunCreated (goalRef runId : JsString) (runKind : PlanningRunKind)
      (expansion : Option PlanningExpansionHoldBinding)
  | PlanningRunReady (witness : PlanningReadinessWitness)
  | PlanningClaimed (resumed : Bool) (witness : PlanningClaimWitness)
  | PlanningReleased (witness : PlanningReleaseWitness)
  | PlanningRecoveredAbsent (witness : PlanningAbsenceRecoveryWitness)
  | PlanningSubmissionSealed (draining : Bool) (submissionHash : JsString) (authority : Option PlanAuthorityIdentity)
      (expansion : Option (PlanningExpansionHoldBinding × PlanningExpansionProposalIdentity))
  | PlanRevisionCreated (graphRevisionRef : JsString) (hashes : PlanRevisionHashes)
  | PlanningRunRejected (findingsRef successorRunId : JsString)
  | PlanApproved (hashes : PlanRevisionHashes)
  | PlanningRunActivated (witness : PlanningActivationWitness)
  | PlanningRunCancelled (witness : PlanningCancellationWitness)
  deriving DecidableEq

structure PlanningRunEvent where
  commandId : JsString
  version : ℤ
  fact : PlanningRunFact
  deriving DecidableEq

structure PlanningRunAccepted where
  events : List PlanningRunEvent
  state : PlanningRunState
  successor : Option PlanningRunState
  deriving DecidableEq

/-- The runtime error of a refusal, with the details it carries. -/
inductive PlanningRunRefusal where
  | unknownError
  | illegalTransition (commandKind : PlanningRunCommandKind) (sourceState : PlanningRunLifecycle)
  | expectedVersionConflict (actualVersion expectedVersion : ℤ)
  | idempotencyConflict
  | planningSubmissionFinalizing (sourceState : PlanningRunLifecycle)
  deriving DecidableEq

abbrev PlanningRunReducerResult := Except PlanningRunRefusal PlanningRunAccepted

/-! ### Validation (`planning-validation.ts:54-244`) -/

def validHashes (h : PlanRevisionHashes) : Bool :=
  validHex64 h.dependencyHash && validHex64 h.graphContentHash && validHex64 h.planHash && validHex64 h.qualityHash

def validReadiness (w : PlanningReadinessWitness) : Bool :=
  validRef w.acceptanceCriteriaRef && validRef w.intentBaseRef && validRef w.planningBudgetRef && strongTruth w.truthClass

def validClaim (w : PlanningClaimWitness) : Bool :=
  validRef w.attemptRef && validRef w.contextRef && validRef w.leaseRef && validRef w.providerSlotRef
    && strongTruth w.truthClass

def validResume (p : PlanningResumeProof) : Bool :=
  validRef p.handoffRef && validRef p.priorAttemptTerminalRef && strongTruth p.truthClass

def validRelease (w : PlanningReleaseWitness) : Bool :=
  validRef w.attemptTerminalRef && validRef w.handoffRef && strongTruth w.truthClass

def validAbsenceRecovery (w : PlanningAbsenceRecoveryWitness) : Bool :=
  validRef w.effectsAbsentRef && validRef w.leaseFencedRef && w.missingInMemoryState = lit "UNKNOWN"
    && validRef w.priorAttemptTerminalRef && validRef w.recoverySealRef && validRef w.resourcesAbsentRef
    && strongTruth w.truthClass

def validSubmission (w : PlanSubmissionWitness) : Bool :=
  validRef w.attemptRef && validRef w.submissionRef && strongTruth w.truthClass

def validEffectTerminal (p : PlanningEffectTerminalProof) : Bool :=
  validRef p.effectTerminalRef && validRef p.resourcesTerminalRef && strongTruth p.truthClass

def maxFinalizeNodeSummaries : ℕ := 64

def validFinalize (w : SubmissionFinalizeWitness) : Bool :=
  validRef w.attemptTerminalRef && validRef w.effectTerminalRef && validRef w.providerSlotTerminalRef
    && validRef w.resourcesTerminalRef && strongTruth w.truthClass && w.nodeSummaries.length ≠ 0
    && w.nodeSummaries.length ≤ maxFinalizeNodeSummaries && w.nodeSummaries.all (fun summary => validRef summary.nodeKey)
    && !hasDuplicates (w.nodeSummaries.map NodeSummary.nodeKey)

def executionBearingKeys (w : SubmissionFinalizeWitness) : List JsString :=
  (w.nodeSummaries.filter NodeSummary.executionBearing).map NodeSummary.nodeKey

def validSeal (s : PlanRevisionSeal) : Bool := validHashes s.toPlanRevisionHashes && validRef s.graphRevisionRef

def validRefusal (w : PlanningRefusalWitness) : Bool :=
  validRef w.findingsRef && validRef w.successorRunId && strongTruth w.truthClass

def validHumanRefusal (w : PlanningRefusalWitness) : Bool := validRefusal w && humanApproved w.truthClass

def validPlanApproval (w : PlanApprovalWitness) : Bool :=
  validHashes w.toPlanRevisionHashes && validRef w.approvalRef && strongTruth w.truthClass

def validActivation (w : PlanningActivationWitness) : Bool :=
  validRef w.activationRef && validHex64 w.budgetHash && isSafeInteger w.expectedGoalVersion && 1 ≤ w.expectedGoalVersion
    && w.goalDraftNoActiveRevision && validHex64 w.graphHash && validHex64 w.policyHash && validHex64 w.qualityHash
    && strongTruth w.truthClass

def validCancellation (w : PlanningCancellationWitness) : Bool :=
  validRef w.authorizationRef && w.noLiveOrUnknownEffect && humanApproved w.truthClass

def validFacetPlacement (facets : PlanningRunFacets) (lifecycle : PlanningRunLifecycle) : Bool :=
  let claimable := lifecycle = .PLANNING || lifecycle = .SUBMISSION_DRAINING
  (!facets.owned || claimable) && (!facets.livePlannerEffect || claimable)
    && (!facets.resumable || (lifecycle = .PLANNING && !facets.owned)) && (!facets.leaseSuspect || lifecycle = .PLANNING)

def validContentPlacement (s : PlanningRunState) : Bool :=
  if s.lifecycle = .DRAFT || s.lifecycle = .READY then
    s.submissionHash = none && s.sealedHashes = none && s.approvedHashes = none && s.graphRevisionRef = none
  else if s.lifecycle = .SUBMISSION_DRAINING && !s.submissionHash.any validHex64 then false
  else if !(s.lifecycle = .PLAN_REVIEW || s.lifecycle = .APPROVED || s.lifecycle = .ACTIVATED) then true
  else
    s.submissionHash.any validHex64 && s.sealedHashes.any validHashes && s.graphRevisionRef.any validRef
      && if s.lifecycle = .PLAN_REVIEW then s.approvedHashes = none else s.approvedHashes.any validHashes

def validPlanningRunState (s : PlanningRunState) : Bool :=
  validFacetPlacement s.facets s.lifecycle && validRef s.runId && validRef s.goalRef && isSafeInteger s.version
    && 1 ≤ s.version
    && (if s.facets.owned then s.attemptRef.any validRef && s.leaseRef.any validRef
      else s.attemptRef = none && s.leaseRef = none)
    && s.submissionHash.all validHex64 && s.sealedHashes.all validHashes && s.approvedHashes.all validHashes
    && s.graphRevisionRef.all validRef && validContentPlacement s

/-! ### Expansion contracts (`planning-expansion-validation.ts:44-199`) -/

def maxExpansionRef : ℕ := 256

def boundedRef (value : JsString) : Bool := validRef value && value.length ≤ maxExpansionRef

def positiveSafe (value : ℤ) : Bool := isSafeInteger value && 1 ≤ value

def validHandoff (h : ExpansionHandoffBinding) : Bool := validHex64 h.digest && boundedRef h.ref

def validExpansionHoldBinding (b : PlanningExpansionHoldBinding) : Bool :=
  positiveSafe b.generation && positiveSafe b.goalVersion && validExpectedVersion b.graphEpoch && boundedRef b.holdId
    && b.lifecycle = .ACTIVE && boundedRef b.parentNodeRef && boundedRef b.parentRunRef && validHex64 b.proposalBaseHash
    && validHex64 b.sourceFingerprint && b.truthClass = .DAEMON_VERIFIED && validHandoff b.workerHandoff

def validExpansionProposalIdentity (p : PlanningExpansionProposalIdentity) : Bool :=
  validHex64 p.proposalHash && boundedRef p.proposalRef && p.truthClass = .DAEMON_VERIFIED

def validExpansionCreateCommand (commandId : JsString) (expectedVersion : ℤ) (runId goalRef : JsString)
    (expansion : PlanningExpansionHoldBinding) : Bool :=
  boundedRef commandId && expectedVersion = 0 && boundedRef goalRef && boundedRef runId
    && validExpansionHoldBinding expansion

/-- The exact key roster: no authority member, and both expansion members. -/
def validExpansionProposeCommand {Authority : Type} (commandId : JsString) (expectedVersion : ℤ)
    (p : PlanProposal Authority) : Bool :=
  p.authority.isNone && p.effectTerminalProof.all validEffectTerminal && boundedRef commandId
    && validExpectedVersion expectedVersion && p.proposalKind = .EXPANSION && validHex64 p.submissionHash
    && validSubmission p.witness && p.expansion.any validExpansionHoldBinding
    && p.sealedProposal.any fun proposal =>
      validExpansionProposalIdentity proposal && proposal.proposalHash = p.submissionHash
        && proposal.proposalRef = p.witness.submissionRef

def sealedPlacement (sealedProposal : Option PlanningExpansionProposalIdentity) (submissionHash : Option JsString) : Bool :=
  match submissionHash with
  | none => sealedProposal = none
  | some submission => sealedProposal.any fun proposal =>
    validExpansionProposalIdentity proposal && proposal.proposalHash = submission

def validExpansionContractState (s : PlanningRunState) : Bool :=
  s.runKind = .EXPANSION && validPlanningRunState s && s.carrier.any fun carrier =>
    validExpansionHoldBinding carrier.expansion && sealedPlacement carrier.sealedProposal s.submissionHash

def validPlanningRunContractState (s : PlanningRunState) : Bool :=
  validExpansionContractState s || (s.carrier.isNone && validPlanningRunState s && s.runKind ≠ .EXPANSION)

def snapshotPlanningRunContractState (s : PlanningRunState) : Option PlanningRunState :=
  if validPlanningRunContractState s then some s else none

/-! ### Results (`planning-results.ts:19-135`) -/

def unknownFailure : PlanningRunReducerResult := .error .unknownError

def illegal (state : PlanningRunState) (kind : PlanningRunCommandKind) : PlanningRunReducerResult :=
  .error (.illegalTransition kind state.lifecycle)

def finalizing (state : PlanningRunState) : PlanningRunReducerResult :=
  .error (.planningSubmissionFinalizing state.lifecycle)

def accepted (state : PlanningRunState) (events : List PlanningRunEvent) : PlanningRunReducerResult :=
  .ok ⟨events, state, none⟩

def idle : PlanningRunFacets := ⟨false, false, false, false⟩

def draft (runId goalRef : JsString) (runKind : PlanningRunKind) (carrier : Option ExpansionCarrier) : PlanningRunState :=
  { approvedHashes := none, attemptRef := none, carrier := carrier, facets := idle, goalRef := goalRef,
    graphRevisionRef := none, leaseRef := none, lifecycle := .DRAFT, runId := runId, runKind := runKind,
    sealedHashes := none, submissionHash := none, version := 1 }

def carriedBinding (value : PlanningExpansionHoldBinding) : PlanningExpansionHoldBinding :=
  { value with lifecycle := .ACTIVE, truthClass := .DAEMON_VERIFIED }

def successorCarrier (state : PlanningRunState) : Option ExpansionCarrier :=
  match state.carrier with
  | some carrier =>
    if state.runKind ≠ .EXPANSION || !validExpansionHoldBinding carrier.expansion then none
    else some ⟨carriedBinding carrier.expansion, none⟩
  | none => none

def successorData (state : PlanningRunState) (runId : JsString) : PlanningRunState :=
  draft runId state.goalRef state.runKind (successorCarrier state)

def rejectRun (state : PlanningRunState) (commandId findingsRef successorRunId : JsString) : PlanningRunReducerResult :=
  let next := { state with
    attemptRef := none, facets := idle, leaseRef := none, lifecycle := .REJECTED, version := state.version + 1 }
  .ok ⟨[⟨commandId, next.version, .PlanningRunRejected findingsRef successorRunId⟩], next,
    some (successorData state successorRunId)⟩

/-! ### Submission (`planning-run-submission.ts:41-244`) -/

-- the bindings are compared member by member, and every member is compared
def sameHold (left right : PlanningExpansionHoldBinding) : Bool := left = right

structure SealPlan where
  draining : Bool
  next : PlanningRunState

def sealPlan {Authority : Type} (state : PlanningRunState) (p : PlanProposal Authority) (carrier : Option ExpansionCarrier) :
    Option SealPlan :=
  if !state.facets.owned || !p.effectTerminalProof.all validEffectTerminal then none
  else
    let draining := state.facets.livePlannerEffect && p.effectTerminalProof.isNone
    some ⟨draining, { state with
      carrier := carrier, facets := { state.facets with livePlannerEffect := draining },
      lifecycle := if draining then .SUBMISSION_DRAINING else .PLANNING, submissionHash := some p.submissionHash,
      version := state.version + 1 }⟩

/-- A proposal after a sealed one is only ever its repetition. -/
def repropose (state : PlanningRunState) (sealedHash submissionHash : JsString) : PlanningRunReducerResult :=
  if sealedHash = submissionHash then accepted state [] else illegal state .propose

def proposeExpansion {Authority : Type} (state : PlanningRunState) (commandId : JsString) (expectedVersion : ℤ)
    (p : PlanProposal Authority) : PlanningRunReducerResult :=
  match state.carrier, p.expansion, p.sealedProposal with
  | some carrier, some expansion, some sealedProposal =>
    if !validExpansionProposeCommand commandId expectedVersion p || !validExpansionHoldBinding carrier.expansion
        || !sameHold carrier.expansion expansion then illegal state .propose
    else match state.submissionHash with
      | some sealedHash => repropose state sealedHash p.submissionHash
      | none => match sealPlan state p (some { carrier with sealedProposal := some sealedProposal }) with
        | none => illegal state .propose
        | some plan =>
          accepted plan.next [⟨commandId, plan.next.version,
            .PlanningSubmissionSealed plan.draining p.submissionHash none (some (expansion, sealedProposal))⟩]
  | _, _, _ => illegal state .propose

section Admission
variable {Authority : Type} (admitPlanAuthoritySubmission : Authority → JsString → Option PlanAuthorityIdentity)

/-- `none` is a refused carry. -/
def planAuthorityCarry (p : PlanProposal Authority) : Option (Option PlanAuthorityIdentity) :=
  match p.authority with
  | none => some none
  | some authority => (admitPlanAuthoritySubmission authority p.submissionHash).map some

def propose (state : PlanningRunState) (commandId : JsString) (expectedVersion : ℤ) (p : PlanProposal Authority) :
    PlanningRunReducerResult :=
  match planAuthorityCarry admitPlanAuthoritySubmission p with
  | none => illegal state .propose
  | some identity =>
    if !validSubmission p.witness || !validHex64 p.submissionHash then illegal state .propose
    else if p.proposalKind = .EXPANSION then proposeExpansion state commandId expectedVersion p
    else if state.runKind ≠ p.proposalKind then illegal state .propose
    else match state.submissionHash with
      | some sealedHash => repropose state sealedHash p.submissionHash
      | none => match sealPlan state p state.carrier with
        | none => illegal state .propose
        | some plan =>
          accepted plan.next [⟨commandId, plan.next.version,
            .PlanningSubmissionSealed plan.draining p.submissionHash identity none⟩]

end Admission

def finalizeRevision (state : PlanningRunState) (commandId : JsString) (revision : PlanRevisionSeal)
    (witness : SubmissionFinalizeWitness) : PlanningRunReducerResult :=
  if !validSeal revision || (executionBearingKeys witness).length = 0 then illegal state .finalizeSubmission
  else
    let next := { state with
      attemptRef := none, facets := idle, graphRevisionRef := some revision.graphRevisionRef, leaseRef := none,
      lifecycle := .PLAN_REVIEW, sealedHashes := some revision.toPlanRevisionHashes, version := state.version + 1 }
    accepted next [⟨commandId, next.version,
      .PlanRevisionCreated revision.graphRevisionRef revision.toPlanRevisionHashes⟩]

def finalizeRefusal (state : PlanningRunState) (commandId : JsString) (refusal : PlanningRefusalWitness) :
    PlanningRunReducerResult :=
  if !validRefusal refusal || refusal.successorRunId = state.runId then illegal state .finalizeSubmission
  else rejectRun state commandId refusal.findingsRef refusal.successorRunId

def finalize (state : PlanningRunState) (commandId : JsString) (refusal : Option PlanningRefusalWitness)
    (revision : Option PlanRevisionSeal) (witness : SubmissionFinalizeWitness) : PlanningRunReducerResult :=
  if !validFinalize witness || state.submissionHash = none then illegal state .finalizeSubmission
  else match refusal, revision with
    | some refusal, none => finalizeRefusal state commandId refusal
    | none, some revision => finalizeRevision state commandId revision witness
    | _, _ => illegal state .finalizeSubmission

def approvePlan (state : PlanningRunState) (commandId : JsString) (witness : PlanApprovalWitness) :
    PlanningRunReducerResult :=
  if !validPlanApproval witness then illegal state .planApprove
  else if state.lifecycle = .APPROVED then
    if state.approvedHashes = some witness.toPlanRevisionHashes then accepted state [] else illegal state .planApprove
  else if state.sealedHashes ≠ some witness.toPlanRevisionHashes then illegal state .planApprove
  else
    let next := { state with
      approvedHashes := some witness.toPlanRevisionHashes, lifecycle := .APPROVED, version := state.version + 1 }
    accepted next [⟨commandId, next.version, .PlanApproved witness.toPlanRevisionHashes⟩]

def revisePlan (state : PlanningRunState) (commandId : JsString) (witness : PlanningRefusalWitness) :
    PlanningRunReducerResult :=
  if !validHumanRefusal witness || witness.successorRunId = state.runId then illegal state .planRevise
  else rejectRun state commandId witness.findingsRef witness.successorRunId

def activatedState (state : PlanningRunState) (approvedHashes : PlanRevisionHashes) (version : ℤ) : PlanningRunState :=
  { state with approvedHashes := some approvedHashes, lifecycle := .ACTIVATED, version := version }

/-- A plan under review is approved and activated in one step. -/
def activateReviewed (state : PlanningRunState) (commandId : JsString) (planApproval : Option PlanApprovalWitness)
    (witness : PlanningActivationWitness) (sealed : PlanRevisionHashes) : PlanningRunReducerResult :=
  match planApproval with
  | none => illegal state .graphApprove
  | some approval =>
    if !validPlanApproval approval || sealed ≠ approval.toPlanRevisionHashes then illegal state .graphApprove
    else
      accepted (activatedState state approval.toPlanRevisionHashes (state.version + 1 + 1))
        [⟨commandId, state.version + 1, .PlanApproved approval.toPlanRevisionHashes⟩,
          ⟨commandId, state.version + 1 + 1, .PlanningRunActivated witness⟩]

def activateApproved (state : PlanningRunState) (commandId : JsString) (planApproval : Option PlanApprovalWitness)
    (witness : PlanningActivationWitness) (sealed : PlanRevisionHashes) : PlanningRunReducerResult :=
  match planApproval, state.approvedHashes with
  | none, some approved =>
    if approved ≠ sealed then illegal state .graphApprove
    else
      accepted (activatedState state approved (state.version + 1))
        [⟨commandId, state.version + 1, .PlanningRunActivated witness⟩]
  | _, _ => illegal state .graphApprove

def activate (state : PlanningRunState) (commandId : JsString) (planApproval : Option PlanApprovalWitness)
    (witness : PlanningActivationWitness) : PlanningRunReducerResult :=
  match state.sealedHashes with
  | none => illegal state .graphApprove
  | some sealed =>
    if !validActivation witness || witness.graphHash ≠ sealed.graphContentHash
        || witness.qualityHash ≠ sealed.qualityHash then illegal state .graphApprove
    else if state.lifecycle = .PLAN_REVIEW then activateReviewed state commandId planApproval witness sealed
    else activateApproved state commandId planApproval witness sealed

def cancel (state : PlanningRunState) (commandId : JsString) (witness : PlanningCancellationWitness) :
    PlanningRunReducerResult :=
  if !validCancellation witness || state.facets.livePlannerEffect then illegal state .goalCancel
  else
    let next := { state with
      attemptRef := none, facets := idle, leaseRef := none, lifecycle := .CANCELLED, version := state.version + 1 }
    accepted next [⟨commandId, next.version, .PlanningRunCancelled witness⟩]

/-! ### Handlers (`planning-run-reducer.ts:49-172`) -/

def planningRunTransitions : PlanningRunCommandKind → List PlanningRunLifecycle
  | .createDraft => []
  | .ready => [.DRAFT]
  | .claim => [.READY, .PLANNING]
  | .release => [.PLANNING]
  | .recoverAbsent => [.PLANNING]
  | .propose => [.PLANNING, .SUBMISSION_DRAINING]
  | .finalizeSubmission => [.PLANNING, .SUBMISSION_DRAINING]
  | .planApprove => [.PLAN_REVIEW, .APPROVED]
  | .planRevise => [.PLAN_REVIEW]
  | .graphApprove => [.PLAN_REVIEW, .APPROVED]
  | .goalCancel => [.DRAFT, .READY, .PLANNING, .SUBMISSION_DRAINING, .PLAN_REVIEW, .APPROVED]
  | .planningCancel => []

def createExpansion (commandId : JsString) (expectedVersion : ℤ) (runId goalRef : JsString)
    (expansion : Option PlanningExpansionHoldBinding) : PlanningRunReducerResult :=
  match expansion with
  | none => unknownFailure
  | some binding =>
    if !validExpansionCreateCommand commandId expectedVersion runId goalRef binding then unknownFailure
    else
      accepted (draft runId goalRef .EXPANSION (some ⟨binding, none⟩))
        [⟨commandId, 1, .PlanningRunCreated goalRef runId .EXPANSION (some binding)⟩]

def create (commandId : JsString) (expectedVersion : ℤ) (runId goalRef : JsString) (runKind : PlanningRunKind)
    (expansion : Option PlanningExpansionHoldBinding) : PlanningRunReducerResult :=
  if expectedVersion ≠ 0 || !validRef runId || !validRef goalRef then unknownFailure
  else if runKind = .EXPANSION then createExpansion commandId expectedVersion runId goalRef expansion
  else accepted (draft runId goalRef runKind none) [⟨commandId, 1, .PlanningRunCreated goalRef runId runKind none⟩]

def ready (state : PlanningRunState) (commandId : JsString) (witness : PlanningReadinessWitness) :
    PlanningRunReducerResult :=
  if !validReadiness witness then illegal state .ready
  else
    accepted { state with lifecycle := .READY, version := state.version + 1 }
      [⟨commandId, state.version + 1, .PlanningRunReady witness⟩]

def claimProofOk (state : PlanningRunState) (resumeProof : Option PlanningResumeProof) : Bool :=
  if state.lifecycle = .PLANNING then !state.facets.owned && state.facets.resumable && resumeProof.any validResume
  else resumeProof.isNone

def claim (state : PlanningRunState) (commandId : JsString) (resumeProof : Option PlanningResumeProof)
    (witness : PlanningClaimWitness) : PlanningRunReducerResult :=
  if !validClaim witness || !claimProofOk state resumeProof then illegal state .claim
  else
    accepted
      { state with
        attemptRef := some witness.attemptRef
        facets := { leaseSuspect := false, livePlannerEffect := true, owned := true, resumable := false }
        leaseRef := some witness.leaseRef, lifecycle := .PLANNING, version := state.version + 1 }
      [⟨commandId, state.version + 1, .PlanningClaimed (state.lifecycle = .PLANNING) witness⟩]

/-- What a released or recovered run is left with. -/
def resumableState (state : PlanningRunState) : PlanningRunState :=
  { state with
    attemptRef := none, facets := { idle with resumable := true }, leaseRef := none, version := state.version + 1 }

def release (state : PlanningRunState) (commandId : JsString) (witness : PlanningReleaseWitness) :
    PlanningRunReducerResult :=
  if !validRelease witness || !state.facets.owned then illegal state .release
  else accepted (resumableState state) [⟨commandId, state.version + 1, .PlanningReleased witness⟩]

def recoverAbsent (state : PlanningRunState) (commandId : JsString) (witness : PlanningAbsenceRecoveryWitness) :
    PlanningRunReducerResult :=
  if !validAbsenceRecovery witness || !(state.facets.owned || state.facets.leaseSuspect) then illegal state .recoverAbsent
  else accepted (resumableState state) [⟨commandId, state.version + 1, .PlanningRecoveredAbsent witness⟩]

/-! ### The reducer (`planning-run-reducer.ts:157-213`) -/

section Reducer
variable {Authority : Type} (admitPlanAuthoritySubmission : Authority → JsString → Option PlanAuthorityIdentity)

def applyRequest (state : PlanningRunState) (commandId : JsString) (expectedVersion : ℤ) :
    PlanningRunRequest Authority → PlanningRunReducerResult
  | .ready witness => ready state commandId witness
  | .claim resumeProof witness => claim state commandId resumeProof witness
  | .release witness => release state commandId witness
  | .recoverAbsent witness => recoverAbsent state commandId witness
  | .propose proposal => propose admitPlanAuthoritySubmission state commandId expectedVersion proposal
  | .finalizeSubmission refusal revision witness => finalize state commandId refusal revision witness
  | .planApprove witness => approvePlan state commandId witness
  | .planRevise witness => revisePlan state commandId witness
  | .graphApprove planApproval witness => activate state commandId planApproval witness
  | .goalCancel witness => cancel state commandId witness
  | .createDraft .. => illegal state .createDraft
  | .planningCancel _ => illegal state .planningCancel

def safeToApply (state : PlanningRunState) (kind : PlanningRunCommandKind) : Bool :=
  state.version ≤ maxSafeInteger - (if kind = .graphApprove ∧ state.lifecycle = .PLAN_REVIEW then 2 else 1)

def reducePlanningRun (state : Option PlanningRunState) (command : PlanningRunCommand Authority) :
    PlanningRunReducerResult :=
  match state with
  | none =>
    match command.request with
    | .createDraft runId goalRef runKind expansion =>
      if !validRef command.commandId then unknownFailure
      else create command.commandId command.expectedVersion runId goalRef runKind expansion
    | _ => unknownFailure
  | some state =>
    match snapshotPlanningRunContractState state with
    | none => unknownFailure
    | some current =>
      if !validExpectedVersion command.expectedVersion then illegal current command.request.kind
      else if command.expectedVersion ≠ current.version then
        .error (.expectedVersionConflict current.version command.expectedVersion)
      else if !validRef command.commandId then .error .idempotencyConflict
      else if current.lifecycle ∉ planningRunTransitions command.request.kind then
        if current.lifecycle = .SUBMISSION_DRAINING then finalizing current else illegal current command.request.kind
      else if !safeToApply current command.request.kind then illegal current command.request.kind
      else applyRequest admitPlanAuthoritySubmission current command.commandId command.expectedVersion command.request

end Reducer

end MoeNG.Core.PlanningRun
