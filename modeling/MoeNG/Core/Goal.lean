import MoeNG.Core.Snapshot

/-!
# Goal lifecycle (`packages/core/src/goal/goal-contract.ts`, `goal-reducer.ts`, `goal-validation.ts`)
-/

namespace MoeNG.Core.Goal
open MoeNG.Kernel MoeNG.Core

/-! ### Contract (`goal-contract.ts:4-235`) -/

inductive GoalLifecycle where
  | DRAFT
  | EXECUTION_ENABLED
  | CLOSING
  | COMPLETED
  | CANCELLED
  deriving DecidableEq

inductive GoalSchedulingControl where
  | RUNNING
  | PAUSE_AFTER_CURRENT_STEP
  | DRAIN_AND_PAUSE
  deriving DecidableEq

inductive GoalCommandKind where
  | create
  | activateInitialGraph
  | advanceGraphEpoch
  | close
  | qualificationInvalidated
  | cancel
  | reopenAsRevision
  | pause
  | resume
  deriving DecidableEq

structure ProjectReadyWitness where
  projectReadyRef : JsString
  truthClass : RuntimeTruthClass
  deriving DecidableEq

structure InitialGraphActivationWitness where
  activeGraphRevisionRef : JsString
  graphApprovalRef : JsString
  truthClass : RuntimeTruthClass
  deriving DecidableEq

structure AcceptanceClosureWitness where
  acceptanceClosureRef : JsString
  completionNodeAcceptedRef : JsString
  noCurrentPreparationGeneration : Bool
  noPendingDraftOrSupersession : Bool
  obligationsHoldRef : JsString
  truthClass : RuntimeTruthClass
  deriving DecidableEq

structure ZeroAuthorityWitness where
  truthClass : RuntimeTruthClass
  zeroAuthorityProofRef : JsString
  deriving DecidableEq

structure QualificationInvalidationWitness where
  proofInvalidatedRef : JsString
  truthClass : RuntimeTruthClass
  deriving DecidableEq

structure CancellationAuthorizationWitness where
  authorizationRef : JsString
  subordinateAuthorityFenced : Bool
  truthClass : RuntimeTruthClass
  deriving DecidableEq

structure ReopenAuthorizationWitness where
  authorizationRef : JsString
  truthClass : RuntimeTruthClass
  deriving DecidableEq

/-- What a command asks for beside its identity and its expected version. -/
inductive GoalRequest where
  | create (goalId projectId budgetAccountRef planningRunRef : JsString) (witness : ProjectReadyWitness)
  | activateInitialGraph (witness : InitialGraphActivationWitness)
  | advanceGraphEpoch (graphEpoch : ℤ) (predecessorGraphRevisionRef successorGraphRevisionRef : JsString)
  | close (closureWitness : Option AcceptanceClosureWitness) (zeroAuthorityWitness : Option ZeroAuthorityWitness)
  | qualificationInvalidated (witness : QualificationInvalidationWitness)
  | cancel (witness : CancellationAuthorizationWitness)
  | reopenAsRevision (newGoalId budgetAccountRef planningRunRef : JsString) (witness : ReopenAuthorizationWitness)
  | pause (schedulingControl : GoalSchedulingControl)
  | resume
  deriving DecidableEq

structure GoalCommand where
  commandId : JsString
  expectedVersion : ℤ
  request : GoalRequest
  deriving DecidableEq

def GoalRequest.kind : GoalRequest → GoalCommandKind
  | .create .. => .create
  | .activateInitialGraph _ => .activateInitialGraph
  | .advanceGraphEpoch .. => .advanceGraphEpoch
  | .close .. => .close
  | .qualificationInvalidated _ => .qualificationInvalidated
  | .cancel _ => .cancel
  | .reopenAsRevision .. => .reopenAsRevision
  | .pause _ => .pause
  | .resume => .resume

structure GoalState where
  activeGraphRevisionRef : Option JsString
  budgetAccountRef : JsString
  generation : ℤ
  goalId : JsString
  graphEpoch : ℤ
  lifecycle : GoalLifecycle
  planningRunRef : JsString
  predecessorGoalRef : Option JsString
  projectId : JsString
  qualificationInvalidatedRef : Option JsString
  schedulingControl : GoalSchedulingControl
  version : ℤ
  deriving DecidableEq

inductive GoalFact where
  | GoalCreated (goalId projectId budgetAccountRef planningRunRef : JsString) (witness : ProjectReadyWitness)
  | GoalExecutionEnabled (graphEpoch : ℤ) (witness : InitialGraphActivationWitness)
  | GoalGraphEpochAdvanced (activeGraphRevisionRef : JsString) (graphEpoch : ℤ) (predecessorGraphRevisionRef : JsString)
  | GoalClosing (witness : AcceptanceClosureWitness)
  | GoalCompleted (witness : ZeroAuthorityWitness)
  | GoalQualificationInvalidated (witness : QualificationInvalidationWitness)
  | GoalCancelled (witness : CancellationAuthorizationWitness)
  | GoalReopenedAsRevision (generation : ℤ) (newGoalId : JsString) (witness : ReopenAuthorizationWitness)
  | GoalSchedulingChanged (schedulingControl : GoalSchedulingControl)
  deriving DecidableEq

structure GoalEvent where
  commandId : JsString
  version : ℤ
  fact : GoalFact
  deriving DecidableEq

structure GoalAccepted where
  events : List GoalEvent
  state : GoalState
  successor : Option GoalState
  deriving DecidableEq

/-- The runtime error of a refusal, with the details it carries. -/
inductive GoalRefusal where
  | unknownError
  | illegalTransition (commandKind : GoalCommandKind) (sourceState : GoalLifecycle)
  | expectedVersionConflict (actualVersion expectedVersion : ℤ)
  | idempotencyConflict
  deriving DecidableEq

abbrev GoalReducerResult := Except GoalRefusal GoalAccepted

/-! ### Results (`goal-results.ts:23-54`) -/

def unknownFailure : GoalReducerResult := .error .unknownError

def illegal (state : GoalState) (kind : GoalCommandKind) : GoalReducerResult :=
  .error (.illegalTransition kind state.lifecycle)

def accepted (state : GoalState) (events : List GoalEvent) : GoalReducerResult := .ok ⟨events, state, none⟩

/-! ### Validation (`goal-validation.ts:122-215`) -/

def validProjectReady (w : ProjectReadyWitness) : Bool := validRef w.projectReadyRef && strongTruth w.truthClass

def validActivation (w : InitialGraphActivationWitness) : Bool :=
  validRef w.activeGraphRevisionRef && validRef w.graphApprovalRef && strongTruth w.truthClass

def validClosure (w : AcceptanceClosureWitness) : Bool :=
  validRef w.acceptanceClosureRef && validRef w.completionNodeAcceptedRef && w.noCurrentPreparationGeneration
    && w.noPendingDraftOrSupersession && validRef w.obligationsHoldRef && strongTruth w.truthClass

def validZeroAuthority (w : ZeroAuthorityWitness) : Bool := validRef w.zeroAuthorityProofRef && strongTruth w.truthClass

def validInvalidation (w : QualificationInvalidationWitness) : Bool :=
  validRef w.proofInvalidatedRef && strongTruth w.truthClass

def validCancellation (w : CancellationAuthorizationWitness) : Bool :=
  validRef w.authorizationRef && w.subordinateAuthorityFenced && humanApproved w.truthClass

def validReopen (w : ReopenAuthorizationWitness) : Bool := validRef w.authorizationRef && humanApproved w.truthClass

def validPause (control : GoalSchedulingControl) : Bool :=
  control = .PAUSE_AFTER_CURRENT_STEP ∨ control = .DRAIN_AND_PAUSE

def validRecoveryFacets (qualificationInvalidatedRef : Option JsString) (lifecycle : GoalLifecycle) : Bool :=
  match qualificationInvalidatedRef with
  | none => true
  | some ref => lifecycle = .EXECUTION_ENABLED && validRef ref

def validLineage (goalId : JsString) (predecessor : Option JsString) (generation : ℤ) : Bool :=
  validRef goalId && isSafeInteger generation && 1 ≤ generation &&
    if generation = 1 then predecessor = none
    else match predecessor with
      | none => false
      | some p => validRef p && p ≠ goalId

def isActive (lifecycle : GoalLifecycle) : Bool := lifecycle = .EXECUTION_ENABLED ∨ lifecycle = .CLOSING

def validActiveRevision (s : GoalState) : Bool :=
  match s.activeGraphRevisionRef with
  | some ref => isActive s.lifecycle && validRef ref && 0 < s.graphEpoch
  | none => !isActive s.lifecycle

def validGoalState (s : GoalState) : Bool :=
  validLineage s.goalId s.predecessorGoalRef s.generation && validRef s.projectId && validRef s.budgetAccountRef
    && validRef s.planningRunRef && validRecoveryFacets s.qualificationInvalidatedRef s.lifecycle
    && isSafeInteger s.version && 1 ≤ s.version && isSafeInteger s.graphEpoch && 0 ≤ s.graphEpoch
    && (s.lifecycle ≠ .DRAFT || s.graphEpoch = 0) && (s.lifecycle ≠ .COMPLETED || 0 < s.graphEpoch)
    && validActiveRevision s

/-! ### Handlers (`goal-reducer.ts:47-201`) -/

def goalTransitions : GoalCommandKind → List GoalLifecycle
  | .create => []
  | .activateInitialGraph => [.DRAFT]
  | .advanceGraphEpoch => [.EXECUTION_ENABLED]
  | .close => [.EXECUTION_ENABLED, .CLOSING]
  | .qualificationInvalidated => [.CLOSING]
  | .cancel => [.DRAFT, .EXECUTION_ENABLED, .CLOSING]
  | .reopenAsRevision => [.COMPLETED, .CANCELLED]
  | .pause => [.DRAFT, .EXECUTION_ENABLED]
  | .resume => [.DRAFT, .EXECUTION_ENABLED]

def create (commandId : JsString) (expectedVersion : ℤ) (goalId projectId budgetAccountRef planningRunRef : JsString)
    (witness : ProjectReadyWitness) : GoalReducerResult :=
  if expectedVersion = 0 && validRef goalId && validRef projectId && validRef budgetAccountRef
      && validRef planningRunRef && validProjectReady witness then
    accepted
      { activeGraphRevisionRef := none, budgetAccountRef := budgetAccountRef, generation := 1, goalId := goalId,
        graphEpoch := 0, lifecycle := .DRAFT, planningRunRef := planningRunRef, predecessorGoalRef := none,
        projectId := projectId, qualificationInvalidatedRef := none, schedulingControl := .RUNNING, version := 1 }
      [⟨commandId, 1, .GoalCreated goalId projectId budgetAccountRef planningRunRef witness⟩]
  else unknownFailure

def nextGraphEpoch (state : GoalState) : ℤ := state.graphEpoch + 1

def activatedState (state : GoalState) (activeGraphRevisionRef : JsString) : GoalState :=
  { state with
    activeGraphRevisionRef := some activeGraphRevisionRef, graphEpoch := nextGraphEpoch state,
    lifecycle := .EXECUTION_ENABLED, version := state.version + 1 }

def activate (state : GoalState) (commandId : JsString) (witness : InitialGraphActivationWitness) : GoalReducerResult :=
  if !validActivation witness then illegal state .activateInitialGraph
  else
    let next := activatedState state witness.activeGraphRevisionRef
    accepted next [⟨commandId, next.version, .GoalExecutionEnabled next.graphEpoch witness⟩]

def advanceEpoch (state : GoalState) (commandId : JsString) (graphEpoch : ℤ)
    (predecessorGraphRevisionRef successorGraphRevisionRef : JsString) : GoalReducerResult :=
  if !validRef predecessorGraphRevisionRef || !validRef successorGraphRevisionRef || !isSafeInteger graphEpoch then
    unknownFailure
  else if some predecessorGraphRevisionRef ≠ state.activeGraphRevisionRef then illegal state .advanceGraphEpoch
  else if successorGraphRevisionRef = predecessorGraphRevisionRef then illegal state .advanceGraphEpoch
  else if graphEpoch ≠ nextGraphEpoch state then illegal state .advanceGraphEpoch
  else
    let next := activatedState state successorGraphRevisionRef
    accepted next [⟨commandId, next.version,
      .GoalGraphEpochAdvanced successorGraphRevisionRef next.graphEpoch predecessorGraphRevisionRef⟩]

def completedState (state : GoalState) (version : ℤ) : GoalState :=
  { state with
    activeGraphRevisionRef := none, lifecycle := .COMPLETED, qualificationInvalidatedRef := none, version := version }

def finishClose (state : GoalState) (commandId : JsString) (closure : Option AcceptanceClosureWitness)
    (zero : Option ZeroAuthorityWitness) : GoalReducerResult :=
  match closure, zero with
  | none, some witness =>
    if validZeroAuthority witness then
      accepted (completedState state (state.version + 1)) [⟨commandId, state.version + 1, .GoalCompleted witness⟩]
    else illegal state .close
  | _, _ => illegal state .close

def beginClose (state : GoalState) (commandId : JsString) (closure : Option AcceptanceClosureWitness)
    (zero : Option ZeroAuthorityWitness) : GoalReducerResult :=
  match closure, zero with
  | none, _ => illegal state .close
  | some closureWitness, none =>
    if validClosure closureWitness then
      accepted { state with lifecycle := .CLOSING, qualificationInvalidatedRef := none, version := state.version + 1 }
        [⟨commandId, state.version + 1, .GoalClosing closureWitness⟩]
    else illegal state .close
  | some closureWitness, some witness =>
    if validClosure closureWitness && validZeroAuthority witness then
      accepted (completedState state (state.version + 1 + 1))
        [⟨commandId, state.version + 1, .GoalClosing closureWitness⟩,
          ⟨commandId, state.version + 1 + 1, .GoalCompleted witness⟩]
    else illegal state .close

def close (state : GoalState) (commandId : JsString) (closure : Option AcceptanceClosureWitness)
    (zero : Option ZeroAuthorityWitness) : GoalReducerResult :=
  if state.lifecycle = .CLOSING then finishClose state commandId closure zero
  else beginClose state commandId closure zero

def invalidate (state : GoalState) (commandId : JsString) (witness : QualificationInvalidationWitness) :
    GoalReducerResult :=
  if !validInvalidation witness then illegal state .qualificationInvalidated
  else
    accepted
      { state with
        lifecycle := .EXECUTION_ENABLED, qualificationInvalidatedRef := some witness.proofInvalidatedRef,
        version := state.version + 1 }
      [⟨commandId, state.version + 1, .GoalQualificationInvalidated witness⟩]

def cancel (state : GoalState) (commandId : JsString) (witness : CancellationAuthorizationWitness) : GoalReducerResult :=
  if !validCancellation witness then illegal state .cancel
  else
    accepted
      { state with
        activeGraphRevisionRef := none, lifecycle := .CANCELLED, qualificationInvalidatedRef := none,
        version := state.version + 1 }
      [⟨commandId, state.version + 1, .GoalCancelled witness⟩]

def successorGoal (state : GoalState) (newGoalId budgetAccountRef planningRunRef : JsString) : GoalState :=
  { activeGraphRevisionRef := none, budgetAccountRef := budgetAccountRef, generation := state.generation + 1,
    goalId := newGoalId, graphEpoch := 0, lifecycle := .DRAFT, planningRunRef := planningRunRef,
    predecessorGoalRef := some state.goalId, projectId := state.projectId, qualificationInvalidatedRef := none,
    schedulingControl := .RUNNING, version := 1 }

def reopen (state : GoalState) (commandId newGoalId budgetAccountRef planningRunRef : JsString)
    (witness : ReopenAuthorizationWitness) : GoalReducerResult :=
  if !validRef newGoalId || newGoalId = state.goalId || !validRef budgetAccountRef || !validRef planningRunRef
      || !validReopen witness then illegal state .reopenAsRevision
  else
    let successor := successorGoal state newGoalId budgetAccountRef planningRunRef
    .ok ⟨[⟨commandId, state.version + 1, .GoalReopenedAsRevision successor.generation successor.goalId witness⟩],
      { state with version := state.version + 1 }, some successor⟩

def schedule (state : GoalState) (commandId : JsString) (control : GoalSchedulingControl) : GoalReducerResult :=
  accepted { state with schedulingControl := control, version := state.version + 1 }
    [⟨commandId, state.version + 1, .GoalSchedulingChanged control⟩]

def applyRequest (state : GoalState) (commandId : JsString) : GoalRequest → GoalReducerResult
  | .activateInitialGraph witness => activate state commandId witness
  | .advanceGraphEpoch graphEpoch predecessor successor => advanceEpoch state commandId graphEpoch predecessor successor
  | .close closure zero => close state commandId closure zero
  | .qualificationInvalidated witness => invalidate state commandId witness
  | .cancel witness => cancel state commandId witness
  | .reopenAsRevision newGoalId budgetAccountRef planningRunRef witness =>
    reopen state commandId newGoalId budgetAccountRef planningRunRef witness
  | .pause control => if !validPause control then illegal state .pause else schedule state commandId control
  | .resume => schedule state commandId .RUNNING
  | .create .. => illegal state .create

/-! ### The reducer (`goal-reducer.ts:203-246`) -/

def combinedClose (state : GoalState) : GoalRequest → Bool
  | .close _ zero => state.lifecycle = .EXECUTION_ENABLED && zero.isSome
  | _ => false

def safeToApply (state : GoalState) (request : GoalRequest) : Bool :=
  if request.kind = .reopenAsRevision then state.generation < maxSafeInteger && state.version < maxSafeInteger
  else state.version ≤ maxSafeInteger - (if combinedClose state request then 2 else 1)

def reduceGoal (state : Option GoalState) (command : GoalCommand) : GoalReducerResult :=
  match state with
  | none =>
    match command.request with
    | .create goalId projectId budgetAccountRef planningRunRef witness =>
      if command.commandId.length = 0 then unknownFailure
      else create command.commandId command.expectedVersion goalId projectId budgetAccountRef planningRunRef witness
    | _ => unknownFailure
  | some current =>
    if !validGoalState current then unknownFailure
    else if !validExpectedVersion command.expectedVersion then illegal current command.request.kind
    else if command.expectedVersion ≠ current.version then
      .error (.expectedVersionConflict current.version command.expectedVersion)
    else if command.commandId.length = 0 then .error .idempotencyConflict
    else if current.lifecycle ∉ goalTransitions command.request.kind then illegal current command.request.kind
    else if !safeToApply current command.request then illegal current command.request.kind
    else applyRequest current command.commandId command.request

end MoeNG.Core.Goal
