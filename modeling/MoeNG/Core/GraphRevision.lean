import MoeNG.Core.Supersession

/-!
# Graph revision lifecycle (`packages/core/src/planning/graph-revision-contract.ts`,
`graph-revision-reducer.ts`, `graph-revision-validation.ts`)
-/

namespace MoeNG.Core.GraphRevision
open MoeNG.Kernel
open Supersession (SupersessionInput SupersessionRefusal DecidedSuccessor decideSupersession)

/-! ### Contract (`graph-revision-contract.ts:17-209`) -/

inductive GraphRevisionCommandKind where
  | create
  | submit
  | approve
  | reject
  | supersede
  deriving DecidableEq

structure GraphActivationBinding where
  budgetHash : JsString
  expectedGoalVersion : ℤ
  graphHash : JsString
  policyHash : JsString
  qualityHash : JsString
  deriving DecidableEq

structure GraphSubmissionWitness where
  submissionRef : JsString
  truthClass : RuntimeTruthClass
  deriving DecidableEq

structure GraphRevisionApprovalWitness extends GraphActivationBinding where
  approvalRef : JsString
  truthClass : RuntimeTruthClass
  deriving DecidableEq

structure GraphRevisionSuccessionBinding where
  predecessorGraphContentHash : JsString
  predecessorGraphEpoch : ℤ
  predecessorRevisionId : JsString
  deriving DecidableEq

structure GraphRevisionActivationWitness extends GraphActivationBinding where
  activationRef : JsString
  graphEpoch : ℤ
  succession : Option GraphRevisionSuccessionBinding
  truthClass : RuntimeTruthClass
  deriving DecidableEq

structure GraphRevisionRefusalWitness where
  findingsRef : JsString
  truthClass : RuntimeTruthClass
  deriving DecidableEq

/-- What a command asks for beside its identity and its expected version. -/
inductive GraphRevisionRequest where
  | create (goalRef graphContentHash planHash revisionId : JsString)
  | submit (witness : GraphSubmissionWitness)
  | approve (activation : Option GraphRevisionActivationWitness) (approval : Option GraphRevisionApprovalWitness)
  | reject (witness : GraphRevisionRefusalWitness)
  | supersede (supersession : SupersessionInput)
  deriving DecidableEq

structure GraphRevisionCommand where
  commandId : JsString
  expectedVersion : ℤ
  request : GraphRevisionRequest
  deriving DecidableEq

def GraphRevisionRequest.kind : GraphRevisionRequest → GraphRevisionCommandKind
  | .create .. => .create
  | .submit _ => .submit
  | .approve .. => .approve
  | .reject _ => .reject
  | .supersede _ => .supersede

structure GraphRevisionState where
  boundHashes : Option GraphActivationBinding
  goalRef : JsString
  graphContentHash : JsString
  graphEpoch : ℤ
  lifecycle : GraphRevisionLifecycle
  planHash : JsString
  revisionId : JsString
  submissionRef : Option JsString
  version : ℤ
  deriving DecidableEq

inductive GraphRevisionFact where
  | GraphRevisionCreated (goalRef graphContentHash planHash revisionId : JsString)
  | GraphRevisionSubmitted (witness : GraphSubmissionWitness)
  | GraphRevisionApproved (binding : GraphActivationBinding)
  | GraphRevisionActivated (expectedGoalVersion : ℤ) (goalRef : JsString) (witness : GraphRevisionActivationWitness)
  | GraphRevisionRejected (witness : GraphRevisionRefusalWitness)
  | GraphRevisionSuperseded (authorityHash : JsString) (successor : DecidedSuccessor)
  deriving DecidableEq

structure GraphRevisionEvent where
  commandId : JsString
  version : ℤ
  fact : GraphRevisionFact
  deriving DecidableEq

structure GraphRevisionAccepted where
  events : List GraphRevisionEvent
  state : GraphRevisionState
  deriving DecidableEq

/-- The runtime error of a refusal, with the details it carries. -/
inductive GraphRevisionRefusal where
  | unknownError
  | illegalTransition (commandKind : GraphRevisionCommandKind) (sourceState : GraphRevisionLifecycle)
  | revisionRebound
  | supersessionConsequenceChanged
  | supersededAuthority
  | expectedVersionConflict (actualVersion expectedVersion : ℤ)
  deriving DecidableEq

abbrev GraphRevisionReducerResult := Except GraphRevisionRefusal GraphRevisionAccepted

/-! ### Results (`graph-revision-results.ts:20-77`) -/

def unknownFailure : GraphRevisionReducerResult := .error .unknownError

def illegal (state : GraphRevisionState) (kind : GraphRevisionCommandKind) : GraphRevisionReducerResult :=
  .error (.illegalTransition kind state.lifecycle)

def rebound : GraphRevisionReducerResult := .error .revisionRebound

def supersessionRefused : SupersessionRefusal → GraphRevisionReducerResult
  | .REVISION_REBOUND => .error .revisionRebound
  | .SUPERSESSION_CONSEQUENCE_CHANGED => .error .supersessionConsequenceChanged

def versionConflict (state : GraphRevisionState) (expectedVersion : ℤ) : GraphRevisionReducerResult :=
  .error (.expectedVersionConflict state.version expectedVersion)

def accepted (state : GraphRevisionState) (events : List GraphRevisionEvent) : GraphRevisionReducerResult :=
  .ok ⟨events, state⟩

/-! ### Validation (`graph-revision-validation.ts:40-151`) -/

def validBinding (b : GraphActivationBinding) : Bool :=
  validHex64 b.budgetHash && validHex64 b.graphHash && validHex64 b.policyHash && validHex64 b.qualityHash
    && isSafeInteger b.expectedGoalVersion && 1 ≤ b.expectedGoalVersion

def sameBinding (left right : GraphActivationBinding) : Bool := left = right

def validSubmission (w : GraphSubmissionWitness) : Bool := validRef w.submissionRef && strongTruth w.truthClass

def validApproval (w : GraphRevisionApprovalWitness) : Bool :=
  validBinding w.toGraphActivationBinding && validRef w.approvalRef && strongTruth w.truthClass

def validSuccessionBinding (b : GraphRevisionSuccessionBinding) : Bool :=
  validHex64 b.predecessorGraphContentHash && validRef b.predecessorRevisionId && isSafeInteger b.predecessorGraphEpoch
    && 1 ≤ b.predecessorGraphEpoch

def validActivationEpoch (w : GraphRevisionActivationWitness) : Bool :=
  isSafeInteger w.graphEpoch &&
    match w.succession with
    | none => w.graphEpoch = 1
    | some succession => validSuccessionBinding succession && w.graphEpoch = succession.predecessorGraphEpoch + 1

def validActivation (w : GraphRevisionActivationWitness) : Bool :=
  validBinding w.toGraphActivationBinding && validRef w.activationRef && strongTruth w.truthClass
    && validActivationEpoch w

def validRefusal (w : GraphRevisionRefusalWitness) : Bool := validRef w.findingsRef && strongTruth w.truthClass

def boundState (lifecycle : GraphRevisionLifecycle) : Bool :=
  lifecycle ∈ [GraphRevisionLifecycle.APPROVED, .ACTIVE, .SUPERSEDED]

def epochBoundState (lifecycle : GraphRevisionLifecycle) : Bool :=
  lifecycle ∈ [GraphRevisionLifecycle.ACTIVE, .SUPERSEDED]

def validBoundPlacement (lifecycle : GraphRevisionLifecycle) (bound : Option GraphActivationBinding)
    (content : JsString) : Bool :=
  match bound with
  | none => !boundState lifecycle
  | some b => (boundState lifecycle || lifecycle = .REJECTED) && validBinding b && b.graphHash = content

def validGraphEpochPlacement (lifecycle : GraphRevisionLifecycle) (graphEpoch : ℤ) : Bool :=
  isSafeInteger graphEpoch && if epochBoundState lifecycle then 1 ≤ graphEpoch else graphEpoch = 0

def validSubmissionPlacement (lifecycle : GraphRevisionLifecycle) (submissionRef : Option JsString) : Bool :=
  if lifecycle = .DRAFT then submissionRef.isNone
  else if lifecycle = .REJECTED then submissionRef.all validRef
  else submissionRef.any validRef

def validGraphRevisionState (s : GraphRevisionState) : Bool :=
  validRef s.revisionId && validRef s.goalRef && validHex64 s.graphContentHash && validHex64 s.planHash
    && isSafeInteger s.version && 1 ≤ s.version && validBoundPlacement s.lifecycle s.boundHashes s.graphContentHash
    && validGraphEpochPlacement s.lifecycle s.graphEpoch && validSubmissionPlacement s.lifecycle s.submissionRef

/-! ### Handlers (`graph-revision-reducer.ts:74-206`) -/

def graphRevisionTransitions : GraphRevisionCommandKind → List GraphRevisionLifecycle
  | .create => []
  | .submit => [.DRAFT]
  | .approve => [.PENDING_APPROVAL, .APPROVED]
  | .reject => [.DRAFT, .PENDING_APPROVAL, .APPROVED]
  | .supersede => [.ACTIVE]

def createdState (goalRef graphContentHash planHash revisionId : JsString) : GraphRevisionState :=
  { boundHashes := none, goalRef := goalRef, graphContentHash := graphContentHash, graphEpoch := 0,
    lifecycle := .DRAFT, planHash := planHash, revisionId := revisionId, submissionRef := none, version := 1 }

def create (commandId : JsString) (expectedVersion : ℤ) (goalRef graphContentHash planHash revisionId : JsString) :
    GraphRevisionReducerResult :=
  if expectedVersion ≠ 0 || !validRef revisionId || !validRef goalRef || !validHex64 graphContentHash
      || !validHex64 planHash then unknownFailure
  else accepted (createdState goalRef graphContentHash planHash revisionId)
    [⟨commandId, 1, .GraphRevisionCreated goalRef graphContentHash planHash revisionId⟩]

def submit (state : GraphRevisionState) (commandId : JsString) (witness : GraphSubmissionWitness) :
    GraphRevisionReducerResult :=
  if !validSubmission witness then illegal state .submit
  else accepted
    { state with
      lifecycle := .PENDING_APPROVAL, submissionRef := some witness.submissionRef, version := state.version + 1 }
    [⟨commandId, state.version + 1, .GraphRevisionSubmitted witness⟩]

def refuse (state : GraphRevisionState) (commandId : JsString) (witness : GraphRevisionRefusalWitness) :
    GraphRevisionReducerResult :=
  if !validRefusal witness then illegal state .reject
  else accepted { state with lifecycle := .REJECTED, version := state.version + 1 }
    [⟨commandId, state.version + 1, .GraphRevisionRejected witness⟩]

def approvalBinding (state : GraphRevisionState) (approval : Option GraphRevisionApprovalWitness) :
    Except GraphRevisionRefusal GraphActivationBinding :=
  match approval with
  | none => .error (.illegalTransition .approve state.lifecycle)
  | some w =>
    if !validApproval w then .error (.illegalTransition .approve state.lifecycle)
    else if w.graphHash ≠ state.graphContentHash then .error .revisionRebound
    else .ok w.toGraphActivationBinding

def namesItself (state : GraphRevisionState) (w : GraphRevisionActivationWitness) : Bool :=
  w.succession.map GraphRevisionSuccessionBinding.predecessorRevisionId = some state.revisionId

/-- The activation half of `decide`, over the binding, version and events its approval half leaves. -/
def activateBound (state : GraphRevisionState) (commandId : JsString) (w : GraphRevisionActivationWitness)
    (binding : Option GraphActivationBinding) (version : ℤ) (events : List GraphRevisionEvent) :
    GraphRevisionReducerResult :=
  if !validActivation w then illegal state .approve
  else match binding with
    | none => rebound
    | some bound =>
      if !sameBinding bound w.toGraphActivationBinding || w.graphHash ≠ state.graphContentHash
          || namesItself state w then rebound
      else accepted
        { state with
          boundHashes := some bound, graphEpoch := w.graphEpoch, lifecycle := .ACTIVE, version := version + 1 }
        (events ++ [⟨commandId, version + 1, .GraphRevisionActivated w.expectedGoalVersion state.goalRef w⟩])

def decideApproval (state : GraphRevisionState) (commandId : JsString) (activation : Option GraphRevisionActivationWitness)
    (approval : Option GraphRevisionApprovalWitness) : GraphRevisionReducerResult :=
  if state.lifecycle = .PENDING_APPROVAL then do
    let binding ← approvalBinding state approval
    let version := state.version + 1
    let events := [⟨commandId, version, .GraphRevisionApproved binding⟩]
    match activation with
    | none => accepted { state with boundHashes := some binding, lifecycle := .APPROVED, version := version } events
    | some w => activateBound state commandId w (some binding) version events
  else if approval.isSome then illegal state .approve
  else match activation with
    | none => illegal state .approve
    | some w => activateBound state commandId w state.boundHashes state.version []

section Reducer
variable (sha256 : List Byte → JsString)

def supersede (state : GraphRevisionState) (commandId : JsString) (supersession : SupersessionInput) :
    GraphRevisionReducerResult :=
  match decideSupersession sha256 ⟨state.graphContentHash, state.graphEpoch, state.revisionId⟩ supersession with
  | .error code => supersessionRefused code
  | .ok decision =>
    accepted { state with lifecycle := .SUPERSEDED, version := state.version + 1 }
      [⟨commandId, state.version + 1, .GraphRevisionSuperseded decision.authorityHash decision.successor⟩]

def applyRequest (state : GraphRevisionState) (commandId : JsString) : GraphRevisionRequest → GraphRevisionReducerResult
  | .submit witness => submit state commandId witness
  | .approve activation approval => decideApproval state commandId activation approval
  | .reject witness => refuse state commandId witness
  | .supersede supersession => supersede sha256 state commandId supersession
  | .create .. => illegal state .create

/-! ### The reducer (`graph-revision-reducer.ts:208-240`) -/

def compound (state : GraphRevisionState) : GraphRevisionRequest → Bool
  | .approve activation _ => state.lifecycle = .PENDING_APPROVAL && activation.isSome
  | _ => false

def safeToApply (state : GraphRevisionState) (request : GraphRevisionRequest) : Bool :=
  state.version ≤ maxSafeInteger - (if compound state request then 2 else 1)

def reduceGraphRevision (state : Option GraphRevisionState) (command : GraphRevisionCommand) :
    GraphRevisionReducerResult :=
  match state with
  | none =>
    match command.request with
    | .create goalRef graphContentHash planHash revisionId =>
      if !validRef command.commandId then unknownFailure
      else create command.commandId command.expectedVersion goalRef graphContentHash planHash revisionId
    | _ => unknownFailure
  | some current =>
    if !validGraphRevisionState current then unknownFailure
    else if current.lifecycle = .SUPERSEDED then .error .supersededAuthority
    else if !validExpectedVersion command.expectedVersion then illegal current command.request.kind
    else if command.expectedVersion ≠ current.version then versionConflict current command.expectedVersion
    else if !validRef command.commandId then illegal current command.request.kind
    else if current.lifecycle ∉ graphRevisionTransitions command.request.kind then illegal current command.request.kind
    else if !safeToApply current command.request then illegal current command.request.kind
    else applyRequest sha256 current command.commandId command.request

end Reducer

end MoeNG.Core.GraphRevision
