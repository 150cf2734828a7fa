import Mathlib.Data.List.Sort
import MoeNG.Kernel.Value

/-!
# Lease authority (`authority/authority-kernel.ts`, `lease-fencing.ts`, `lease-state.ts`, `lease-drain.ts`)

Parsing of lease records, proofs and clock observations, the seven-step fence
every command goes through, and the five commands that move a lease.
-/

namespace MoeNG.Authority
open MoeNG.Kernel

/-! ### Vocabulary (`authority-kernel.ts:23-127`) -/

inductive LeaseState where
  | ACTIVE
  | SUSPECT
  | DRAINING
  | RELEASED
  | REVOKED
  deriving DecidableEq

def LeaseState.text : LeaseState → String
  | ACTIVE => "ACTIVE"
  | SUSPECT => "SUSPECT"
  | DRAINING => "DRAINING"
  | RELEASED => "RELEASED"
  | REVOKED => "REVOKED"

def leaseStates : List LeaseState := [.ACTIVE, .SUSPECT, .DRAINING, .RELEASED, .REVOKED]

inductive LeaseKind where
  | ASSIGNMENT
  | WORKSPACE
  | RESOURCE
  deriving DecidableEq

def LeaseKind.text : LeaseKind → String
  | ASSIGNMENT => "ASSIGNMENT"
  | WORKSPACE => "WORKSPACE"
  | RESOURCE => "RESOURCE"

def leaseKinds : List LeaseKind := [.ASSIGNMENT, .WORKSPACE, .RESOURCE]

inductive DrainReason where
  | URGENT_REVOKE
  | GRAPH_REMOVE_OR_SUPERSESSION
  | GOAL_CANCEL
  | WORK_CANCEL
  | DEPENDENCY_INVALIDATED
  | WORK_RELEASE_OR_PAUSE
  | SUBMISSION_FINALIZE
  deriving DecidableEq

def DrainReason.text : DrainReason → String
  | URGENT_REVOKE => "URGENT_REVOKE"
  | GRAPH_REMOVE_OR_SUPERSESSION => "GRAPH_REMOVE_OR_SUPERSESSION"
  | GOAL_CANCEL => "GOAL_CANCEL"
  | WORK_CANCEL => "WORK_CANCEL"
  | DEPENDENCY_INVALIDATED => "DEPENDENCY_INVALIDATED"
  | WORK_RELEASE_OR_PAUSE => "WORK_RELEASE_OR_PAUSE"
  | SUBMISSION_FINALIZE => "SUBMISSION_FINALIZE"

def drainReasons : List DrainReason :=
  [.URGENT_REVOKE, .GRAPH_REMOVE_OR_SUPERSESSION, .GOAL_CANCEL, .WORK_CANCEL,
    .DEPENDENCY_INVALIDATED, .WORK_RELEASE_OR_PAUSE, .SUBMISSION_FINALIZE]

def drainReasonRank : DrainReason → ℤ
  | .URGENT_REVOKE => 70
  | .GRAPH_REMOVE_OR_SUPERSESSION => 60
  | .GOAL_CANCEL => 50
  | .WORK_CANCEL => 40
  | .DEPENDENCY_INVALIDATED => 30
  | .WORK_RELEASE_OR_PAUSE => 20
  | .SUBMISSION_FINALIZE => 10

inductive TruthClass where
  | OBSERVED
  | AGENT_REPORTED
  | DAEMON_VERIFIED
  | HUMAN_APPROVED
  | UNKNOWN
  deriving DecidableEq

def TruthClass.text : TruthClass → String
  | OBSERVED => "OBSERVED"
  | AGENT_REPORTED => "AGENT_REPORTED"
  | DAEMON_VERIFIED => "DAEMON_VERIFIED"
  | HUMAN_APPROVED => "HUMAN_APPROVED"
  | UNKNOWN => "UNKNOWN"

def truthClasses : List TruthClass := [.OBSERVED, .AGENT_REPORTED, .DAEMON_VERIFIED, .HUMAN_APPROVED, .UNKNOWN]

def renewalWindowSeconds : ℤ := 90
def renewAfterSeconds : ℤ := 30
def maxAuthorityItems : ℕ := 128

inductive AuthorityErrorCode where
  | AUTHORITY_STALE_LEASE
  | AUTHORITY_STALE_EPOCH
  | AUTHORITY_SUPERSEDED_AUTHORITY
  | AUTHORITY_MALFORMED_INPUT
  deriving DecidableEq

structure LeaseRecord where
  leaseId : JsString
  kind : LeaseKind
  ownerSessionRef : JsString
  leaseToken : JsString
  epoch : ℤ
  state : LeaseState
  serverWallDeadline : ℤ
  bootId : JsString
  monotonicObservation : ℤ
  authorityHashRef : JsString
  version : ℤ
  deriving DecidableEq

structure AuthorityProof where
  leaseToken : JsString
  epoch : ℤ
  authorityHashRef : JsString
  ownerSessionRef : JsString
  expectedVersion : ℤ
  deriving DecidableEq

structure ClockObservation where
  serverWallSeconds : ℤ
  bootId : JsString
  monotonicObservation : ℤ
  deriving DecidableEq

structure AuthorityIssue where
  code : AuthorityErrorCode
  message : String
  deriving DecidableEq

structure RejectionSecurityRecord where
  code : AuthorityErrorCode
  commandKind : String
  leaseId : JsString
  sourceState : LeaseState
  expectedEpoch : ℤ
  observedEpoch : ℤ
  deriving DecidableEq

-- every rejection of this subtree carries one issue, so the source's sort is the identity
structure AuthorityRejection where
  issues : List AuthorityIssue
  securityRecord : Option RejectionSecurityRecord
  deriving DecidableEq

abbrev AuthorityOutcome (α : Type) := Except AuthorityRejection α

def malformed (message : String) : AuthorityRejection := ⟨[⟨.AUTHORITY_MALFORMED_INPUT, message⟩], none⟩

/-! ### Parsing (`lease-fencing.ts:29-69`) -/

def leaseKeys : List String :=
  ["leaseId", "kind", "ownerSessionRef", "leaseToken", "epoch", "state", "serverWallDeadline",
    "bootId", "monotonicObservation", "authorityHashRef", "version"]

def parseLeaseRecord (value : Value) : Option LeaseRecord := do
  let parsed ← exactRecord value leaseKeys
  let leaseId ← refOf (parsed.field "leaseId")
  let kind ← oneOf LeaseKind.text leaseKinds (parsed.field "kind")
  let ownerSessionRef ← refOf (parsed.field "ownerSessionRef")
  let leaseToken ← refOf (parsed.field "leaseToken")
  let epoch ← countOf (parsed.field "epoch")
  let state ← oneOf LeaseState.text leaseStates (parsed.field "state")
  let serverWallDeadline ← countOf (parsed.field "serverWallDeadline")
  let bootId ← refOf (parsed.field "bootId")
  let monotonicObservation ← countOf (parsed.field "monotonicObservation")
  let version ← countOf (parsed.field "version")
  let authorityHashRef ← digestOf (parsed.field "authorityHashRef")
  pure ⟨leaseId, kind, ownerSessionRef, leaseToken, epoch, state, serverWallDeadline, bootId,
    monotonicObservation, authorityHashRef, version⟩

def LeaseRecord.toValue (r : LeaseRecord) : Value := recordOf [
  ("leaseId", .string r.leaseId), ("kind", .string (lit r.kind.text)),
  ("ownerSessionRef", .string r.ownerSessionRef), ("leaseToken", .string r.leaseToken),
  ("epoch", .number (.integer r.epoch)), ("state", .string (lit r.state.text)),
  ("serverWallDeadline", .number (.integer r.serverWallDeadline)), ("bootId", .string r.bootId),
  ("monotonicObservation", .number (.integer r.monotonicObservation)),
  ("authorityHashRef", .string r.authorityHashRef), ("version", .number (.integer r.version))]

def parseProof (value : Value) : Option AuthorityProof := do
  let parsed ← exactRecord value ["leaseToken", "epoch", "authorityHashRef", "ownerSessionRef", "expectedVersion"]
  let leaseToken ← refOf (parsed.field "leaseToken")
  let epoch ← countOf (parsed.field "epoch")
  let ownerSessionRef ← refOf (parsed.field "ownerSessionRef")
  let expectedVersion ← countOf (parsed.field "expectedVersion")
  let authorityHashRef ← digestOf (parsed.field "authorityHashRef")
  pure ⟨leaseToken, epoch, authorityHashRef, ownerSessionRef, expectedVersion⟩

theorem parseLeaseRecord_iff (v : Value) (r : LeaseRecord) : parseLeaseRecord v = some r
    ↔ ∃ p, exactRecord v leaseKeys = some p ∧ refOf (p.field "leaseId") = some r.leaseId
      ∧ oneOf LeaseKind.text leaseKinds (p.field "kind") = some r.kind
      ∧ refOf (p.field "ownerSessionRef") = some r.ownerSessionRef ∧ refOf (p.field "leaseToken") = some r.leaseToken
      ∧ countOf (p.field "epoch") = some r.epoch ∧ oneOf LeaseState.text leaseStates (p.field "state") = some r.state
      ∧ countOf (p.field "serverWallDeadline") = some r.serverWallDeadline ∧ refOf (p.field "bootId") = some r.bootId
      ∧ countOf (p.field "monotonicObservation") = some r.monotonicObservation
      ∧ countOf (p.field "version") = some r.version ∧ digestOf (p.field "authorityHashRef") = some r.authorityHashRef := by
  simp only [parseLeaseRecord, ↓Lib.bind_some_iff, Option.pure_def, Option.some.injEq]
  constructor
  · rintro ⟨p, hp, _, h1, _, h2, _, h3, _, h4, _, h5, _, h6, _, h7, _, h8, _, h9, _, h10, _, h11, rfl⟩
    exact ⟨p, hp, h1, h2, h3, h4, h5, h6, h7, h8, h9, h10, h11⟩
  · rintro ⟨p, hp, h1, h2, h3, h4, h5, h6, h7, h8, h9, h10, h11⟩
    exact ⟨p, hp, _, h1, _, h2, _, h3, _, h4, _, h5, _, h6, _, h7, _, h8, _, h9, _, h10, _, h11, rfl⟩

theorem parseProof_iff (v : Value) (r : AuthorityProof) : parseProof v = some r
    ↔ ∃ p, exactRecord v ["leaseToken", "epoch", "authorityHashRef", "ownerSessionRef", "expectedVersion"] = some p
      ∧ refOf (p.field "leaseToken") = some r.leaseToken ∧ countOf (p.field "epoch") = some r.epoch
      ∧ refOf (p.field "ownerSessionRef") = some r.ownerSessionRef
      ∧ countOf (p.field "expectedVersion") = some r.expectedVersion
      ∧ digestOf (p.field "authorityHashRef") = some r.authorityHashRef := by
  simp only [parseProof, ↓Lib.bind_some_iff, Option.pure_def, Option.some.injEq]
  constructor
  · rintro ⟨p, hp, _, h1, _, h2, _, h3, _, h4, _, h5, rfl⟩
    exact ⟨p, hp, h1, h2, h3, h4, h5⟩
  · rintro ⟨p, hp, h1, h2, h3, h4, h5⟩
    exact ⟨p, hp, _, h1, _, h2, _, h3, _, h4, _, h5, rfl⟩

-- capped so that the deadline derived from it still parses as a counter
def parseClock (value : Value) : Option ClockObservation := do
  let parsed ← exactRecord value ["serverWallSeconds", "bootId", "monotonicObservation"]
  let serverWallSeconds ← countOf (parsed.field "serverWallSeconds")
  let bootId ← refOf (parsed.field "bootId")
  let monotonicObservation ← countOf (parsed.field "monotonicObservation")
  if serverWallSeconds > maxAuthorityCount - renewalWindowSeconds then none
  else pure ⟨serverWallSeconds, bootId, monotonicObservation⟩

/-! ### The fence (`lease-fencing.ts:71-144`) -/

def securityRecord (lease : LeaseRecord) (proof : AuthorityProof) (code : AuthorityErrorCode)
    (commandKind : String) : RejectionSecurityRecord :=
  ⟨code, commandKind, lease.leaseId, lease.state, lease.epoch, proof.epoch⟩

/-- Token, epoch, authority hash, session, version, lease state: the first
failing check decides the code. -/
def fenceAuthority (record authority : Value) (commandKind : String) (legalStates : List LeaseState) :
    Except AuthorityRejection (LeaseRecord × AuthorityProof) :=
  match parseLeaseRecord record, parseProof authority with
  | some lease, some proof =>
    let fail (code : AuthorityErrorCode) (message : String) : Except AuthorityRejection (LeaseRecord × AuthorityProof) :=
      .error ⟨[⟨code, message⟩], some (securityRecord lease proof code commandKind)⟩
    if lease.version ≥ maxAuthorityCount ∨ lease.epoch ≥ maxAuthorityCount then
      .error (malformed (commandKind ++ " found an exhausted lease counter"))
    else if proof.leaseToken ≠ lease.leaseToken then fail .AUTHORITY_STALE_LEASE "lease token is not current"
    else if proof.epoch ≠ lease.epoch then
      if proof.epoch < lease.epoch ∧ lease.state = .REVOKED then
        fail .AUTHORITY_SUPERSEDED_AUTHORITY "authority was superseded by a revocation epoch"
      else fail .AUTHORITY_STALE_EPOCH "lease epoch is not current"
    else if proof.authorityHashRef ≠ lease.authorityHashRef then
      fail .AUTHORITY_STALE_LEASE "authority hash does not bind this lease"
    else if proof.ownerSessionRef ≠ lease.ownerSessionRef then
      fail .AUTHORITY_STALE_LEASE "session does not own this lease"
    else if proof.expectedVersion ≠ lease.version then
      fail .AUTHORITY_STALE_LEASE "lease record version is stale"
    else if lease.state ∉ legalStates then
      fail .AUTHORITY_STALE_LEASE ("lease state " ++ lease.state.text ++ " cannot accept " ++ commandKind)
    else .ok (lease, proof)
  | _, _ => .error (malformed (commandKind ++ " received a malformed authority shape"))

/-! ### Transitions (`lease-state.ts:42-170`) -/

structure SuspectEvent where
  leaseId : JsString
  kind : LeaseKind
  observedAtSeconds : ℤ
  bootId : JsString
  monotonicObservation : ℤ
  dueDeadlineSeconds : ℤ
  deriving DecidableEq

structure LeaseRenewal where
  lease : LeaseRecord
  renewAfterSeconds : ℤ

structure LeaseSuspicion where
  lease : LeaseRecord
  event : SuspectEvent

structure LeaseExtension where
  lease : LeaseRecord
  reason : JsString

structure LeaseRevocation where
  lease : LeaseRecord
  reason : DrainReason

def isOverdue (lease : LeaseRecord) (clock : ClockObservation) : Bool :=
  clock.serverWallSeconds > lease.serverWallDeadline

def suspectEvent (lease : LeaseRecord) (clock : ClockObservation) : SuspectEvent :=
  ⟨lease.leaseId, lease.kind, clock.serverWallSeconds, clock.bootId, clock.monotonicObservation,
    lease.serverWallDeadline⟩

def renewed (lease : LeaseRecord) (clock : ClockObservation) : LeaseRecord :=
  { lease with state := .ACTIVE, serverWallDeadline := clock.serverWallSeconds + renewalWindowSeconds,
               bootId := clock.bootId, monotonicObservation := clock.monotonicObservation,
               version := lease.version + 1 }

def fencedRenew (record authority observation : Value) : AuthorityOutcome LeaseRenewal := do
  let (lease, _) ← fenceAuthority record authority "fencedRenew" [.ACTIVE, .SUSPECT]
  match parseClock observation with
  | none => .error (malformed "fencedRenew received a malformed clock observation")
  | some clock => .ok ⟨renewed lease clock, renewAfterSeconds⟩

def markSuspect (record authority observation : Value) : AuthorityOutcome LeaseSuspicion := do
  let (lease, _) ← fenceAuthority record authority "markSuspect" [.ACTIVE]
  match parseClock observation with
  | none => .error (malformed "markSuspect received a malformed clock observation")
  | some clock =>
    if !isOverdue lease clock then .error (malformed "lease renewal window has not elapsed")
    else .ok ⟨{ lease with state := .SUSPECT, version := lease.version + 1 }, suspectEvent lease clock⟩

def extend (record authority observation reason : Value) : AuthorityOutcome LeaseExtension := do
  let (lease, _) ← fenceAuthority record authority "extend" [.ACTIVE, .SUSPECT]
  match parseClock observation with
  | none => .error (malformed "extend received a malformed clock observation")
  | some clock =>
    match refOf reason with
    | none => .error (malformed "extend requires a human-supplied reason")
    | some reason => .ok ⟨renewed lease clock, reason⟩

def confirmRevoke (record authority reason : Value) : AuthorityOutcome LeaseRevocation := do
  let (lease, _) ← fenceAuthority record authority "confirmRevoke" [.ACTIVE, .SUSPECT, .DRAINING]
  match oneOf DrainReason.text drainReasons reason with
  | none => .error (malformed "confirmRevoke requires a drain reason")
  | some reason =>
    .ok ⟨{ lease with state := .REVOKED, epoch := lease.epoch + 1, version := lease.version + 1 }, reason⟩

/-! ### Drain disposition and release (`lease-drain.ts:30-226`) -/

inductive DrainTerminalTarget where
  | RELEASED
  | REVOKED
  deriving DecidableEq

def DrainTerminalTarget.text : DrainTerminalTarget → String
  | RELEASED => "RELEASED"
  | REVOKED => "REVOKED"

structure DrainDisposition where
  reasons : List DrainReason
  strongestReason : DrainReason
  terminalTarget : DrainTerminalTarget
  resumable : Bool
  deriving DecidableEq

structure ReleaseHandoff where
  completedSteps : List JsString
  activeProcessResourceFacts : List JsString
  inputDigest : JsString
  worktreeDigest : JsString
  contextDigest : JsString
  journalDigest : JsString
  artifactDigest : JsString
  nextSafeAction : JsString
  truthClass : TruthClass
  deriving DecidableEq

structure ReleaseRequest where
  reason : DrainReason
  safeBoundaryObserved : Bool
  effectsTerminal : Bool
  resourcesTerminal : Bool
  handoff : Value
  intentRefs : List JsString
  disposition : Option DrainDisposition

inductive ReleaseResult where
  | released (lease : LeaseRecord) (handoff : ReleaseHandoff) (disposition : DrainDisposition) (resumable : Bool)
  | draining (lease : LeaseRecord) (disposition : DrainDisposition) (intentRefs : List JsString)
  | noOp (lease : LeaseRecord)

def ReleaseResult.lease : ReleaseResult → LeaseRecord
  | .released lease _ _ _ => lease
  | .draining lease _ _ => lease
  | .noOp lease => lease

def ReleaseResult.isNoOp : ReleaseResult → Bool
  | .noOp _ => true
  | _ => false

def revokingReasons : List DrainReason := [.URGENT_REVOKE, .GRAPH_REMOVE_OR_SUPERSESSION]

def targetOf (reason : DrainReason) : DrainTerminalTarget :=
  if reason ∈ revokingReasons then .REVOKED else .RELEASED

def resumableOf (reason : DrainReason) : Bool := reason = .WORK_RELEASE_OR_PAUSE

def strongerOf (left right : DrainReason) : DrainReason :=
  let delta := drainReasonRank left - drainReasonRank right
  if delta ≠ 0 then if delta > 0 then left else right
  else if lit left.text ≤ lit right.text then left else right

def composeDisposition (reasons : List DrainReason) : Option DrainDisposition :=
  let unique := reasons.eraseDups.insertionSort fun left right => lit left.text ≤ lit right.text
  match unique with
  | [] => none
  | first :: _ =>
    let strongest := unique.foldl strongerOf first
    some ⟨unique, strongest, targetOf strongest, resumableOf strongest⟩

def parseDisposition (value : Value) : Option DrainDisposition := do
  let parsed ← exactRecord value ["reasons", "strongestReason", "terminalTarget", "resumable"]
  let texts ← stringList (parsed.field "reasons") drainReasons.length
  if texts.length = 0 then none
  else
    let reasons ← texts.mapM fun text => oneOf DrainReason.text drainReasons (.string text)
    let strongest ← oneOf DrainReason.text drainReasons (parsed.field "strongestReason")
    let composed ← composeDisposition reasons
    let target ← oneOf DrainTerminalTarget.text [.RELEASED, .REVOKED] (parsed.field "terminalTarget")
    let resumable ← boolOf (parsed.field "resumable")
    if composed.strongestReason ≠ strongest ∨ composed.terminalTarget ≠ target ∨ composed.resumable ≠ resumable then
      none
    else some composed

def DrainDisposition.toValue (d : DrainDisposition) : Value := recordOf [
  ("reasons", .array (d.reasons.map fun reason => .string (lit reason.text))),
  ("strongestReason", .string (lit d.strongestReason.text)), ("terminalTarget", .string (lit d.terminalTarget.text)),
  ("resumable", .bool d.resumable)]

def applyDrainReason (current reason : Value) : AuthorityOutcome DrainDisposition :=
  match oneOf DrainReason.text drainReasons reason with
  | none => .error (malformed "drain reason is outside the vocabulary")
  | some reason =>
    let existing := match current with
      | .null | .undefined => some []
      | current => (parseDisposition current).map DrainDisposition.reasons
    match existing with
    | none => .error (malformed "drain disposition is malformed or self-inconsistent")
    | some reasons =>
      match composeDisposition (reasons ++ [reason]) with
      | none => .error (malformed "drain disposition requires at least one reason")
      | some composed => .ok composed

def parseHandoff (value : Value) : Option ReleaseHandoff := do
  let parsed ← exactRecord value ["completedSteps", "activeProcessResourceFacts", "inputDigest", "worktreeDigest",
    "contextDigest", "journalDigest", "artifactDigest", "nextSafeAction", "truthClass"]
  let completedSteps ← stringList (parsed.field "completedSteps") maxAuthorityItems
  let facts ← stringList (parsed.field "activeProcessResourceFacts") maxAuthorityItems
  let inputDigest ← digestOf (parsed.field "inputDigest")
  let worktreeDigest ← digestOf (parsed.field "worktreeDigest")
  let contextDigest ← digestOf (parsed.field "contextDigest")
  let journalDigest ← digestOf (parsed.field "journalDigest")
  let artifactDigest ← digestOf (parsed.field "artifactDigest")
  let nextSafeAction ← refOf (parsed.field "nextSafeAction")
  let truthClass ← oneOf TruthClass.text truthClasses (parsed.field "truthClass")
  pure ⟨completedSteps, facts, inputDigest, worktreeDigest, contextDigest, journalDigest, artifactDigest,
    nextSafeAction, truthClass⟩

def parseRequest (value : Value) : Option ReleaseRequest := do
  let parsed ← exactRecord value ["reason", "safeBoundaryObserved", "effectsTerminal", "resourcesTerminal", "handoff",
    "intentRefs", "disposition"]
  let reason ← oneOf DrainReason.text drainReasons (parsed.field "reason")
  let safeBoundaryObserved ← boolOf (parsed.field "safeBoundaryObserved")
  let effectsTerminal ← boolOf (parsed.field "effectsTerminal")
  let resourcesTerminal ← boolOf (parsed.field "resourcesTerminal")
  let intentRefs ← stringList (parsed.field "intentRefs") maxAuthorityItems
  let disposition ← match parsed.field "disposition" with
    | .null => some none
    | value => (parseDisposition value).map some
  pure ⟨reason, safeBoundaryObserved, effectsTerminal, resourcesTerminal, parsed.field "handoff", intentRefs,
    disposition⟩

def releaseWork (record authority request : Value) : AuthorityOutcome ReleaseResult := do
  let (lease, _) ← fenceAuthority record authority "releaseWork" leaseStates
  if lease.state = .RELEASED ∨ lease.state = .REVOKED then .ok (.noOp lease)
  else
    match parseRequest request with
    | none => .error (malformed "release request is malformed")
    | some parsed =>
      match parseHandoff parsed.handoff with
      | none => .error (malformed "release handoff is not bounded and truth-classed")
      | some handoff =>
        let disposition ← applyDrainReason (parsed.disposition.elim .null DrainDisposition.toValue)
          (.string (lit parsed.reason.text))
        if !(parsed.safeBoundaryObserved && parsed.effectsTerminal && parsed.resourcesTerminal) then
          .ok (.draining { lease with state := .DRAINING, version := lease.version + 1 } disposition parsed.intentRefs)
        else
          .ok (.released { lease with state := .RELEASED, version := lease.version + 1 } handoff disposition
            disposition.resumable)

end MoeNG.Authority
