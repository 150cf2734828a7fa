import MoeNG.Authority.Lease
import MoeNG.Kernel.CanonicalJson
import MoeNG.Store.Input

/-!
# Effect records (`packages/runner/src/supervisor/effect-kernel.ts`, `effect-shape.ts`, `effect-parse.ts`)

Every text of a record is one the readers accept, by its type. The counters are
plain integers: an increment can leave the range in which a record still parses.
-/

namespace MoeNG.Supervisor
open MoeNG.Kernel
open MoeNG.Authority (LeaseKind LeaseState leaseKinds leaseStates)

/-! ### Vocabulary (`effect-kernel.ts:16-148`) -/

def supervisorEffectProtocolVersion : JsString := lit "moe-effect-intent/1"

inductive EffectState where
  | PENDING
  | CLAIMED
  | ARMED
  | ACTIVE
  | CANCEL_REQUESTED
  | SUCCEEDED
  | FAILED
  | UNKNOWN
  | CANCELLED
  deriving DecidableEq

def EffectState.text : EffectState → String
  | PENDING => "PENDING"
  | CLAIMED => "CLAIMED"
  | ARMED => "ARMED"
  | ACTIVE => "ACTIVE"
  | CANCEL_REQUESTED => "CANCEL_REQUESTED"
  | SUCCEEDED => "SUCCEEDED"
  | FAILED => "FAILED"
  | UNKNOWN => "UNKNOWN"
  | CANCELLED => "CANCELLED"

def effectStates : List EffectState :=
  [.PENDING, .CLAIMED, .ARMED, .ACTIVE, .CANCEL_REQUESTED, .SUCCEEDED, .FAILED, .UNKNOWN, .CANCELLED]

def isTerminalEffectState (state : EffectState) : Bool :=
  state ∈ [EffectState.SUCCEEDED, .FAILED, .UNKNOWN, .CANCELLED]

inductive EffectCommand where
  | claim
  | arm
  | activate
  | requestCancel
  | settle
  | consumeGrant
  deriving DecidableEq

def EffectCommand.text : EffectCommand → String
  | claim => "claim"
  | arm => "arm"
  | activate => "activate"
  | requestCancel => "requestCancel"
  | settle => "settle"
  | consumeGrant => "consumeGrant"

def effectCommands : List EffectCommand := [.claim, .arm, .activate, .requestCancel, .settle, .consumeGrant]

inductive AttemptSliceState where
  | LAUNCH_REQUESTED
  | RUNNING
  deriving DecidableEq

def AttemptSliceState.text : AttemptSliceState → String
  | LAUNCH_REQUESTED => "LAUNCH_REQUESTED"
  | RUNNING => "RUNNING"

def attemptSliceStates : List AttemptSliceState := [.LAUNCH_REQUESTED, .RUNNING]

inductive GrantState where
  | UNUSED
  | CONSUMED
  deriving DecidableEq

def GrantState.text : GrantState → String
  | UNUSED => "UNUSED"
  | CONSUMED => "CONSUMED"

def grantStates : List GrantState := [.UNUSED, .CONSUMED]

inductive SupervisorLayer where
  | KERNEL
  | LIFECYCLE
  | LEASE_MIRROR
  | ACTIVATION
  | GRANT
  | DRAIN
  | RESTART
  deriving DecidableEq

inductive SupervisorErrorCode where
  | EFFECT_INTENT_MALFORMED
  | EFFECT_ATTEMPT_MALFORMED
  | EFFECT_CLAIM_MALFORMED
  | EFFECT_TOMBSTONE_MALFORMED
  | EFFECT_GRANT_MALFORMED
  | EFFECT_COMMAND_MALFORMED
  | EFFECT_TRANSITION_NOT_ADMITTED
  | EFFECT_TERMINAL_ABSORBED
  | EFFECT_TOMBSTONE_DOES_NOT_DOMINATE
  | EFFECT_SETTLEMENT_TARGET_NOT_ADMITTED
  | EFFECT_SETTLEMENT_EVIDENCE_INVALID
  | EFFECT_UNCERTAINTY_EVIDENCE_REQUIRED
  | EFFECT_UNCERTAINTY_EVIDENCE_UNEXPECTED
  | EFFECT_COUNTER_EXHAUSTED
  | ACTIVATION_INTENT_NOT_ARMED
  | ACTIVATION_LOCK_IDENTITY_MISMATCH
  | EFFECT_TOMBSTONED
  | ATTEMPT_BINDING_MISMATCH
  | ATTEMPT_NOT_LAUNCH_REQUESTED
  | ACTIVATION_GRAPH_EPOCH_MISMATCH
  | ACTIVATION_DESIRED_STATE_MISMATCH
  | ACTIVATION_DEPENDENCY_WITNESS_STALE
  | PROVIDER_CAPABILITY_CHANGED
  | ACTIVATION_COMMIT_INCOHERENT
  | GRANT_ALREADY_CONSUMED
  | GRANT_WRAPPER_MISMATCH
  | LEASE_MIRROR_MALFORMED
  | LEASE_MIRROR_STALE
  | LEASE_MIRROR_STALE_EPOCH
  | LEASE_MIRROR_SUPERSEDED_AUTHORITY
  | DRAIN_ROW_NOT_ADMITTED
  | DRAIN_RESOURCE_UNRECONCILED
  | DRAIN_DISPOSITION_NOT_MONOTONIC
  | RESTART_RECORDS_INCOHERENT
  | RESTART_PREMATURE_TERMINAL
  | RESTART_SAFE_HANDOFF_ABSENT
  deriving DecidableEq

structure SupervisorFailureDetail where
  state : Option String
  command : Option String
  leg : Option String
  deriving DecidableEq

structure SupervisorFailure where
  code : SupervisorErrorCode
  layer : SupervisorLayer
  message : String
  detail : SupervisorFailureDetail
  deriving DecidableEq

def withLeg (failure : SupervisorFailure) (leg : String) : SupervisorFailure :=
  { failure with detail := { failure.detail with leg := some leg } }

/-! ### Guards (`effect-shape.ts:24-26`, `effect-shape.ts:186-212`, `canonical.ts:69-124`) -/

def maxSupervisorCount : ℤ := maxSafeInteger - 1000000
def maxSupervisorTextChars : ℕ := 400

-- the milliseconds are optional
def isCanonicalUtcTimestamp (s : JsString) : Bool :=
  (Store.matchesTemplate "dddd-dd-ddTdd:dd:ddZ" s || Store.matchesTemplate "dddd-dd-ddTdd:dd:dd.dddZ" s) &&
    (1 ≤ Store.numberAt s 5 2 ∧ Store.numberAt s 5 2 ≤ 12 ∧ 1 ≤ Store.numberAt s 8 2
      ∧ Store.numberAt s 8 2 ≤ Store.daysInMonth (Store.numberAt s 0 4) (Store.numberAt s 5 2)
      ∧ Store.numberAt s 11 2 ≤ 23 ∧ Store.numberAt s 14 2 ≤ 59 ∧ Store.numberAt s 17 2 ≤ 59)

abbrev Digest := { s : JsString // isDigest s = true }
abbrev Timestamp := { s : JsString // isCanonicalUtcTimestamp s = true }

def isCount (z : ℤ) : Bool := 0 ≤ z ∧ z ≤ maxSupervisorCount

theorem isCount_one : isCount 1 = true := by decide

abbrev Count := { z : ℤ // isCount z = true }

section Readers
variable (nfc : JsString → JsString)

def isNormalizedText (value : JsString) : Bool := wellFormed value && value = nfc value

def isRef (value : JsString) : Bool :=
  0 < value.length && value.length ≤ maxSupervisorTextChars && isNormalizedText nfc value

abbrev Ref := { s : JsString // isRef nfc s = true }

def refOf : Value → Option (Ref nfc)
  | .string s => if h : isRef nfc s = true then some ⟨s, h⟩ else none
  | _ => none

end Readers

def digestOf : Value → Option Digest
  | .string s => if h : isDigest s = true then some ⟨s, h⟩ else none
  | _ => none

def timestampOf : Value → Option Timestamp
  | .string s => if h : isCanonicalUtcTimestamp s = true then some ⟨s, h⟩ else none
  | _ => none

def countOf : Value → Option Count
  | .number (.integer z) => if h : isCount z = true then some ⟨z, h⟩ else none
  | _ => none

def isNull : Value → Bool
  | .null => true
  | _ => false

def orNull {A : Type} (toValue : A → Value) : Option A → Value
  | none => .null
  | some a => toValue a

/-! ### Records (`effect-kernel.ts:187-263`, `effect-shape.ts:41-64`) -/

structure MirroredLeaseRecord (nfc : JsString → JsString) where
  leaseId : Ref nfc
  kind : LeaseKind
  ownerSessionRef : Ref nfc
  leaseToken : Ref nfc
  epoch : Count
  state : LeaseState
  serverWallDeadline : Count
  bootId : Ref nfc
  monotonicObservation : Count
  authorityHashRef : Digest
  version : Count
  deriving DecidableEq

structure MirroredLeaseProof (nfc : JsString → JsString) where
  leaseToken : Ref nfc
  epoch : Count
  authorityHashRef : Digest
  ownerSessionRef : Ref nfc
  expectedVersion : Count
  deriving DecidableEq

structure EffectIntent (nfc : JsString → JsString) where
  intentId : Ref nfc
  aggregateId : Ref nfc
  expectedGraphEpoch : Count
  leaseBinding : MirroredLeaseRecord nfc
  inputBinding : Digest
  predecessorCursor : Ref nfc
  desiredState : Ref nfc
  idempotencyKey : Ref nfc
  runtimeObservationDigest : Digest
  state : EffectState
  version : ℤ
  deriving DecidableEq

structure AttemptSlice (nfc : JsString → JsString) where
  attemptId : Ref nfc
  aggregateId : Ref nfc
  intentId : Ref nfc
  state : AttemptSliceState
  version : ℤ
  deriving DecidableEq

structure EffectClaim (nfc : JsString → JsString) where
  claimId : Ref nfc
  intentId : Ref nfc
  wrapperIdentity : Ref nfc
  lockIdentity : Ref nfc
  claimedAt : Timestamp
  deriving DecidableEq

structure EffectTombstone (nfc : JsString → JsString) where
  intentId : Ref nfc
  reason : Ref nfc
  terminalizedAt : Timestamp
  deriving DecidableEq

structure ActivationGrant (nfc : JsString → JsString) where
  grantId : Digest
  intentId : Ref nfc
  wrapperIdentity : Ref nfc
  state : GrantState
  version : ℤ
  deriving DecidableEq

structure SettlementEvidence (nfc : JsString → JsString) where
  reconciliationVersion : Ref nfc
  reconciliationDigest : Digest
  outcomeClass : Ref nfc
  deriving DecidableEq

structure UncertaintyEvidence (nfc : JsString → JsString) where
  uncertaintyReason : Ref nfc
  uncertaintyDigest : Digest
  deriving DecidableEq

structure DependencyWitness (nfc : JsString → JsString) where
  witnessId : Ref nfc
  expectedDigest : Digest
  observedDigest : Digest
  deriving DecidableEq

-- `resultVersion` is constant
structure EffectResult (nfc : JsString → JsString) where
  intentId : Ref nfc
  terminalState : EffectState
  outcomeClass : Ref nfc
  settlementDigest : Digest
  adoptedAt : Timestamp
  deriving DecidableEq

/-! ### The records as values -/

def integer (z : ℤ) : Value := .number (.integer z)

section Values
variable {nfc : JsString → JsString}

def leaseKeys : List String :=
  ["leaseId", "kind", "ownerSessionRef", "leaseToken", "epoch", "state", "serverWallDeadline", "bootId",
    "monotonicObservation", "authorityHashRef", "version"]

def MirroredLeaseRecord.toValue (lease : MirroredLeaseRecord nfc) : Value := recordOf [
  ("leaseId", .string lease.leaseId), ("kind", .string (lit lease.kind.text)),
  ("ownerSessionRef", .string lease.ownerSessionRef), ("leaseToken", .string lease.leaseToken),
  ("epoch", integer lease.epoch), ("state", .string (lit lease.state.text)),
  ("serverWallDeadline", integer lease.serverWallDeadline), ("bootId", .string lease.bootId),
  ("monotonicObservation", integer lease.monotonicObservation), ("authorityHashRef", .string lease.authorityHashRef),
  ("version", integer lease.version)]

def intentKeys : List String :=
  ["protocolVersion", "intentId", "aggregateId", "expectedGraphEpoch", "leaseBinding", "inputBinding",
    "predecessorCursor", "desiredState", "idempotencyKey", "runtimeObservationDigest", "state", "version"]

def EffectIntent.toValue (intent : EffectIntent nfc) : Value := recordOf [
  ("protocolVersion", .string supervisorEffectProtocolVersion), ("intentId", .string intent.intentId),
  ("aggregateId", .string intent.aggregateId), ("expectedGraphEpoch", integer intent.expectedGraphEpoch),
  ("leaseBinding", intent.leaseBinding.toValue), ("inputBinding", .string intent.inputBinding),
  ("predecessorCursor", .string intent.predecessorCursor), ("desiredState", .string intent.desiredState),
  ("idempotencyKey", .string intent.idempotencyKey),
  ("runtimeObservationDigest", .string intent.runtimeObservationDigest), ("state", .string (lit intent.state.text)),
  ("version", integer intent.version)]

def attemptKeys : List String := ["attemptId", "aggregateId", "intentId", "state", "version"]

def AttemptSlice.toValue (attempt : AttemptSlice nfc) : Value := recordOf [
  ("attemptId", .string attempt.attemptId), ("aggregateId", .string attempt.aggregateId),
  ("intentId", .string attempt.intentId), ("state", .string (lit attempt.state.text)),
  ("version", integer attempt.version)]

def claimKeys : List String := ["claimId", "intentId", "wrapperIdentity", "lockIdentity", "claimedAt"]

def EffectClaim.toValue (claim : EffectClaim nfc) : Value := recordOf [
  ("claimId", .string claim.claimId), ("intentId", .string claim.intentId),
  ("wrapperIdentity", .string claim.wrapperIdentity), ("lockIdentity", .string claim.lockIdentity),
  ("claimedAt", .string claim.claimedAt)]

def tombstoneKeys : List String := ["intentId", "reason", "terminalizedAt"]

def EffectTombstone.toValue (tombstone : EffectTombstone nfc) : Value := recordOf [
  ("intentId", .string tombstone.intentId), ("reason", .string tombstone.reason),
  ("terminalizedAt", .string tombstone.terminalizedAt)]

def grantKeys : List String := ["grantId", "intentId", "wrapperIdentity", "state", "version"]

def ActivationGrant.toValue (grant : ActivationGrant nfc) : Value := recordOf [
  ("grantId", .string grant.grantId), ("intentId", .string grant.intentId),
  ("wrapperIdentity", .string grant.wrapperIdentity), ("state", .string (lit grant.state.text)),
  ("version", integer grant.version)]

def settlementKeys : List String := ["reconciliationVersion", "reconciliationDigest", "outcomeClass"]

def SettlementEvidence.toValue (settlement : SettlementEvidence nfc) : Value := recordOf [
  ("reconciliationVersion", .string settlement.reconciliationVersion),
  ("reconciliationDigest", .string settlement.reconciliationDigest), ("outcomeClass", .string settlement.outcomeClass)]

def uncertaintyKeys : List String := ["uncertaintyReason", "uncertaintyDigest"]

def UncertaintyEvidence.toValue (uncertainty : UncertaintyEvidence nfc) : Value := recordOf [
  ("uncertaintyReason", .string uncertainty.uncertaintyReason),
  ("uncertaintyDigest", .string uncertainty.uncertaintyDigest)]

end Values

/-! ### Parsers (`effect-parse.ts`, `effect-shape.ts:214-238`) -/

section Parsers
variable (nfc : JsString → JsString)

def parseMirroredLease (value : Value) : Option (MirroredLeaseRecord nfc) := do
  let parsed ← exactRecord value leaseKeys
  let leaseId ← refOf nfc (parsed.field "leaseId")
  let kind ← oneOf LeaseKind.text leaseKinds (parsed.field "kind")
  let ownerSessionRef ← refOf nfc (parsed.field "ownerSessionRef")
  let leaseToken ← refOf nfc (parsed.field "leaseToken")
  let epoch ← countOf (parsed.field "epoch")
  let state ← oneOf LeaseState.text leaseStates (parsed.field "state")
  let serverWallDeadline ← countOf (parsed.field "serverWallDeadline")
  let bootId ← refOf nfc (parsed.field "bootId")
  let monotonicObservation ← countOf (parsed.field "monotonicObservation")
  let version ← countOf (parsed.field "version")
  let authorityHashRef ← digestOf (parsed.field "authorityHashRef")
  pure ⟨leaseId, kind, ownerSessionRef, leaseToken, epoch, state, serverWallDeadline, bootId, monotonicObservation,
    authorityHashRef, version⟩

def parseMirroredProof (value : Value) : Option (MirroredLeaseProof nfc) := do
  let parsed ← exactRecord value ["leaseToken", "epoch", "authorityHashRef", "ownerSessionRef", "expectedVersion"]
  let leaseToken ← refOf nfc (parsed.field "leaseToken")
  let epoch ← countOf (parsed.field "epoch")
  let ownerSessionRef ← refOf nfc (parsed.field "ownerSessionRef")
  let expectedVersion ← countOf (parsed.field "expectedVersion")
  let authorityHashRef ← digestOf (parsed.field "authorityHashRef")
  pure ⟨leaseToken, epoch, authorityHashRef, ownerSessionRef, expectedVersion⟩

def parseEffectIntent (value : Value) : Option (EffectIntent nfc) := do
  let parsed ← exactRecord value intentKeys
  let _ ← oneOf id ["moe-effect-intent/1"] (parsed.field "protocolVersion")
  let intentId ← refOf nfc (parsed.field "intentId")
  let aggregateId ← refOf nfc (parsed.field "aggregateId")
  let expectedGraphEpoch ← countOf (parsed.field "expectedGraphEpoch")
  let version ← countOf (parsed.field "version")
  let leaseBinding ← parseMirroredLease nfc (parsed.field "leaseBinding")
  let inputBinding ← digestOf (parsed.field "inputBinding")
  let predecessorCursor ← refOf nfc (parsed.field "predecessorCursor")
  let desiredState ← refOf nfc (parsed.field "desiredState")
  let idempotencyKey ← refOf nfc (parsed.field "idempotencyKey")
  let runtimeObservationDigest ← digestOf (parsed.field "runtimeObservationDigest")
  let state ← oneOf EffectState.text effectStates (parsed.field "state")
  pure ⟨intentId, aggregateId, expectedGraphEpoch, leaseBinding, inputBinding, predecessorCursor, desiredState,
    idempotencyKey, runtimeObservationDigest, state, version.val⟩

def parseAttemptSlice (value : Value) : Option (AttemptSlice nfc) := do
  let parsed ← exactRecord value attemptKeys
  let attemptId ← refOf nfc (parsed.field "attemptId")
  let aggregateId ← refOf nfc (parsed.field "aggregateId")
  let intentId ← refOf nfc (parsed.field "intentId")
  let version ← countOf (parsed.field "version")
  let state ← oneOf AttemptSliceState.text attemptSliceStates (parsed.field "state")
  pure ⟨attemptId, aggregateId, intentId, state, version.val⟩

def parseEffectClaim (value : Value) : Option (EffectClaim nfc) := do
  let parsed ← exactRecord value claimKeys
  let claimId ← refOf nfc (parsed.field "claimId")
  let intentId ← refOf nfc (parsed.field "intentId")
  let wrapperIdentity ← refOf nfc (parsed.field "wrapperIdentity")
  let lockIdentity ← refOf nfc (parsed.field "lockIdentity")
  let claimedAt ← timestampOf (parsed.field "claimedAt")
  pure ⟨claimId, intentId, wrapperIdentity, lockIdentity, claimedAt⟩

def parseEffectTombstone (value : Value) : Option (EffectTombstone nfc) := do
  let parsed ← exactRecord value tombstoneKeys
  let intentId ← refOf nfc (parsed.field "intentId")
  let reason ← refOf nfc (parsed.field "reason")
  let terminalizedAt ← timestampOf (parsed.field "terminalizedAt")
  pure ⟨intentId, reason, terminalizedAt⟩

def parseActivationGrant (value : Value) : Option (ActivationGrant nfc) := do
  let parsed ← exactRecord value grantKeys
  let grantId ← digestOf (parsed.field "grantId")
  let intentId ← refOf nfc (parsed.field "intentId")
  let wrapperIdentity ← refOf nfc (parsed.field "wrapperIdentity")
  let version ← countOf (parsed.field "version")
  let state ← oneOf GrantState.text grantStates (parsed.field "state")
  pure ⟨grantId, intentId, wrapperIdentity, state, version.val⟩

def parseSettlementEvidence (value : Value) : Option (SettlementEvidence nfc) := do
  let parsed ← exactRecord value settlementKeys
  let reconciliationVersion ← refOf nfc (parsed.field "reconciliationVersion")
  let outcomeClass ← refOf nfc (parsed.field "outcomeClass")
  let reconciliationDigest ← digestOf (parsed.field "reconciliationDigest")
  pure ⟨reconciliationVersion, reconciliationDigest, outcomeClass⟩

def parseUncertaintyEvidence (value : Value) : Option (UncertaintyEvidence nfc) := do
  let parsed ← exactRecord value uncertaintyKeys
  let uncertaintyReason ← refOf nfc (parsed.field "uncertaintyReason")
  let uncertaintyDigest ← digestOf (parsed.field "uncertaintyDigest")
  pure ⟨uncertaintyReason, uncertaintyDigest⟩

def parseDependencyWitness (value : Value) : Option (DependencyWitness nfc) := do
  let parsed ← exactRecord value ["witnessId", "expectedDigest", "observedDigest"]
  let witnessId ← refOf nfc (parsed.field "witnessId")
  let expectedDigest ← digestOf (parsed.field "expectedDigest")
  let observedDigest ← digestOf (parsed.field "observedDigest")
  pure ⟨witnessId, expectedDigest, observedDigest⟩

end Parsers

/-- The evidence of a settlement stays unread. -/
inductive EffectCommandInput where
  | simple (kind : EffectCommand)
  | settle (target : EffectState) (settlement uncertainty : Value) (adoptedAt : Timestamp)

def EffectCommandInput.kind : EffectCommandInput → EffectCommand
  | simple kind => kind
  | settle _ _ _ _ => .settle

def settleCommandKeys : List String := ["kind", "target", "settlement", "uncertainty", "adoptedAt"]

def parseCommandInput (value : Value) : Option EffectCommandInput :=
  match exactRecord value settleCommandKeys with
  | some settle => do
    let _ ← oneOf EffectCommand.text [.settle] (settle.field "kind")
    let target ← oneOf EffectState.text effectStates (settle.field "target")
    let adoptedAt ← timestampOf (settle.field "adoptedAt")
    pure (.settle target (settle.field "settlement") (settle.field "uncertainty") adoptedAt)
  | none => do
    let simple ← exactRecord value ["kind"]
    let kind ← oneOf EffectCommand.text effectCommands (simple.field "kind")
    if kind = .settle then none else pure (.simple kind)

/-! ### A record is read back as it was written -/

theorem oneOf_leaseKind (k : LeaseKind) : oneOf LeaseKind.text leaseKinds (.string (lit k.text)) = some k := by
  cases k <;> decide

theorem oneOf_leaseState (s : LeaseState) : oneOf LeaseState.text leaseStates (.string (lit s.text)) = some s := by
  cases s <;> decide

theorem oneOf_effectState (s : EffectState) : oneOf EffectState.text effectStates (.string (lit s.text)) = some s := by
  cases s <;> decide

theorem oneOf_attemptState (s : AttemptSliceState) :
    oneOf AttemptSliceState.text attemptSliceStates (.string (lit s.text)) = some s := by
  cases s <;> decide

theorem oneOf_grantState (s : GrantState) : oneOf GrantState.text grantStates (.string (lit s.text)) = some s := by
  cases s <;> decide

theorem oneOf_protocolVersion :
    oneOf id ["moe-effect-intent/1"] (.string supervisorEffectProtocolVersion) = some "moe-effect-intent/1" := by
  decide

section ReadBack
variable {nfc : JsString → JsString}

@[simp] theorem refOf_string (s : Ref nfc) : refOf nfc (.string s) = some s := dif_pos s.2

@[simp] theorem digestOf_string (s : Digest) : digestOf (.string s) = some s := dif_pos s.2

@[simp] theorem timestampOf_string (s : Timestamp) : timestampOf (.string s) = some s := dif_pos s.2

@[simp] theorem countOf_integer (z : Count) : countOf (integer z) = some z := dif_pos z.2

theorem refOf_some {v : Value} {s : Ref nfc} (h : refOf nfc v = some s) : v = .string s := by
  cases v with
  | string t =>
    by_cases href : isRef nfc t = true
    · obtain rfl := Option.some.inj ((dif_pos href).symm.trans h)
      rfl
    · cases (dif_neg href).symm.trans h
  | _ => cases h

theorem digestOf_some {v : Value} {s : Digest} (h : digestOf v = some s) : v = .string s := by
  cases v with
  | string t =>
    by_cases hdigest : isDigest t = true
    · obtain rfl := Option.some.inj ((dif_pos hdigest).symm.trans h)
      rfl
    · cases (dif_neg hdigest).symm.trans h
  | _ => cases h

theorem countOf_some {v : Value} {z : Count} (h : countOf v = some z) : v = integer z := by
  cases v with
  | number n =>
    cases n with
    | integer n =>
      by_cases hcount : isCount n = true
      · obtain rfl := Option.some.inj ((dif_pos hcount).symm.trans h)
        rfl
      · cases (dif_neg hcount).symm.trans h
    | _ => cases h
  | _ => cases h

theorem countOf_version (z : ℤ) (h : isCount z = true) : countOf (integer z) = some ⟨z, h⟩ := dif_pos h

theorem isCount_succ (z : ℤ) (h : isCount z = true) (hlt : z < maxSupervisorCount) : isCount (z + 1) = true := by
  simp only [isCount, decide_eq_true_eq] at h ⊢
  omega

theorem parseMirroredLease_toValue (lease : MirroredLeaseRecord nfc) :
    parseMirroredLease nfc lease.toValue = some lease := by
  have hread : exactRecord lease.toValue leaseKeys = some _ :=
    exactRecord_recordOf _ (show (leaseKeys.map lit).Nodup by decide)
  simp only [parseMirroredLease, ↓Lib.bind_some_iff]
  refine ⟨_, hread, ?_⟩
  simp only [Fields.field_cons, String.reduceEq, if_true, if_false, refOf_string, digestOf_string, countOf_integer,
    oneOf_leaseKind, oneOf_leaseState, Option.pure_def, Option.some.injEq, exists_eq_left']

theorem parseEffectIntent_toValue (intent : EffectIntent nfc) (h : isCount intent.version = true) :
    parseEffectIntent nfc intent.toValue = some intent := by
  have hread : exactRecord intent.toValue intentKeys = some _ :=
    exactRecord_recordOf _ (show (intentKeys.map lit).Nodup by decide)
  simp only [parseEffectIntent, ↓Lib.bind_some_iff]
  refine ⟨_, hread, ?_⟩
  simp only [Fields.field_cons, String.reduceEq, if_true, if_false, refOf_string, digestOf_string, countOf_integer,
    countOf_version _ h, parseMirroredLease_toValue, oneOf_effectState, oneOf_protocolVersion, Option.pure_def,
    Option.some.injEq, exists_eq_left']

theorem parseAttemptSlice_toValue (attempt : AttemptSlice nfc) (h : isCount attempt.version = true) :
    parseAttemptSlice nfc attempt.toValue = some attempt := by
  have hread : exactRecord attempt.toValue attemptKeys = some _ :=
    exactRecord_recordOf _ (show (attemptKeys.map lit).Nodup by decide)
  unfold parseAttemptSlice
  rw [hread]
  simp only [Fields.field_cons, String.reduceEq, if_true, if_false, Option.bind_eq_bind, Option.bind_some,
    refOf_string, countOf_version _ h, oneOf_attemptState, Option.pure_def]

theorem parseEffectClaim_toValue (claim : EffectClaim nfc) : parseEffectClaim nfc claim.toValue = some claim := by
  have hread : exactRecord claim.toValue claimKeys = some _ :=
    exactRecord_recordOf _ (show (claimKeys.map lit).Nodup by decide)
  unfold parseEffectClaim
  rw [hread]
  simp only [Fields.field_cons, String.reduceEq, if_true, if_false, Option.bind_eq_bind, Option.bind_some,
    refOf_string, timestampOf_string, Option.pure_def]

theorem parseActivationGrant_toValue (grant : ActivationGrant nfc) (h : isCount grant.version = true) :
    parseActivationGrant nfc grant.toValue = some grant := by
  have hread : exactRecord grant.toValue grantKeys = some _ :=
    exactRecord_recordOf _ (show (grantKeys.map lit).Nodup by decide)
  unfold parseActivationGrant
  rw [hread]
  simp only [Fields.field_cons, String.reduceEq, if_true, if_false, Option.bind_eq_bind, Option.bind_some,
    refOf_string, digestOf_string, countOf_version _ h, oneOf_grantState, Option.pure_def]

end ReadBack

end MoeNG.Supervisor
