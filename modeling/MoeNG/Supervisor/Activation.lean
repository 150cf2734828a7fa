import MoeNG.Lib.Run
import MoeNG.Supervisor.Lifecycle

/-!
# Activation and its grant (`effect-activation.ts`, `effect-grant.ts`, `lease-mirror.ts`)
-/

namespace MoeNG.Supervisor
open MoeNG.Kernel MoeNG.Lib
open MoeNG.Authority (LeaseState)

section Activation
variable {nfc : JsString → JsString} (sha256 : List Byte → Digest)

/-! ### The lease fence (`lease-mirror.ts:46-113`) -/

def fenceMirroredLease (record authority : Value) (commandKind : String) (legalStates : List LeaseState) :
    Except SupervisorFailure (MirroredLeaseRecord nfc × MirroredLeaseProof nfc) :=
  match parseMirroredLease nfc record, parseMirroredProof nfc authority with
  | some lease, some proof =>
    let no (code : SupervisorErrorCode) (message : String) :
        Except SupervisorFailure (MirroredLeaseRecord nfc × MirroredLeaseProof nfc) :=
      .error ⟨code, .LEASE_MIRROR, message, ⟨some lease.state.text, some commandKind, none⟩⟩
    if lease.version.val ≥ maxSupervisorCount ∨ lease.epoch.val ≥ maxSupervisorCount then
      .error ⟨.LEASE_MIRROR_MALFORMED, .LEASE_MIRROR, commandKind ++ " found an exhausted lease counter",
        ⟨none, some commandKind, none⟩⟩
    else if proof.leaseToken ≠ lease.leaseToken then no .LEASE_MIRROR_STALE "lease token is not current"
    else if proof.epoch ≠ lease.epoch then
      if proof.epoch.val < lease.epoch.val ∧ lease.state = .REVOKED then
        no .LEASE_MIRROR_SUPERSEDED_AUTHORITY "authority was superseded by a revocation epoch"
      else no .LEASE_MIRROR_STALE_EPOCH "lease epoch is not current"
    else if proof.authorityHashRef ≠ lease.authorityHashRef then
      no .LEASE_MIRROR_STALE "authority hash does not bind this lease"
    else if proof.ownerSessionRef ≠ lease.ownerSessionRef then
      no .LEASE_MIRROR_STALE "session does not own this lease"
    else if proof.expectedVersion ≠ lease.version then no .LEASE_MIRROR_STALE "lease record version is stale"
    else if lease.state ∉ legalStates then
      no .LEASE_MIRROR_STALE ("lease state " ++ lease.state.text ++ " cannot accept " ++ commandKind)
    else .ok (lease, proof)
  | _, _ =>
    .error ⟨.LEASE_MIRROR_MALFORMED, .LEASE_MIRROR, commandKind ++ " received a malformed authority shape",
      ⟨none, some commandKind, none⟩⟩

/-! ### The grant (`effect-grant.ts:24-151`) -/

inductive GrantOutcome (nfc : JsString → JsString) where
  | consumed (grant : ActivationGrant nfc)
  | refused (failure : SupervisorFailure)
  deriving DecidableEq

inductive CommitCheck where
  | coherent (activationDigest : Digest)
  | refused (failure : SupervisorFailure)
  | threw
  deriving DecidableEq

def grantRefusal (code : SupervisorErrorCode) (layer : SupervisorLayer) (message : String) (leg : Option String) :
    SupervisorFailure :=
  ⟨code, layer, message, ⟨none, none, leg⟩⟩

def initialGrantBinding (intentId wrapperIdentity : Ref nfc) : Value := recordOf [
  ("intentId", .string intentId), ("wrapperIdentity", .string wrapperIdentity), ("state", .string (lit "UNUSED")),
  ("version", integer 0)]

def activationDigestInput (intent : EffectIntent nfc) (attempt : AttemptSlice nfc) (grantBinding : Value) : Value :=
  recordOf [("intent", intent.toValue), ("attempt", attempt.toValue), ("grant", grantBinding)]

def deriveGrantId (intentId : Ref nfc) (activationDigest : Digest) : Option Digest :=
  canonicalDigest sha256 (recordOf [("activationDigest", .string activationDigest), ("intentId", .string intentId)])

def consumeActivationGrant (grantValue wrapperIdentity : Value) : GrantOutcome nfc :=
  match parseActivationGrant nfc grantValue with
  | none => .refused (grantRefusal .EFFECT_GRANT_MALFORMED .KERNEL "activation grant does not parse" none)
  | some grant =>
    if refOf nfc wrapperIdentity ≠ some grant.wrapperIdentity then
      .refused (grantRefusal .GRANT_WRAPPER_MISMATCH .GRANT "this grant is bound to a different wrapper" none)
    else if grant.state = .CONSUMED then
      .refused (grantRefusal .GRANT_ALREADY_CONSUMED .GRANT "this grant has already been used" none)
    else .consumed { grant with state := .CONSUMED, version := grant.version + 1 }

variable (nfc) in
def validateActivationCommit (effectValue attemptValue grantValue : Value) : CommitCheck :=
  match parseEffectIntent nfc effectValue with
  | none => .refused (grantRefusal .EFFECT_INTENT_MALFORMED .KERNEL "effect intent does not parse" none)
  | some intent =>
    match parseAttemptSlice nfc attemptValue with
    | none => .refused (grantRefusal .EFFECT_ATTEMPT_MALFORMED .KERNEL "attempt slice does not parse" none)
    | some attempt =>
      match parseActivationGrant nfc grantValue with
      | none => .refused (grantRefusal .EFFECT_GRANT_MALFORMED .KERNEL "activation grant does not parse" none)
      | some grant =>
        let incoherent (message : String) : CommitCheck :=
          .refused (grantRefusal .ACTIVATION_COMMIT_INCOHERENT .ACTIVATION message none)
        if intent.state ≠ .ACTIVE ∨ attempt.state ≠ .RUNNING then
          incoherent "an activation commit pairs an ACTIVE effect with a RUNNING attempt"
        else if attempt.intentId ≠ intent.intentId ∨ attempt.aggregateId ≠ intent.aggregateId then
          incoherent "the attempt is not bound to this effect intent"
        else if grant.intentId ≠ intent.intentId then
          incoherent "the grant is not bound to this effect intent"
        else
          match canonicalDigest sha256
              (activationDigestInput intent attempt (initialGrantBinding intent.intentId grant.wrapperIdentity)) with
          | none => .threw
          | some activationDigest =>
            match deriveGrantId sha256 intent.intentId activationDigest with
            | none => .threw
            | some grantId =>
              if grant.grantId ≠ grantId then incoherent "the grant id does not derive from these successors"
              else .coherent activationDigest

def refuseRuntimeObservationDrift (expected observed : Digest) : Option SupervisorFailure :=
  if observed = expected then none
  else some (grantRefusal .PROVIDER_CAPABILITY_CHANGED .ACTIVATION
    "runtime observation digest does not match the quote" (some "runtimeObservation"))

/-! ### Activation (`effect-activation.ts:63-257`) -/

structure ActivationCommit (nfc : JsString → JsString) where
  intent : EffectIntent nfc
  attempt : AttemptSlice nfc
  grant : ActivationGrant nfc
  activationDigest : Digest
  deriving DecidableEq

inductive ActivationOutcome (nfc : JsString → JsString) where
  | activated (commit : ActivationCommit nfc)
  | refused (failure : SupervisorFailure)
  | threw
  deriving DecidableEq

def requestKeys : List String :=
  ["intent", "attempt", "claim", "tombstone", "leaseProof", "wrapperIdentity", "lockIdentity", "observedGraphEpoch",
    "desiredState", "dependencyWitnesses", "observedRuntimeDigest"]

def maxDependencyWitnesses : ℕ := 128

structure ParsedRequest (nfc : JsString → JsString) where
  intent : EffectIntent nfc
  attempt : AttemptSlice nfc
  claim : EffectClaim nfc
  tombstoned : Bool
  leaseProof : Value
  wrapperIdentity : Ref nfc
  lockIdentity : Ref nfc
  observedGraphEpoch : Count
  desiredState : Ref nfc
  witnesses : List (DependencyWitness nfc)
  observedRuntimeDigest : Digest

def parseWitnessList (value : Value) : Option (List (DependencyWitness nfc)) := do
  let entries ← readList value maxDependencyWitnesses
  entries.mapM (parseDependencyWitness nfc)

def orRefuse {A : Type} (code : SupervisorErrorCode) (message : String) : Option A → Except SupervisorFailure A
  | none => .error (grantRefusal code .KERNEL message none)
  | some a => .ok a

def parseRequest (value : Value) : Except SupervisorFailure (ParsedRequest nfc) := do
  let raw ← orRefuse .EFFECT_COMMAND_MALFORMED "activate request does not parse" (exactRecord value requestKeys)
  let intent ← orRefuse .EFFECT_INTENT_MALFORMED "effect intent does not parse" (parseEffectIntent nfc (raw.field "intent"))
  let attempt ← orRefuse .EFFECT_ATTEMPT_MALFORMED "attempt slice does not parse" (parseAttemptSlice nfc (raw.field "attempt"))
  let claim ← orRefuse .EFFECT_CLAIM_MALFORMED "effect claim does not parse" (parseEffectClaim nfc (raw.field "claim"))
  let tombstoned := !isNull (raw.field "tombstone")
  if tombstoned && (parseEffectTombstone nfc (raw.field "tombstone")).isNone then
    .error (grantRefusal .EFFECT_TOMBSTONE_MALFORMED .KERNEL "effect tombstone does not parse" none)
  else
    orRefuse .EFFECT_COMMAND_MALFORMED "activate request does not parse" do
      let witnesses ← parseWitnessList (raw.field "dependencyWitnesses")
      let wrapperIdentity ← refOf nfc (raw.field "wrapperIdentity")
      let lockIdentity ← refOf nfc (raw.field "lockIdentity")
      let desiredState ← refOf nfc (raw.field "desiredState")
      let observedGraphEpoch ← countOf (raw.field "observedGraphEpoch")
      let observedRuntimeDigest ← digestOf (raw.field "observedRuntimeDigest")
      pure ⟨intent, attempt, claim, tombstoned, raw.field "leaseProof", wrapperIdentity, lockIdentity, observedGraphEpoch,
        desiredState, witnesses, observedRuntimeDigest⟩

def activationRefusal (code : SupervisorErrorCode) (message leg : String) : Option SupervisorFailure :=
  some (grantRefusal code .ACTIVATION message (some leg))

/-- The first failing leg decides. -/
def revalidate (request : ParsedRequest nfc) : Option SupervisorFailure :=
  let intent := request.intent
  let attempt := request.attempt
  let claim := request.claim
  if intent.version ≥ maxSupervisorCount ∨ attempt.version ≥ maxSupervisorCount then
    activationRefusal .EFFECT_COUNTER_EXHAUSTED "a version counter is exhausted" "counters"
  else if intent.state ≠ .ARMED then
    activationRefusal .ACTIVATION_INTENT_NOT_ARMED ("intent state " ++ intent.state.text ++ " cannot activate") "intentState"
  else if claim.intentId ≠ intent.intentId ∨ claim.wrapperIdentity ≠ request.wrapperIdentity
      ∨ claim.lockIdentity ≠ request.lockIdentity then
    activationRefusal .ACTIVATION_LOCK_IDENTITY_MISMATCH "claim does not bind this wrapper and lock" "lockIdentity"
  else if request.tombstoned then
    activationRefusal .EFFECT_TOMBSTONED "a terminal tombstone dominates this intent" "tombstoneWitness"
  else if attempt.intentId ≠ intent.intentId ∨ attempt.aggregateId ≠ intent.aggregateId then
    activationRefusal .ATTEMPT_BINDING_MISMATCH "attempt is not bound to this effect intent" "attemptBinding"
  else if attempt.state ≠ .LAUNCH_REQUESTED then
    activationRefusal .ATTEMPT_NOT_LAUNCH_REQUESTED ("attempt state " ++ attempt.state.text ++ " cannot launch") "attemptState"
  else if request.observedGraphEpoch ≠ intent.expectedGraphEpoch then
    activationRefusal .ACTIVATION_GRAPH_EPOCH_MISMATCH "graph epoch is not the expected one" "graphEpoch"
  else
    match (fenceMirroredLease intent.leaseBinding.toValue request.leaseProof "effect.activate" [.ACTIVE] :
        Except SupervisorFailure (MirroredLeaseRecord nfc × MirroredLeaseProof nfc)) with
    | .error failure => some (withLeg failure "leaseFence")
    | .ok _ =>
      if request.desiredState ≠ intent.desiredState then
        activationRefusal .ACTIVATION_DESIRED_STATE_MISMATCH "desired state does not match the intent" "desiredState"
      else if request.witnesses.any fun witness => witness.observedDigest ≠ witness.expectedDigest then
        activationRefusal .ACTIVATION_DEPENDENCY_WITNESS_STALE "a dependency witness is not current" "dependencyWitness"
      else refuseRuntimeObservationDrift intent.runtimeObservationDigest request.observedRuntimeDigest

def activateEffect (requestValue : Value) : ActivationOutcome nfc :=
  match parseRequest requestValue with
  | .error failure => .refused failure
  | .ok parsed =>
    match revalidate parsed with
    | some failure => .refused failure
    | none =>
      let intent := { parsed.intent with state := .ACTIVE, version := parsed.intent.version + 1 }
      let attempt := { parsed.attempt with state := .RUNNING, version := parsed.attempt.version + 1 }
      let binding := initialGrantBinding intent.intentId parsed.wrapperIdentity
      match canonicalDigest sha256 (activationDigestInput intent attempt binding) with
      | none => .threw
      | some activationDigest =>
        match deriveGrantId sha256 intent.intentId activationDigest with
        | none => .threw
        | some grantId =>
          .activated ⟨intent, attempt, ⟨grantId, intent.intentId, parsed.wrapperIdentity, .UNUSED, 0⟩, activationDigest⟩

/-! ### What an accepted call is -/

theorem consumeActivationGrant_consumed (grantValue wrapperIdentity : Value) (next : ActivationGrant nfc)
    (h : consumeActivationGrant grantValue wrapperIdentity = .consumed next) :
    ∃ grant : ActivationGrant nfc, parseActivationGrant nfc grantValue = some grant ∧ grant.state = .UNUSED
      ∧ next = { grant with state := .CONSUMED, version := grant.version + 1 } := by
  unfold consumeActivationGrant at h
  split at h
  · cases h
  rename_i grant hgrant
  split at h
  · cases h
  split at h
  · cases h
  rename_i hstate
  injection h with hnext
  refine ⟨grant, hgrant, ?_, hnext.symm⟩
  cases hs : grant.state with
  | UNUSED => rfl
  | CONSUMED => exact absurd hs hstate

/-- The grant derives from the records it activated, whether it is used or not. -/
structure Derives (intent : EffectIntent nfc) (attempt : AttemptSlice nfc) (grant : ActivationGrant nfc)
    (activationDigest : Digest) : Prop where
  attemptIntent : attempt.intentId = intent.intentId
  attemptAggregate : attempt.aggregateId = intent.aggregateId
  grantIntent : grant.intentId = intent.intentId
  digest : canonicalDigest sha256
    (activationDigestInput intent attempt (initialGrantBinding intent.intentId grant.wrapperIdentity)) = some activationDigest
  grantId : deriveGrantId sha256 intent.intentId activationDigest = some grant.grantId

theorem Derives.coherent {intent : EffectIntent nfc} {attempt : AttemptSlice nfc} {grant : ActivationGrant nfc}
    {activationDigest : Digest} (h : Derives sha256 intent attempt grant activationDigest)
    (hintent : isCount intent.version = true) (hattempt : isCount attempt.version = true)
    (hgrant : isCount grant.version = true) (hactive : intent.state = .ACTIVE) (hrunning : attempt.state = .RUNNING) :
    validateActivationCommit nfc sha256 intent.toValue attempt.toValue grant.toValue = .coherent activationDigest := by
  unfold validateActivationCommit
  rw [parseEffectIntent_toValue intent hintent, parseAttemptSlice_toValue attempt hattempt,
    parseActivationGrant_toValue grant hgrant]
  simp [hactive, hrunning, h.attemptIntent, h.attemptAggregate, h.grantIntent, h.digest, h.grantId]

/-- What the legs let through. -/
structure Activates (intent : EffectIntent nfc) (attempt : AttemptSlice nfc) (commit : ActivationCommit nfc) : Prop where
  intentBelow : intent.version < maxSupervisorCount
  attemptBelow : attempt.version < maxSupervisorCount
  armed : intent.state = .ARMED
  launching : attempt.state = .LAUNCH_REQUESTED
  intentAfter : commit.intent = { intent with state := .ACTIVE, version := intent.version + 1 }
  attemptAfter : commit.attempt = { attempt with state := .RUNNING, version := attempt.version + 1 }
  grantState : commit.grant.state = .UNUSED
  grantVersion : commit.grant.version = 0
  derives : Derives sha256 commit.intent commit.attempt commit.grant commit.activationDigest

theorem orRefuse_ok {A : Type} (code : SupervisorErrorCode) (message : String) (x : Option A) (a : A)
    (h : orRefuse code message x = .ok a) : x = some a := by
  cases x with
  | none => cases h
  | some b => exact congrArg some (Except.ok.inj h)

theorem parseRequest_ok (value : Value) (request : ParsedRequest nfc) (h : parseRequest value = .ok request) :
    ∃ raw, exactRecord value requestKeys = some raw
      ∧ parseEffectIntent nfc (raw.field "intent") = some request.intent
      ∧ parseAttemptSlice nfc (raw.field "attempt") = some request.attempt := by
  unfold parseRequest at h
  simp only [↓except_bind_iff] at h
  obtain ⟨raw, hraw, intent, hintent, attempt, hattempt, claim, hclaim, h⟩ := h
  split at h
  · cases h
  have h := orRefuse_ok _ _ _ _ h
  simp only [↓Lib.bind_some_iff, Option.pure_def, Option.some.injEq] at h
  obtain ⟨witnesses, _, wrapper, _, lock, _, desired, _, epoch, _, runtime, _, rfl⟩ := h
  exact ⟨raw, orRefuse_ok _ _ _ _ hraw, orRefuse_ok _ _ _ _ hintent, orRefuse_ok _ _ _ _ hattempt⟩

theorem revalidate_none (request : ParsedRequest nfc) (h : revalidate request = none) :
    request.intent.version < maxSupervisorCount ∧ request.attempt.version < maxSupervisorCount
      ∧ request.intent.state = .ARMED ∧ request.attempt.state = .LAUNCH_REQUESTED
      ∧ request.attempt.intentId = request.intent.intentId ∧ request.attempt.aggregateId = request.intent.aggregateId := by
  simp only [revalidate, activationRefusal, Lib.ite_some_none_iff] at h
  obtain ⟨hversions, harmed, -, -, hbound, hlaunch, -⟩ := h
  push Not at hversions harmed hbound hlaunch
  exact ⟨hversions.1, hversions.2, harmed, hlaunch, hbound.1, hbound.2⟩

theorem activateEffect_activated (requestValue : Value) (commit : ActivationCommit nfc)
    (h : activateEffect sha256 requestValue = .activated commit) :
    ∃ raw intent attempt, exactRecord requestValue requestKeys = some raw
      ∧ parseEffectIntent nfc (raw.field "intent") = some intent
      ∧ parseAttemptSlice nfc (raw.field "attempt") = some attempt ∧ Activates sha256 intent attempt commit := by
  unfold activateEffect at h
  split at h
  · cases h
  rename_i parsed hparsed
  split at h
  · cases h
  rename_i hvalid
  dsimp only at h
  split at h
  · cases h
  rename_i digest hdigest
  split at h
  · cases h
  rename_i grantId hgrantId
  injection h with hcommit
  subst hcommit
  obtain ⟨raw, hraw, hintent, hattempt⟩ := parseRequest_ok requestValue parsed hparsed
  obtain ⟨hintentBelow, hattemptBelow, harmed, hlaunch, hbound⟩ := revalidate_none parsed hvalid
  exact ⟨raw, parsed.intent, parsed.attempt, hraw, hintent, hattempt, hintentBelow, hattemptBelow, harmed, hlaunch, rfl, rfl,
    rfl, rfl, ⟨hbound.1, hbound.2, rfl, hdigest, hgrantId⟩⟩

end Activation

end MoeNG.Supervisor
