import MoeNG.Supervisor.Drain

/-!
# Restart (`restart-records.ts`, `restart-reconstruction.ts`, `launch-lock.ts`, `process-observation.ts`)
-/

namespace MoeNG.Supervisor
open MoeNG.Kernel

/-! ### Launch locks and process exits (`launch-lock.ts:28-84`, `process-observation.ts:35-52`) -/

inductive LaunchLockObservedState where
  | HELD
  | RELEASED
  | UNKNOWN
  deriving DecidableEq

def LaunchLockObservedState.text : LaunchLockObservedState → String
  | HELD => "HELD"
  | RELEASED => "RELEASED"
  | UNKNOWN => "UNKNOWN"

def launchLockObservedStates : List LaunchLockObservedState := [.HELD, .RELEASED, .UNKNOWN]

structure LaunchLockRegistration (nfc : JsString → JsString) where
  lockIdentity : Ref nfc
  wrapperIdentity : Ref nfc
  processIdentity : Ref nfc
  bootstrapCredentialDigest : Digest
  registeredAt : Timestamp
  deriving DecidableEq

inductive ClaudeProcessExit (nfc : JsString → JsString) where
  | exited (code : Count)
  | signalled (signal : Ref nfc)
  | unobserved
  deriving DecidableEq

section Restart
variable {nfc : JsString → JsString} (sha256 : List Byte → Digest)

def registrationKeys : List String :=
  ["lockIdentity", "wrapperIdentity", "processIdentity", "bootstrapCredentialDigest", "registeredAt"]

def LaunchLockRegistration.toValue (registration : LaunchLockRegistration nfc) : Value := recordOf [
  ("lockIdentity", .string registration.lockIdentity), ("wrapperIdentity", .string registration.wrapperIdentity),
  ("processIdentity", .string registration.processIdentity),
  ("bootstrapCredentialDigest", .string registration.bootstrapCredentialDigest),
  ("registeredAt", .string registration.registeredAt)]

variable (nfc) in
def parseLaunchLockRegistration (value : Value) : Option (LaunchLockRegistration nfc) := do
  let parsed ← exactRecord value registrationKeys
  let lockIdentity ← refOf nfc (parsed.field "lockIdentity")
  let wrapperIdentity ← refOf nfc (parsed.field "wrapperIdentity")
  let processIdentity ← refOf nfc (parsed.field "processIdentity")
  let bootstrapCredentialDigest ← digestOf (parsed.field "bootstrapCredentialDigest")
  let registeredAt ← timestampOf (parsed.field "registeredAt")
  pure ⟨lockIdentity, wrapperIdentity, processIdentity, bootstrapCredentialDigest, registeredAt⟩

def bindsClaim (registration : LaunchLockRegistration nfc) (claim : EffectClaim nfc) : Bool :=
  registration.lockIdentity = claim.lockIdentity ∧ registration.wrapperIdentity = claim.wrapperIdentity

def ClaudeProcessExit.toValue : ClaudeProcessExit nfc → Value
  | exited code => recordOf [("kind", .string (lit "EXITED")), ("code", integer code)]
  | signalled signal => recordOf [("kind", .string (lit "SIGNALLED")), ("signal", .string signal)]
  | unobserved => recordOf [("kind", .string (lit "UNOBSERVED"))]

def exitFields (kind : String) (keys : List String) (value : Value) : Option Fields :=
  (exactRecord value keys).filter fun parsed => (oneOf id [kind] (parsed.field "kind")).isSome

variable (nfc) in
def parseProcessExit (value : Value) : Option (ClaudeProcessExit nfc) :=
  match exitFields "EXITED" ["kind", "code"] value with
  | some parsed => (countOf (parsed.field "code")).map .exited
  | none =>
    match exitFields "SIGNALLED" ["kind", "signal"] value with
    | some parsed => (refOf nfc (parsed.field "signal")).map .signalled
    | none => (exitFields "UNOBSERVED" ["kind"] value).map fun _ => .unobserved

/-! ### The durable record set (`restart-records.ts:46-141`) -/

structure RestartRecords (nfc : JsString → JsString) where
  intent : EffectIntent nfc
  attempt : Option (AttemptSlice nfc)
  attemptState : DrainAttemptState
  claim : Option (EffectClaim nfc)
  grant : Option (ActivationGrant nfc)
  tombstone : Option (EffectTombstone nfc)
  registration : Option (LaunchLockRegistration nfc)
  lockState : LaunchLockObservedState
  observation : Option (ClaudeProcessExit nfc)
  reconciliation : Option (ReconciliationReference nfc)
  resourceFact : ResourceFact
  disposition : MonotonicDisposition
  safeHandoff : Option (Ref nfc)

def recordKeys : List String :=
  ["intent", "attempt", "attemptState", "claim", "grant", "tombstone", "registration", "lockState", "observation",
    "reconciliation", "resourceFact", "disposition", "safeHandoff"]

def RestartRecords.fields (records : RestartRecords nfc) : Fields := [
  ("intent", records.intent.toValue), ("attempt", orNull AttemptSlice.toValue records.attempt),
  ("attemptState", .string (lit records.attemptState.text)), ("claim", orNull EffectClaim.toValue records.claim),
  ("grant", orNull ActivationGrant.toValue records.grant), ("tombstone", orNull EffectTombstone.toValue records.tombstone),
  ("registration", orNull LaunchLockRegistration.toValue records.registration),
  ("lockState", .string (lit records.lockState.text)), ("observation", orNull ClaudeProcessExit.toValue records.observation),
  ("reconciliation", orNull (fun reference => reference.val.toValue) records.reconciliation),
  ("resourceFact", .string (lit records.resourceFact.text)), ("disposition", records.disposition.val.toValue),
  ("safeHandoff", orNull (fun handoff => .string handoff.val) records.safeHandoff)]

def RestartRecords.toValue (records : RestartRecords nfc) : Value := recordOf records.fields

variable (nfc) in
def parseRestartRecords (value : Value) : Option (RestartRecords nfc) := do
  let raw ← exactRecord value recordKeys
  let intent ← parseEffectIntent nfc (raw.field "intent")
  let attempt ← optional (parseAttemptSlice nfc) (raw.field "attempt")
  let claim ← optional (parseEffectClaim nfc) (raw.field "claim")
  let grant ← optional (parseActivationGrant nfc) (raw.field "grant")
  let tombstone ← optional (parseEffectTombstone nfc) (raw.field "tombstone")
  let registration ← optional (parseLaunchLockRegistration nfc) (raw.field "registration")
  let observation ← optional (parseProcessExit nfc) (raw.field "observation")
  let reconciliation ← optional (parseReconciliationReference nfc) (raw.field "reconciliation")
  let attemptState ← oneOf DrainAttemptState.text drainAttemptStates (raw.field "attemptState")
  let lockState ← oneOf LaunchLockObservedState.text launchLockObservedStates (raw.field "lockState")
  let resourceFact ← oneOf ResourceFact.text resourceFacts (raw.field "resourceFact")
  let safeHandoff ← optional (refOf nfc) (raw.field "safeHandoff")
  let disposition ← monotonicDispositionOf (raw.field "disposition")
  pure ⟨intent, attempt, attemptState, claim, grant, tombstone, registration, lockState, observation, reconciliation,
    resourceFact, disposition, safeHandoff⟩

def recordsDisagree (records : RestartRecords nfc) : Bool :=
  (records.attempt.any fun attempt => attempt.state.drain ≠ records.attemptState)
    || (records.attempt.any fun attempt => attempt.intentId ≠ records.intent.intentId)
    || (records.intent.state = .ACTIVE
      && records.attemptState ∈ [DrainAttemptState.ABSENT, .LEASED, .LAUNCH_REQUESTED])

/-! ### Reconstruction (`restart-reconstruction.ts:31-225`) -/

inductive RestartPostState where
  | ACTIVE_ADOPTED
  | TOMBSTONED
  | DRAINING
  | TERMINAL_PROVEN
  | RECONCILE_ONLY
  | SUSPECT
  | UNKNOWN
  deriving DecidableEq

inductive RestartOutcome where
  | reconstructed (postState : RestartPostState) (terminalTarget : Option DrainTerminalTarget) (capacityHeld : Bool)
  | refused (failure : SupervisorFailure)
  | threw
  deriving DecidableEq

def restartRefusal (code : SupervisorErrorCode) (message : String) : RestartOutcome :=
  .refused ⟨code, .RESTART, message, ⟨none, some "restart.reconstruct", none⟩⟩

def reconstructed (postState : RestartPostState) : RestartOutcome := .reconstructed postState none false

/-- The code of a drain refusal is kept, and the layer is the restart's own. -/
def fromDrain : DrainOutcome nfc → RestartOutcome
  | .refused failure => restartRefusal failure.code failure.message
  | .terminalized _ _ terminalTarget _ => .reconstructed .TERMINAL_PROVEN (some terminalTarget) false
  | .draining _ _ capacityHeld _ _ _ => .reconstructed .DRAINING none capacityHeld
  | .tombstoned _ => reconstructed .TOMBSTONED
  | .reconcileOnly _ => reconstructed .RECONCILE_ONLY
  | .atomicActivation _ => reconstructed .UNKNOWN

def RestartRecords.drainInput (records : RestartRecords nfc) : ParsedDrain nfc :=
  ⟨records.attemptState, records.intent.state, records.resourceFact, false, records.disposition, records.reconciliation,
    records.safeHandoff⟩

def routeToDrain (records : RestartRecords nfc) : RestartOutcome :=
  fromDrain (resolveDrainRow nfc records.drainInput.toValue)

theorem routeToDrain_eq (records : RestartRecords nfc) : routeToDrain records
    = fromDrain (resolveParsedRow records.drainInput) := by
  rw [routeToDrain, resolveDrainRow_toValue]

def reconstructTerminalAttempt (records : RestartRecords nfc) : RestartOutcome :=
  if !isTerminalEffectState records.intent.state then reconstructed .RECONCILE_ONLY
  else if records.reconciliation = none then
    restartRefusal .RESTART_PREMATURE_TERMINAL "a terminal effect state carries no reconciliation that proves it"
  else if records.resourceFact ≠ .PROVEN_RELEASED then reconstructed .UNKNOWN
  else reconstructed .TERMINAL_PROVEN

def identityConflict (records : RestartRecords nfc) : Option RestartOutcome :=
  match records.claim with
  | none => none
  | some claim =>
    if claim.intentId ≠ records.intent.intentId then
      some (restartRefusal .RESTART_RECORDS_INCOHERENT "the claim is not bound to this effect intent")
    else if records.grant.any fun grant => grant.wrapperIdentity ≠ claim.wrapperIdentity then
      some (restartRefusal .RESTART_RECORDS_INCOHERENT "the grant was issued to a wrapper other than the claimant")
    else if records.registration.any fun registration => !bindsClaim registration claim then
      some (reconstructed .SUSPECT)
    else none

def reconstructRunningAttempt (records : RestartRecords nfc) : RestartOutcome :=
  if records.claim.isSome ∧ records.grant.isSome ∧ records.registration.isSome ∧ records.lockState = .HELD then
    .reconstructed .ACTIVE_ADOPTED none true
  else reconstructed .UNKNOWN

/-- The partial-commit check of a running attempt, if it does not pass. -/
def commitConflict (records : RestartRecords nfc) : Option RestartOutcome :=
  match records.grant with
  | none => none
  | some grant =>
    if records.attemptState ≠ .RUNNING then none
    else
      match validateActivationCommit nfc sha256 records.intent.toValue (orNull AttemptSlice.toValue records.attempt)
          grant.toValue with
      | .coherent _ => none
      | .refused failure => some (restartRefusal .RESTART_RECORDS_INCOHERENT failure.message)
      | .threw => some .threw

def dominated (records : RestartRecords nfc) : Bool :=
  match records.tombstone with
  | none => false
  | some tombstone =>
    records.attemptState = .ABSENT &&
      match (applyEffectTombstone sha256 records.intent.toValue tombstone.toValue : LifecycleOutcome nfc) with
      | .transitioned _ _ => true
      | _ => false

def reconstructParsed (records : RestartRecords nfc) : RestartOutcome :=
  if recordsDisagree records then
    restartRefusal .RESTART_RECORDS_INCOHERENT "the attempt and effect records were not written together"
  else
    match commitConflict sha256 records with
    | some outcome => outcome
    | none =>
      match identityConflict records with
      | some outcome => outcome
      | none =>
        if records.lockState = .UNKNOWN then reconstructed .SUSPECT
        else if records.observation.isSome ∧ records.registration = none then reconstructed .SUSPECT
        else if dominated sha256 records then reconstructed .TOMBSTONED
        else
          match records.attemptState with
          | .TERMINAL => reconstructTerminalAttempt records
          | .RUNNING => reconstructRunningAttempt records
          | _ => routeToDrain records

variable (nfc) in
def reconstructAfterRestart (recordsValue : Value) : RestartOutcome :=
  match parseRestartRecords nfc recordsValue with
  | none => restartRefusal .RESTART_RECORDS_INCOHERENT "the durable record set does not parse"
  | some records => reconstructParsed sha256 records

/-! ### A record set is read back as it was written -/

theorem oneOf_lockState (s : LaunchLockObservedState) :
    oneOf LaunchLockObservedState.text launchLockObservedStates (.string (lit s.text)) = some s := by
  cases s <;> decide

theorem parseLaunchLockRegistration_toValue (registration : LaunchLockRegistration nfc) :
    parseLaunchLockRegistration nfc registration.toValue = some registration := by
  have hread : exactRecord registration.toValue registrationKeys = some _ :=
    exactRecord_recordOf _ (show (registrationKeys.map lit).Nodup by decide)
  unfold parseLaunchLockRegistration
  rw [hread]
  simp only [Fields.field_cons, String.reduceEq, if_true, if_false, Option.bind_eq_bind, Option.bind_some, refOf_string,
    digestOf_string, timestampOf_string, Option.pure_def]

theorem parseEffectTombstone_toValue (tombstone : EffectTombstone nfc) :
    parseEffectTombstone nfc tombstone.toValue = some tombstone := by
  have hread : exactRecord tombstone.toValue tombstoneKeys = some _ :=
    exactRecord_recordOf _ (show (tombstoneKeys.map lit).Nodup by decide)
  unfold parseEffectTombstone
  rw [hread]
  simp only [Fields.field_cons, String.reduceEq, if_true, if_false, Option.bind_eq_bind, Option.bind_some, refOf_string,
    timestampOf_string, Option.pure_def]

theorem parseProcessExit_toValue (observed : ClaudeProcessExit nfc) : parseProcessExit nfc observed.toValue = some observed := by
  unfold parseProcessExit exitFields
  cases observed with
  | exited code =>
    have hread : exactRecord (ClaudeProcessExit.toValue (.exited code : ClaudeProcessExit nfc)) ["kind", "code"] = some _ :=
      exactRecord_recordOf _ (show (["kind", "code"].map lit).Nodup by decide)
    rw [hread, Option.filter_some, if_pos (by rfl)]
    simp only [Fields.field_cons, String.reduceEq, if_true, if_false, countOf_integer, Option.map_some]
  | signalled signal =>
    have hskip : exactRecord (ClaudeProcessExit.toValue (.signalled signal)) ["kind", "code"] = none :=
      exactRecord_extra _ _ ("signal", .string signal) (by simp)
        (show ∀ key ∈ ["kind", "code"], lit key ≠ lit "signal" by decide)
    have hread : exactRecord (ClaudeProcessExit.toValue (.signalled signal)) ["kind", "signal"] = some _ :=
      exactRecord_recordOf _ (show (["kind", "signal"].map lit).Nodup by decide)
    rw [hskip, hread, Option.filter_none, Option.filter_some, if_pos (by rfl)]
    simp only [Fields.field_cons, String.reduceEq, if_true, if_false, refOf_string, Option.map_some]
  | unobserved => rfl

structure RestartRecords.Counted (records : RestartRecords nfc) : Prop where
  intent : isCount records.intent.version = true
  attempt : ∀ attempt ∈ records.attempt, isCount attempt.version = true
  grant : ∀ grant ∈ records.grant, isCount grant.version = true

theorem parseRestartRecords_toValue (records : RestartRecords nfc) (h : records.Counted) :
    parseRestartRecords nfc records.toValue = some records := by
  have hread : exactRecord records.toValue recordKeys = some records.fields :=
    exactRecord_recordOf records.fields (show (recordKeys.map lit).Nodup by decide)
  have hattempt := optional_orNull AttemptSlice.toValue (parseAttemptSlice nfc) (fun _ => rfl) records.attempt
    fun attempt hattempt => parseAttemptSlice_toValue attempt (h.attempt attempt hattempt)
  have hclaim := optional_orNull EffectClaim.toValue (parseEffectClaim nfc) (fun _ => rfl) records.claim
    fun claim _ => parseEffectClaim_toValue claim
  have hgrant := optional_orNull ActivationGrant.toValue (parseActivationGrant nfc) (fun _ => rfl) records.grant
    fun grant hgrant => parseActivationGrant_toValue grant (h.grant grant hgrant)
  have htombstone := optional_orNull EffectTombstone.toValue (parseEffectTombstone nfc) (fun _ => rfl) records.tombstone
    fun tombstone _ => parseEffectTombstone_toValue tombstone
  have hregistration := optional_orNull LaunchLockRegistration.toValue (parseLaunchLockRegistration nfc) (fun _ => rfl)
    records.registration fun registration _ => parseLaunchLockRegistration_toValue registration
  have hobservation := optional_orNull ClaudeProcessExit.toValue (parseProcessExit nfc)
    (fun observed => by cases observed <;> rfl)
    records.observation fun observed _ => parseProcessExit_toValue observed
  have hreference := optional_orNull (fun reference : ReconciliationReference nfc => reference.val.toValue)
    (parseReconciliationReference nfc) (fun _ => rfl) records.reconciliation
    fun reference _ => parseReconciliationReference_toValue reference
  have hhandoff := optional_orNull (fun handoff : Ref nfc => Value.string handoff.val) (refOf nfc) (fun _ => rfl)
    records.safeHandoff fun handoff _ => refOf_string handoff
  simp only [parseRestartRecords, ↓Lib.bind_some_iff]
  exact ⟨_, hread, _, parseEffectIntent_toValue _ h.intent, _, hattempt, _, hclaim, _, hgrant, _, htombstone, _, hregistration,
    _, hobservation, _, hreference, _, oneOf_drainAttemptState _, _, oneOf_lockState _, _, oneOf_resourceFact _, _, hhandoff,
    _, monotonicDispositionOf_toValue _, rfl⟩

end Restart

end MoeNG.Supervisor
