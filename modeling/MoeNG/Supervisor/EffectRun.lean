import MoeNG.Supervisor.Activation

/-!
# One effect under the supervisor's calls

The durable records of an effect, the calls that can replace them, and what
holds of the records after any run of accepted calls.
-/

namespace MoeNG.Supervisor
open MoeNG.Kernel MoeNG.Lib

/-! ### Records and calls -/

structure Records (nfc : JsString → JsString) where
  intent : EffectIntent nfc
  attempt : AttemptSlice nfc
  grant : Option (ActivationGrant nfc)
  deriving DecidableEq

/-- The commands of a client. Activation has a call of its own. -/
inductive ClientCommand where
  | claim
  | arm
  | requestCancel
  | settle (target settlement uncertainty adoptedAt : Value)

def ClientCommand.toValue : ClientCommand → Value
  | claim => recordOf [("kind", .string (lit "claim"))]
  | arm => recordOf [("kind", .string (lit "arm"))]
  | requestCancel => recordOf [("kind", .string (lit "requestCancel"))]
  | settle target settlement uncertainty adoptedAt => recordOf [
      ("kind", .string (lit "settle")), ("target", target), ("settlement", settlement), ("uncertainty", uncertainty),
      ("adoptedAt", adoptedAt)]

structure ActivationInput where
  claim : Value
  tombstone : Value
  leaseProof : Value
  wrapperIdentity : Value
  lockIdentity : Value
  observedGraphEpoch : Value
  desiredState : Value
  dependencyWitnesses : Value
  observedRuntimeDigest : Value

inductive Call where
  | command (command : ClientCommand)
  | tombstone (tombstone : Value)
  | activate (input : ActivationInput)
  | consume (wrapperIdentity : Value)

def Call.isActivation : Call → Bool
  | activate _ => true
  | _ => false

def Call.isTombstone : Call → Bool
  | tombstone _ => true
  | _ => false

def Call.isCancel : Call → Bool
  | command .requestCancel => true
  | _ => false

def Call.movesIntent : Call → Bool
  | consume _ => false
  | _ => true

inductive Successor (nfc : JsString → JsString) where
  | intent (next : EffectIntent nfc)
  | activation (commit : ActivationCommit nfc)
  | grant (next : ActivationGrant nfc)
  deriving DecidableEq

section Supervise
variable {nfc : JsString → JsString} (sha256 : List Byte → Digest)

def activationRequest (records : Records nfc) (input : ActivationInput) : Value := recordOf [
  ("intent", records.intent.toValue), ("attempt", records.attempt.toValue), ("claim", input.claim),
  ("tombstone", input.tombstone), ("leaseProof", input.leaseProof), ("wrapperIdentity", input.wrapperIdentity),
  ("lockIdentity", input.lockIdentity), ("observedGraphEpoch", input.observedGraphEpoch),
  ("desiredState", input.desiredState), ("dependencyWitnesses", input.dependencyWitnesses),
  ("observedRuntimeDigest", input.observedRuntimeDigest)]

def LifecycleOutcome.successor : LifecycleOutcome nfc → Option (Successor nfc)
  | transitioned next _ => some (.intent next)
  | _ => none

def ActivationOutcome.successor : ActivationOutcome nfc → Option (Successor nfc)
  | activated commit => some (.activation commit)
  | _ => none

def GrantOutcome.successor : GrantOutcome nfc → Option (Successor nfc)
  | consumed next => some (.grant next)
  | _ => none

/-- The accepted successor of a call, if there is one. -/
def reduce (records : Records nfc) : Call → Option (Successor nfc)
  | .command command => (applyEffectCommand sha256 records.intent.toValue command.toValue).successor
  | .tombstone tombstone => (applyEffectTombstone sha256 records.intent.toValue tombstone).successor
  | .activate input => (activateEffect sha256 (activationRequest records input)).successor
  | .consume wrapperIdentity =>
    records.grant.bind fun grant => (consumeActivationGrant grant.toValue wrapperIdentity).successor

def install (records : Records nfc) : Successor nfc → Records nfc
  | .intent next => { records with intent := next }
  | .activation commit => ⟨commit.intent, commit.attempt, some commit.grant⟩
  | .grant next => { records with grant := some next }

def supervise (records : Records nfc) (call : Call) : Records nfc :=
  match reduce sha256 records call with
  | some successor => install records successor
  | none => records

/-! ### Records that parse -/

structure Records.Parses (records : Records nfc) : Prop where
  intent : isCount records.intent.version = true
  attempt : isCount records.attempt.version = true
  grant : ∀ grant ∈ records.grant, isCount grant.version = true

/-! ### What one accepted call does -/

inductive Moves (records : Records nfc) : Call → Successor nfc → Prop where
  | command (command : ClientCommand) (kind : EffectCommand) (target : EffectState)
      (below : records.intent.version < maxSupervisorCount) (admitted : admits records.intent.state kind target = true)
      (inactive : ¬ (records.intent.state = .ACTIVE ∧ kind = .requestCancel)) (other : kind ≠ .activate)
      (cancels : (Call.command command).isCancel = true ↔ kind = .requestCancel) :
      Moves records (.command command)
        (.intent { records.intent with state := target, version := records.intent.version + 1 })
  | tombstone (tombstone : Value) (below : records.intent.version < maxSupervisorCount)
      (before : records.intent.state ∈ preActivationStates) :
      Moves records (.tombstone tombstone)
        (.intent { records.intent with state := .CANCELLED, version := records.intent.version + 1 })
  | activate (input : ActivationInput) (commit : ActivationCommit nfc)
      (activates : Activates sha256 records.intent records.attempt commit) :
      Moves records (.activate input) (.activation commit)
  | consume (wrapperIdentity : Value) (grant : ActivationGrant nfc) (held : records.grant = some grant)
      (unused : grant.state = .UNUSED) :
      Moves records (.consume wrapperIdentity)
        (.grant { grant with state := .CONSUMED, version := grant.version + 1 })

theorem parseCommandInput_simple (kind : EffectCommand) (h : kind ≠ .settle) :
    parseCommandInput (recordOf [("kind", .string (lit kind.text))]) = some (.simple kind) := by
  cases kind with
  | settle => exact absurd rfl h
  | _ => rfl

theorem parseCommandInput_settle (target settlement uncertainty adoptedAt : Value) (command : EffectCommandInput)
    (h : parseCommandInput (ClientCommand.settle target settlement uncertainty adoptedAt).toValue = some command) :
    ∃ asked at_, command = .settle asked settlement uncertainty at_
      ∧ oneOf EffectState.text effectStates target = some asked := by
  have hread : exactRecord (ClientCommand.settle target settlement uncertainty adoptedAt).toValue settleCommandKeys = some _ :=
    exactRecord_recordOf _ (show (settleCommandKeys.map lit).Nodup by decide)
  unfold parseCommandInput at h
  rw [hread] at h
  simp only [↓Lib.bind_some_iff, Option.pure_def, Option.some.injEq] at h
  obtain ⟨_, _, asked, hasked, at_, _, rfl⟩ := h
  exact ⟨asked, at_, rfl, hasked⟩

/-- The kind a client's command is read with. -/
theorem parseCommandInput_client (command : ClientCommand) (input : EffectCommandInput)
    (h : parseCommandInput command.toValue = some input) :
    input.kind ≠ .activate ∧ ((Call.command command).isCancel = true ↔ input.kind = .requestCancel) := by
  cases command with
  | claim =>
    obtain rfl := Option.some.inj ((parseCommandInput_simple .claim (by decide)).symm.trans h)
    simp [EffectCommandInput.kind, Call.isCancel]
  | arm =>
    obtain rfl := Option.some.inj ((parseCommandInput_simple .arm (by decide)).symm.trans h)
    simp [EffectCommandInput.kind, Call.isCancel]
  | requestCancel =>
    obtain rfl := Option.some.inj ((parseCommandInput_simple .requestCancel (by decide)).symm.trans h)
    simp [EffectCommandInput.kind, Call.isCancel]
  | settle target settlement uncertainty adoptedAt =>
    obtain ⟨_, _, rfl, _⟩ := parseCommandInput_settle _ _ _ _ _ h
    simp [EffectCommandInput.kind, Call.isCancel]

theorem LifecycleOutcome.successor_some (outcome : LifecycleOutcome nfc) (successor : Successor nfc)
    (h : outcome.successor = some successor) : ∃ next result, outcome = .transitioned next result ∧ successor = .intent next := by
  cases outcome with
  | transitioned next result => exact ⟨next, result, rfl, (Option.some.inj h).symm⟩
  | _ => cases h

theorem ActivationOutcome.successor_some (outcome : ActivationOutcome nfc) (successor : Successor nfc)
    (h : outcome.successor = some successor) : ∃ commit, outcome = .activated commit ∧ successor = .activation commit := by
  cases outcome with
  | activated commit => exact ⟨commit, rfl, (Option.some.inj h).symm⟩
  | _ => cases h

theorem GrantOutcome.successor_some (outcome : GrantOutcome nfc) (successor : Successor nfc)
    (h : outcome.successor = some successor) : ∃ next, outcome = .consumed next ∧ successor = .grant next := by
  cases outcome with
  | consumed next => exact ⟨next, rfl, (Option.some.inj h).symm⟩
  | _ => cases h

theorem exactRecord_activationRequest (records : Records nfc) (input : ActivationInput) :
    ∃ raw, exactRecord (activationRequest records input) requestKeys = some raw
      ∧ raw.field "intent" = records.intent.toValue ∧ raw.field "attempt" = records.attempt.toValue :=
  ⟨_, exactRecord_recordOf _ (show (requestKeys.map lit).Nodup by decide), rfl, rfl⟩

theorem reduce_moves (records : Records nfc) (hparses : records.Parses) (call : Call) (successor : Successor nfc)
    (h : reduce sha256 records call = some successor) : Moves sha256 records call successor := by
  have hintent := parseEffectIntent_toValue records.intent hparses.intent
  cases call with
  | command command =>
    obtain ⟨next, result, houtcome, rfl⟩ := LifecycleOutcome.successor_some _ _ h
    obtain ⟨intent, input, target, hparsed, hinput, hbelow, hadmits, hdrain, rfl, _⟩ :=
      applyEffectCommand_transitioned sha256 _ _ _ _ houtcome
    obtain rfl := Option.some.inj (hintent.symm.trans hparsed)
    obtain ⟨hother, hcancels⟩ := parseCommandInput_client command input hinput
    exact .command command input.kind target hbelow hadmits hdrain hother hcancels
  | tombstone tombstone =>
    obtain ⟨next, result, houtcome, rfl⟩ := LifecycleOutcome.successor_some _ _ h
    obtain ⟨intent, hparsed, hbelow, hbefore, rfl⟩ := applyEffectTombstone_transitioned sha256 _ _ _ _ houtcome
    obtain rfl := Option.some.inj (hintent.symm.trans hparsed)
    exact .tombstone tombstone hbelow hbefore
  | activate input =>
    obtain ⟨commit, houtcome, rfl⟩ := ActivationOutcome.successor_some _ _ h
    obtain ⟨raw, intent, attempt, hraw, hparsed, hattempt, hactivates⟩ := activateEffect_activated sha256 _ _ houtcome
    obtain ⟨raw', hraw', hfield, hfield'⟩ := exactRecord_activationRequest records input
    obtain rfl := Option.some.inj (hraw.symm.trans hraw')
    rw [hfield] at hparsed
    rw [hfield'] at hattempt
    obtain rfl := Option.some.inj (hintent.symm.trans hparsed)
    obtain rfl := Option.some.inj ((parseAttemptSlice_toValue records.attempt hparses.attempt).symm.trans hattempt)
    exact .activate input commit hactivates
  | consume wrapperIdentity =>
    obtain ⟨grant, hgrant, hconsume⟩ := Option.bind_eq_some_iff.mp h
    obtain ⟨next, houtcome, rfl⟩ := GrantOutcome.successor_some _ _ hconsume
    obtain ⟨grant', hparsed, hunused, rfl⟩ := consumeActivationGrant_consumed _ _ _ houtcome
    obtain rfl := Option.some.inj ((parseActivationGrant_toValue grant (hparses.grant grant hgrant)).symm.trans hparsed)
    exact .consume wrapperIdentity grant hgrant hunused

/-! ### The records of a run -/

/-- Where an attempt still waits to be launched, and where it runs. -/
def launchingStates : List EffectState := [.PENDING, .CLAIMED, .ARMED, .CANCEL_REQUESTED, .CANCELLED, .UNKNOWN]
def runningStates : List EffectState := [.ACTIVE, .SUCCEEDED, .FAILED, .UNKNOWN]

-- a tombstone or a cancellation before the activation leads here
def withdrawnStates : List EffectState := [.CANCEL_REQUESTED, .CANCELLED, .UNKNOWN]

structure Fresh (records : Records nfc) : Prop where
  parses : records.Parses
  pending : records.intent.state = .PENDING
  launching : records.attempt.state = .LAUNCH_REQUESTED
  grant : records.grant = none

structure Supervised (start records : Records nfc) : Prop where
  parses : records.Parses
  intentId : records.intent.intentId = start.intent.intentId
  attemptIntent : records.attempt.intentId = start.attempt.intentId
  granted : records.attempt.state = .RUNNING ↔ records.grant.isSome
  launchingState : records.attempt.state = .LAUNCH_REQUESTED → records.intent.state ∈ launchingStates
  runningState : records.attempt.state = .RUNNING → records.intent.state ∈ runningStates
  grantVersion : ∀ grant ∈ records.grant, grant.state = .UNUSED ∧ grant.version = 0 ∨ grant.state = .CONSUMED ∧ grant.version = 1
  derives : records.intent.state = .ACTIVE → ∀ grant ∈ records.grant,
    ∃ digest, Derives sha256 records.intent records.attempt grant digest

theorem Fresh.supervised {start : Records nfc} (h : Fresh start) : Supervised sha256 start start where
  parses := h.parses
  intentId := rfl
  attemptIntent := rfl
  granted := by rw [h.launching, h.grant]; simp
  launchingState _ := by rw [h.pending]; decide
  runningState hrunning := by rw [h.launching] at hrunning; cases hrunning
  grantVersion grant hgrant := by rw [h.grant] at hgrant; cases hgrant
  derives hactive := by rw [h.pending] at hactive; cases hactive

theorem AttemptSliceState.running_of_ne {state : AttemptSliceState} (h : state ≠ .LAUNCH_REQUESTED) : state = .RUNNING := by
  cases state with
  | LAUNCH_REQUESTED => exact absurd rfl h
  | RUNNING => rfl

theorem admits_launching (source : EffectState) (kind : EffectCommand) (target : EffectState)
    (h : admits source kind target = true) (hsource : source ∈ launchingStates) (hother : kind ≠ .activate) :
    target ∈ launchingStates :=
  admits_table (fun s c t => s ∈ launchingStates → c ≠ .activate → t ∈ launchingStates) (by decide) source kind target h
    hsource hother

theorem admits_running (source : EffectState) (kind : EffectCommand) (target : EffectState)
    (h : admits source kind target = true) (hsource : source ∈ runningStates)
    (hinactive : ¬ (source = .ACTIVE ∧ kind = .requestCancel)) : target ∈ runningStates ∧ kind ≠ .requestCancel :=
  admits_table (fun s c t => s ∈ runningStates → ¬ (s = .ACTIVE ∧ c = .requestCancel) → t ∈ runningStates ∧ c ≠ .requestCancel)
    (by decide) source kind target h hsource hinactive

theorem admits_withdrawn (source : EffectState) (kind : EffectCommand) (target : EffectState)
    (h : admits source kind target = true) (hsource : source ∈ withdrawnStates) : target ∈ withdrawnStates :=
  admits_table (fun s _ t => s ∈ withdrawnStates → t ∈ withdrawnStates) (by decide) source kind target h hsource

theorem admits_active (source : EffectState) (kind : EffectCommand) (h : admits source kind .ACTIVE = true) :
    kind = .activate :=
  admits_table (fun _ c t => t = .ACTIVE → c = .activate) (by decide) source kind .ACTIVE h rfl

theorem admits_cancel (source target : EffectState) (h : admits source .requestCancel target = true) :
    target = .CANCEL_REQUESTED ∧ (source ∈ preActivationStates ∨ source = .ACTIVE) :=
  admits_table
    (fun s c t => c = .requestCancel → t = .CANCEL_REQUESTED ∧ (s ∈ preActivationStates ∨ s = .ACTIVE)) (by decide)
    source .requestCancel target h rfl

/-- Only the state and the version of the intent change, and the attempt waits or runs as before. -/
theorem Supervised.move_intent {start records : Records nfc} (h : Supervised sha256 start records) (target : EffectState)
    (hbelow : records.intent.version < maxSupervisorCount)
    (hlaunching : records.attempt.state = .LAUNCH_REQUESTED → target ∈ launchingStates)
    (hrunning : records.attempt.state = .RUNNING → target ∈ runningStates) (htarget : target ≠ .ACTIVE) :
    Supervised sha256 start
      (install records (.intent { records.intent with state := target, version := records.intent.version + 1 })) where
  parses := ⟨isCount_succ _ h.parses.intent hbelow, h.parses.attempt, h.parses.grant⟩
  intentId := h.intentId
  attemptIntent := h.attemptIntent
  granted := h.granted
  launchingState := hlaunching
  runningState := hrunning
  grantVersion := h.grantVersion
  derives hactive := absurd hactive htarget

theorem Supervised.pre_launching {start records : Records nfc} (h : Supervised sha256 start records)
    (hpre : records.intent.state ∈ preActivationStates) : records.attempt.state = .LAUNCH_REQUESTED := by
  by_contra hstate
  have hrunning := h.runningState (AttemptSliceState.running_of_ne hstate)
  have hdisjoint : ∀ s ∈ preActivationStates, s ∉ runningStates := by decide
  exact hdisjoint _ hpre hrunning

theorem Supervised.activated {start records : Records nfc} (h : Supervised sha256 start records)
    (commit : ActivationCommit nfc) (hactivates : Activates sha256 records.intent records.attempt commit) :
    Supervised sha256 start (install records (.activation commit)) where
  parses := by
    refine ⟨?_, ?_, ?_⟩
    · show isCount commit.intent.version = true
      rw [hactivates.intentAfter]
      exact isCount_succ _ h.parses.intent hactivates.intentBelow
    · show isCount commit.attempt.version = true
      rw [hactivates.attemptAfter]
      exact isCount_succ _ h.parses.attempt hactivates.attemptBelow
    · rintro grant hgrant
      obtain rfl := Option.some.inj hgrant
      rw [hactivates.grantVersion]
      decide
  intentId := by
    show commit.intent.intentId = _
    rw [hactivates.intentAfter]
    exact h.intentId
  attemptIntent := by
    show commit.attempt.intentId = _
    rw [hactivates.attemptAfter]
    exact h.attemptIntent
  granted := by
    show commit.attempt.state = _ ↔ _
    rw [hactivates.attemptAfter]
    exact iff_of_true rfl rfl
  launchingState hlaunching := by
    have hstate : commit.attempt.state = .RUNNING := by rw [hactivates.attemptAfter]
    exact absurd (hstate.symm.trans hlaunching) (by decide)
  runningState _ := by
    show commit.intent.state ∈ _
    rw [hactivates.intentAfter]
    show EffectState.ACTIVE ∈ runningStates
    decide
  grantVersion grant hgrant := by
    obtain rfl := Option.some.inj hgrant
    exact .inl ⟨hactivates.grantState, hactivates.grantVersion⟩
  derives _ grant hgrant := by
    obtain rfl := Option.some.inj hgrant
    exact ⟨commit.activationDigest, hactivates.derives⟩

theorem Supervised.consumed {start records : Records nfc} (h : Supervised sha256 start records)
    (grant : ActivationGrant nfc) (hheld : records.grant = some grant) (hunused : grant.state = .UNUSED) :
    Supervised sha256 start
      (install records (.grant { grant with state := .CONSUMED, version := grant.version + 1 })) := by
  have hversion : grant.version = 0 := by
    rcases h.grantVersion grant hheld with hfirst | hused
    · exact hfirst.2
    · exact absurd (hunused.symm.trans hused.1) (by decide)
  refine ⟨⟨h.parses.intent, h.parses.attempt, ?_⟩, h.intentId, h.attemptIntent, ?_, h.launchingState, h.runningState, ?_, ?_⟩
  · rintro next hnext
    obtain rfl := Option.some.inj hnext
    show isCount (grant.version + 1) = true
    rw [hversion]
    decide
  · refine h.granted.trans ?_
    rw [hheld]
    exact Iff.rfl
  · rintro next hnext
    obtain rfl := Option.some.inj hnext
    exact .inr ⟨rfl, show grant.version + 1 = 1 by omega⟩
  · rintro hactive next hnext
    obtain rfl := Option.some.inj hnext
    obtain ⟨digest, hderives⟩ := h.derives hactive grant hheld
    exact ⟨digest, ⟨hderives.attemptIntent, hderives.attemptAggregate, hderives.grantIntent, hderives.digest, hderives.grantId⟩⟩

theorem Supervised.moves {start records : Records nfc} (h : Supervised sha256 start records) (call : Call)
    (successor : Successor nfc) (hmoves : Moves sha256 records call successor) :
    Supervised sha256 start (install records successor) := by
  cases hmoves with
  | command command kind target below admitted inactive other cancels =>
    refine h.move_intent sha256 target below (fun hlaunching => ?_) (fun hrunning => ?_) ?_
    · exact admits_launching _ _ _ admitted (h.launchingState hlaunching) other
    · exact (admits_running _ _ _ admitted (h.runningState hrunning) inactive).1
    · rintro rfl
      exact other (admits_active _ _ admitted)
  | tombstone tombstone below before =>
    refine h.move_intent sha256 .CANCELLED below (fun _ => by decide) (fun hrunning => ?_) (by decide)
    rw [h.pre_launching sha256 before] at hrunning
    cases hrunning
  | activate input commit activates => exact h.activated sha256 commit activates
  | consume wrapperIdentity grant held unused => exact h.consumed sha256 grant held unused

theorem Supervised.supervise {start records : Records nfc} (h : Supervised sha256 start records) (call : Call) :
    Supervised sha256 start (supervise sha256 records call) := by
  unfold Supervisor.supervise
  split
  · rename_i successor hreduce
    exact h.moves sha256 call successor (reduce_moves sha256 records h.parses call successor hreduce)
  · exact h

theorem run_supervised (start : Records nfc) (h : Fresh start) (calls : List Call) :
    Supervised sha256 start (run (supervise sha256) start calls) :=
  run_invariant (supervise sha256) (Supervised sha256 start) (fun _ call hs => hs.supervise sha256 call) start
    (h.supervised sha256) calls

end Supervise

/-! ### One effect written out -/

def sampleRef (s : String) (h : isRef id (lit s) = true) : Ref id := ⟨lit s, h⟩

def zeroDigest : Digest := ⟨List.replicate 64 48, isDigest_zeros⟩

def sampleLease : MirroredLeaseRecord id :=
  ⟨sampleRef "lease-1" (by decide), .WORKSPACE, sampleRef "session-1" (by decide), sampleRef "token-1" (by decide),
    ⟨1, isCount_one⟩, .ACTIVE, ⟨90, by decide⟩, sampleRef "boot-1" (by decide), ⟨5, by decide⟩, zeroDigest, ⟨3, by decide⟩⟩

def sampleRecords : Records id where
  intent := {
    intentId := sampleRef "intent-1" (by decide), aggregateId := sampleRef "aggregate-1" (by decide)
    expectedGraphEpoch := ⟨7, by decide⟩, leaseBinding := sampleLease, inputBinding := zeroDigest
    predecessorCursor := sampleRef "cursor-0" (by decide), desiredState := sampleRef "LAUNCHED" (by decide)
    idempotencyKey := sampleRef "key-1" (by decide), runtimeObservationDigest := zeroDigest
    state := .PENDING, version := 0 }
  attempt := ⟨sampleRef "attempt-1" (by decide), sampleRef "aggregate-1" (by decide), sampleRef "intent-1" (by decide),
    .LAUNCH_REQUESTED, 0⟩
  grant := none

theorem sampleRecords_fresh : Fresh sampleRecords :=
  ⟨⟨by decide, by decide, fun _ h => by cases h⟩, rfl, rfl, rfl⟩

theorem sampleInstant : isCanonicalUtcTimestamp (lit "2024-01-01T00:00:00.000Z") = true := by decide

def sampleClaim : EffectClaim id :=
  ⟨sampleRef "claim-1" (by decide), sampleRef "intent-1" (by decide), sampleRef "wrapper-1" (by decide),
    sampleRef "lock-1" (by decide), ⟨lit "2024-01-01T00:00:00.000Z", sampleInstant⟩⟩

def sampleTombstone : EffectTombstone id :=
  ⟨sampleRef "intent-1" (by decide), sampleRef "GOAL_CANCEL" (by decide), ⟨lit "2024-01-01T00:00:01Z", by decide⟩⟩

def sampleActivation : ActivationInput where
  claim := sampleClaim.toValue
  tombstone := .null
  leaseProof := recordOf [("leaseToken", .string (lit "token-1")), ("epoch", integer 1),
    ("authorityHashRef", .string zeroDigest), ("ownerSessionRef", .string (lit "session-1")), ("expectedVersion", integer 3)]
  wrapperIdentity := .string (lit "wrapper-1")
  lockIdentity := .string (lit "lock-1")
  observedGraphEpoch := integer 7
  desiredState := .string (lit "LAUNCHED")
  dependencyWitnesses := .array []
  observedRuntimeDigest := .string zeroDigest

def sampleActivationDigest : Digest :=
  ⟨lit "b1f490606a4559fbd39973d9e7d977800b9be68ea693633ce10e51caafc7fa5f", by decide⟩

def sampleGrantId : Digest := ⟨lit "f583e7a7c01fe79e672acec79d994e90618a58b3920c8b896b5b4a3ddb5b0cec", by decide⟩

def sampleActiveIntent : EffectIntent id := { sampleRecords.intent with state := .ACTIVE, version := 3 }
def sampleRunningAttempt : AttemptSlice id := { sampleRecords.attempt with state := .RUNNING, version := 1 }

/-- The digests of the activation, of its grant and of the tombstone. -/
def sampleDigests : List (List Byte × Digest) := [
  (utf8 (canonicalText (activationDigestInput sampleActiveIntent sampleRunningAttempt
    (initialGrantBinding sampleActiveIntent.intentId sampleClaim.wrapperIdentity))), sampleActivationDigest),
  (utf8 (canonicalText (recordOf [("activationDigest", .string sampleActivationDigest), ("intentId", .string (lit "intent-1"))])),
    sampleGrantId),
  (utf8 (canonicalText (recordOf [("tombstone", sampleTombstone.toValue)])),
    ⟨lit "1ad64b580059189e2a58a96b3670b8fb45087c284092890a966075da1aeec60c", by decide⟩)]

def sampleSha256 (bytes : List Byte) : Digest :=
  ((sampleDigests.find? fun e => e.1 = bytes).map Prod.snd).getD zeroDigest

end MoeNG.Supervisor
