import MoeNG.Supervisor.EffectRun
import MoeNG.Supervisor.Restart

/-!
# A crash between two calls of the supervisor

What a restarting wrapper makes of the records that a run has left.
-/

namespace MoeNG.Supervisor
open MoeNG.Kernel MoeNG.Lib

/-! ### What the wrapper reads beside the records -/

structure RestartFacts (nfc : JsString → JsString) where
  claim : Option (EffectClaim nfc)
  tombstone : Option (EffectTombstone nfc)
  registration : Option (LaunchLockRegistration nfc)
  lockState : LaunchLockObservedState
  observation : Option (ClaudeProcessExit nfc)
  reconciliation : Option (ReconciliationReference nfc)
  resourceFact : ResourceFact
  disposition : MonotonicDisposition
  safeHandoff : Option (Ref nfc)

section RestartRun
variable {nfc : JsString → JsString} (sha256 : List Byte → Digest)

def restartRecords (records : Records nfc) (facts : RestartFacts nfc) : RestartRecords nfc where
  intent := records.intent
  attempt := some records.attempt
  attemptState := records.attempt.state.drain
  claim := facts.claim
  grant := records.grant
  tombstone := facts.tombstone
  registration := facts.registration
  lockState := facts.lockState
  observation := facts.observation
  reconciliation := facts.reconciliation
  resourceFact := facts.resourceFact
  disposition := facts.disposition
  safeHandoff := facts.safeHandoff

/-- The claim, the registration and the grant name one wrapper and lock. -/
structure OneWrapper (records : Records nfc) (facts : RestartFacts nfc) : Prop where
  claimed : ∀ claim ∈ facts.claim, claim.intentId = records.intent.intentId
  granted : ∀ claim ∈ facts.claim, ∀ grant ∈ records.grant, grant.wrapperIdentity = claim.wrapperIdentity
  registered : ∀ claim ∈ facts.claim, ∀ registration ∈ facts.registration, bindsClaim registration claim = true

/-- The two refusals that say that the records are no state of an effect. -/
def RestartOutcome.strands : RestartOutcome → Bool
  | .refused failure => failure.code = .RESTART_RECORDS_INCOHERENT || failure.code = .DRAIN_ROW_NOT_ADMITTED
  | _ => false

def ReadAfterCrash (records : Records nfc) : Prop :=
  (isTerminalEffectState records.intent.state = true → records.intent.state = .UNKNOWN) →
    ∀ facts, OneWrapper records facts →
      (reconstructAfterRestart nfc sha256 (restartRecords records facts).toValue).strands = false

/-! ### The states that are read, and the two that are not -/

def strandedStates : List EffectState := [.CANCEL_REQUESTED, .UNKNOWN]

theorem reconstructAfterRestart_run {start records : Records nfc} (h : Supervised sha256 start records)
    (facts : RestartFacts nfc) :
    reconstructAfterRestart nfc sha256 (restartRecords records facts).toValue
      = reconstructParsed sha256 (restartRecords records facts) := by
  have hcounted : (restartRecords records facts).Counted :=
    ⟨h.parses.intent, fun attempt hattempt => Option.some.inj hattempt ▸ h.parses.attempt, h.parses.grant⟩
  unfold reconstructAfterRestart
  rw [parseRestartRecords_toValue _ hcounted]

theorem Supervised.bound {start records : Records nfc} (h : Supervised sha256 start records)
    (hbound : start.attempt.intentId = start.intent.intentId) : records.attempt.intentId = records.intent.intentId :=
  h.attemptIntent.trans (hbound.trans h.intentId.symm)

variable (records : Records nfc)

theorem recordsDisagree_run (facts : RestartFacts nfc) (hbound : records.attempt.intentId = records.intent.intentId)
    (hactive : records.intent.state = .ACTIVE → records.attempt.state = .RUNNING) :
    recordsDisagree (restartRecords records facts) = false := by
  by_cases h : records.intent.state = .ACTIVE
  · simp [recordsDisagree, restartRecords, hbound, hactive h, AttemptSliceState.drain]
  · simp [recordsDisagree, restartRecords, hbound, h]

theorem identityConflict_run (facts : RestartFacts nfc) (h : OneWrapper records facts) :
    identityConflict (restartRecords records facts) = none := by
  unfold identityConflict
  cases hclaim : facts.claim with
  | none => simp [restartRecords, hclaim]
  | some claim =>
    have hgrant : (records.grant.any fun grant => grant.wrapperIdentity ≠ claim.wrapperIdentity) = false := by
      rw [Option.any_eq_false]
      intro grant hheld
      simpa using h.granted claim hclaim grant hheld
    have hregistration : (facts.registration.any fun registration => !bindsClaim registration claim) = false := by
      rw [Option.any_eq_false]
      intro registration hheld
      simpa using h.registered claim hclaim registration hheld
    simp only [restartRecords, hclaim, h.claimed claim hclaim, ne_eq, not_true, if_false, hregistration]
    simpa using hgrant

theorem dominated_run (facts : RestartFacts nfc) : dominated sha256 (restartRecords records facts) = false := by
  have hpresent : records.attempt.state.drain ≠ .ABSENT := by cases records.attempt.state <;> decide
  unfold dominated restartRecords
  dsimp only
  split
  · rfl
  · simp [hpresent]

/-- A launch that was only requested drains by the second or the third row of the table. -/
theorem matchRow_launching (input : ParsedDrain nfc) (hattempt : input.attemptState = .LAUNCH_REQUESTED)
    (hrequested : input.activationRequested = false) (hpre : input.effectState ∈ preActivationStates) :
    ∃ row, matchRow input = some row ∧ (row.outcomeKind = .TERMINALIZED ∨ row.outcomeKind = .DRAINING) := by
  have htable : ∀ state ∈ preActivationStates, ∀ fact ∈ resourceFacts,
      ∃ row ∈ drainTableRows, (drainTableRows.find? fun row => row.activationRequested = false
        && DrainAttemptState.LAUNCH_REQUESTED ∈ row.attemptStates && state ∈ row.effectStates && fact ∈ row.resourceFacts)
          = some row
        ∧ (row.outcomeKind = .TERMINALIZED ∨ row.outcomeKind = .DRAINING) := by decide
  have hfact : input.resourceFact ∈ resourceFacts := by cases input.resourceFact <;> decide
  obtain ⟨row, _, hfind, hkind⟩ := htable _ hpre _ hfact
  refine ⟨row, ?_, hkind⟩
  unfold matchRow
  rw [hattempt, hrequested]
  exact hfind

theorem matchRow_stranded (input : ParsedDrain nfc) (hattempt : input.attemptState = .LAUNCH_REQUESTED)
    (hstate : input.effectState ∈ strandedStates) : matchRow input = none := by
  have htable : ∀ state ∈ strandedStates, ∀ row ∈ drainTableRows,
      ¬ (DrainAttemptState.LAUNCH_REQUESTED ∈ row.attemptStates ∧ state ∈ row.effectStates) := by decide
  unfold matchRow
  rw [List.find?_eq_none]
  intro row hrow hmatch
  simp only [Bool.and_eq_true, decide_eq_true_eq, hattempt] at hmatch
  exact htable _ hstate row hrow ⟨hmatch.1.1.2, hmatch.1.2⟩

theorem terminalize_strands (row : DrainRow) (input : ParsedDrain nfc) : (fromDrain (terminalize row input)).strands = false := by
  unfold terminalize
  dsimp only
  split <;> rfl

theorem routeToDrain_launching (records : RestartRecords nfc) (hattempt : records.attemptState = .LAUNCH_REQUESTED)
    (hpre : records.intent.state ∈ preActivationStates) : (routeToDrain records).strands = false := by
  obtain ⟨row, hrow, hkind⟩ := matchRow_launching records.drainInput hattempt rfl hpre
  rw [routeToDrain_eq]
  unfold resolveParsedRow
  rw [hrow]
  dsimp only
  rcases hkind with hkind | hkind
  · rw [hkind]
    exact terminalize_strands row _
  · rw [hkind]
    dsimp only
    split
    · rfl
    split
    · rfl
    exact terminalize_strands row _

theorem commitConflict_launching (facts : RestartFacts nfc) (h : records.grant = none) :
    commitConflict sha256 (restartRecords records facts) = none := by
  unfold commitConflict restartRecords
  dsimp only
  rw [h]

theorem reconstruct_launching {start records : Records nfc} (h : Supervised sha256 start records)
    (hbound : records.attempt.intentId = records.intent.intentId) (hpre : records.intent.state ∈ preActivationStates)
    (facts : RestartFacts nfc) (hone : OneWrapper records facts) :
    (reconstructAfterRestart nfc sha256 (restartRecords records facts).toValue).strands = false := by
  have hlaunching := h.pre_launching sha256 hpre
  have hinactive : records.intent.state ≠ .ACTIVE := by
    rintro hactive
    rw [hactive] at hpre
    exact absurd hpre (by decide)
  have hgrant : records.grant = none := by
    rw [← Option.not_isSome_iff_eq_none, ← h.granted, hlaunching]
    decide
  have hattempt : (restartRecords records facts).attemptState = .LAUNCH_REQUESTED := by
    show records.attempt.state.drain = _
    rw [hlaunching]
    rfl
  rw [reconstructAfterRestart_run sha256 h, reconstructParsed,
    recordsDisagree_run records facts hbound fun hactive => absurd hactive hinactive,
    commitConflict_launching sha256 records facts hgrant, identityConflict_run records facts hone, dominated_run, hattempt]
  simp only [Bool.false_eq_true, if_false]
  split
  · rfl
  split
  · rfl
  exact routeToDrain_launching _ hattempt hpre

theorem commitConflict_active {start records : Records nfc} (h : Supervised sha256 start records)
    (hactive : records.intent.state = .ACTIVE) (hrunning : records.attempt.state = .RUNNING) (facts : RestartFacts nfc) :
    commitConflict sha256 (restartRecords records facts) = none := by
  obtain ⟨grant, hgrant⟩ := Option.isSome_iff_exists.mp (h.granted.mp hrunning)
  obtain ⟨digest, hderives⟩ := h.derives hactive grant hgrant
  have hcoherent := hderives.coherent sha256 h.parses.intent h.parses.attempt (h.parses.grant grant hgrant) hactive hrunning
  unfold commitConflict restartRecords
  dsimp only
  rw [hgrant]
  dsimp only
  rw [hrunning, if_neg (by decide), show orNull AttemptSlice.toValue (some records.attempt)
    = records.attempt.toValue from rfl, hcoherent]

theorem reconstruct_active {start records : Records nfc} (h : Supervised sha256 start records)
    (hbound : records.attempt.intentId = records.intent.intentId) (hactive : records.intent.state = .ACTIVE)
    (facts : RestartFacts nfc) (hone : OneWrapper records facts) :
    (reconstructAfterRestart nfc sha256 (restartRecords records facts).toValue).strands = false := by
  have hrunning : records.attempt.state = .RUNNING := by
    refine AttemptSliceState.running_of_ne fun hlaunching => ?_
    have hstate := h.launchingState hlaunching
    rw [hactive] at hstate
    exact absurd hstate (by decide)
  have hattempt : (restartRecords records facts).attemptState = .RUNNING := by
    show records.attempt.state.drain = _
    rw [hrunning]
    rfl
  rw [reconstructAfterRestart_run sha256 h, reconstructParsed, recordsDisagree_run records facts hbound fun _ => hrunning,
    commitConflict_active sha256 h hactive hrunning, identityConflict_run records facts hone, dominated_run, hattempt]
  simp only [Bool.false_eq_true, if_false]
  split
  · rfl
  split
  · rfl
  unfold reconstructRunningAttempt
  split <;> rfl

/-! ### The stranded states -/

def sampleDisposition : MonotonicDisposition :=
  ⟨⟨[.GOAL_CANCEL], .GOAL_CANCEL, .CANCELLED, by decide, by decide⟩, by decide⟩

/-- A claim and a registration that bind the wrapper of the grant, over a lock that is held. -/
def boundFacts (records : Records nfc) : RestartFacts nfc :=
  let wrapper := (records.grant.map ActivationGrant.wrapperIdentity).getD records.intent.aggregateId
  { claim := some ⟨records.intent.idempotencyKey, records.intent.intentId, wrapper, records.attempt.attemptId,
      ⟨lit "2024-01-01T00:00:00.000Z", sampleInstant⟩⟩
    tombstone := none
    registration := some ⟨records.attempt.attemptId, wrapper, records.intent.predecessorCursor, records.intent.inputBinding,
      ⟨lit "2024-01-01T00:00:00.000Z", sampleInstant⟩⟩
    lockState := .HELD
    observation := none
    reconciliation := none
    resourceFact := .UNKNOWN
    disposition := sampleDisposition
    safeHandoff := none }

theorem boundFacts_oneWrapper : OneWrapper records (boundFacts records) := by
  refine ⟨fun claim hclaim => ?_, fun claim hclaim grant hgrant => ?_, fun claim hclaim registration hregistration => ?_⟩
  · obtain rfl := Option.some.inj hclaim
    rfl
  · obtain rfl := Option.some.inj hclaim
    simp [Option.mem_def.mp hgrant]
  · obtain rfl := Option.some.inj hclaim
    obtain rfl := Option.some.inj hregistration
    simp [bindsClaim]

theorem commitConflict_settled {start records : Records nfc} (h : Supervised sha256 start records)
    (hinactive : records.intent.state ≠ .ACTIVE) (hrunning : records.attempt.state = .RUNNING) (facts : RestartFacts nfc) :
    ∃ message, commitConflict sha256 (restartRecords records facts)
      = some (restartRefusal .RESTART_RECORDS_INCOHERENT message) := by
  obtain ⟨grant, hgrant⟩ := Option.isSome_iff_exists.mp (h.granted.mp hrunning)
  unfold commitConflict restartRecords
  dsimp only
  rw [hgrant]
  dsimp only
  rw [hrunning, if_neg (by decide), show orNull AttemptSlice.toValue (some records.attempt) = records.attempt.toValue from rfl]
  unfold validateActivationCommit
  rw [parseEffectIntent_toValue _ h.parses.intent, parseAttemptSlice_toValue _ h.parses.attempt,
    parseActivationGrant_toValue grant (h.parses.grant grant hgrant)]
  dsimp only
  rw [if_pos (.inl hinactive)]
  exact ⟨_, rfl⟩

theorem reconstruct_stranded {start records : Records nfc} (h : Supervised sha256 start records)
    (hbound : records.attempt.intentId = records.intent.intentId) (hstate : records.intent.state ∈ strandedStates) :
    (reconstructAfterRestart nfc sha256 (restartRecords records (boundFacts records)).toValue).strands = true := by
  have hinactive : records.intent.state ≠ .ACTIVE := by
    rintro hactive
    rw [hactive] at hstate
    exact absurd hstate (by decide)
  rw [reconstructAfterRestart_run sha256 h, reconstructParsed,
    recordsDisagree_run records _ hbound fun hactive => absurd hactive hinactive]
  simp only [Bool.false_eq_true, if_false]
  by_cases hrunning : records.attempt.state = .RUNNING
  · obtain ⟨message, hconflict⟩ := commitConflict_settled sha256 h hinactive hrunning (boundFacts records)
    rw [hconflict]
    rfl
  · have hlaunching : records.attempt.state = .LAUNCH_REQUESTED := by
      by_contra hne
      exact hrunning (AttemptSliceState.running_of_ne hne)
    have hgrant : records.grant = none := by
      rw [← Option.not_isSome_iff_eq_none, ← h.granted]
      exact hrunning
    have hattempt : (restartRecords records (boundFacts records)).attemptState = .LAUNCH_REQUESTED := by
      show records.attempt.state.drain = _
      rw [hlaunching]
      rfl
    rw [commitConflict_launching sha256 records _ hgrant, identityConflict_run records _ (boundFacts_oneWrapper records),
      dominated_run, hattempt]
    dsimp only
    rw [if_neg (by simp [restartRecords, boundFacts]), if_neg (by simp [restartRecords, boundFacts]), if_neg (by decide),
      routeToDrain_eq, resolveParsedRow, matchRow_stranded _ hattempt hstate]
    rfl

theorem readAfterCrash_iff {start records : Records nfc} (h : Supervised sha256 start records)
    (hbound : start.attempt.intentId = start.intent.intentId) :
    ReadAfterCrash sha256 records ↔ records.intent.state ∉ strandedStates := by
  have hbound := h.bound sha256 hbound
  constructor
  · intro hread hstate
    have hopen : isTerminalEffectState records.intent.state = true → records.intent.state = .UNKNOWN := by
      have htable : ∀ state ∈ strandedStates, isTerminalEffectState state = true → state = .UNKNOWN := by decide
      exact htable _ hstate
    have hfalse := hread hopen (boundFacts records) (boundFacts_oneWrapper records)
    rw [reconstruct_stranded sha256 h hbound hstate] at hfalse
    cases hfalse
  · intro hstate hopen facts hone
    by_cases hpre : records.intent.state ∈ preActivationStates
    · exact reconstruct_launching sha256 h hbound hpre facts hone
    · refine reconstruct_active sha256 h hbound ?_ facts hone
      have htable : ∀ state ∈ effectStates, state ∉ strandedStates → state ∉ preActivationStates →
          (isTerminalEffectState state = true → state = .UNKNOWN) → state = .ACTIVE := by decide
      exact htable _ (by cases records.intent.state <;> decide) hstate hpre hopen

/-! ### The calls that lead there -/

def ClientCommand.strands : ClientCommand → Bool
  | requestCancel => true
  | settle target _ _ _ => oneOf EffectState.text effectStates target = some .UNKNOWN
  | _ => false

/-- A cancellation, or a settlement as `UNKNOWN`. -/
def Call.strands : Call → Bool
  | command issued => issued.strands
  | _ => false

theorem applyEffectCommand_strands (command : ClientCommand) (next : EffectIntent nfc) (result : Option (EffectResult nfc))
    (h : applyEffectCommand sha256 records.intent.toValue command.toValue = .transitioned next result) :
    next.state ∈ strandedStates ↔ command.strands = true := by
  obtain ⟨intent, input, target, hparsed, hinput, _, hadmits, _, rfl, hasked⟩ := applyEffectCommand_transitioned sha256 _ _ _ _ h
  have hkinds : (input.kind = .claim → target ∉ strandedStates) ∧ (input.kind = .arm → target ∉ strandedStates)
      ∧ (input.kind = .requestCancel → target ∈ strandedStates)
      ∧ (input.kind = .settle → (target ∈ strandedStates ↔ target = .UNKNOWN)) :=
    admits_table (fun _ c t => (c = .claim → t ∉ strandedStates) ∧ (c = .arm → t ∉ strandedStates)
      ∧ (c = .requestCancel → t ∈ strandedStates) ∧ (c = .settle → (t ∈ strandedStates ↔ t = .UNKNOWN))) (by decide) _ _ _ hadmits
  show target ∈ strandedStates ↔ _
  cases command with
  | claim =>
    obtain rfl := Option.some.inj ((parseCommandInput_simple .claim (by decide)).symm.trans hinput)
    exact iff_of_false (hkinds.1 rfl) (by decide)
  | arm =>
    obtain rfl := Option.some.inj ((parseCommandInput_simple .arm (by decide)).symm.trans hinput)
    exact iff_of_false (hkinds.2.1 rfl) (by decide)
  | requestCancel =>
    obtain rfl := Option.some.inj ((parseCommandInput_simple .requestCancel (by decide)).symm.trans hinput)
    exact iff_of_true (hkinds.2.2.1 rfl) rfl
  | settle wanted settlement uncertainty adoptedAt =>
    obtain ⟨asked, at_, rfl, hwanted⟩ := parseCommandInput_settle _ _ _ _ _ hinput
    obtain rfl := hasked asked settlement uncertainty at_ rfl
    rw [hkinds.2.2.2 rfl, ClientCommand.strands, hwanted]
    simp

/-- A call takes a read state to a stranded one exactly if it is accepted and is one of the two. -/
theorem supervise_strands {start records : Records nfc} (h : Supervised sha256 start records)
    (hread : records.intent.state ∉ strandedStates) (call : Call) :
    (supervise sha256 records call).intent.state ∈ strandedStates
      ↔ (reduce sha256 records call).isSome = true ∧ call.strands = true := by
  unfold supervise
  cases hreduce : reduce sha256 records call with
  | none => simp [hread]
  | some successor =>
    simp only [Option.isSome_some, true_and]
    cases call with
    | command command =>
      obtain ⟨next, result, houtcome, rfl⟩ := LifecycleOutcome.successor_some _ _ hreduce
      exact applyEffectCommand_strands sha256 records command next result houtcome
    | tombstone tombstone =>
      cases reduce_moves sha256 records h.parses _ _ hreduce with
      | tombstone _ below before =>
        exact iff_of_false (show EffectState.CANCELLED ∉ strandedStates by decide) (by simp [Call.strands])
    | activate input =>
      cases reduce_moves sha256 records h.parses _ _ hreduce with
      | activate _ commit activates =>
        refine iff_of_false ?_ (by simp [Call.strands])
        show commit.intent.state ∉ _
        rw [activates.intentAfter]
        show EffectState.ACTIVE ∉ strandedStates
        decide
    | consume wrapperIdentity =>
      cases reduce_moves sha256 records h.parses _ _ hreduce with
      | consume _ grant held unused => exact iff_of_false hread (by simp [Call.strands])

def StaysRead (records : Records nfc) (call : Call) : Prop := (reduce sha256 records call).isSome = true → call.strands = false

theorem along_staysRead {start records : Records nfc} (h : Supervised sha256 start records)
    (hread : records.intent.state ∉ strandedStates) (calls : List Call) :
    (∀ first rest, calls = first ++ rest → (run (supervise sha256) records first).intent.state ∉ strandedStates)
      ↔ Along (supervise sha256) (StaysRead sha256) records calls := by
  induction calls generalizing records with
  | nil =>
    refine iff_of_true (fun first rest hsplit => ?_) trivial
    obtain ⟨rfl, _⟩ := List.append_eq_nil_iff.mp hsplit.symm
    exact hread
  | cons call calls ih =>
    have hstep : (supervise sha256 records call).intent.state ∉ strandedStates ↔ StaysRead sha256 records call := by
      rw [supervise_strands sha256 h hread call, StaysRead]
      simp
    constructor
    · intro hall
      have hnext := hall [call] calls rfl
      refine ⟨hstep.mp hnext, (ih (h.supervise sha256 call) hnext).mp fun first rest hsplit => ?_⟩
      exact hall (call :: first) rest (congrArg (call :: ·) hsplit)
    · rintro ⟨hcall, hrest⟩ first rest hsplit
      have hnext := hstep.mpr hcall
      cases first with
      | nil => exact hread
      | cons other first =>
        obtain ⟨rfl, rfl⟩ := List.cons.inj hsplit
        exact (ih (h.supervise sha256 call) hnext).mpr hrest first rest rfl

/-- Every state of a run is read after a crash exactly if the run accepts neither of the two calls. -/
theorem restart_reads_iff (start : Records nfc) (h : Fresh start) (hbound : start.attempt.intentId = start.intent.intentId)
    (calls : List Call) :
    (∀ first rest, calls = first ++ rest → ReadAfterCrash sha256 (run (supervise sha256) start first))
      ↔ Along (supervise sha256) (StaysRead sha256) start calls := by
  rw [← along_staysRead sha256 (h.supervised sha256) (by rw [h.pending]; decide) calls]
  constructor
  · intro hread first rest hsplit
    exact (readAfterCrash_iff sha256 (run_supervised sha256 start h first) hbound).mp (hread first rest hsplit)
  · intro hstates first rest hsplit
    exact (readAfterCrash_iff sha256 (run_supervised sha256 start h first) hbound).mpr (hstates first rest hsplit)

end RestartRun

/-! ### A run that is read after every call -/

def sampleCalls : List Call :=
  [.command .claim, .command .arm, .activate sampleActivation, .consume (.string (lit "wrapper-1"))]

theorem restart_reads_activation :
    (run (supervise sampleSha256) sampleRecords sampleCalls).intent.state = .ACTIVE
      ∧ ∀ first rest, sampleCalls = first ++ rest →
        ReadAfterCrash sampleSha256 (run (supervise sampleSha256) sampleRecords first) :=
  ⟨by decide +kernel,
    (restart_reads_iff sampleSha256 sampleRecords sampleRecords_fresh rfl sampleCalls).mpr
      ⟨fun _ => rfl, fun _ => rfl, fun _ => rfl, fun _ => rfl, trivial⟩⟩

/-! ### Two runs that are not read -/

def sampleSettlement : ClientCommand :=
  .settle (.string (lit "UNKNOWN"))
    (recordOf [("reconciliationVersion", .string (lit "moe-claude-reconciliation/1")),
      ("reconciliationDigest", .string zeroDigest), ("outcomeClass", .string (lit "HONEST_UNKNOWN"))])
    (recordOf [("uncertaintyReason", .string (lit "no exit was observed")), ("uncertaintyDigest", .string zeroDigest)])
    (.string (lit "2024-01-01T00:00:02Z"))

def sampleCancelled : Records id := run (supervise sampleSha256) sampleRecords [.command .requestCancel]

def sampleUncertain : Records id :=
  run (supervise sampleSha256) sampleRecords
    [.command .claim, .command .arm, .activate sampleActivation, .consume (.string (lit "wrapper-1")), .command sampleSettlement]

theorem restart_strands_effects :
    sampleCancelled.intent.state = .CANCEL_REQUESTED ∧ sampleCancelled.attempt.state = .LAUNCH_REQUESTED
      ∧ OneWrapper sampleCancelled (boundFacts sampleCancelled)
      ∧ reconstructAfterRestart id sampleSha256 (restartRecords sampleCancelled (boundFacts sampleCancelled)).toValue
        = restartRefusal .DRAIN_ROW_NOT_ADMITTED "no row of the design 786/787 table admits this attempt/effect pair"
      ∧ sampleUncertain.intent.state = .UNKNOWN ∧ sampleUncertain.attempt.state = .RUNNING
      ∧ OneWrapper sampleUncertain (boundFacts sampleUncertain)
      ∧ reconstructAfterRestart id sampleSha256 (restartRecords sampleUncertain (boundFacts sampleUncertain)).toValue
        = restartRefusal .RESTART_RECORDS_INCOHERENT "an activation commit pairs an ACTIVE effect with a RUNNING attempt" := by
  have hruns : (sampleCancelled.intent.state = .CANCEL_REQUESTED ∧ sampleCancelled.attempt.state = .LAUNCH_REQUESTED
      ∧ reconstructAfterRestart id sampleSha256 (restartRecords sampleCancelled (boundFacts sampleCancelled)).toValue
        = restartRefusal .DRAIN_ROW_NOT_ADMITTED "no row of the design 786/787 table admits this attempt/effect pair")
      ∧ sampleUncertain.intent.state = .UNKNOWN ∧ sampleUncertain.attempt.state = .RUNNING
      ∧ reconstructAfterRestart id sampleSha256 (restartRecords sampleUncertain (boundFacts sampleUncertain)).toValue
        = restartRefusal .RESTART_RECORDS_INCOHERENT "an activation commit pairs an ACTIVE effect with a RUNNING attempt" := by
    decide +kernel
  obtain ⟨⟨hcancelled, hlaunching, hdrained⟩, huncertain, hrunning, hincoherent⟩ := hruns
  exact ⟨hcancelled, hlaunching, boundFacts_oneWrapper _, hdrained, huncertain, hrunning, boundFacts_oneWrapper _, hincoherent⟩

end MoeNG.Supervisor
