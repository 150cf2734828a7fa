import MoeNG.Supervisor.Activation

/-!
# Draining (`drain-table.ts`, `drain-disposition.ts`, `drain-reconciliation.ts`)
-/

namespace MoeNG.Supervisor
open MoeNG.Kernel MoeNG.Lib
open MoeNG.Authority (DrainReason drainReasons drainReasonRank)

/-! ### The closed table (`drain-table.ts:20-210`) -/

inductive DrainTerminalTarget where
  | CANCELLED
  | SUPERSEDED
  | RELEASED
  | SUCCEEDED
  deriving DecidableEq

def DrainTerminalTarget.text : DrainTerminalTarget → String
  | CANCELLED => "CANCELLED"
  | SUPERSEDED => "SUPERSEDED"
  | RELEASED => "RELEASED"
  | SUCCEEDED => "SUCCEEDED"

def drainTerminalTargets : List DrainTerminalTarget := [.CANCELLED, .SUPERSEDED, .RELEASED, .SUCCEEDED]

def drainTargetOf : DrainReason → DrainTerminalTarget
  | .URGENT_REVOKE => .CANCELLED
  | .GRAPH_REMOVE_OR_SUPERSESSION => .SUPERSEDED
  | .GOAL_CANCEL => .CANCELLED
  | .WORK_CANCEL => .CANCELLED
  | .DEPENDENCY_INVALIDATED => .SUPERSEDED
  | .WORK_RELEASE_OR_PAUSE => .RELEASED
  | .SUBMISSION_FINALIZE => .SUCCEEDED

inductive ResourceFact where
  | PROVEN_RELEASED
  | ACTIVE
  | UNKNOWN
  deriving DecidableEq

def ResourceFact.text : ResourceFact → String
  | PROVEN_RELEASED => "PROVEN_RELEASED"
  | ACTIVE => "ACTIVE"
  | UNKNOWN => "UNKNOWN"

def resourceFacts : List ResourceFact := [.PROVEN_RELEASED, .ACTIVE, .UNKNOWN]

inductive DrainAttemptState where
  | ABSENT
  | LEASED
  | LAUNCH_REQUESTED
  | RUNNING
  | DRAINING
  | TERMINAL
  deriving DecidableEq

def DrainAttemptState.text : DrainAttemptState → String
  | ABSENT => "ABSENT"
  | LEASED => "LEASED"
  | LAUNCH_REQUESTED => "LAUNCH_REQUESTED"
  | RUNNING => "RUNNING"
  | DRAINING => "DRAINING"
  | TERMINAL => "TERMINAL"

def drainAttemptStates : List DrainAttemptState := [.ABSENT, .LEASED, .LAUNCH_REQUESTED, .RUNNING, .DRAINING, .TERMINAL]

def AttemptSliceState.drain : AttemptSliceState → DrainAttemptState
  | LAUNCH_REQUESTED => .LAUNCH_REQUESTED
  | RUNNING => .RUNNING

inductive DrainOutcomeKind where
  | TOMBSTONED
  | TERMINALIZED
  | DRAINING
  | ATOMIC_ACTIVATION
  | RECONCILE_ONLY
  deriving DecidableEq

structure DrainRow where
  rowId : String
  attemptStates : List DrainAttemptState
  effectStates : List EffectState
  resourceFacts : List ResourceFact
  activationRequested : Bool
  outcomeKind : DrainOutcomeKind
  releasesProviderSlot : Bool
  retainsCapacityHold : Bool
  deriving DecidableEq

def drainTableRows : List DrainRow := [
  ⟨"R1", [.ABSENT], [.PENDING, .CLAIMED, .ARMED], [.PROVEN_RELEASED, .ACTIVE, .UNKNOWN], false, .TOMBSTONED, false, false⟩,
  ⟨"R2", [.LEASED, .LAUNCH_REQUESTED], [.PENDING, .CLAIMED, .ARMED], [.PROVEN_RELEASED], false, .TERMINALIZED, true, false⟩,
  ⟨"R3", [.LEASED, .LAUNCH_REQUESTED], [.PENDING, .CLAIMED, .ARMED], [.ACTIVE, .UNKNOWN], false, .DRAINING, true, true⟩,
  ⟨"R4", [.LAUNCH_REQUESTED], [.ARMED], [.PROVEN_RELEASED, .ACTIVE, .UNKNOWN], true, .ATOMIC_ACTIVATION, false, true⟩,
  ⟨"R5", [.RUNNING, .DRAINING], [.ACTIVE, .CANCEL_REQUESTED, .UNKNOWN], [.PROVEN_RELEASED, .ACTIVE, .UNKNOWN], false, .DRAINING,
    false, true⟩,
  ⟨"R6", [.TERMINAL], [.PENDING, .CLAIMED, .ARMED, .ACTIVE, .CANCEL_REQUESTED, .UNKNOWN], [.PROVEN_RELEASED, .ACTIVE, .UNKNOWN],
    false, .RECONCILE_ONLY, false, false⟩]

/-! ### Dispositions (`drain-disposition.ts:24-68`) -/

structure DrainDisposition where
  reasons : List DrainReason
  strongestReason : DrainReason
  terminalTarget : DrainTerminalTarget
  nonempty : reasons ≠ []
  bounded : reasons.length ≤ drainReasons.length
  deriving DecidableEq

def dispositionKeys : List String := ["reasons", "strongestReason", "terminalTarget"]

def DrainDisposition.toValue (disposition : DrainDisposition) : Value := recordOf [
  ("reasons", .array (disposition.reasons.map fun reason => .string (lit reason.text))),
  ("strongestReason", .string (lit disposition.strongestReason.text)),
  ("terminalTarget", .string (lit disposition.terminalTarget.text))]

def parseDrainDisposition (value : Value) : Option DrainDisposition := do
  let parsed ← exactRecord value dispositionKeys
  let entries ← readList (parsed.field "reasons") drainReasons.length
  let reasons ← entries.mapM (oneOf DrainReason.text drainReasons)
  let strongestReason ← oneOf DrainReason.text drainReasons (parsed.field "strongestReason")
  let terminalTarget ← oneOf DrainTerminalTarget.text drainTerminalTargets (parsed.field "terminalTarget")
  if h : reasons ≠ [] ∧ reasons.length ≤ drainReasons.length then
    pure ⟨reasons, strongestReason, terminalTarget, h.1, h.2⟩
  else none

def isMonotonicDisposition (disposition : DrainDisposition) : Bool :=
  disposition.strongestReason ∈ disposition.reasons
    && (disposition.reasons.all fun reason => drainReasonRank reason ≤ drainReasonRank disposition.strongestReason)
    && disposition.terminalTarget = drainTargetOf disposition.strongestReason

abbrev MonotonicDisposition := { disposition : DrainDisposition // isMonotonicDisposition disposition = true }

def monotonicDispositionOf (value : Value) : Option MonotonicDisposition := do
  let disposition ← parseDrainDisposition value
  if h : isMonotonicDisposition disposition = true then some ⟨disposition, h⟩ else none

/-! ### Reconciliation references (`process-observation.ts:53-61`) -/

def claudeReconciliationVersion : JsString := lit "moe-claude-reconciliation/1"

def claudeReconciledOutcomes : List JsString :=
  [lit "CANCELLED_CLEAN", lit "CANCELLED_UNKNOWN_TAIL", lit "COMPLETED_BEFORE_CANCEL", lit "CRASHED", lit "HONEST_UNKNOWN",
    lit "PROVEN_RESULT"]

def isReconciliationReference {nfc : JsString → JsString} (evidence : SettlementEvidence nfc) : Bool :=
  evidence.reconciliationVersion.val = claudeReconciliationVersion
    && evidence.outcomeClass.val ∈ claudeReconciledOutcomes

abbrev ReconciliationReference (nfc : JsString → JsString) :=
  { evidence : SettlementEvidence nfc // isReconciliationReference evidence = true }

def parseReconciliationReference (nfc : JsString → JsString) (value : Value) : Option (ReconciliationReference nfc) := do
  let evidence ← parseSettlementEvidence nfc value
  if h : isReconciliationReference evidence = true then some ⟨evidence, h⟩ else none

/-! ### The row of an input (`drain-reconciliation.ts:38-227`) -/

inductive DrainOutcome (nfc : JsString → JsString) where
  | tombstoned (row : DrainRow)
  | terminalized (row : DrainRow) (strongestReason : DrainReason) (terminalTarget : DrainTerminalTarget)
      (safeHandoff : Option (Ref nfc))
  | draining (row : DrainRow) (disposition : MonotonicDisposition) (capacityHeld nodeRunHeld providerSlotReleased : Bool)
      (cancelSuccessor : Option EffectState)
  | atomicActivation (row : DrainRow)
  | reconcileOnly (row : DrainRow)
  | refused (failure : SupervisorFailure)
  deriving DecidableEq

section Drain
variable {nfc : JsString → JsString}

def drainCommand : String := "drain.resolveRow"

def drainRefusal (code : SupervisorErrorCode) (message : String) : DrainOutcome nfc :=
  .refused ⟨code, .DRAIN, message, ⟨none, some drainCommand, none⟩⟩

def notAdmitted (message : String) : DrainOutcome nfc := drainRefusal .DRAIN_ROW_NOT_ADMITTED message

/-- What `resolveDrainRow` reads, once it has parsed. -/
structure ParsedDrain (nfc : JsString → JsString) where
  attemptState : DrainAttemptState
  effectState : EffectState
  resourceFact : ResourceFact
  activationRequested : Bool
  disposition : MonotonicDisposition
  reconciliation : Option (ReconciliationReference nfc)
  safeHandoff : Option (Ref nfc)

/-- `null` stays `null`; anything present has to parse. -/
def optional {A : Type} (parse : Value → Option A) (value : Value) : Option (Option A) :=
  if isNull value then some none else (parse value).map some

def drainKeys : List String :=
  ["attemptState", "effectState", "resourceFact", "activationRequested", "disposition", "reconciliation", "safeHandoff"]

def ParsedDrain.toValue (input : ParsedDrain nfc) : Value := recordOf [
  ("attemptState", .string (lit input.attemptState.text)), ("effectState", .string (lit input.effectState.text)),
  ("resourceFact", .string (lit input.resourceFact.text)), ("activationRequested", .bool input.activationRequested),
  ("disposition", input.disposition.val.toValue),
  ("reconciliation", orNull (fun reference => reference.val.toValue) input.reconciliation),
  ("safeHandoff", orNull (fun handoff => .string handoff.val) input.safeHandoff)]

variable (nfc) in
def parseDrain (value : Value) : Except (DrainOutcome nfc) (ParsedDrain nfc) :=
  match exactRecord value drainKeys with
  | none => .error (notAdmitted "the drain input does not name a row of the closed table")
  | some raw =>
    match oneOf DrainAttemptState.text drainAttemptStates (raw.field "attemptState"),
      oneOf EffectState.text effectStates (raw.field "effectState"),
      oneOf ResourceFact.text resourceFacts (raw.field "resourceFact"), boolOf (raw.field "activationRequested") with
    | some attemptState, some effectState, some resourceFact, some activationRequested =>
      match optional (refOf nfc) (raw.field "safeHandoff") with
      | none => .error (notAdmitted "the safe handoff reference does not parse")
      | some safeHandoff =>
        match optional (parseReconciliationReference nfc) (raw.field "reconciliation") with
        | none => .error (notAdmitted "the bound reconciliation reference does not parse")
        | some reconciliation =>
          match monotonicDispositionOf (raw.field "disposition") with
          | none =>
            .error (drainRefusal .DRAIN_DISPOSITION_NOT_MONOTONIC "the drain disposition is not verifiably monotonic")
          | some disposition =>
            .ok ⟨attemptState, effectState, resourceFact, activationRequested, disposition, reconciliation, safeHandoff⟩
    | _, _, _, _ => .error (notAdmitted "the drain input names a state the closed table does not declare")

def matchRow (input : ParsedDrain nfc) : Option DrainRow :=
  drainTableRows.find? fun row => row.activationRequested = input.activationRequested
    && input.attemptState ∈ row.attemptStates && input.effectState ∈ row.effectStates
    && input.resourceFact ∈ row.resourceFacts

def cancelSuccessorFor (effectState : EffectState) : Option EffectState :=
  (admittedArc effectState .requestCancel).bind fun arc => arc.targets.head?

def draining (row : DrainRow) (input : ParsedDrain nfc) : DrainOutcome nfc :=
  .draining row input.disposition row.retainsCapacityHold row.retainsCapacityHold row.releasesProviderSlot
    (cancelSuccessorFor input.effectState)

-- every declared reason has a target
def terminalize (row : DrainRow) (input : ParsedDrain nfc) : DrainOutcome nfc :=
  let strongestReason := input.disposition.val.strongestReason
  let terminalTarget := drainTargetOf strongestReason
  if terminalTarget = .RELEASED ∧ input.safeHandoff = none then
    drainRefusal .RESTART_SAFE_HANDOFF_ABSENT "a RELEASED terminal requires the exact safe handoff it hands to a successor"
  else .terminalized row strongestReason terminalTarget input.safeHandoff

def resolveParsedRow (input : ParsedDrain nfc) : DrainOutcome nfc :=
  match matchRow input with
  | none => notAdmitted "no row of the design 786/787 table admits this attempt/effect pair"
  | some row =>
    match row.outcomeKind with
    | .TOMBSTONED => .tombstoned row
    | .ATOMIC_ACTIVATION => .atomicActivation row
    | .RECONCILE_ONLY => .reconcileOnly row
    | .TERMINALIZED => terminalize row input
    | .DRAINING =>
      if input.resourceFact ≠ .PROVEN_RELEASED then draining row input
      else if input.reconciliation = none then
        drainRefusal .DRAIN_RESOURCE_UNRECONCILED
          "resources read as released but no adapter reconciliation accounts for the effect"
      else terminalize row input

variable (nfc) in
def resolveDrainRow (inputValue : Value) : DrainOutcome nfc :=
  match parseDrain nfc inputValue with
  | .error outcome => outcome
  | .ok parsed => resolveParsedRow parsed

/-! ### An input is read back as it was written -/

theorem oneOf_drainReason (r : DrainReason) : oneOf DrainReason.text drainReasons (.string (lit r.text)) = some r := by
  cases r <;> decide

theorem oneOf_drainTarget (t : DrainTerminalTarget) :
    oneOf DrainTerminalTarget.text drainTerminalTargets (.string (lit t.text)) = some t := by
  cases t <;> decide

theorem oneOf_resourceFact (f : ResourceFact) : oneOf ResourceFact.text resourceFacts (.string (lit f.text)) = some f := by
  cases f <;> decide

theorem oneOf_drainAttemptState (s : DrainAttemptState) :
    oneOf DrainAttemptState.text drainAttemptStates (.string (lit s.text)) = some s := by
  cases s <;> decide

theorem optional_orNull {A : Type} (toValue : A → Value) (parse : Value → Option A) (hnull : ∀ a, isNull (toValue a) = false)
    (x : Option A) (hparse : ∀ a ∈ x, parse (toValue a) = some a) : optional parse (orNull toValue x) = some x := by
  cases x with
  | none => rfl
  | some a => simp [optional, orNull, hnull, hparse a rfl]

theorem parseSettlementEvidence_toValue (evidence : SettlementEvidence nfc) :
    parseSettlementEvidence nfc evidence.toValue = some evidence := by
  have hread : exactRecord evidence.toValue settlementKeys = some _ :=
    exactRecord_recordOf _ (show (settlementKeys.map lit).Nodup by decide)
  unfold parseSettlementEvidence
  rw [hread]
  simp only [Fields.field_cons, String.reduceEq, if_true, if_false, Option.bind_eq_bind, Option.bind_some, refOf_string,
    digestOf_string, Option.pure_def]

theorem parseReconciliationReference_toValue (reference : ReconciliationReference nfc) :
    parseReconciliationReference nfc reference.val.toValue = some reference := by
  unfold parseReconciliationReference
  rw [parseSettlementEvidence_toValue]
  exact dif_pos reference.2

theorem parseDrainDisposition_toValue (disposition : DrainDisposition) :
    parseDrainDisposition disposition.toValue = some disposition := by
  have hread : exactRecord disposition.toValue dispositionKeys = some _ :=
    exactRecord_recordOf _ (show (dispositionKeys.map lit).Nodup by decide)
  have hlist : readList (.array (disposition.reasons.map fun reason => .string (lit reason.text))) drainReasons.length
      = some (disposition.reasons.map fun reason => .string (lit reason.text)) := by
    have hbounded := disposition.bounded
    simp [readList, hbounded]
  have hreasons : (disposition.reasons.map fun reason => Value.string (lit reason.text)).mapM
    (oneOf DrainReason.text drainReasons)
      = some disposition.reasons := by
    rw [List.mapM_map]
    exact mapM_eq_some _ _ fun reason _ => oneOf_drainReason reason
  unfold parseDrainDisposition
  rw [hread]
  simp only [Fields.field_cons, String.reduceEq, if_true, if_false, Option.bind_eq_bind, Option.bind_some, hlist, hreasons,
    oneOf_drainReason, oneOf_drainTarget]
  exact dif_pos ⟨disposition.nonempty, disposition.bounded⟩

theorem monotonicDispositionOf_toValue (disposition : MonotonicDisposition) :
    monotonicDispositionOf disposition.val.toValue = some disposition := by
  unfold monotonicDispositionOf
  rw [parseDrainDisposition_toValue]
  exact dif_pos disposition.2

theorem resolveDrainRow_toValue (input : ParsedDrain nfc) : resolveDrainRow nfc input.toValue = resolveParsedRow input := by
  have hread : exactRecord input.toValue drainKeys = some _ :=
    exactRecord_recordOf _ (show (drainKeys.map lit).Nodup by decide)
  have hhandoff := optional_orNull (fun handoff : Ref nfc => Value.string handoff.val) (refOf nfc) (fun _ => rfl)
    input.safeHandoff fun handoff _ => refOf_string handoff
  have hreference := optional_orNull (fun reference : ReconciliationReference nfc => reference.val.toValue)
    (parseReconciliationReference nfc) (fun _ => rfl) input.reconciliation
    fun reference _ => parseReconciliationReference_toValue reference
  unfold resolveDrainRow parseDrain
  rw [hread]
  simp only [Fields.field_cons, String.reduceEq, if_true, if_false, oneOf_drainAttemptState, oneOf_effectState,
    oneOf_resourceFact,
    boolOf_bool, hhandoff, hreference, monotonicDispositionOf_toValue]

end Drain

end MoeNG.Supervisor
