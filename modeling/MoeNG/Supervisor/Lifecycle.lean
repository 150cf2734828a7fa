import MoeNG.Supervisor.Effect

/-!
# The effect lifecycle (`packages/runner/src/supervisor/effect-lifecycle.ts`)
-/

namespace MoeNG.Supervisor
open MoeNG.Kernel

/-! ### The arc table (`effect-lifecycle.ts:57-67`) -/

structure AdmittedTransition where
  source : EffectState
  command : EffectCommand
  targets : List EffectState

def admittedEffectTransitions : List AdmittedTransition := [
  ⟨.PENDING, .claim, [.CLAIMED]⟩,
  ⟨.PENDING, .requestCancel, [.CANCEL_REQUESTED]⟩,
  ⟨.CLAIMED, .arm, [.ARMED]⟩,
  ⟨.CLAIMED, .requestCancel, [.CANCEL_REQUESTED]⟩,
  ⟨.ARMED, .activate, [.ACTIVE]⟩,
  ⟨.ARMED, .requestCancel, [.CANCEL_REQUESTED]⟩,
  ⟨.ACTIVE, .requestCancel, [.CANCEL_REQUESTED]⟩,
  ⟨.ACTIVE, .settle, [.SUCCEEDED, .FAILED, .UNKNOWN]⟩,
  ⟨.CANCEL_REQUESTED, .settle, [.CANCELLED, .UNKNOWN]⟩]

def preActivationStates : List EffectState := [.PENDING, .CLAIMED, .ARMED]

def admittedArc (source : EffectState) (command : EffectCommand) : Option AdmittedTransition :=
  admittedEffectTransitions.find? fun entry => entry.source = source ∧ entry.command = command

/-! ### Outcomes (`effect-lifecycle.ts:78-143`) -/

/-- `threw` is the `TypeError` of the canonical printer. -/
inductive LifecycleOutcome (nfc : JsString → JsString) where
  | transitioned (intent : EffectIntent nfc) (result : Option (EffectResult nfc))
  | mustDrain (intent : EffectIntent nfc)
  | refused (failure : SupervisorFailure)
  | threw
  deriving DecidableEq

def canonicalDigest (sha256 : List Byte → Digest) (value : Value) : Option Digest :=
  (canonicalJson value).map fun text => sha256 (utf8 text)

section Lifecycle
variable {nfc : JsString → JsString}

def lifecycleRefusal (code : SupervisorErrorCode) (layer : SupervisorLayer) (message : String)
    (state command : Option String) : LifecycleOutcome nfc :=
  .refused ⟨code, layer, message, ⟨state, command, none⟩⟩

def settlementDigestInput (settlement : SettlementEvidence nfc) (uncertainty : Option (UncertaintyEvidence nfc)) : Value :=
  recordOf [("settlement", settlement.toValue), ("uncertainty", orNull UncertaintyEvidence.toValue uncertainty)]

def transitioned (intent : EffectIntent nfc) (target : EffectState) (result : Option (EffectResult nfc)) :
    LifecycleOutcome nfc :=
  .transitioned { intent with state := target, version := intent.version + 1 } result

variable (sha256 : List Byte → Digest)

/-! ### Settlement (`effect-lifecycle.ts:145-191`) -/

def settleIntent (intent : EffectIntent nfc) (target : EffectState) (settlementValue uncertaintyValue : Value)
    (adoptedAt : Timestamp) : LifecycleOutcome nfc :=
  let no (code : SupervisorErrorCode) (message : String) : LifecycleOutcome nfc :=
    lifecycleRefusal code .LIFECYCLE message (some intent.state.text) (some "settle")
  match admittedArc intent.state .settle with
  | none => no .EFFECT_TRANSITION_NOT_ADMITTED (intent.state.text ++ " does not admit settle")
  | some arc =>
    if target ∉ arc.targets ∨ !isTerminalEffectState target then
      no .EFFECT_SETTLEMENT_TARGET_NOT_ADMITTED
        ("settling " ++ intent.state.text ++ " as " ++ target.text ++ " is not an admitted arc")
    else
      match parseSettlementEvidence nfc settlementValue with
      | none =>
        no .EFFECT_SETTLEMENT_EVIDENCE_INVALID "settlement requires a well-formed reconciliation reference"
      | some settlement =>
        -- `null` does not parse either
        let uncertainty := parseUncertaintyEvidence nfc uncertaintyValue
        if target = .UNKNOWN ∧ uncertainty = none then
          no .EFFECT_UNCERTAINTY_EVIDENCE_REQUIRED
            "an UNKNOWN settlement requires a well-formed uncertainty reference"
        else if target ≠ .UNKNOWN ∧ !isNull uncertaintyValue then
          no .EFFECT_UNCERTAINTY_EVIDENCE_UNEXPECTED
            ("a " ++ target.text ++ " settlement is proven, so it carries no uncertainty reference")
        else
          match canonicalDigest sha256 (settlementDigestInput settlement uncertainty) with
          | none => .threw
          | some digest =>
            transitioned intent target (some ⟨intent.intentId, target, settlement.outcomeClass, digest, adoptedAt⟩)

/-! ### Commands and tombstones (`effect-lifecycle.ts:193-262`) -/

def applyEffectCommand (intentValue commandValue : Value) : LifecycleOutcome nfc :=
  match parseEffectIntent nfc intentValue with
  | none => lifecycleRefusal .EFFECT_INTENT_MALFORMED .KERNEL "effect intent does not parse" none none
  | some intent =>
    match parseCommandInput commandValue with
    | none =>
      lifecycleRefusal .EFFECT_COMMAND_MALFORMED .KERNEL "effect command does not parse" (some intent.state.text) none
    | some command =>
      let no (code : SupervisorErrorCode) (message : String) : LifecycleOutcome nfc :=
        lifecycleRefusal code .LIFECYCLE message (some intent.state.text) (some command.kind.text)
      if intent.version ≥ maxSupervisorCount then
        no .EFFECT_COUNTER_EXHAUSTED "intent version counter is exhausted"
      else if isTerminalEffectState intent.state then
        no .EFFECT_TERMINAL_ABSORBED ("terminal " ++ intent.state.text ++ " absorbs " ++ command.kind.text)
      else if intent.state = .ACTIVE ∧ command.kind = .requestCancel then .mustDrain intent
      else
        match command with
        | .settle target settlement uncertainty adoptedAt =>
          settleIntent sha256 intent target settlement uncertainty adoptedAt
        | .simple kind =>
          match (admittedArc intent.state kind).bind fun arc => arc.targets.head? with
          | none => no .EFFECT_TRANSITION_NOT_ADMITTED (intent.state.text ++ " does not admit " ++ kind.text)
          | some target => transitioned intent target none

def applyEffectTombstone (intentValue tombstoneValue : Value) : LifecycleOutcome nfc :=
  match parseEffectIntent nfc intentValue with
  | none => lifecycleRefusal .EFFECT_INTENT_MALFORMED .KERNEL "effect intent does not parse" none none
  | some intent =>
    match parseEffectTombstone nfc tombstoneValue with
    | none =>
      lifecycleRefusal .EFFECT_TOMBSTONE_MALFORMED .KERNEL "effect tombstone does not parse" (some intent.state.text) none
    | some tombstone =>
      let no (code : SupervisorErrorCode) (message : String) : LifecycleOutcome nfc :=
        lifecycleRefusal code .LIFECYCLE message (some intent.state.text) (some "tombstone")
      if intent.version ≥ maxSupervisorCount then
        no .EFFECT_COUNTER_EXHAUSTED "intent version counter is exhausted"
      else if intent.state ∉ preActivationStates ∨ tombstone.intentId ≠ intent.intentId then
        no .EFFECT_TOMBSTONE_DOES_NOT_DOMINATE
          ("a tombstone does not dominate " ++ intent.state.text ++ " for this intent")
      else
        match canonicalDigest sha256 (recordOf [("tombstone", tombstone.toValue)]) with
        | none => .threw
        | some digest =>
          transitioned intent .CANCELLED
            (some ⟨intent.intentId, .CANCELLED, tombstone.reason, digest, tombstone.terminalizedAt⟩)

/-! ### What a transition is -/

def admits (source : EffectState) (command : EffectCommand) (target : EffectState) : Bool :=
  (admittedArc source command).any fun arc => target ∈ arc.targets

/-- What holds of every arc of the table holds of every admitted step. -/
theorem admits_table (P : EffectState → EffectCommand → EffectState → Prop)
    (hP : ∀ arc ∈ admittedEffectTransitions, ∀ target ∈ arc.targets, P arc.source arc.command target)
    (source : EffectState) (command : EffectCommand) (target : EffectState) (h : admits source command target = true) :
    P source command target := by
  obtain ⟨arc, harc, htarget⟩ := (Option.any_eq_true _ _).mp h
  have hkeys : arc.source = source ∧ arc.command = command := by simpa using List.find?_some harc
  have hmem := hP arc (List.mem_of_find?_eq_some harc) target (by simpa using htarget)
  rw [hkeys.1, hkeys.2] at hmem
  exact hmem

theorem settleIntent_transitioned (intent next : EffectIntent nfc) (target : EffectState) (settlement uncertainty : Value)
    (adoptedAt : Timestamp) (result : Option (EffectResult nfc))
    (h : settleIntent sha256 intent target settlement uncertainty adoptedAt = .transitioned next result) :
    admits intent.state .settle target = true ∧ next = { intent with state := target, version := intent.version + 1 } := by
  unfold settleIntent at h
  split at h
  · cases h
  rename_i arc harc
  split at h
  · cases h
  rename_i htarget
  split at h
  · cases h
  dsimp only at h
  split at h
  · cases h
  split at h
  · cases h
  split at h
  · cases h
  injection h with hnext
  push Not at htarget
  refine ⟨?_, hnext.symm⟩
  simp [admits, harc, htarget.1]

/-- The one way a command moves an intent. -/
theorem applyEffectCommand_transitioned (intentValue commandValue : Value) (next : EffectIntent nfc)
    (result : Option (EffectResult nfc))
    (h : applyEffectCommand sha256 intentValue commandValue = .transitioned next result) :
    ∃ intent command target, parseEffectIntent nfc intentValue = some intent
      ∧ parseCommandInput commandValue = some command ∧ intent.version < maxSupervisorCount
      ∧ admits intent.state command.kind target = true ∧ ¬ (intent.state = .ACTIVE ∧ command.kind = .requestCancel)
      ∧ next = { intent with state := target, version := intent.version + 1 }
      ∧ ∀ asked settlement uncertainty adoptedAt, command = .settle asked settlement uncertainty adoptedAt → target = asked := by
  unfold applyEffectCommand at h
  split at h
  · cases h
  rename_i intent hintent
  split at h
  · cases h
  rename_i command hcommand
  dsimp only at h
  split at h
  · cases h
  rename_i hversion
  split at h
  · cases h
  split at h
  · cases h
  rename_i hdrain
  have hbelow : intent.version < maxSupervisorCount := by omega
  split at h
  · rename_i target settlement uncertainty adoptedAt
    obtain ⟨hadmits, hnext⟩ := settleIntent_transitioned sha256 _ _ _ _ _ _ _ h
    exact ⟨intent, _, target, hintent, hcommand, hbelow, hadmits, hdrain, hnext,
      fun _ _ _ _ h => (EffectCommandInput.settle.inj h).1⟩
  · rename_i kind
    split at h
    · cases h
    rename_i target htarget
    injection h with hnext
    obtain ⟨arc, harc, hhead⟩ := Option.bind_eq_some_iff.mp htarget
    refine ⟨intent, _, target, hintent, hcommand, hbelow, ?_, hdrain, hnext.symm, fun _ _ _ _ h => by cases h⟩
    have hmem : target ∈ arc.targets := List.mem_of_mem_head? (by simp [hhead])
    simp [admits, EffectCommandInput.kind, harc, hmem]

theorem applyEffectTombstone_transitioned (intentValue tombstoneValue : Value) (next : EffectIntent nfc)
    (result : Option (EffectResult nfc))
    (h : applyEffectTombstone sha256 intentValue tombstoneValue = .transitioned next result) :
    ∃ intent, parseEffectIntent nfc intentValue = some intent ∧ intent.version < maxSupervisorCount
      ∧ intent.state ∈ preActivationStates
      ∧ next = { intent with state := .CANCELLED, version := intent.version + 1 } := by
  unfold applyEffectTombstone at h
  split at h
  · cases h
  rename_i intent hintent
  split at h
  · cases h
  dsimp only at h
  split at h
  · cases h
  rename_i hversion
  split at h
  · cases h
  rename_i hdominates
  split at h
  · cases h
  injection h with hnext
  push Not at hdominates
  exact ⟨intent, hintent, by omega, hdominates.1, hnext.symm⟩

end Lifecycle

end MoeNG.Supervisor
