import MoeNG.Core.ExpansionHoldSpec

/-!
# Runs of the expansion hold reducer

A stored state is the state of a valid hold. A call keeps it, ends it, or, when
it delivers the creation again, puts the opening state back.
-/

namespace MoeNG.Core.Expansion
open MoeNG.Kernel MoeNG.Lib

/-! ### One call -/

/-- The call is the creation under a recorded id, with the recorded text. -/
def redeliversCreation (state : ExpansionPlanningHoldState) (call : Value) : Bool :=
  match parseCommand call with
  | some (.create command) => (replayOf state (.create command)).any fun replay => same (.record replay) (.record command)
  | _ => false

theorem state_creationReceipt (hold : Hold) : hold.state.get "creationReceipt" = receipt hold.creation := by
  cases hold with
  | active creation => exact (opening_get creation).1
  | terminal creation transition =>
    exact (ended_get creation _ transition _ (by decide) (by decide) (by decide)).trans (opening_get creation).1

theorem receiptCommand_state (hold : Hold) : receiptCommand (hold.state.get "creationReceipt") = some hold.creation := by
  rw [state_creationReceipt, receiptCommand_receipt]

theorem receipts_active (creation : Obj) : receipts (opening creation) = [creation] := by
  obtain ⟨hreceipt, -, -, hterminal, -⟩ := opening_get creation
  unfold receipts
  rw [hreceipt, hterminal, receiptCommand_receipt]
  rfl

/-- On the state of a hold the reducer answers replays first. -/
theorem reduce_hold (hold : Hold) (h : hold.Valid) (call : Value) (command : ExpansionPlanningHoldCommand)
    (hcall : parseCommand call = some command) :
    reduceExpansionPlanningHold (some (.record hold.state)) call =
      match replayOf hold.state command with
      | some replay => replayed hold.state replay command
      | none => transitioned hold.state command := by
  cases hreplay : replayOf hold.state command with
  | none => simp only [reduceExpansionPlanningHold, hcall, Option.bind_some, h.reparsed, hreplay]
  | some replay => simp only [reduceExpansionPlanningHold, hcall, Option.bind_some, h.reparsed, hreplay]

theorem reduce_unparsed (stored : Option Value) (call : Value) (hcall : parseCommand call = none) :
    ∃ state, reduceExpansionPlanningHold stored call = refuse .EXPANSION_HOLD_INPUT_INVALID state := by
  unfold reduceExpansionPlanningHold
  rw [hcall]
  exact ⟨_, rfl⟩

/-- A recorded id: the text decides, and an accepted creation answers the opening state. -/
theorem replayed_hold (hold : Hold) (replay : Obj) (command : ExpansionPlanningHoldCommand) :
    replayed hold.state replay command =
      if same (.record replay) (.record command.properties) then
        match command with
        | .create _ => created hold.creation
        | .transition transition => terminated hold.state hold.state transition
      else refuse .EXPANSION_HOLD_IDEMPOTENCY_CONFLICT (some hold.state) := by
  unfold replayed
  rw [receiptCommand_state]
  cases same (.record replay) (.record command.properties) <;> cases command <;> rfl

/-- A new id ends an active hold or is refused. -/
theorem transitioned_accepted (hold : Hold) (hvalid : hold.Valid) (command : ExpansionPlanningHoldCommand)
    (event : ExpansionPlanningHoldEvent)
    (next : ExpansionPlanningHoldState) (hparsed : Parsed command)
    (hnew : replayOf hold.state command = none) (h : transitioned hold.state command = .accepted event next) :
    ∃ creation transition, hold = .active creation ∧ command = .transition transition
      ∧ Ended creation transition ∧ next = (Hold.terminal creation transition).state := by
  unfold transitioned at h
  split at h
  · cases h
  rename_i hversion
  split at h
  · cases h
  split at h
  · cases h
  cases command with
  | create command => cases h
  | transition transition =>
    dsimp only at h
    split at h
    · cases h
    rename_i hactive
    split at h
    · cases h
    rename_i hbound
    split at h
    · cases h
    rename_i hproven
    simp only [Bool.or_eq_true, Bool.not_eq_true', not_or, Bool.not_eq_false] at hactive hbound hproven hversion
    cases hold with
    | terminal creation last =>
      unfold Hold.state at hactive
      rw [ended_lifecycle, (causeTarget_target last hvalid.2.target).2] at hactive
      cases hactive.1
    | active creation =>
      obtain ⟨-, -, -, -, hone⟩ := opening_get creation
      have hother : strictEq (creation.get "commandId") (transition.get "commandId") = false := by
        unfold replayOf Hold.state at hnew
        rw [receipts_active] at hnew
        exact Bool.eq_false_iff.mpr (List.find?_eq_none.mp hnew creation (List.mem_singleton_self creation))
      unfold Hold.state at hversion
      rw [hone] at hversion
      cases h
      exact ⟨creation, transition, rfl, rfl, ⟨hparsed, hversion, hother, hactive.2, hbound, hproven⟩, rfl⟩

theorem opened_accepted (command : ExpansionPlanningHoldCommand) (event : ExpansionPlanningHoldEvent)
    (next : ExpansionPlanningHoldState) (hparsed : Parsed command) (h : opened command = .accepted event next) :
    ∃ creation, command = .create creation ∧ Opened creation ∧ next = (Hold.active creation).state := by
  unfold opened at h
  split at h
  · cases h
  rename_i hfirst
  cases command with
  | transition transition => cases h
  | create creation =>
    dsimp only at h
    split at h
    · cases h
    rename_i hsafe
    simp only [Bool.not_eq_true', Bool.not_eq_false] at hfirst hsafe
    cases h
    exact ⟨creation, rfl, ⟨hparsed, hfirst, hsafe⟩, rfl⟩

/-- All that one call can do to a stored hold. -/
inductive Moved (hold : Hold) (call : Value) : Hold → Prop where
  | kept : Moved hold call hold
  | reopened (h : redeliversCreation hold.state call = true) : Moved hold call (.active hold.creation)
  | closed (creation transition : Obj) (h : hold = .active creation) (hended : Ended creation transition) :
    Moved hold call (.terminal creation transition)

theorem holdStep_moved (hold : Hold) (h : hold.Valid) (call : Value) :
    ∃ next, holdStep (some hold.state) call = some next.state ∧ next.Valid ∧ Moved hold call next := by
  cases hcall : parseCommand call with
  | none =>
    obtain ⟨state, hreduce⟩ := reduce_unparsed (some (.record hold.state)) call hcall
    refine ⟨hold, ?_, h, .kept⟩
    simp only [holdStep, Option.map_some, hreduce, refuse]
  | some command =>
    have hreduce := reduce_hold hold h call command hcall
    cases hreplay : replayOf hold.state command with
    | some replay =>
      simp only [hreplay, replayed_hold] at hreduce
      cases hsame : same (.record replay) (.record command.properties) with
      | false =>
        refine ⟨hold, ?_, h, .kept⟩
        simp only [holdStep, Option.map_some, hreduce, hsame, refuse]
        rfl
      | true =>
        cases command with
        | create creation =>
          refine ⟨.active hold.creation, ?_, h.opened, .reopened ?_⟩
          · simp only [holdStep, Option.map_some, hreduce, hsame]
            rfl
          · simp only [redeliversCreation, hcall, hreplay, Option.any_some]
            exact hsame
        | transition transition =>
          refine ⟨hold, ?_, h, .kept⟩
          simp only [holdStep, Option.map_some, hreduce, hsame]
          rfl
    | none =>
      simp only [hreplay] at hreduce
      cases hresult : transitioned hold.state command with
      | refused code layer state =>
        refine ⟨hold, ?_, h, .kept⟩
        simp only [holdStep, Option.map_some, hreduce, hresult]
      | accepted event next =>
        obtain ⟨creation, transition, rfl, rfl, hended, rfl⟩ :=
          transitioned_accepted hold h command event next (parseCommand_parsed call command hcall) hreplay hresult
        refine ⟨.terminal creation transition, ?_, ⟨h, hended⟩, .closed creation transition rfl hended⟩
        simp only [holdStep, Option.map_some, hreduce, hresult]

theorem holdStep_none (call : Value) :
    holdStep none call = none ∨ ∃ hold : Hold, hold.Valid ∧ holdStep none call = some hold.state := by
  cases hcall : parseCommand call with
  | none =>
    obtain ⟨state, hreduce⟩ := reduce_unparsed none call hcall
    left
    simp only [holdStep, Option.map_none, hreduce, refuse]
  | some command =>
    have hreduce : reduceExpansionPlanningHold none call = opened command := by
      unfold reduceExpansionPlanningHold
      rw [hcall]
    cases hresult : opened command with
    | refused code layer state =>
      left
      simp only [holdStep, Option.map_none, hreduce, hresult]
    | accepted event next =>
      obtain ⟨creation, rfl, hopened, rfl⟩ :=
        opened_accepted command event next (parseCommand_parsed call command hcall) hresult
      refine .inr ⟨.active creation, hopened, ?_⟩
      simp only [holdStep, Option.map_none, hreduce, hresult]

/-! ### Runs -/

/-- What is stored is nothing or the state of a valid hold. -/
def Stored (stored : Option ExpansionPlanningHoldState) : Prop :=
  ∀ state, stored = some state → ∃ hold : Hold, hold.Valid ∧ state = hold.state

theorem holdStep_stored (stored : Option ExpansionPlanningHoldState) (call : Value) (h : Stored stored) :
    Stored (holdStep stored call) := by
  intro state hstate
  cases stored with
  | none =>
    obtain hnone | ⟨hold, hvalid, hsome⟩ := holdStep_none call
    · rw [hnone] at hstate
      cases hstate
    · rw [hsome] at hstate
      exact ⟨hold, hvalid, (Option.some.inj hstate).symm⟩
  | some before =>
    obtain ⟨hold, hvalid, rfl⟩ := h before rfl
    obtain ⟨next, hnext, hnextValid, -⟩ := holdStep_moved hold hvalid call
    rw [hnext] at hstate
    exact ⟨next, hnextValid, (Option.some.inj hstate).symm⟩

theorem run_stored (calls : List Value) : Stored (run holdStep none calls) :=
  run_invariant holdStep Stored holdStep_stored none nofun calls

def isTerminal (state : ExpansionPlanningHoldState) : Bool := !is (state.get "lifecycle") "ACTIVE"

theorem isTerminal_state (hold : Hold) (h : hold.Valid) :
    isTerminal hold.state = match hold with | .active _ => false | .terminal _ _ => true := by
  cases hold with
  | active creation =>
    unfold isTerminal Hold.state
    rw [(opening_get creation).2.2.1]
    rfl
  | terminal creation transition =>
    unfold isTerminal Hold.state
    rw [ended_lifecycle, (causeTarget_target transition h.2.target).2]
    rfl

def versionOf (state : ExpansionPlanningHoldState) : ℤ :=
  match state.get "version" with
  | .number (.integer n) => n
  | _ => 0

theorem versionOf_state (hold : Hold) : versionOf hold.state = match hold with | .active _ => 1 | .terminal _ _ => 2 := by
  cases hold with
  | active creation =>
    unfold versionOf Hold.state
    rw [(opening_get creation).2.2.2.2]
    rfl
  | terminal creation transition =>
    unfold versionOf Hold.state
    rw [ended_version]
    rfl

theorem Moved.creation_eq {hold next : Hold} {call : Value} (h : Moved hold call next) : next.creation = hold.creation := by
  cases h with
  | kept => rfl
  | reopened => rfl
  | closed creation transition hactive => rw [hactive]; rfl

/-- Apart from a redelivered creation, a terminal hold is kept and no version drops. -/
theorem Moved.settled {hold next : Hold} {call : Value} (h : Moved hold call next) (hvalid : hold.Valid)
    (hcall : isTerminal hold.state = true → redeliversCreation hold.state call = false) :
    versionOf hold.state ≤ versionOf next.state ∧ (isTerminal hold.state = true → next = hold) := by
  cases h with
  | kept => exact ⟨le_refl _, fun _ => rfl⟩
  | reopened hredelivers =>
    have hterminal := isTerminal_state hold hvalid
    cases hold with
    | active creation => exact ⟨le_refl _, fun _ => rfl⟩
    | terminal creation transition =>
      rw [hcall hterminal] at hredelivers
      cases hredelivers
  | closed creation transition hactive =>
    have hterminal := isTerminal_state hold hvalid
    subst hactive
    refine ⟨?_, fun h => absurd (hterminal ▸ h) nofun⟩
    rw [versionOf_state, versionOf_state]
    exact (by decide : (1 : ℤ) ≤ 2)

/-- No call of the run redelivers the creation to a terminal hold. -/
def NotReopened (stored : Option ExpansionPlanningHoldState) (calls : List Value) : Prop :=
  Along holdStep (fun s call => ∀ state, s = some state → isTerminal state = true → redeliversCreation state call = false)
    stored calls

theorem run_hold (calls : List Value) (hold : Hold) (h : hold.Valid) :
    ∃ last : Hold, run holdStep (some hold.state) calls = some last.state ∧ last.Valid ∧ last.creation = hold.creation := by
  induction calls generalizing hold with
  | nil => exact ⟨hold, rfl, h, rfl⟩
  | cons call rest ih =>
    obtain ⟨next, hnext, hvalid, hmoved⟩ := holdStep_moved hold h call
    obtain ⟨last, hlast, hlastValid, hcreation⟩ := ih next hvalid
    rw [run_cons, hnext]
    exact ⟨last, hlast, hlastValid, hcreation.trans hmoved.creation_eq⟩

theorem run_settled (calls : List Value) (hold : Hold) (h : hold.Valid) (hcalls : NotReopened (some hold.state) calls) :
    ∃ last : Hold, run holdStep (some hold.state) calls = some last.state ∧ versionOf hold.state ≤ versionOf last.state
      ∧ (isTerminal hold.state = true → last = hold) := by
  induction calls generalizing hold with
  | nil => exact ⟨hold, rfl, le_refl _, fun _ => rfl⟩
  | cons call rest ih =>
    obtain ⟨next, hnext, hvalid, hmoved⟩ := holdStep_moved hold h call
    obtain ⟨hversion, hkept⟩ := hmoved.settled h (hcalls.1 hold.state rfl)
    have hrest : NotReopened (some next.state) rest := hnext ▸ hcalls.2
    obtain ⟨last, hlast, hlastVersion, hlastKept⟩ := ih next hvalid hrest
    rw [run_cons, hnext]
    refine ⟨last, hlast, le_trans hversion hlastVersion, fun hterminal => ?_⟩
    obtain rfl := hkept hterminal
    exact hlastKept hterminal

/-- What holds of the stored hold after a run, and of what the reducer answers on it. -/
structure HoldLaw (calls : List Value) : Prop where
  reparsed : ∀ state, run holdStep none calls = some state → parseState (.record state) = some state
  version : ∀ state, run holdStep none calls = some state →
    state.get "version" = number (if isTerminal state then 2 else 1)
  creation : ∀ first later before, calls = first ++ later → run holdStep none first = some before →
    ∃ after, run holdStep none calls = some after ∧ after.get "creationReceipt" = before.get "creationReceipt"
  settled : ∀ first later before, calls = first ++ later → run holdStep none first = some before →
    NotReopened (some before) later →
      ∃ after, run holdStep none calls = some after ∧ versionOf before ≤ versionOf after
        ∧ (isTerminal before = true → after = before)
  terminal : ∀ state call, run holdStep none calls = some state → isTerminal state = true →
    redeliversCreation state call = false → holdStep (some state) call = some state
  reopened : ∀ state call, run holdStep none calls = some state → redeliversCreation state call = true →
    ∃ creation, receiptCommand (state.get "creationReceipt") = some creation
      ∧ reduceExpansionPlanningHold none (.record creation) = created creation
      ∧ reduceExpansionPlanningHold (some (.record state)) call = created creation
  replay : ∀ state call command recorded, run holdStep none calls = some state → parseCommand call = some command →
    replayOf state command = some recorded →
      if stringify (.record recorded) = stringify (.record command.properties) then
        ∃ event next, reduceExpansionPlanningHold (some (.record state)) call = .accepted event next
      else reduceExpansionPlanningHold (some (.record state)) call =
        refuse .EXPANSION_HOLD_IDEMPOTENCY_CONFLICT (some state)

theorem reduce_creation (creation : Obj) (h : Opened creation) :
    reduceExpansionPlanningHold none (.record creation) = created creation := by
  have hagain : parseCommand (.record creation) = some (.create creation) := h.parsed.again
  have hfirst : strictEq ((ExpansionPlanningHoldCommand.create creation).properties.get "expectedVersion") (number 0) = true :=
    h.first
  unfold reduceExpansionPlanningHold
  rw [hagain]
  dsimp only
  unfold opened
  simp only [hfirst, h.safe]
  rfl

theorem expansion_hold_run (calls : List Value) : HoldLaw calls := by
  refine ⟨?_, ?_, ?_, ?_, ?_, ?_, ?_⟩
  · intro state hstate
    obtain ⟨hold, hvalid, rfl⟩ := run_stored calls state hstate
    exact hvalid.reparsed
  · intro state hstate
    obtain ⟨hold, hvalid, rfl⟩ := run_stored calls state hstate
    have hterminal := isTerminal_state hold hvalid
    cases hold with
    | active creation =>
      rw [hterminal]
      exact (opening_get creation).2.2.2.2
    | terminal creation transition =>
      rw [hterminal]
      exact ended_version _ _ _
  · rintro first later before rfl hbefore
    obtain ⟨hold, hvalid, rfl⟩ := run_stored first before hbefore
    obtain ⟨last, hlast, -, hcreation⟩ := run_hold later hold hvalid
    refine ⟨last.state, ?_, ?_⟩
    · rw [run_append, hbefore, hlast]
    · rw [state_creationReceipt, state_creationReceipt, hcreation]
  · rintro first later before rfl hbefore hcalls
    obtain ⟨hold, hvalid, rfl⟩ := run_stored first before hbefore
    obtain ⟨last, hlast, hversion, hkept⟩ := run_settled later hold hvalid hcalls
    refine ⟨last.state, ?_, hversion, fun hterminal => ?_⟩
    · rw [run_append, hbefore, hlast]
    · rw [hkept hterminal]
  · intro state call hstate hterminal hcall
    obtain ⟨hold, hvalid, rfl⟩ := run_stored calls state hstate
    obtain ⟨next, hnext, -, hmoved⟩ := holdStep_moved hold hvalid call
    obtain ⟨-, hkept⟩ := hmoved.settled hvalid fun _ => hcall
    rw [hnext, hkept hterminal]
  · intro state call hstate hcall
    obtain ⟨hold, hvalid, rfl⟩ := run_stored calls state hstate
    refine ⟨hold.creation, receiptCommand_state hold, reduce_creation _ hvalid.opened, ?_⟩
    unfold redeliversCreation at hcall
    split at hcall
    · rename_i command hcommand
      obtain ⟨replay, hreplay, hsame⟩ := (Option.any_eq_true _ _).mp hcall
      rw [reduce_hold hold hvalid call _ hcommand, hreplay]
      dsimp only
      rw [replayed_hold]
      exact if_pos hsame
    · cases hcall
  · intro state call command recorded hstate hcommand hrecorded
    obtain ⟨hold, hvalid, rfl⟩ := run_stored calls state hstate
    rw [reduce_hold hold hvalid call _ hcommand, hrecorded]
    dsimp only
    rw [replayed_hold]
    split
    · rename_i htext
      have hsame : same (.record recorded) (.record command.properties) = true := decide_eq_true htext
      rw [if_pos hsame]
      cases command with
      | create command => exact ⟨_, _, rfl⟩
      | transition command => exact ⟨_, _, rfl⟩
    · rename_i htext
      have hsame : same (.record recorded) (.record command.properties) = false := decide_eq_false htext
      rw [if_neg (Bool.eq_false_iff.mp hsame)]

/-! ### A terminal hold reopened, and a replay refused -/

def string (s : String) : Value := .string (lit s)

def sampleHash (digit : String) : Value := .string (List.replicate 64 (lit digit)).flatten

def sampleHandoff : Value := .record (objectOf [("digest", sampleHash "b"), ("ref", string "handoff:worker")])

def sampleRelease : Value :=
  .record (objectOf
    [("attemptRef", string "attempt:released"), ("attemptState", string "RELEASED"),
      ("disposition", .record (objectOf
        [("resumable", .bool true), ("strongestReason", string "WORK_RELEASE_OR_PAUSE"),
          ("terminalTarget", string "RELEASED")])),
      ("effectsTerminal", .bool true), ("handoff", sampleHandoff), ("leaseRef", string "lease:released"),
      ("leaseState", string "RELEASED"), ("observationRef", string "observation:safe-boundary"),
      ("providerSlotRef", string "slot:released"), ("providerSlotState", string "RELEASED"),
      ("reason", string "WORK_RELEASE_OR_PAUSE"), ("receiptRef", string "receipt:release"),
      ("resourcesTerminal", .bool true), ("safeBoundaryObserved", .bool true),
      ("terminalEffectRefs", .array [string "effect:terminal"]),
      ("terminalResourceRefs", .array [string "resource:terminal"]), ("truthClass", string "DAEMON_VERIFIED")])

def sampleBinding : List (String × Value) :=
  [("generation", number 1), ("graphEpoch", number 7), ("holdId", string "hold:expansion:1"),
    ("parentNodeRef", string "node:parent"), ("parentRevisionRef", string "revision:active"),
    ("parentRunRef", string "run:parent"), ("planningRunRef", string "planning:expansion:1"),
    ("proposalBaseHash", sampleHash "a"), ("sourceFingerprint", sampleHash "b")]

def sampleCreation : List (String × Value) :=
  [("commandId", string "command:create"), ("deadline", number 4000), ("expectedVersion", number 0),
    ("kind", string "graph.request_expansion"),
    ("rationale", .record (objectOf
      [("text", string "split bounded independent work"), ("truthClass", string "AGENT_REPORTED")])),
    ("release", sampleRelease), ("workerHandoff", sampleHandoff)] ++ sampleBinding

def createCommand : Value := .record (objectOf sampleCreation)

/-- The same command, its keys the other way round. -/
def reorderedCommand : Value := .record (objectOf sampleCreation.reverse)

def transitionCommand : Value :=
  .record (objectOf
    ([("cause", string "EXPANSION_REFUSED"), ("commandId", string "command:terminal"), ("expectedVersion", number 1),
      ("kind", string "expansion.transition_hold"), ("targetLifecycle", string "RESOLVED"),
      ("terminalProof", .record (objectOf
        [("authorityState", string "TERMINAL"), ("decisionRef", string "decision:terminal"),
          ("successorHoldRef", .null), ("truthClass", string "DAEMON_VERIFIED")]))] ++ sampleBinding))

def conflicts : ExpansionPlanningHoldResult → Bool
  | .refused code _ _ => code = .EXPANSION_HOLD_IDEMPOTENCY_CONFLICT
  | .accepted _ _ => false

theorem creation_reopens :
    (run holdStep none [createCommand, transitionCommand]).map (fun s => (isTerminal s, versionOf s)) = some (true, 2)
      ∧ (run holdStep none [createCommand, transitionCommand, createCommand]).map (fun s => (isTerminal s, versionOf s)) =
        some (false, 1)
      ∧ conflicts (reduceExpansionPlanningHold ((run holdStep none [createCommand]).map .record) createCommand) = false
      ∧ conflicts (reduceExpansionPlanningHold ((run holdStep none [createCommand]).map .record) reorderedCommand) = true := by
  decide +kernel

end MoeNG.Core.Expansion
