import MoeNG.Core.Snapshot
import MoeNG.Kernel.Object
import MoeNG.Lib.Run

/-!
# Expansion planning holds (`packages/core/src/expansion/expansion-planning-hold.ts`)

Commands and states reach the reducer as objects in the key order their caller
gave them, and a replay is told by the text they print, so both are kept as
objects with their key order.
-/

namespace MoeNG.Core.Expansion
open MoeNG.Kernel MoeNG.Lib

/-! ### Vocabulary (`expansion-planning-hold.ts:9-30`) -/

def expansionHoldCauses : List String :=
  ["EXPANSION_REFUSED", "GRAPH_ACTIVATED", "REVISE_PLAN", "GRAPH_SUPERSEDED", "EXPANSION_DECLINED",
    "PLANNING_CANCELLED", "GOAL_CANCELLED"]

def lifecycles : List String := ["ACTIVE", "RESOLVED", "SUPERSEDED", "CANCELLED"]

def truths : List String := ["OBSERVED", "AGENT_REPORTED", "DAEMON_VERIFIED", "HUMAN_APPROVED", "UNKNOWN"]

inductive ExpansionHoldErrorCode where
  | EXPANSION_HOLD_INPUT_INVALID
  | EXPANSION_HOLD_SAFE_BOUNDARY_UNPROVEN
  | EXPANSION_HOLD_STALE_VERSION
  | EXPANSION_HOLD_STALE_GENERATION
  | EXPANSION_HOLD_STALE_EPOCH
  | EXPANSION_HOLD_BINDING_MISMATCH
  | EXPANSION_HOLD_IDEMPOTENCY_CONFLICT
  | EXPANSION_HOLD_ILLEGAL_TRANSITION
  | EXPANSION_HOLD_TERMINAL_PROOF_REQUIRED
  deriving DecidableEq

inductive ExpansionHoldLayer where
  | INPUT
  | SAFE_BOUNDARY
  | CONCURRENCY
  | BINDING
  | IDEMPOTENCY
  | LIFECYCLE
  | TERMINAL_PROOF
  deriving DecidableEq

def codeLayers : ExpansionHoldErrorCode → ExpansionHoldLayer
  | .EXPANSION_HOLD_BINDING_MISMATCH => .BINDING
  | .EXPANSION_HOLD_IDEMPOTENCY_CONFLICT => .IDEMPOTENCY
  | .EXPANSION_HOLD_ILLEGAL_TRANSITION => .LIFECYCLE
  | .EXPANSION_HOLD_INPUT_INVALID => .INPUT
  | .EXPANSION_HOLD_SAFE_BOUNDARY_UNPROVEN => .SAFE_BOUNDARY
  | .EXPANSION_HOLD_STALE_EPOCH => .CONCURRENCY
  | .EXPANSION_HOLD_STALE_GENERATION => .CONCURRENCY
  | .EXPANSION_HOLD_STALE_VERSION => .CONCURRENCY
  | .EXPANSION_HOLD_TERMINAL_PROOF_REQUIRED => .TERMINAL_PROOF

/-- A parsed command, its own properties in the caller's order. -/
inductive ExpansionPlanningHoldCommand where
  | create (command : Obj)
  | transition (command : Obj)

def ExpansionPlanningHoldCommand.properties : ExpansionPlanningHoldCommand → Obj
  | .create command => command
  | .transition command => command

abbrev ExpansionPlanningHoldState := Obj

inductive ExpansionPlanningHoldEvent where
  | EXPANSION_HOLD_CREATED (commandId holdId : Value)
  | EXPANSION_HOLD_TERMINATED (cause commandId holdId lifecycle : Value)

inductive ExpansionPlanningHoldResult where
  | accepted (event : ExpansionPlanningHoldEvent) (state : ExpansionPlanningHoldState)
  | refused (code : ExpansionHoldErrorCode) (layer : ExpansionHoldLayer) (state : Option ExpansionPlanningHoldState)

/-! ### Reading input (`expansion-planning-hold.ts:92-172`) -/

def maxText : ℕ := 256
def maxRefs : ℕ := 32

mutual

def inert : Value → Bool
  | .undefined => false
  | .null => true
  | .bool _ => true
  | .number _ => true
  | .string _ => true
  | .array items => items.length ≤ maxRefs && inertItems items
  | .record properties => inertProperties properties
  | .exotic => false

def inertItems : List Value → Bool
  | [] => true
  | value :: rest => inert value && inertItems rest

def inertProperties : List (JsString × Value) → Bool
  | [] => true
  | (_, value) :: rest => inert value && inertProperties rest

end

def snapshot (value : Value) : Option Value := if inert value then some value else none

def record (value : Value) (keys : List String) : Option Obj := exactObject value keys

def text : Value → Bool
  | .string s => 0 < s.length && s.length ≤ maxText
  | _ => false

def hex64 : Value → Bool
  | .string s => isDigest s
  | _ => false

def uint : Value → Bool
  | .number (.integer z) => isSafeInteger z && 0 ≤ z
  | .number .negativeZero => true
  | _ => false

def positive : Value → Bool
  | .number (.integer z) => isSafeInteger z && 0 < z
  | _ => false

def isBoolean : Value → Bool
  | .bool _ => true
  | _ => false

def is (value : Value) (name : String) : Bool := strictEq value (.string (lit name))

def member (values : List String) (value : Value) : Bool := values.any fun name => is value name

def stringList : Value → Option (List Value)
  | .array items => if maxRefs < items.length || items.any (fun item => !text item) then none else some items
  | _ => none

def same (left right : Value) : Bool := stringify left = stringify right

def handoff (value : Value) : Option Obj := do
  let item ← record value ["digest", "ref"]
  if hex64 (item.get "digest") && text (item.get "ref") then
    some (objectOf [("digest", item.get "digest"), ("ref", item.get "ref")])
  else none

def releaseKeys : List String :=
  ["attemptRef", "attemptState", "disposition", "effectsTerminal", "handoff", "leaseRef", "leaseState",
    "observationRef", "providerSlotRef", "providerSlotState", "reason", "receiptRef", "resourcesTerminal",
    "safeBoundaryObserved", "terminalEffectRefs", "terminalResourceRefs", "truthClass"]

def releaseStrings : List String :=
  ["attemptRef", "attemptState", "leaseRef", "leaseState", "observationRef", "providerSlotRef",
    "providerSlotState", "reason", "receiptRef"]

def releaseFlags : List String := ["effectsTerminal", "resourcesTerminal", "safeBoundaryObserved"]

def releaseChecks (item disposition : Obj) : Bool :=
  (releaseStrings.all fun key => text (item.get key)) && text (disposition.get "strongestReason")
    && text (disposition.get "terminalTarget") && (releaseFlags.all fun key => isBoolean (item.get key))
    && isBoolean (disposition.get "resumable") && member truths (item.get "truthClass")

def release (value : Value) : Option Obj := do
  let item ← record value releaseKeys
  let disposition ← record (item.get "disposition") ["resumable", "strongestReason", "terminalTarget"]
  let boundHandoff ← handoff (item.get "handoff")
  let effectRefs ← stringList (item.get "terminalEffectRefs")
  let resourceRefs ← stringList (item.get "terminalResourceRefs")
  if releaseChecks item disposition then
    some ((((item.assign "disposition" (.record disposition)).assign "handoff" (.record boundHandoff)).assign
      "terminalEffectRefs" (.array effectRefs)).assign "terminalResourceRefs" (.array resourceRefs))
  else none

/-- The value itself, `null` or the four-field proof. -/
def proof (value : Value) : Option Value :=
  match value with
  | .null => some .null
  | _ => do
    let item ← record value ["authorityState", "decisionRef", "successorHoldRef", "truthClass"]
    if member ["TERMINAL", "LIVE", "DRAINING"] (item.get "authorityState") && text (item.get "decisionRef")
        && (strictEq (item.get "successorHoldRef") .null || text (item.get "successorHoldRef"))
        && member truths (item.get "truthClass") then
      some (.record item)
    else none

def createKeys : List String :=
  ["commandId", "deadline", "expectedVersion", "generation", "graphEpoch", "holdId", "kind", "parentNodeRef",
    "parentRevisionRef", "parentRunRef", "planningRunRef", "proposalBaseHash", "rationale", "release",
    "sourceFingerprint", "workerHandoff"]

def transitionKeys : List String :=
  ["cause", "commandId", "expectedVersion", "generation", "graphEpoch", "holdId", "kind", "parentNodeRef",
    "parentRevisionRef", "parentRunRef", "planningRunRef", "proposalBaseHash", "sourceFingerprint",
    "targetLifecycle", "terminalProof"]

def commandRefs : List String :=
  ["commandId", "holdId", "parentNodeRef", "parentRevisionRef", "parentRunRef", "planningRunRef"]

def createChecks (item rationale : Obj) : Bool :=
  (commandRefs.all fun key => text (item.get key)) && uint (item.get "deadline")
    && uint (item.get "expectedVersion") && positive (item.get "generation") && uint (item.get "graphEpoch")
    && hex64 (item.get "proposalBaseHash") && hex64 (item.get "sourceFingerprint")
    && text (rationale.get "text") && is (rationale.get "truthClass") "AGENT_REPORTED"

def parseCreate (base : Value) : Option Obj := do
  let item ← record base createKeys
  let rationale ← record (item.get "rationale") ["text", "truthClass"]
  let released ← release (item.get "release")
  let workerHandoff ← handoff (item.get "workerHandoff")
  if createChecks item rationale then
    some (((item.assign "rationale" (.record rationale)).assign "release" (.record released)).assign
      "workerHandoff" (.record workerHandoff))
  else none

def transitionChecks (item : Obj) : Bool :=
  (commandRefs.all fun key => text (item.get key)) && uint (item.get "expectedVersion")
    && positive (item.get "generation") && uint (item.get "graphEpoch") && hex64 (item.get "proposalBaseHash")
    && hex64 (item.get "sourceFingerprint") && member expansionHoldCauses (item.get "cause")
    && member lifecycles (item.get "targetLifecycle")

def parseTransition (base : Value) : Option Obj := do
  let item ← record base transitionKeys
  let terminalProof ← proof (item.get "terminalProof")
  if transitionChecks item then some (item.assign "terminalProof" terminalProof)
  else none

/-- `value[key]` of a value known to be an object. -/
def prop (value : Value) (key : String) : Value :=
  match value with
  | .record properties => Obj.get properties key
  | _ => .undefined

def parseCommand (value : Value) : Option ExpansionPlanningHoldCommand := do
  let base ← snapshot value
  if is (prop base "kind") "graph.request_expansion" then (parseCreate base).map .create
  else if is (prop base "kind") "expansion.transition_hold" then (parseTransition base).map .transition
  else none

/-! ### States (`expansion-planning-hold.ts:174-234`) -/

def stateKeys : List String :=
  ["creationReceipt", "deadline", "generation", "graphEpoch", "holdId", "holdKind", "lifecycle", "parentNodeRef",
    "parentRevisionRef", "parentRunRef", "planningRunRef", "proposalBaseHash", "rationale", "release",
    "sourceFingerprint", "terminalReceipt", "version", "workerHandoff"]

def receipt (command : Obj) : Value := .record (objectOf [("command", .record command)])

def number (n : ℤ) : Value := .number (.integer n)

def opening (command : Obj) : ExpansionPlanningHoldState :=
  objectOf
    [("creationReceipt", receipt command), ("deadline", command.get "deadline"),
      ("generation", command.get "generation"), ("graphEpoch", command.get "graphEpoch"),
      ("holdId", command.get "holdId"), ("holdKind", .string (lit "EXPANSION_PLANNING")),
      ("lifecycle", .string (lit "ACTIVE")), ("parentNodeRef", command.get "parentNodeRef"),
      ("parentRevisionRef", command.get "parentRevisionRef"), ("parentRunRef", command.get "parentRunRef"),
      ("planningRunRef", command.get "planningRunRef"), ("proposalBaseHash", command.get "proposalBaseHash"),
      ("rationale", command.get "rationale"), ("release", command.get "release"),
      ("sourceFingerprint", command.get "sourceFingerprint"), ("terminalReceipt", .null), ("version", number 1),
      ("workerHandoff", command.get "workerHandoff")]

def boundKeys : List String :=
  ["holdId", "generation", "graphEpoch", "parentNodeRef", "parentRunRef", "parentRevisionRef", "planningRunRef",
    "proposalBaseHash", "sourceFingerprint"]

def bindingsMatch (state : ExpansionPlanningHoldState) (command : Obj) : Bool :=
  boundKeys.all fun key => strictEq (state.get key) (command.get key)

def safeRelease (command : Obj) : Bool :=
  let value := command.get "release"
  is (prop value "truthClass") "DAEMON_VERIFIED" && is (prop value "reason") "WORK_RELEASE_OR_PAUSE"
    && strictEq (prop value "safeBoundaryObserved") (.bool true) && is (prop value "attemptState") "RELEASED"
    && is (prop value "leaseState") "RELEASED" && is (prop value "providerSlotState") "RELEASED"
    && strictEq (prop value "effectsTerminal") (.bool true) && strictEq (prop value "resourcesTerminal") (.bool true)
    && is (prop (prop value "disposition") "strongestReason") "WORK_RELEASE_OR_PAUSE"
    && is (prop (prop value "disposition") "terminalTarget") "RELEASED"
    && strictEq (prop (prop value "disposition") "resumable") (.bool true)
    && same (prop value "handoff") (command.get "workerHandoff")

def causeTarget (command : Obj) : Bool :=
  let resolved := is (command.get "cause") "EXPANSION_REFUSED" || is (command.get "cause") "GRAPH_ACTIVATED"
  let superseded := is (command.get "cause") "REVISE_PLAN" || is (command.get "cause") "GRAPH_SUPERSEDED"
  (resolved && is (command.get "targetLifecycle") "RESOLVED")
    || (superseded && is (command.get "targetLifecycle") "SUPERSEDED")
    || (!resolved && !superseded && is (command.get "targetLifecycle") "CANCELLED")

def terminalProofValid (command : Obj) : Bool :=
  let value := command.get "terminalProof"
  let human := is (command.get "cause") "REVISE_PLAN" || is (command.get "cause") "EXPANSION_DECLINED"
  is (prop value "authorityState") "TERMINAL"
    && is (prop value "truthClass") (if human then "HUMAN_APPROVED" else "DAEMON_VERIFIED")
    && if is (command.get "targetLifecycle") "SUPERSEDED" then text (prop value "successorHoldRef")
      else strictEq (prop value "successorHoldRef") .null

/-- `{ ...state, lifecycle, terminalReceipt: { command }, version: 2 }`. -/
def ended (state : ExpansionPlanningHoldState) (lifecycle : Value) (command : Obj) : ExpansionPlanningHoldState :=
  ((state.assign "lifecycle" lifecycle).assign "terminalReceipt" (receipt command)).assign "version" (number 2)

def openingKeys : List String := stateKeys.filter fun key => !(["lifecycle", "terminalReceipt", "version"].contains key)

/-- `record(value, ["command"])` and the command in it. -/
def parseReceipt (value : Value) : Option ExpansionPlanningHoldCommand := do
  let item ← record value ["command"]
  parseCommand (item.get "command")

def parseState (value : Value) : Option ExpansionPlanningHoldState := do
  let copied ← snapshot value
  let item ← record copied stateKeys
  if !is (item.get "holdKind") "EXPANSION_PLANNING" || !member lifecycles (item.get "lifecycle")
      || !positive (item.get "version") then none
  else match ← parseReceipt (item.get "creationReceipt") with
    | .transition _ => none
    | .create created =>
      if !strictEq (created.get "expectedVersion") (number 0) || !safeRelease created then none
      else if !openingKeys.all fun key => same (item.get key) ((opening created).get key) then none
      else if is (item.get "lifecycle") "ACTIVE" then
        if strictEq (item.get "terminalReceipt") .null && strictEq (item.get "version") (number 1) then
          some (opening created)
        else none
      else match ← parseReceipt (item.get "terminalReceipt") with
        | .create _ => none
        | .transition terminal =>
          if !strictEq (item.get "version") (number 2) || !strictEq (terminal.get "expectedVersion") (number 1)
              || strictEq (terminal.get "commandId") (created.get "commandId")
              || !strictEq (terminal.get "targetLifecycle") (item.get "lifecycle") || !causeTarget terminal
              || !bindingsMatch (opening created) terminal || !terminalProofValid terminal then none
          else some (ended (opening created) (item.get "lifecycle") terminal)

/-! ### Reducer (`expansion-planning-hold.ts:236-300`) -/

def refuse (code : ExpansionHoldErrorCode) (state : Option ExpansionPlanningHoldState) : ExpansionPlanningHoldResult :=
  .refused code (codeLayers code) state

def receiptCommand (value : Value) : Option Obj :=
  match prop value "command" with
  | .record command => some command
  | _ => none

/-- The answer to a creation is always the opening state. -/
def created (command : Obj) : ExpansionPlanningHoldResult :=
  .accepted (.EXPANSION_HOLD_CREATED (command.get "commandId") (command.get "holdId")) (opening command)

def receipts (state : ExpansionPlanningHoldState) : List Obj :=
  (receiptCommand (state.get "creationReceipt")).toList ++ (receiptCommand (state.get "terminalReceipt")).toList

def terminated (state next : ExpansionPlanningHoldState) (command : Obj) : ExpansionPlanningHoldResult :=
  .accepted (.EXPANSION_HOLD_TERMINATED (command.get "cause") (command.get "commandId") (state.get "holdId")
    (command.get "targetLifecycle")) next

def replayOf (state : ExpansionPlanningHoldState) (command : ExpansionPlanningHoldCommand) : Option Obj :=
  (receipts state).find? fun item => strictEq (item.get "commandId") (command.properties.get "commandId")

def replayed (state : ExpansionPlanningHoldState) (replay : Obj) (command : ExpansionPlanningHoldCommand) :
    ExpansionPlanningHoldResult :=
  if !same (.record replay) (.record command.properties) then refuse .EXPANSION_HOLD_IDEMPOTENCY_CONFLICT (some state)
  else match command with
    | .create _ =>
      match receiptCommand (state.get "creationReceipt") with
      | some creation => created creation
      | none => refuse .EXPANSION_HOLD_INPUT_INVALID (some state)
    | .transition command => terminated state state command

def opened (command : ExpansionPlanningHoldCommand) : ExpansionPlanningHoldResult :=
  if !strictEq (command.properties.get "expectedVersion") (number 0) then refuse .EXPANSION_HOLD_STALE_VERSION none
  else match command with
    | .transition _ => refuse .EXPANSION_HOLD_ILLEGAL_TRANSITION none
    | .create command =>
      if !safeRelease command then refuse .EXPANSION_HOLD_SAFE_BOUNDARY_UNPROVEN none
      else created command

def transitioned (state : ExpansionPlanningHoldState) (command : ExpansionPlanningHoldCommand) :
    ExpansionPlanningHoldResult :=
  if !strictEq (command.properties.get "expectedVersion") (state.get "version") then
    refuse .EXPANSION_HOLD_STALE_VERSION (some state)
  else if !strictEq (command.properties.get "generation") (state.get "generation") then
    refuse .EXPANSION_HOLD_STALE_GENERATION (some state)
  else if !strictEq (command.properties.get "graphEpoch") (state.get "graphEpoch") then
    refuse .EXPANSION_HOLD_STALE_EPOCH (some state)
  else match command with
    | .create _ => refuse .EXPANSION_HOLD_ILLEGAL_TRANSITION (some state)
    | .transition command =>
      if !is (state.get "lifecycle") "ACTIVE" || !causeTarget command then
        refuse .EXPANSION_HOLD_ILLEGAL_TRANSITION (some state)
      else if !bindingsMatch state command then refuse .EXPANSION_HOLD_BINDING_MISMATCH (some state)
      else if !terminalProofValid command then refuse .EXPANSION_HOLD_TERMINAL_PROOF_REQUIRED (some state)
      else terminated state (ended state (command.get "targetLifecycle") command) command

def reduceExpansionPlanningHold (stateInput : Option Value) (commandInput : Value) : ExpansionPlanningHoldResult :=
  let state := stateInput.bind parseState
  match parseCommand commandInput with
  | none => refuse .EXPANSION_HOLD_INPUT_INVALID state
  | some command =>
    match stateInput, state with
    | some _, none => refuse .EXPANSION_HOLD_INPUT_INVALID none
    | none, _ => opened command
    | some _, some state =>
      match replayOf state command with
      | some replay => replayed state replay command
      | none => transitioned state command

/-! ### Runs -/

/-- An accepted result's state replaces the stored one. -/
def holdStep (stored : Option ExpansionPlanningHoldState) (command : Value) : Option ExpansionPlanningHoldState :=
  match reduceExpansionPlanningHold (stored.map .record) command with
  | .accepted _ state => some state
  | .refused _ _ _ => stored

end MoeNG.Core.Expansion
