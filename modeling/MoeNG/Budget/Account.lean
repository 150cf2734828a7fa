import MoeNG.Budget.RunRef
import Mathlib.Data.List.Sort

/-!
# Hierarchical budget ledger (`budget/budget-account.ts`)

Allocation moves units from a parent's AVAILABLE to a child's and return is the
inverse. Each movement debits exactly one account and credits exactly one other
for the same amounts, and appends one ledger entry per meter.
-/

namespace MoeNG.Budget
open MoeNG.Kernel MoeNG.Lib

/-! ### Records (`budget-account.ts:13-62`) -/

inductive BudgetAccountIssueCode where
  | COMMAND_MALFORMED
  | COUNTER_EXHAUSTED
  | DUPLICATE_IDENTITY
  | ILLEGAL_CLOSE
  | INSUFFICIENT_AVAILABLE
  | NOT_OPEN
  | PARENT_MISMATCH
  | STALE_VERSION
  | UNKNOWN_ACCOUNT
  | UNKNOWN_METER
  deriving DecidableEq

structure BudgetAccountIssue where
  code : BudgetAccountIssueCode
  message : String
  deriving DecidableEq

structure BudgetMeterAmount where
  meter : JsString
  amount : ℤ
  deriving DecidableEq

inductive BudgetLedgerEntryKind where
  | ROOT_OPENED
  | ALLOCATED
  | RETURNED
  | CLOSED
  deriving DecidableEq

structure BudgetAccountRecord where
  accountId : JsString
  ownerRef : JsString
  parentRef : Option JsString
  graphRevisionRef : JsString
  version : ℤ
  state : BudgetAccountState
  meters : List BudgetMeterBuckets
  deriving DecidableEq

structure BudgetLedgerEntry where
  sequence : ℤ
  kind : BudgetLedgerEntryKind
  meter : JsString
  amount : ℤ
  fromRef : Option JsString
  toRef : Option JsString
  ownerRef : Option JsString
  deriving DecidableEq

structure BudgetAuthorization where
  rootAccountId : JsString
  ownerRef : JsString
  graphRevisionRef : JsString
  amounts : List BudgetMeterAmount
  deriving DecidableEq

structure BudgetLedgerState where
  rootAccountId : JsString
  authorized : List BudgetMeterAmount
  overrun : List BudgetMeterAmount
  accounts : List BudgetAccountRecord
  entries : List BudgetLedgerEntry
  deriving DecidableEq

structure BudgetMovementCommand where
  parentAccountId : JsString
  childAccountId : JsString
  childOwnerRef : JsString
  expectedParentVersion : ℤ
  expectedChildVersion : Option ℤ
  amounts : List BudgetMeterAmount
  deriving DecidableEq

structure BudgetCloseCommand where
  accountId : JsString
  expectedVersion : ℤ
  deriving DecidableEq

inductive BudgetLedgerResult where
  | accept (state : BudgetLedgerState)
  | fail (state : BudgetLedgerState) (issues : List BudgetAccountIssue)
  deriving DecidableEq

def BudgetLedgerResult.state : BudgetLedgerResult → BudgetLedgerState
  | .accept state => state
  | .fail state _ => state

inductive MovementKind where
  | ALLOCATED
  | RETURNED
  deriving DecidableEq

def MovementKind.entryKind : MovementKind → BudgetLedgerEntryKind
  | ALLOCATED => .ALLOCATED
  | RETURNED => .RETURNED

namespace Account

def empty : BudgetLedgerState := ⟨[], [], [], [], []⟩

def fail (state : BudgetLedgerState) (code : BudgetAccountIssueCode) (message : String) : BudgetLedgerResult :=
  .fail state [⟨code, message⟩]

def refuseMalformedBudgetReplay (state : BudgetLedgerState) (message : String) : BudgetLedgerResult :=
  fail state .COMMAND_MALFORMED message

def find (state : BudgetLedgerState) (id : JsString) : Option BudgetAccountRecord :=
  state.accounts.find? fun record => record.accountId = id

def bucketOf (record : BudgetAccountRecord) (meter : JsString) : Option BudgetMeterBuckets :=
  record.meters.find? fun entry => entry.meter = meter

def zeroBucket (meter : JsString) (available : ℤ) : BudgetMeterBuckets := ⟨meter, available, 0, 0, 0⟩

/-! ### Bucket lists (`budget-account.ts:64-75`, `173-182`) -/

-- one step of the source's loop: the first row of the meter, or a fresh row at the end
def shiftOne (sign : ℤ) (entry : BudgetMeterAmount) : List BudgetMeterBuckets → List BudgetMeterBuckets
  | [] => [zeroBucket entry.meter entry.amount]
  | found :: rest =>
    if found.meter = entry.meter then { found with available := found.available + sign * entry.amount } :: rest
    else found :: shiftOne sign entry rest

def shift (record : BudgetAccountRecord) (amounts : List BudgetMeterAmount) (sign : ℤ) : List BudgetMeterBuckets :=
  amounts.foldl (fun next entry => shiftOne sign entry next) record.meters

end Account

open Account

def deriveSubtreeTotals (state : BudgetLedgerState) : List BudgetMeterAmount :=
  let totals := state.accounts.foldl
    (fun totals record => OrdMap.tallyInto BudgetMeterBuckets.meter BudgetMeterBuckets.total totals record.meters)
    OrdMap.empty
  (totals.entries.map fun e => ⟨e.1, e.2⟩).mergeSort fun left right => left.meter ≤ right.meter

/-! ### Transitions (`budget-account.ts:78-219`) -/

def openBudgetRoot (authorization : BudgetAuthorization) : BudgetLedgerResult :=
  let ⟨rootAccountId, ownerRef, graphRevisionRef, amounts⟩ := authorization
  if !isRef rootAccountId || !isRef ownerRef || !isRef graphRevisionRef then
    fail empty .COMMAND_MALFORMED "root authorization is malformed"
  else if amounts.length = 0 || amounts.length > maxBudgetMeters
      || (amounts.any fun entry => !isRef entry.meter || !isSafeCount entry.amount)
      || hasDuplicates (amounts.map fun entry => entry.meter) then
    fail empty .COMMAND_MALFORMED "authorized amounts are malformed or duplicated"
  else .accept
    { rootAccountId := rootAccountId, authorized := amounts, overrun := []
      accounts := [⟨rootAccountId, ownerRef, none, graphRevisionRef, 0, .OPEN,
        amounts.map fun e => zeroBucket e.meter e.amount⟩]
      entries := amounts.mapIdx fun index entry =>
        ⟨index, .ROOT_OPENED, entry.meter, entry.amount, none, some rootAccountId, some ownerRef⟩ }

namespace Account

-- nothing is constructed until every check passed, the meter ceiling last
def commitMovement (state : BudgetLedgerState) (command : BudgetMovementCommand) (kind : MovementKind)
    (existing : Option BudgetAccountRecord) (child source sink : BudgetAccountRecord) : BudgetLedgerResult :=
  let grown := shift sink command.amounts 1
  if grown.length > maxBudgetMeters then
    fail state .COMMAND_MALFORMED "movement would exceed the meter ceiling"
  else
    let nextSource := { source with version := source.version + 1, meters := shift source command.amounts (-1) }
    let nextSink := { sink with
      version := if existing.isNone ∧ kind = .ALLOCATED then 0 else sink.version + 1, meters := grown }
    let nextParent := if kind = .ALLOCATED then nextSource else nextSink
    let nextChild := if kind = .ALLOCATED then nextSink else nextSource
    let base := state.accounts.map fun r =>
      if r.accountId = command.parentAccountId then nextParent
      else if r.accountId = command.childAccountId then nextChild else r
    .accept { state with
      accounts := if existing.isNone then base ++ [nextChild] else base
      entries := state.entries ++ command.amounts.mapIdx fun index e =>
        ⟨state.entries.length + index, kind.entryKind, e.meter, e.amount,
          some source.accountId, some sink.accountId,
          if existing.isNone ∧ kind = .ALLOCATED then some child.ownerRef else none⟩ }

def moveUnits (state : BudgetLedgerState) (command : BudgetMovementCommand) (kind : MovementKind)
    (existing : Option BudgetAccountRecord) (child source sink : BudgetAccountRecord) : BudgetLedgerResult :=
  if command.amounts.any fun e => (bucketOf source e.meter).isNone
      || (kind = .RETURNED && (bucketOf sink e.meter).isNone) then
    fail state .UNKNOWN_METER "an account does not carry a named meter"
  else if command.amounts.any fun e => ((bucketOf source e.meter).map (·.available)).getD 0 < e.amount then
    fail state .INSUFFICIENT_AVAILABLE "available units are insufficient"
  else commitMovement state command kind existing child source sink

end Account

/-- The published check order; the first failing check decides the code and a
refusal hands the prior state back. -/
def applyMovement (state : BudgetLedgerState) (command : BudgetMovementCommand) (kind : MovementKind) :
    BudgetLedgerResult :=
  let pid := command.parentAccountId
  let cid := command.childAccountId
  let cv := command.expectedChildVersion
  let amounts := command.amounts
  if !isRef pid || !isRef cid || !isRef command.childOwnerRef || amounts.length = 0
      || amounts.length > maxBudgetMeters || !isSafeCount command.expectedParentVersion
      || !cv.all isSafeCount
      || (amounts.any fun e => !isRef e.meter || !isSafeCount e.amount || e.amount = 0) then
    fail state .COMMAND_MALFORMED "movement command is malformed"
  else
    let existing := find state cid
    if pid = cid || hasDuplicates (amounts.map fun e => e.meter) || (cv.isNone && existing.isSome) then
      fail state .DUPLICATE_IDENTITY "movement duplicates an identity"
    else
      match find state pid with
      | none => fail state .UNKNOWN_ACCOUNT "movement names an unknown account"
      | some parent =>
        if cv.isSome && existing.isNone then
          fail state .UNKNOWN_ACCOUNT "movement names an unknown account"
        else if parent.version ≥ maxBudgetVersion || (existing.map (·.version)).getD 0 ≥ maxBudgetVersion then
          fail state .COUNTER_EXHAUSTED "an account version counter is exhausted"
        else if parent.version ≠ command.expectedParentVersion
            || (existing.any fun r => cv.any fun v => r.version ≠ v) then
          fail state .STALE_VERSION "an expected version is not current"
        else if existing.any fun r => r.parentRef ≠ some pid then
          fail state .PARENT_MISMATCH "child is not bound to the named parent"
        else if parent.state ≠ .OPEN || (existing.any fun r => r.state ≠ .OPEN) then
          fail state .NOT_OPEN "an account in the movement is not OPEN"
        else
          let child := existing.getD
            ⟨cid, command.childOwnerRef, some pid, parent.graphRevisionRef, 0, .OPEN, []⟩
          match kind with
          | .ALLOCATED => moveUnits state command kind existing child parent child
          | .RETURNED => moveUnits state command kind existing child child parent

def allocateToChild (state : BudgetLedgerState) (command : BudgetMovementCommand) : BudgetLedgerResult :=
  applyMovement state command .ALLOCATED

def returnToParent (state : BudgetLedgerState) (command : BudgetMovementCommand) : BudgetLedgerResult :=
  applyMovement state command .RETURNED

def closeBudgetAccount (state : BudgetLedgerState) (command : BudgetCloseCommand) : BudgetLedgerResult :=
  if !isRef command.accountId || !isSafeCount command.expectedVersion then
    fail state .COMMAND_MALFORMED "close command is malformed"
  else
    match find state command.accountId with
    | none => fail state .UNKNOWN_ACCOUNT "close names an unknown account"
    | some record =>
      if record.version ≥ maxBudgetVersion then
        fail state .COUNTER_EXHAUSTED "an account version counter is exhausted"
      else if record.version ≠ command.expectedVersion then
        fail state .STALE_VERSION "an expected version is not current"
      else
        let drained := record.meters.all fun m => m.available = 0 ∧ m.reserved = 0 ∧ m.quarantined = 0
        let childrenClosed := state.accounts.all fun r =>
          r.parentRef ≠ some record.accountId || r.state = .CLOSED
        if record.state = .CLOSED || !drained || !childrenClosed then
          fail state .ILLEGAL_CLOSE "account is not in a legally closable state"
        else
          let closed := { record with version := record.version + 1, state := .CLOSED }
          .accept { state with
            accounts := state.accounts.map fun r => if r.accountId = record.accountId then closed else r
            entries := state.entries ++ [⟨state.entries.length, .CLOSED, [], 0, some record.accountId, none, none⟩] }

/-! ### Live commands -/

inductive BudgetCommand where
  | allocate (command : BudgetMovementCommand)
  | giveBack (command : BudgetMovementCommand)
  | close (command : BudgetCloseCommand)

def applyCommand (state : BudgetLedgerState) : BudgetCommand → BudgetLedgerResult
  | .allocate command => allocateToChild state command
  | .giveBack command => returnToParent state command
  | .close command => closeBudgetAccount state command

end MoeNG.Budget
