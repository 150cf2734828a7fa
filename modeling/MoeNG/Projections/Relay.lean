import MoeNG.Projections.Ledger

/-!
# The transactional relay (`packages/store/src/outbox-relay/transactional-outbox-relay.ts`)

Append, projection write and inbox receipt are one transaction. A rollback
carries its result out of it.
-/

namespace MoeNG.Projections
open MoeNG.Kernel MoeNG.Lib MoeNG.Store

/-! ### Contract (`outbox-relay-contracts.ts:15-61`) -/

structure OutboxRelayProjection where
  checkpoint : ℤ
  name : JsString
  reducers : ProjectionReducers
  state : ProjectionState
  upcaster : StoredEventUpcaster

structure OutboxRelayRequest where
  commit : CommitInput
  consumerId : JsString
  message : RelayMessage
  projection : OutboxRelayProjection

inductive OutboxRelayLayer where
  | COMMIT
  | INBOX
  | INPUT
  | PROJECTION
  deriving DecidableEq

inductive OutboxRelayCode where
  | OUTBOX_RELAY_COMMIT_MISMATCH
  | OUTBOX_RELAY_INBOX_CONFLICT
  | OUTBOX_RELAY_INBOX_WRITE_FAILED
  | OUTBOX_RELAY_INPUT_INVALID
  | OUTBOX_RELAY_PROJECTION_CONFLICT
  | OUTBOX_RELAY_PROJECTION_REFUSED
  | OUTBOX_RELAY_PROJECTION_WRITE_FAILED
  deriving DecidableEq

structure OutboxRelayFoldDetail where
  code : ProjectionFoldCode
  eventId : Option JsString
  layer : ProjectionFoldLayer
  upcast : Option UpcastFailure
  deriving DecidableEq

structure OutboxRelayRefused where
  code : OutboxRelayCode
  detail : JsString
  fold : Option OutboxRelayFoldDetail
  layer : OutboxRelayLayer
  deriving DecidableEq

inductive DeduplicatedBy where
  | COMMAND_RECEIPT
  | INBOX
  deriving DecidableEq

structure OutboxRelayApplied where
  checkpoint : ℤ
  commit : CommitResult
  state : ProjectionState
  stateDigest : JsString

/-- The results that a rolled back transaction may carry. -/
inductive Rolled where
  | ALREADY_APPLIED (commit : Option CommitResult) (deduplicatedBy : DeduplicatedBy)
  | REFUSED (refused : OutboxRelayRefused)
  deriving DecidableEq

/-- A store error that the relay cannot name is thrown. -/
inductive OutboxRelayResult where
  | APPLIED (applied : OutboxRelayApplied)
  | unapplied (rolled : Rolled)
  | threw (error : StoreError)

structure RelayPlan where
  checkpoint : ℤ
  commit : SnapshotCommitInput
  consumerId : JsString
  messageId : JsString
  name : JsString
  priorDigest : JsString
  priorState : ProjectionState
  receiptDigest : JsString
  reducers : ProjectionReducers
  upcaster : StoredEventUpcaster

/-! ### The compare-and-set both writers share (`transactional-outbox-relay.ts:55-61`, `projection-rebuild.ts:29-36`) -/

/-- `PROJECTION_UPSERT`, with the number of rows it changed. -/
def upsertProjection (projections : OrdMap JsString ProjectionRow) (name : JsString) (position : ℤ) (digest : JsString)
    (expectedPosition : ℤ) (expectedDigest : Option JsString) : OrdMap JsString ProjectionRow × ℕ :=
  match projections.get name with
  | none => (projections.set name ⟨position, some digest⟩, 1)
  | some row =>
    if row.lastAppliedPosition = expectedPosition ∧ row.stateDigest = expectedDigest then
      (projections.set name ⟨position, some digest⟩, 1)
    else (projections, 0)

/-! ### Inside the transaction (`transactional-outbox-relay.ts:126-245`) -/

def rejected (code : OutboxRelayCode) (layer : OutboxRelayLayer) (detail : JsString) : Rolled :=
  .REFUSED ⟨code, detail, none, layer⟩

abbrev Relayed (α : Type) := Except Rolled α

def requireFreshInbox (db : Database) (plan : RelayPlan) : Relayed Unit :=
  match db.inbox.get (plan.consumerId, plan.messageId) with
  | none => .ok ()
  | some receiptDigest =>
    if receiptDigest = plan.receiptDigest then .error (.ALREADY_APPLIED none .INBOX)
    else .error (rejected .OUTBOX_RELAY_INBOX_CONFLICT .INBOX (lit "consumer " ++ jsonText plan.consumerId
      ++ lit " already recorded " ++ jsonText plan.messageId ++ lit " with different envelope bytes"))

def requireReplayInbox (plan : RelayPlan) (db : Database) : Relayed Unit :=
  match db.inbox.get (plan.consumerId, plan.messageId) with
  | none => .error (rejected .OUTBOX_RELAY_COMMIT_MISMATCH .COMMIT
      (lit "the replayed command has no durable inbox receipt for this consumer and message"))
  | some receiptDigest =>
    if receiptDigest ≠ plan.receiptDigest then
      .error (rejected .OUTBOX_RELAY_INBOX_CONFLICT .INBOX
        (lit "the replayed command's inbox receipt covers different envelope bytes"))
    else .ok ()

def commitMismatch {α : Type} (detail : JsString) : Relayed α :=
  .error (rejected .OUTBOX_RELAY_COMMIT_MISMATCH .COMMIT detail)

def materializeEvent (plan : RelayPlan) (summary : CommitResult) (index : ℕ) (draft : SnapshotEventDraft)
    (row : EventRow) : StoredEvent :=
  { aggregateId := summary.receipt.aggregateId, aggregateSequence := summary.receipt.previousVersion + index + 1,
    commandId := summary.receipt.commandId, committedAt := plan.commit.committedAt, decisionTrace := none,
    domainSchemaVersion := draft.domainSchemaVersion, eventId := draft.eventId, eventType := draft.eventType,
    globalPosition := row.globalPosition, metadata := draft.metadata, payload := draft.payload,
    payloadCodecVersion := opaquePayloadCodecVersion, recordVersion := eventRecordVersion,
    requestSha256 := summary.receipt.requestSha256 }

/-- One stored row beside one draft of the commit, from an index on. -/
def materializeFrom (plan : RelayPlan) (summary : CommitResult) :
    ℕ → List SnapshotEventDraft → List EventRow → Relayed (List StoredEvent)
  | _, [], _ => .ok []
  | index, draft :: drafts, rows =>
    let mismatch : Relayed (List StoredEvent) :=
      commitMismatch (lit "committed event " ++ decimal index ++ lit " does not match " ++ jsonText draft.eventId)
    match rows with
    | [] => mismatch
    | row :: rest =>
      if row.eventId ≠ draft.eventId ∨ row.commandEventIndex ≠ index then mismatch
      else do
        let events ← materializeFrom plan summary (index + 1) drafts rest
        .ok (materializeEvent plan summary index draft row :: events)

-- the rows of one command are inserted in the order of `command_event_index`
def materializeEvents (db : Database) (plan : RelayPlan) (summary : CommitResult) : Relayed (List StoredEvent) :=
  let rows := db.events.rows.filter fun row => row.commandId = plan.commit.commandId
  if rows.length ≠ plan.commit.events.length then
    commitMismatch (lit "command wrote " ++ decimal rows.length ++ lit " events, expected "
      ++ decimal plan.commit.events.length)
  else materializeFrom plan summary 0 plan.commit.events rows

def requireProjectionAt (db : Database) (plan : RelayPlan) : Relayed Unit :=
  let named := jsonText plan.name
  let stale (detail : JsString) : Relayed Unit :=
    .error (rejected .OUTBOX_RELAY_PROJECTION_CONFLICT .PROJECTION detail)
  match db.projections.get plan.name with
  | none =>
    if plan.checkpoint = 0 then .ok ()
    else stale (lit "projection " ++ named ++ lit " has no durable row to resume from")
  | some row =>
    if row.lastAppliedPosition ≠ plan.checkpoint then
      stale (lit "projection " ++ named ++ lit " is not at checkpoint " ++ decimalInt plan.checkpoint)
    else if row.stateDigest ≠ some plan.priorDigest then
      stale (lit "projection " ++ named ++ lit " holds different state than was supplied")
    else .ok ()

section Relay
variable (sha256 : List Byte → JsString)

/-- The projection row and the inbox receipt of a folded batch. -/
def writeRelay (db : Database) (plan : RelayPlan) (summary : CommitResult) (folded : ProjectionFolded) :
    Relayed (Database × OutboxRelayApplied) :=
  let digest := stateDigest sha256 folded.state
  let (projections, changes) :=
    upsertProjection db.projections plan.name folded.checkpoint digest plan.checkpoint (some plan.priorDigest)
  if changes ≠ 1 then
    .error (rejected .OUTBOX_RELAY_PROJECTION_WRITE_FAILED .PROJECTION (lit "projection " ++ jsonText plan.name
      ++ lit " was not advanced: SQLite changed " ++ decimal changes ++ lit " rows"))
  else if db.inbox.has (plan.consumerId, plan.messageId) then
    .error (rejected .OUTBOX_RELAY_INBOX_WRITE_FAILED .INBOX
      (lit "inbox receipt for " ++ jsonText plan.messageId ++ lit " was not written: SQLite refused the write"))
  else
    .ok ({ db with
        projections := projections, inbox := db.inbox.set (plan.consumerId, plan.messageId) plan.receiptDigest },
      ⟨folded.checkpoint, summary, canonicalState folded.state, digest⟩)

def applyRelay (plan : RelayPlan) (db : Database) (summary : CommitResult) : Relayed (Database × OutboxRelayApplied) := do
  requireFreshInbox db plan
  let events ← materializeEvents db plan summary
  requireProjectionAt db plan
  match foldProjection (.plain plan.checkpoint events plan.reducers plan.priorState plan.upcaster) with
  | .error refusal =>
    .error (.REFUSED ⟨.OUTBOX_RELAY_PROJECTION_REFUSED, refusal.detail,
      some ⟨refusal.code, refusal.eventId, refusal.layer, refusal.upcast⟩, .PROJECTION⟩)
  | .ok folded => writeRelay sha256 db plan summary folded

/-! ### Relaying (`transactional-outbox-relay.ts:91-124`, `transactional-outbox-relay.ts:247-289`) -/

def planRelay (request : OutboxRelayRequest) : Relayed RelayPlan :=
  let invalid (detail : JsString) : Relayed RelayPlan := .error (rejected .OUTBOX_RELAY_INPUT_INVALID .INPUT detail)
  match digestInboxReceipt sha256 request.consumerId request.message with
  | none => invalid (lit "consumerId, message, projection state, checkpoint, or upcaster is not usable")
  | some inbox =>
    if request.projection.checkpoint < 0 then
      invalid (lit "consumerId, message, projection state, checkpoint, or upcaster is not usable")
    else match snapshotCommitInput request.commit, requireIdentifier request.projection.name "projection.name" with
      | .error e, _ => invalid e.message
      | .ok _, .error e => invalid e.message
      | .ok commit, .ok name =>
        .ok ⟨request.projection.checkpoint, commit, request.consumerId, inbox.messageId, name,
          stateDigest sha256 request.projection.state, canonicalState request.projection.state, inbox.digest,
          request.projection.reducers, request.projection.upcaster⟩

def relayMessage (db : Database) (request : OutboxRelayRequest) : Database × OutboxRelayResult :=
  match planRelay sha256 request with
  | .error rolled => (db, .unapplied rolled)
  | .ok plan =>
    match commitWithApply sha256 db plan.commit (applyRelay sha256 plan) (requireReplayInbox plan) with
    | .error (.apply rolled) => (db, .unapplied rolled)
    | .error (.store e) => (db, .threw e)
    | .ok (next, _, some applied) => (next, .APPLIED applied)
    | .ok (next, commit, none) => (next, .unapplied (.ALREADY_APPLIED (some commit) .COMMAND_RECEIPT))

end Relay

end MoeNG.Projections
