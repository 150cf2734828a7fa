import MoeNG.Kernel.Utf8
import MoeNG.Projections.Fold
import MoeNG.Store.ReadPage

/-!
# The event ledger behind a projection (`packages/store/src/store-input-commit.ts`,
`event-ledger-append.ts`, `event-ledger-transaction.ts`, `event-read-query.ts`)

A transaction works on the tables and either returns the new ones or throws,
which leaves the old ones. Storage itself does not fail; the integrity checks
on rows that only this code writes are left out, and the table of aggregate
heads is read off the events, as its own check demands.
-/

namespace MoeNG.Projections
open MoeNG.Kernel MoeNG.Lib MoeNG.Store

/-! ### Commit input (`store-input-commit.ts:31-244`) -/

structure OutboxDraft where
  headers : Option (List Byte)
  messageId : JsString
  payload : List Byte
  topic : JsString
  deriving DecidableEq

/-- `size` is what the stored record takes of a page, which the commit limits bound. -/
structure EventDraft where
  domainSchemaVersion : Option JsString
  eventId : JsString
  eventType : JsString
  metadata : Option (List Byte)
  outbox : List OutboxDraft
  payload : List Byte
  size : RecordSize
  deriving DecidableEq

structure CommitInput where
  aggregateId : JsString
  commandBytes : List Byte
  commandId : JsString
  committedAt : JsString
  events : List EventDraft
  expectedVersion : ℤ
  deriving DecidableEq

structure SnapshotEventDraft where
  domainSchemaVersion : JsString
  eventId : JsString
  eventType : JsString
  metadata : List Byte
  outboxIds : List JsString
  payload : List Byte
  size : RecordSize
  deriving DecidableEq

structure SnapshotCommitInput where
  aggregateId : JsString
  commandBytes : List Byte
  commandId : JsString
  committedAt : JsString
  events : List SnapshotEventDraft
  expectedVersion : ℕ
  nonempty : events ≠ []
  deriving DecidableEq

def domainEventSchemaVersion : JsString := lit "moe-domain-schema/0"

/-- What is left of the byte budget. -/
def snapshotBytes (value : List Byte) (field : String) (remaining : ℕ) : StoreResult ℕ :=
  if value.length > maxBlobBytes then limitExceeded (lit field ++ lit " exceeds " ++ decimal maxBlobBytes ++ lit " bytes")
  else if value.length > remaining then
    limitExceeded (lit "commit byte total cannot exceed " ++ decimal maxCommitBytes)
  else .ok (remaining - value.length)

/-- The ids taken so far and the bytes left. -/
structure SnapshotProgress where
  eventIds : List JsString
  messageIds : List JsString
  remaining : ℕ

def snapshotMessages (eventIndex : ℕ) (messageIndex : ℕ) (progress : SnapshotProgress) :
    List OutboxDraft → StoreResult SnapshotProgress
  | [] => .ok progress
  | message :: rest => do
    let field := s!"events[{eventIndex}].outbox[{messageIndex}]"
    let messageId ← requireIdentifier message.messageId (field ++ ".messageId")
    if messageId ∈ progress.messageIds then invalidInput (lit "duplicate messageId " ++ jsonText messageId)
    let afterHeaders ← snapshotBytes (message.headers.getD []) (field ++ ".headers") progress.remaining
    let afterPayload ← snapshotBytes message.payload (field ++ ".payload") afterHeaders
    let _ ← requireIdentifier message.topic (field ++ ".topic")
    snapshotMessages eventIndex (messageIndex + 1) ⟨progress.eventIds, messageId :: progress.messageIds, afterPayload⟩ rest

def snapshotEvent (index : ℕ) (progress : SnapshotProgress) (event : EventDraft) :
    StoreResult (SnapshotProgress × SnapshotEventDraft) := do
  let field := s!"events[{index}]"
  let eventId ← requireIdentifier event.eventId (field ++ ".eventId")
  if eventId ∈ progress.eventIds then invalidInput (lit "duplicate eventId " ++ jsonText eventId)
  let room := maxOutboxMessagesPerCommit - progress.messageIds.length
  if event.outbox.length > room then
    limitExceeded (lit (field ++ ".outbox") ++ lit " cannot exceed " ++ decimal room ++ lit " elements")
  let outbox ← snapshotMessages index 0 ⟨eventId :: progress.eventIds, progress.messageIds, progress.remaining⟩ event.outbox
  let version ← match event.domainSchemaVersion with
    | none => .ok domainEventSchemaVersion
    | some version => requireIdentifier version (field ++ ".domainSchemaVersion")
  let eventType ← requireIdentifier event.eventType (field ++ ".eventType")
  let afterMetadata ← snapshotBytes (event.metadata.getD []) (field ++ ".metadata") outbox.remaining
  let afterPayload ← snapshotBytes event.payload (field ++ ".payload") afterMetadata
  .ok (⟨outbox.eventIds, outbox.messageIds, afterPayload⟩,
    ⟨version, eventId, eventType, event.metadata.getD [], event.outbox.map OutboxDraft.messageId, event.payload,
      event.size⟩)

def snapshotEvents (index : ℕ) (progress : SnapshotProgress) : List EventDraft → StoreResult (List SnapshotEventDraft)
  | [] => .ok []
  | event :: rest => do
    let (next, draft) ← snapshotEvent index progress event
    let drafts ← snapshotEvents (index + 1) next rest
    .ok (draft :: drafts)

def snapshotCommitInput (input : CommitInput) : StoreResult SnapshotCommitInput :=
  match input.events with
  | [] => invalidInput (lit "events must contain at least one event")
  | first :: rest => do
    if input.events.length > maxEventsPerCommit then
      limitExceeded (lit "events cannot exceed " ++ decimal maxEventsPerCommit ++ lit " elements")
    let afterCommand ← snapshotBytes input.commandBytes "commandBytes" maxCommitBytes
    let (next, draft) ← snapshotEvent 0 ⟨[], [], afterCommand⟩ first
    let drafts ← snapshotEvents 1 next rest
    let aggregateId ← requireIdentifier input.aggregateId "aggregateId"
    let commandId ← requireIdentifier input.commandId "commandId"
    let committedAt ← requireCanonicalTimestamp input.committedAt "committedAt"
    let expectedVersion ← requireSafeNonnegativeInteger input.expectedVersion "expectedVersion"
    .ok ⟨aggregateId, input.commandBytes, commandId, committedAt, draft :: drafts, expectedVersion, List.cons_ne_nil _ _⟩

def internalIdentifierPrefix : JsString := lit "moe-internal:"

def reserved (value : JsString) : Bool := internalIdentifierPrefix.isPrefixOf value

def rejectInternal (value : JsString) (field : String) : Bool × JsString :=
  (reserved value, lit field ++ lit " uses Moe's reserved internal identifier namespace")

def eventIdentifierChecks (event : SnapshotEventDraft) (index : ℕ) : List (Bool × JsString) :=
  [rejectInternal event.eventId s!"events[{index}].eventId",
    (event.eventType = lit "command.expected-version-rejected",
      lit s!"events[{index}].eventType uses Moe's reserved audit event type")]
    ++ event.outboxIds.mapIdx fun messageIndex messageId =>
      rejectInternal messageId s!"events[{index}].outbox[{messageIndex}].messageId"

def assertExternalCommitIdentifiers (input : SnapshotCommitInput) : StoreResult Unit :=
  match firstOf ([rejectInternal input.aggregateId "aggregateId", rejectInternal input.commandId "commandId"]
      ++ (input.events.mapIdx fun index event => eventIdentifierChecks event index).flatten) with
  | some message => invalidInput message
  | none => .ok ()

/-! ### Tables (`sqlite-schema-manifest.ts:14-37`, `sqlite-schema-manifest.ts:186-223`) -/

structure EventRow where
  aggregateId : JsString
  aggregateSequence : ℕ
  commandEventIndex : ℕ
  commandId : JsString
  committedAt : JsString
  decisionTrace : Option StoredDecisionTrace
  decodedBytes : ℕ
  domainSchemaVersion : JsString
  eventId : JsString
  eventType : JsString
  globalPosition : ℕ
  metadata : List Byte
  payload : List Byte
  requestSha256 : JsString
  deriving DecidableEq

/-- `mapStoredEvent` of `event-read-decode.ts:82-150`; the version columns hold the one version there is. -/
def EventRow.storedEvent (row : EventRow) : StoredEvent :=
  { aggregateId := row.aggregateId, aggregateSequence := row.aggregateSequence, commandId := row.commandId,
    committedAt := row.committedAt, decisionTrace := row.decisionTrace, domainSchemaVersion := row.domainSchemaVersion,
    eventId := row.eventId, eventType := row.eventType, globalPosition := row.globalPosition, metadata := row.metadata,
    payload := row.payload, payloadCodecVersion := opaquePayloadCodecVersion, recordVersion := eventRecordVersion,
    requestSha256 := row.requestSha256 }

/-- What a page query reads of a row before it selects it. -/
def EventRow.header (row : EventRow) : Store.StoredEvent := ⟨row.globalPosition, row.decodedBytes, row.eventId⟩

/-- `domain_events`: `AUTOINCREMENT` numbers the rows from one without gaps. -/
structure EventTable where
  rows : List EventRow
  positions : rows.map EventRow.globalPosition = List.range' 1 rows.length
  sized : ∀ row ∈ rows, 1 ≤ row.decodedBytes ∧ row.decodedBytes ≤ maxPageDecodedBytes
  bounded : rows.length ≤ maxSqliteInteger

def EventTable.empty : EventTable := ⟨[], rfl, nofun, Nat.zero_le _⟩

/-- The row at the next position. -/
def EventTable.append (t : EventTable) (row : EventRow) (size : RecordSize) (h : t.rows.length < maxSqliteInteger) :
    EventTable where
  rows := t.rows ++ [{ row with globalPosition := t.rows.length + 1, decodedBytes := size.val }]
  positions := by
    rw [List.map_append, t.positions, List.length_append, List.length_singleton, List.range'_concat]
    simp [Nat.add_comm]
  sized := by
    intro r hr
    obtain hr | hr := List.mem_append.mp hr
    · exact t.sized r hr
    · obtain rfl := List.mem_singleton.mp hr
      exact size.property
  bounded := by
    rw [List.length_append, List.length_singleton]
    exact h

def insertFailed : StoreResult EventTable := .error ⟨.STORE_UNAVAILABLE, lit "commit command effects failed"⟩

/-- The insert fails when an event id repeats and when the positions are used up. -/
def EventTable.insert (t : EventTable) (row : EventRow) (size : RecordSize) : StoreResult EventTable :=
  if row.eventId ∈ t.rows.map EventRow.eventId then insertFailed
  else if h : t.rows.length < maxSqliteInteger then .ok (t.append row size h) else insertFailed

def EventTable.storedEvents (t : EventTable) : List StoredEvent := t.rows.map EventRow.storedEvent

structure CommandReceipt where
  aggregateId : JsString
  commandId : JsString
  currentVersion : ℕ
  eventIds : List JsString
  outboxMessageIds : List JsString
  previousVersion : ℕ
  requestSha256 : JsString
  deriving DecidableEq

structure ProjectionRow where
  lastAppliedPosition : ℤ
  stateDigest : Option JsString
  deriving DecidableEq

structure Database where
  events : EventTable
  receipts : List CommandReceipt
  outboxIds : List JsString
  inbox : OrdMap (JsString × JsString) JsString
  projections : OrdMap JsString ProjectionRow

def Database.empty : Database := ⟨.empty, [], [], .empty, .empty⟩

/-! ### Appending (`event-ledger-append.ts:28-190`, `store-runtime.ts:119-156`) -/

inductive CommitDisposition where
  | COMMITTED
  | REPLAYED
  deriving DecidableEq

structure CommitResult where
  receipt : CommandReceipt
  disposition : CommitDisposition
  deriving DecidableEq

def commandRequestIdentityVersion : JsString := lit "moe-command-request/1"

def requestBytes (input : SnapshotCommitInput) : List Byte :=
  frameText commandRequestIdentityVersion ++ frameText input.aggregateId ++ frameBytes (bigEndian64 input.expectedVersion)
    ++ frameBytes input.commandBytes

def assertAggregateTail (t : EventTable) (aggregateId : JsString) : ℕ :=
  ((t.rows.filter fun row => row.aggregateId = aggregateId).map EventRow.aggregateSequence).foldr max 0

def eventRowOf (input : SnapshotCommitInput) (requestSha256 : JsString) (previousVersion index : ℕ)
    (event : SnapshotEventDraft) : EventRow :=
  { aggregateId := input.aggregateId, aggregateSequence := previousVersion + index + 1, commandEventIndex := index,
    commandId := input.commandId, committedAt := input.committedAt, decisionTrace := none, decodedBytes := 0,
    domainSchemaVersion := event.domainSchemaVersion, eventId := event.eventId, eventType := event.eventType,
    globalPosition := 0, metadata := event.metadata, payload := event.payload, requestSha256 := requestSha256 }

def writeEvents (input : SnapshotCommitInput) (requestSha256 : JsString) (previousVersion : ℕ) :
    ℕ → EventTable → List SnapshotEventDraft → StoreResult EventTable
  | _, t, [] => .ok t
  | index, t, event :: rest => do
    let next ← t.insert (eventRowOf input requestSha256 previousVersion index event) event.size
    writeEvents input requestSha256 previousVersion (index + 1) next rest

def durableIdConflict (kind : String) (id : JsString) : StoreResult Unit :=
  .error ⟨.DURABLE_ID_CONFLICT, lit kind ++ lit " ID " ++ jsonText id ++ lit " already exists"⟩

def assertDurableIdsAvailable (db : Database) : List SnapshotEventDraft → StoreResult Unit
  | [] => .ok ()
  | event :: rest => do
    if event.eventId ∈ db.events.rows.map EventRow.eventId then durableIdConflict "event" event.eventId
    match event.outboxIds.find? fun id => id ∈ db.outboxIds with
    | some id => durableIdConflict "outbox_message" id
    | none => .ok ()
    assertDurableIdsAvailable db rest

def writeCommitEffects (db : Database) (input : SnapshotCommitInput) (requestSha256 : JsString) (previousVersion : ℕ) :
    StoreResult (Database × CommandReceipt) := do
  let currentVersion := previousVersion + input.events.length
  if (currentVersion : ℤ) > maxSafeInteger then
    limitExceeded (lit "aggregate version would exceed the safe integer range")
  assertDurableIdsAvailable db input.events
  let events ← writeEvents input requestSha256 previousVersion 0 db.events input.events
  let outboxIds := input.events.flatMap SnapshotEventDraft.outboxIds
  let receipt : CommandReceipt :=
    ⟨input.aggregateId, input.commandId, currentVersion, input.events.map SnapshotEventDraft.eventId, outboxIds,
      previousVersion, requestSha256⟩
  .ok ({ db with events := events, receipts := db.receipts ++ [receipt], outboxIds := db.outboxIds ++ outboxIds }, receipt)

/-! ### The command transaction (`event-ledger-transaction.ts:57-165`) -/

inductive CommitFailure (ρ : Type) where
  | store (error : StoreError)
  | apply (thrown : ρ)

section Transaction
variable {ρ α : Type} (sha256 : List Byte → JsString)

/-- `commitWithApply`: `apply` runs on the appended tables, `validateReplay` on the kept ones. -/
def commitWithApply (db : Database) (input : SnapshotCommitInput) (apply : Database → CommitResult → Except ρ (Database × α))
    (validateReplay : Database → Except ρ Unit) : Except (CommitFailure ρ) (Database × CommitResult × Option α) :=
  match assertExternalCommitIdentifiers input with
  | .error e => .error (.store e)
  | .ok _ =>
    match db.receipts.find? fun receipt => receipt.commandId = input.commandId with
    | some receipt =>
      if receipt.requestSha256 ≠ sha256 (requestBytes input) then
        .error (.store ⟨.COMMAND_ID_CONFLICT,
          lit "command " ++ jsonText input.commandId ++ lit " was reused for a different request"⟩)
      else if receipt.aggregateId ≠ input.aggregateId then
        .error (.store ⟨.STORE_CORRUPT, lit "command receipt " ++ jsonText input.commandId ++ lit " does not match its key"⟩)
      else match validateReplay db with
        | .error thrown => .error (.apply thrown)
        | .ok _ => .ok (db, ⟨receipt, .REPLAYED⟩, none)
    | none =>
      let previousVersion := assertAggregateTail db.events input.aggregateId
      if previousVersion ≠ input.expectedVersion then
        .error (.store ⟨.EXPECTED_VERSION_CONFLICT,
          lit "aggregate " ++ jsonText input.aggregateId ++ lit " is at version " ++ decimal previousVersion
            ++ lit ", expected " ++ decimal input.expectedVersion⟩)
      else match writeCommitEffects db input (sha256 (requestBytes input)) previousVersion with
        | .error e => .error (.store e)
        | .ok (written, receipt) =>
          match apply written ⟨receipt, .COMMITTED⟩ with
          | .error thrown => .error (.apply thrown)
          | .ok (applied, outcome) => .ok (applied, ⟨receipt, .COMMITTED⟩, some outcome)

end Transaction

/-! ### Reading a page (`event-read-query.ts:190-243`) -/

structure EventPage where
  items : List StoredEvent
  hasMore : Bool
  deriving DecidableEq

def EventTable.headers (t : EventTable) : List Store.StoredEvent := t.rows.map EventRow.header

def readEventsAfter (t : EventTable) (afterGlobalPosition limit : ℤ) : StoreResult EventPage := do
  let page ← globalEventPage t.headers afterGlobalPosition limit maxPageDecodedBytes
  match page.nextCursor with
  | none => .ok ⟨[], page.hasMore⟩
  | some last =>
    let rows := (t.rows.filter fun row => afterGlobalPosition < row.globalPosition ∧ row.globalPosition ≤ last).take
      page.items.length
    .ok ⟨rows.map EventRow.storedEvent, page.hasMore⟩

/-! ### A page is a stretch of the ledger -/

def EventTable.ledger (t : EventTable) : Ledger where
  events := t.headers
  positions := by
    rw [EventTable.headers, List.map_map, List.length_map]
    exact t.positions
  sized := by
    intro e he
    obtain ⟨row, hrow, rfl⟩ := List.mem_map.mp he
    exact t.sized row hrow
  bounded := by
    rw [EventTable.headers, List.length_map]
    exact t.bounded

theorem filter_after {A : Type} (key : A → ℕ) (first n : ℕ) (l : List A) (h : l.map key = List.range' (first + 1) l.length) :
    l.filter (fun a => first + n < key a) = l.drop n := by
  induction l generalizing first n with
  | nil => rw [List.drop_nil, List.filter_nil]
  | cons a rest ih =>
    rw [List.map_cons, List.length_cons, List.range'_succ, List.cons.injEq] at h
    obtain ⟨hkey, hrest⟩ := h
    have hnext := ih (first + 1)
    cases n with
    | zero =>
      rw [List.drop_zero, List.filter_eq_self]
      intro b hb
      have hmem : key b ∈ List.range' (first + 1) (rest.length + 1) := by
        rw [List.range'_succ, ← hrest, ← hkey, ← List.map_cons]
        exact List.mem_map_of_mem hb
      have := (List.mem_range'_1.mp hmem).1
      simp only [decide_eq_true_eq]
      omega
    | succ n =>
      rw [List.drop_succ_cons, List.filter_cons_of_neg (by simp only [decide_eq_true_eq]; omega),
        ← hnext n (by rw [hrest])]
      refine List.filter_congr fun b _ => ?_
      rw [decide_eq_decide]
      omega

theorem EventTable.rows_after (t : EventTable) (n : ℕ) :
    t.rows.filter (fun row => n < row.globalPosition) = t.rows.drop n := by
  have h := filter_after EventRow.globalPosition 0 n t.rows t.positions
  simpa only [Nat.zero_add] using h

theorem EventTable.increasing (t : EventTable) : t.rows.Pairwise fun a b => a.globalPosition < b.globalPosition := by
  have h : (t.rows.map EventRow.globalPosition).Pairwise (· < ·) := by
    rw [t.positions]
    exact List.pairwise_lt_range'
  exact List.pairwise_map.mp h

theorem pendingAfter_headers (t : EventTable) (n : ℕ) :
    pendingAfter t.headers n = (t.rows.drop n).map EventRow.header := by
  rw [← t.rows_after n, EventTable.headers, pendingAfter, List.filter_map]
  rfl

/-- A page without a byte budget of its own: the next rows, as many as fit, and at least one of them if there is any. -/
theorem readEventsAfter_eq (t : EventTable) (n limit : ℕ) (hn : n ≤ t.rows.length)
    (hlimit : 1 ≤ limit ∧ limit ≤ maxPageSize) :
    ∃ k, readEventsAfter t n limit =
        .ok ⟨((t.rows.drop n).take k).map EventRow.storedEvent, decide (k < (t.rows.drop n).length)⟩
      ∧ k ≤ (t.rows.drop n).length ∧ (t.rows.drop n ≠ [] → 0 < k) := by
  have hbudget : 1 ≤ maxPageDecodedBytes ∧ maxPageDecodedBytes ≤ maxPageDecodedBytes := by decide
  have hadmits : Admits maxPageDecodedBytes (pendingAfter t.headers n) := by
    rw [pendingAfter_headers]
    cases hdrop : t.rows.drop n with
    | nil => rfl
    | cons row rest =>
      have hrow : row ∈ t.rows := List.drop_subset n t.rows (hdrop ▸ List.mem_cons_self ..)
      simpa [Admits, EventRow.header] using (t.sized row hrow).2
  have hpage := globalEventPage_eq t.ledger n limit maxPageDecodedBytes (hn.trans t.bounded) hlimit hbudget
  rw [show t.ledger.events = t.headers from rfl, if_pos hadmits, pendingAfter_headers] at hpage
  rw [pendingAfter_headers] at hadmits
  have hinitial := budgetPrefix_isInitial limit maxPageDecodedBytes ((t.rows.drop n).map EventRow.header)
  generalize hitems : budgetPrefix limit maxPageDecodedBytes ((t.rows.drop n).map EventRow.header) = items at hinitial
  have hle : items.length ≤ (t.rows.drop n).length := by
    have h := hinitial.length_le
    rwa [List.length_map] at h
  have htake : ((t.rows.drop n).take items.length).map EventRow.header = items := by
    rw [List.map_take]
    exact (List.prefix_iff_eq_take.mp hinitial).symm
  have hempty : t.rows.drop n ≠ [] → 0 < items.length := by
    intro hne
    rw [List.length_pos_iff, ← hitems]
    intro hnil
    exact hne (List.map_eq_nil_iff.mp ((budgetPrefix_eq_nil_iff _ _ _ hlimit.1 hadmits).mp hnil))
  refine ⟨items.length, ?_, hle, hempty⟩
  unfold readEventsAfter
  rw [hpage, pageOf, hitems, List.length_map]
  dsimp only [bind, Except.bind]
  rw [← htake, List.getLast?_map, Option.map_map, htake]
  cases hlast : ((t.rows.drop n).take items.length).getLast? with
  | none =>
    rw [List.getLast?_eq_none_iff.mp hlast]
    rfl
  | some last =>
    have hstretch := filter_le_last EventRow.globalPosition _ _ (t.increasing.sublist (List.drop_sublist n t.rows)) last
      (List.take_prefix _ _) hlast
    have hfilter : (t.rows.filter fun row => (n : ℤ) < row.globalPosition ∧ row.globalPosition ≤ last.globalPosition) =
        (t.rows.drop n).take items.length := by
      rw [← hstretch, ← t.rows_after n, List.filter_filter]
      refine List.filter_congr fun row _ => ?_
      rw [← Bool.decide_and, decide_eq_decide, Nat.cast_lt]
      exact And.comm
    dsimp only [Option.map_some, Function.comp_apply, EventRow.header]
    rw [hfilter, List.take_take, Nat.min_self]

end MoeNG.Projections
