import MoeNG.Lib.OrdMap
import MoeNG.Store.ReadPage
import MoeNG.Subscriptions.Docs

/-!
# Subscription operations (`subscription-internals.ts`, `subscription-offers.ts`, `subscription-writes.ts`,
`subscription-read-page.ts`, `subscription-acknowledge.ts`)

Every operation runs in one transaction: it yields its result and the tables it
leaves, or a failure that leaves them alone.
-/

namespace MoeNG.Subscriptions
open MoeNG.Kernel MoeNG.Lib MoeNG.Store

/-! ### Tables and outcomes -/

/-- One row of `subscription_pending_offers`; the digest stands for the fields it frames. -/
structure OfferRow where
  generation : ℕ
  fromPosition : ℕ
  issuedPosition : ℕ
  checkpoint : ℕ
  pageLimit : ℕ
  maxDecodedBytes : Option ℕ
  eventCount : ℕ
  hasMore : Bool
  offerDigest : List JsString
  deriving DecidableEq

structure State where
  cursorGenerations : List ℕ
  eventSubscriptions : OrdMap JsString StoredDoc
  pendingOffers : OrdMap JsString OfferRow
  projections : OrdMap JsString ℕ
  domainEvents : Ledger

def State.empty : State := ⟨[], OrdMap.empty, OrdMap.empty, OrdMap.empty, Ledger.empty⟩

inductive Failure where
  | refused (code : SubscriptionCode) (layer : SubscriptionLayer) (detail : JsString)
  | thrown (error : StoreError)
  deriving DecidableEq

abbrev Outcome (α : Type) := Except Failure α

section Refusals
variable {α : Type}

def deny (code : SubscriptionCode) (layer : SubscriptionLayer) (detail : JsString) : Outcome α :=
  .error (.refused code layer detail)

def corrupt (detail : JsString) : Outcome α := deny .SUBSCRIPTION_STATE_CORRUPT .STATE detail

def requireInput : StoreResult α → Outcome α
  | .ok value => .ok value
  | .error e => deny .SUBSCRIPTION_INPUT_INVALID .INPUT e.message

/-- A store error keeps its own authority. -/
def propagate : StoreResult α → Outcome α
  | .ok value => .ok value
  | .error e => .error (.thrown e)

end Refusals

/-! ### Durable readers (`subscription-internals.ts:142-265`) -/

def currentGeneration (db : State) : Option ℕ := db.cursorGenerations.max?

def requireGeneration (db : State) : Outcome ℕ :=
  match currentGeneration db with
  | some generation => .ok generation
  | none => deny .SUBSCRIPTION_GENERATION_MISSING .STATE (lit "no cursor generation exists")

def requireCurrentGeneration (db : State) (claimed : ℤ) : Outcome ℕ := do
  let generation ← requireGeneration db
  if claimed ≠ generation then
    deny .SUBSCRIPTION_GENERATION_MISSING .STATE
      (lit "generation " ++ decimalInt claimed ++ lit " is not the current generation " ++ decimal generation)
  else .ok generation

def State.retainedFloor (db : State) : Option ℕ := Store.retainedFloor db.domainEvents.events

-- an absent row means the projection has never run
def projectionCheckpoint (db : State) (projection : JsString) : ℕ := (db.projections.get projection).getD 0

def docRow (db : State) (subscriberId : JsString) : Option StoredDoc := db.eventSubscriptions.get subscriberId

/-- `UPSERT_DOC` and `UPDATE_DOC`: one row, one value. -/
def State.putDoc (db : State) (subscriberId : JsString) (doc : StoredDoc) : State :=
  { db with eventSubscriptions := db.eventSubscriptions.set subscriberId doc }

def loadSnapshot (db : State) (projection : JsString) (generation : ℕ) : Outcome SnapshotDoc :=
  match docRow db (snapshotSubscriberId projection) with
  | none => corrupt (lit "the " ++ projection ++ lit " baseline snapshot is missing")
  | some text =>
    match decodeSnapshotDoc text with
    | none => corrupt (lit "the " ++ projection ++ lit " baseline snapshot is unparseable")
    | some doc =>
      if doc.generation ≠ generation then
        corrupt (lit "the " ++ projection ++ lit " baseline snapshot is from generation " ++ decimal doc.generation)
      else .ok doc

def requireSubscriberId (value : JsString) : Outcome JsString :=
  if isReservedSubscriberId value then
    deny .SUBSCRIPTION_INPUT_INVALID .INPUT
      (lit "subscriber ids starting with " ++ snapshotSubscriberPrefix ++ lit " are reserved for baselines")
  else requireInput (requireIdentifier value "subscriberId")

def requireDocText (text : Option StoredDoc) (subscriberId : JsString) : Outcome StoredDoc :=
  match text with
  | none => deny .SUBSCRIPTION_NOT_REGISTERED .STATE (subscriberId ++ lit " has no durable subscription")
  | some text => .ok text

def encodedCursor (filter : List JsString) (generation position : ℕ) (projection : JsString) :
    Outcome SubscriberDoc :=
  match encodeSubscriberDoc filter generation position projection with
  | none => deny .SUBSCRIPTION_INPUT_INVALID .INPUT (lit "the cursor doc is not encodable")
  | some doc => .ok doc

def compareAndSet (db : State) (subscriberId : JsString) (expected next : StoredDoc) : Outcome State :=
  if docRow db subscriberId = some expected then
    .ok (db.putDoc subscriberId next)
  else corrupt (lit "the " ++ subscriberId ++ lit " subscription row changed under the write")

inductive SeatOutcome where
  | REGISTERED
  | RESEATED
  deriving DecidableEq

structure SubscriptionSeated where
  cursor : SubscriptionCursor
  outcome : SeatOutcome
  snapshot : SnapshotDoc
  deriving DecidableEq

def seat (outcome : SeatOutcome) (generation position : ℕ) (snapshot : SnapshotDoc) : SubscriptionSeated :=
  ⟨⟨generation, position⟩, outcome, snapshot⟩

/-! ### Pending offers (`subscription-offers.ts:9-152`) -/

structure PendingSubscriptionOffer where
  checkpoint : ℕ
  eventCount : ℕ
  fromPosition : ℕ
  generation : ℕ
  hasMore : Bool
  issued : ℕ
  limit : ℕ
  maxDecodedBytes : Option ℕ
  subscriberId : JsString
  deriving DecidableEq

def offerDigest (offer : PendingSubscriptionOffer) : List JsString :=
  [lit "moe-subscription-offer/1", offer.subscriberId, decimal offer.generation, decimal offer.fromPosition,
    decimal offer.issued, decimal offer.checkpoint, decimal offer.limit,
    (match offer.maxDecodedBytes with | none => lit "ABSENT" | some bytes => decimal bytes),
    decimal offer.eventCount, if offer.hasMore then lit "1" else lit "0"]

def maxPositionTextLength : ℕ := 19

def positiveSafeInteger (value : ℕ) (field : String) (maximum : ℕ) : Outcome ℕ :=
  if (value : ℤ) > maxSafeInteger ∨ value < 1 ∨ value > maximum then
    corrupt (lit "the pending offer " ++ lit field ++ lit " is invalid")
  else .ok value

def absentOrPositive (value : Option ℕ) (field : String) (maximum : ℕ) : Outcome (Option ℕ) :=
  match value with
  | none => .ok none
  | some value => (positiveSafeInteger value field maximum).map some

def position (value : ℕ) (field : String) : Outcome ℕ :=
  if (formatPosition value).length > maxPositionTextLength then
    corrupt (lit "the pending offer " ++ lit field ++ lit " is not a bounded position")
  else .ok value

def loadPendingOffer (db : State) (subscriberId : JsString) : Outcome (Option PendingSubscriptionOffer) :=
  match db.pendingOffers.get subscriberId with
  | none => .ok none
  | some row => do
    let generation ← positiveSafeInteger row.generation "generation" maxSafeInteger.toNat
    let fromPosition ← position row.fromPosition "from_position"
    let issued ← position row.issuedPosition "issued_position"
    let checkpoint ← position row.checkpoint "checkpoint"
    let limit ← positiveSafeInteger row.pageLimit "page_limit" maxPageSize
    let eventCount ← positiveSafeInteger row.eventCount "event_count" maxPageSize
    let maxDecodedBytes ← absentOrPositive row.maxDecodedBytes "max_decoded_bytes" maxPageDecodedBytes
    if issued ≤ fromPosition ∨ issued > checkpoint then
      corrupt (lit "the pending offer cursor bounds are inconsistent")
    else
      let offer : PendingSubscriptionOffer :=
        ⟨checkpoint, eventCount, fromPosition, generation, row.hasMore, issued, limit, maxDecodedBytes, subscriberId⟩
      if row.offerDigest ≠ offerDigest offer then
        corrupt (lit "the pending offer identity does not match its durable fields")
      else .ok (some offer)

def PendingSubscriptionOffer.row (offer : PendingSubscriptionOffer) : OfferRow :=
  ⟨offer.generation, offer.fromPosition, offer.issued, offer.checkpoint, offer.limit, offer.maxDecodedBytes,
    offer.eventCount, offer.hasMore, offerDigest offer⟩

def State.putOffer (db : State) (offer : PendingSubscriptionOffer) : State :=
  { db with pendingOffers := db.pendingOffers.set offer.subscriberId offer.row }

/-- An insert under the primary key: it fails when the subscriber has a row. -/
def issuePendingOffer (db : State) (offer : PendingSubscriptionOffer) : Outcome State :=
  if db.pendingOffers.get offer.subscriberId = none then .ok (db.putOffer offer)
  else corrupt (lit "SQLite did not persist the pending page offer")

def consumePendingOffer (db : State) (offer : PendingSubscriptionOffer) : Outcome State :=
  if db.pendingOffers.get offer.subscriberId = some offer.row then
    .ok { db with pendingOffers := db.pendingOffers.erase offer.subscriberId }
  else corrupt (lit "the pending page offer changed under acknowledgement")

def clearPendingOffer (db : State) (subscriberId : JsString) : State :=
  { db with pendingOffers := db.pendingOffers.erase subscriberId }

def clearAllPendingOffers (db : State) : State := { db with pendingOffers := OrdMap.empty }

/-! ### Writes (`subscription-writes.ts:32-214`) -/

inductive StartMode where
  | ORIGIN
  | SNAPSHOT
  deriving DecidableEq

structure RegisterSubscriptionInput where
  at_ : JsString
  filter : Option (List JsString)
  projection : JsString
  startMode : Option StartMode
  subscriberId : JsString

structure GenerationBaseline where
  checkpoint : ℤ
  projection : JsString
  state : Option JsString
  stateDigest : JsString

structure SnapshotPublishInput extends GenerationBaseline where
  generation : ℤ

structure AdvanceGenerationInput where
  at_ : JsString
  baselines : List GenerationBaseline
  reason : JsString

structure ReseatInput where
  projection : JsString
  subscriberId : JsString

def originPosition (db : State) (projection : JsString) : Outcome ℕ :=
  let intact : Bool := match db.retainedFloor with
    | none => projectionCheckpoint db projection = 0
    | some floor => floor ≤ 1
  if !intact then
    deny .SUBSCRIPTION_INPUT_INVALID .INPUT
      (lit "an origin start is unavailable because retained history no longer begins at the origin")
  else .ok 0

def startPosition (db : State) (projection : JsString) (startMode : Option StartMode) (doc : SnapshotDoc) : Outcome ℕ :=
  if startMode = some .ORIGIN then originPosition db projection else .ok doc.checkpoint

def registerSubscription (db : State) (input : RegisterSubscriptionInput) : Outcome (SubscriptionSeated × State) := do
  let subscriberId ← requireSubscriberId input.subscriberId
  let projection ← requireInput (requireIdentifier input.projection "projection")
  let _ ← requireInput (requireCanonicalTimestamp input.at_ "at")
  let generation ← requireGeneration db
  if docRow db subscriberId ≠ none then
    deny .SUBSCRIPTION_INPUT_INVALID .INPUT (subscriberId ++ lit " is already registered")
  else
    let doc ← loadSnapshot db projection generation
    let position ← startPosition db projection input.startMode doc
    let text ← encodedCursor (input.filter.getD []) generation position projection
    .ok (seat .REGISTERED generation position doc, db.putDoc subscriberId (.subscriber text))

def publishSnapshot (db : State) (input : SnapshotPublishInput) : Outcome (SnapshotDoc × State) := do
  let projection ← requireInput (requireIdentifier input.projection "projection")
  let checkpoint ← requireInput (requireNonnegativeBigInt input.checkpoint "checkpoint")
  let generation ← requireCurrentGeneration db input.generation
  let doc ← loadSnapshot db projection generation
  if checkpoint < doc.checkpoint then
    deny .SUBSCRIPTION_SNAPSHOT_REGRESSION .STATE
      (lit "checkpoint " ++ formatPosition checkpoint ++ lit " is behind the baseline " ++
        formatPosition doc.checkpoint)
  else
    match encodeSnapshotDoc checkpoint generation projection input.state input.stateDigest with
    | none => deny .SUBSCRIPTION_INPUT_INVALID .INPUT (lit "the snapshot doc is not encodable")
    | some next => do
      let db' ← compareAndSet db (snapshotSubscriberId projection) (.snapshot doc) (.snapshot next)
      .ok (next, db')

/-- The projections that a baseline sentinel or a live subscriber stands for. -/
def coveredProjections : List (JsString × StoredDoc) → Outcome (List JsString)
  | [] => .ok []
  | (subscriberId, stored) :: rest =>
    if isReservedSubscriberId subscriberId then do
      let covered ← coveredProjections rest
      .ok (subscriberId.drop snapshotSubscriberPrefix.length :: covered)
    else
      match decodeSubscriberDoc stored with
      | none => corrupt (lit "the " ++ subscriberId ++ lit " cursor doc is unparseable")
      | some doc => do
        let covered ← coveredProjections rest
        .ok (doc.projection :: covered)

def encodedBaselines (generation : ℕ) (baselines : OrdMap JsString SnapshotDoc) :
    List GenerationBaseline → Outcome (OrdMap JsString SnapshotDoc)
  | [] => .ok baselines
  | item :: rest => do
    let projection ← requireInput (requireIdentifier item.projection "baseline.projection")
    let checkpoint ← requireInput (requireNonnegativeBigInt item.checkpoint "baseline.checkpoint")
    match encodeSnapshotDoc checkpoint generation projection item.state item.stateDigest with
    | none =>
      deny .SUBSCRIPTION_INPUT_INVALID .INPUT
        (lit "the " ++ projection ++ lit " baseline is duplicated or not encodable")
    | some text =>
      if baselines.has projection then
        deny .SUBSCRIPTION_INPUT_INVALID .INPUT
          (lit "the " ++ projection ++ lit " baseline is duplicated or not encodable")
      else encodedBaselines generation (baselines.set projection text) rest

def upsertBaselines (db : State) (baselines : List (JsString × SnapshotDoc)) : State :=
  baselines.foldl (fun db entry => db.putDoc (snapshotSubscriberId entry.1) (.snapshot entry.2)) db

def advanceGeneration (db : State) (input : AdvanceGenerationInput) : Outcome (ℕ × State) := do
  let _ ← requireInput (requireCanonicalTimestamp input.at_ "at")
  let _ ← requireInput (requireIdentifier input.reason "reason")
  let generation := (currentGeneration db).getD 0 + 1
  let baselines ← encodedBaselines generation OrdMap.empty input.baselines
  let covered ← coveredProjections db.eventSubscriptions.entries
  match covered.find? fun projection => !baselines.has projection with
  | some projection =>
    deny .SUBSCRIPTION_GENERATION_BASELINE_MISSING .STATE
      (lit "projection " ++ projection ++ lit " has no baseline snapshot in the new generation")
  | none =>
    let db := { db with cursorGenerations := db.cursorGenerations ++ [generation] }
    .ok (generation, upsertBaselines (clearAllPendingOffers db) baselines.entries)

/-- Something that a cursor at `position` still owes is gone. -/
def historyPruned (db : State) (projection : JsString) (position : ℕ) : Bool :=
  match db.retainedFloor with
  | none => position < projectionCheckpoint db projection
  | some floor => position + 1 < floor

def requireReachableSnapshot (db : State) (projection : JsString) (snapshot : SnapshotDoc) : Outcome Unit :=
  if historyPruned db projection snapshot.checkpoint then
    deny .SUBSCRIPTION_SNAPSHOT_STALE .STATE
      (lit "retained history no longer reaches the " ++ projection ++ lit " baseline snapshot")
  else .ok ()

def requireProjection (subscriberId projection : JsString) (doc : Option SubscriberDoc) : Outcome Unit :=
  match doc with
  | some doc =>
    if doc.projection ≠ projection then
      deny .SUBSCRIPTION_INPUT_INVALID .INPUT
        (subscriberId ++ lit " follows " ++ doc.projection ++ lit ", not " ++ projection)
    else .ok ()
  | none => .ok ()

def reseatToSnapshot (db : State) (input : ReseatInput) : Outcome (SubscriptionSeated × State) := do
  let subscriberId ← requireSubscriberId input.subscriberId
  let projection ← requireInput (requireIdentifier input.projection "projection")
  let generation ← requireGeneration db
  let text ← requireDocText (docRow db subscriberId) subscriberId
  let doc := decodeSubscriberDoc text
  requireProjection subscriberId projection doc
  let snapshot ← loadSnapshot db projection generation
  requireReachableSnapshot db projection snapshot
  let next ← encodedCursor ((doc.map SubscriberDoc.filter).getD []) generation snapshot.checkpoint projection
  let db' ← compareAndSet db subscriberId text (.subscriber next)
  .ok (seat .RESEATED generation snapshot.checkpoint snapshot, clearPendingOffer db' subscriberId)

/-! ### Page reads (`subscription-read-page.ts:32-218`) -/

def defaultSubscriptionPageLimit : ℤ := 100

structure SubscriptionPageRequest where
  projection : JsString
  subscriberId : JsString
  limit : Option ℤ
  maxDecodedBytes : Option ℤ

structure SubscriptionPage where
  checkpoint : ℕ
  events : List StoredEvent
  hasMore : Bool
  nextCursor : Option SubscriptionCursor
  deriving DecidableEq

structure SubscriptionGap where
  cause : SubscriptionGapCause
  lastGoodCursor : Option SubscriptionCursor
  snapshot : SnapshotDoc
  deriving DecidableEq

inductive SubscriptionPageResult where
  | PAGE (page : SubscriptionPage)
  | CURSOR_GAP (gap : SubscriptionGap)
  deriving DecidableEq

def clampToCheckpoint (source : CursorPage) (checkpoint generation : ℕ) : SubscriptionPage :=
  let kept := source.items.filter fun event => event.globalPosition ≤ checkpoint
  let last := kept.getLast?
  let withinBound : Bool := kept.length = source.items.length && last.any fun e => e.globalPosition < checkpoint
  ⟨checkpoint, kept, withinBound && source.hasMore, last.map fun e => ⟨generation, e.globalPosition⟩⟩

structure PageBounds where
  limit : ℕ
  maxDecodedBytes : Option ℕ
  deriving DecidableEq

def boundsOf (request : SubscriptionPageRequest) : Outcome PageBounds := do
  let limit ← requireInput (requirePageLimit (request.limit.getD defaultSubscriptionPageLimit))
  match request.maxDecodedBytes with
  | none => .ok ⟨limit, none⟩
  | some bytes => do
    let maxDecodedBytes ← requireInput (requirePageDecodedByteLimit bytes)
    .ok ⟨limit, some maxDecodedBytes⟩

def PageBounds.byteLimit (bounds : PageBounds) : ℕ := bounds.maxDecodedBytes.getD maxPageDecodedBytes

def readClamped (db : State) (bounds : PageBounds) (after checkpoint generation : ℕ) : Outcome SubscriptionPage := do
  let source ← propagate (globalEventPage db.domainEvents.events after bounds.limit bounds.byteLimit)
  .ok (clampToCheckpoint source checkpoint generation)

structure ResumePlan where
  after : ℕ
  checkpoint : ℕ
  generation : ℕ
  deriving DecidableEq

-- `decide` of the source
def decideResume (db : State) (subscriberId projection : JsString) : Outcome (ResumePlan ⊕ SubscriptionGap) := do
  let generation ← requireGeneration db
  let text ← requireDocText (docRow db subscriberId) subscriberId
  requireProjection subscriberId projection (decodeSubscriberDoc text)
  let snapshot ← loadSnapshot db projection generation
  match decodeSubscriberDoc text with
  | none => .ok (.inr ⟨.CURSOR_CORRUPT, none, snapshot⟩)
  | some doc =>
    if doc.cursor.generation ≠ generation then .ok (.inr ⟨.GENERATION_CHANGED, some doc.cursor, snapshot⟩)
    else
      let position := doc.cursor.position
      let checkpoint := projectionCheckpoint db projection
      if historyPruned db projection position then .ok (.inr ⟨.HISTORY_PRUNED, some doc.cursor, snapshot⟩)
      else if position > checkpoint then .ok (.inr ⟨.CURSOR_AHEAD, some doc.cursor, snapshot⟩)
      else .ok (.inl ⟨position, checkpoint, generation⟩)

def replay (db : State) (plan : ResumePlan) (offer : PendingSubscriptionOffer) : Outcome SubscriptionPage :=
  if offer.generation ≠ plan.generation ∨ offer.fromPosition ≠ plan.after then
    corrupt (lit "the pending page offer is not based on the durable subscriber cursor")
  else if offer.checkpoint > plan.checkpoint then
    corrupt (lit "the pending page offer is beyond the durable projection checkpoint")
  else do
    let page ← readClamped db ⟨offer.limit, offer.maxDecodedBytes⟩ offer.fromPosition offer.checkpoint offer.generation
    if page.nextCursor.map SubscriptionCursor.position ≠ some offer.issued ∨ page.events.length ≠ offer.eventCount
        ∨ page.hasMore ≠ offer.hasMore ∨ page.checkpoint ≠ offer.checkpoint then
      corrupt (lit "the durable ledger can no longer reproduce the pending page offer")
    else .ok page

def issue (db : State) (subscriberId : JsString) (plan : ResumePlan) (bounds : PageBounds) :
    Outcome (SubscriptionPage × State) := do
  let page ← readClamped db bounds plan.after plan.checkpoint plan.generation
  match page.nextCursor with
  | none => .ok (page, db)
  | some cursor =>
    let issued := cursor.position
    if issued ≤ plan.after ∨ page.events.length = 0 then
      corrupt (lit "the issued page cursor is inconsistent")
    else do
      let db' ← issuePendingOffer db ⟨plan.checkpoint, page.events.length, plan.after, plan.generation, page.hasMore,
        issued, bounds.limit, bounds.maxDecodedBytes, subscriberId⟩
      .ok (page, db')

def readSubscriptionPage (db : State) (request : SubscriptionPageRequest) :
    Outcome (SubscriptionPageResult × State) := do
  let subscriberId ← requireSubscriberId request.subscriberId
  let projection ← requireInput (requireIdentifier request.projection "projection")
  let bounds ← boundsOf request
  match ← decideResume db subscriberId projection with
  | .inr gap => .ok (.CURSOR_GAP gap, db)
  | .inl plan =>
    match ← loadPendingOffer db subscriberId with
    | none => do
      let (page, db') ← issue db subscriberId plan bounds
      .ok (.PAGE page, db')
    | some pending => do
      let page ← replay db plan pending
      .ok (.PAGE page, db)

/-! ### Acknowledgement (`subscription-acknowledge.ts:12-54`) -/

structure AcknowledgeInput where
  generation : ℤ
  position : JsString
  subscriberId : JsString

def acknowledge (db : State) (input : AcknowledgeInput) : Outcome (SubscriptionCursor × State) := do
  let subscriberId ← requireSubscriberId input.subscriberId
  match parsePosition input.position with
  | none => deny .SUBSCRIPTION_INPUT_INVALID .INPUT (lit "cursor.position must be a decimal position")
  | some position => do
    let generation ← requireCurrentGeneration db input.generation
    let text ← requireDocText (docRow db subscriberId) subscriberId
    match decodeSubscriberDoc text with
    | none => corrupt (lit "the " ++ subscriberId ++ lit " cursor doc is unparseable")
    | some doc =>
      if doc.cursor.generation ≠ generation then
        corrupt (lit "the " ++ subscriberId ++ lit " cursor doc is from generation " ++ decimal doc.cursor.generation)
      else if position < doc.cursor.position then
        deny .SUBSCRIPTION_CURSOR_REGRESSION .STATE
          (lit "cursor " ++ formatPosition position ++ lit " is behind the durable cursor " ++
            formatPosition doc.cursor.position)
      else do
        let pending ← loadPendingOffer db subscriberId
        match pending.filter fun p => p.generation = generation && p.issued = position with
        | none =>
          deny .SUBSCRIPTION_CURSOR_NOT_ISSUED .STATE
            (lit "cursor " ++ formatPosition position ++ lit " is not the subscriber's pending page offer")
        | some pending =>
          if pending.fromPosition ≠ doc.cursor.position
              ∨ pending.issued > projectionCheckpoint db doc.projection then
            corrupt (lit "the " ++ subscriberId ++ lit " pending page offer is inconsistent with durable state")
          else do
            let next ← encodedCursor doc.filter generation position doc.projection
            let db' ← compareAndSet db subscriberId text (.subscriber next)
            let db'' ← consumePendingOffer db' pending
            .ok (⟨generation, position⟩, db'')

end MoeNG.Subscriptions
