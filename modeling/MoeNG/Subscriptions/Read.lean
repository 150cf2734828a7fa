import Mathlib.Data.Nat.Digits.Lemmas
import MoeNG.Subscriptions.Invariant

/-!
# Page reads of a consistent store

Every check of a read is evaluated in a state that meets the invariant: which
refusals are left, when the cursor is gapped, and which page is returned.
-/

namespace MoeNG.Subscriptions
open MoeNG.Kernel MoeNG.Lib MoeNG.Store

/-! ### The unpruned ledger -/

theorem Ledger.retainedFloor_le (ledger : Ledger) (floor : ℕ) (h : Store.retainedFloor ledger.events = some floor) :
    floor ≤ 1 := by
  unfold Store.retainedFloor at h
  rw [ledger.positions] at h
  obtain ⟨hmem, hle⟩ := List.min?_eq_some_iff.mp h
  obtain ⟨hlow, hhigh⟩ := List.mem_range'_1.mp hmem
  exact hle 1 (List.mem_range'_1.mpr ⟨le_rfl, by omega⟩)

theorem Ledger.empty_of_retainedFloor (ledger : Ledger) (h : Store.retainedFloor ledger.events = none) :
    ledger.events.length = 0 := by
  unfold Store.retainedFloor at h
  rw [List.min?_eq_none_iff, List.map_eq_nil_iff] at h
  rw [h]
  rfl

section Reads
variable {db : State}

theorem Consistent.baseline (h : Consistent db) (p : JsString) (hne : docRow db (snapshotSubscriberId p) ≠ none) :
    ∃ s, docRow db (snapshotSubscriberId p) = some (.snapshot s) ∧ currentGeneration db = some s.generation
      ∧ loadSnapshot db p s.generation = .ok s := by
  obtain ⟨stored, hstored⟩ := Option.ne_none_iff_exists'.mp hne
  obtain ⟨s, rfl, -, hcurrent⟩ := h.sentinel p stored hstored
  refine ⟨s, hstored, hcurrent, ?_⟩
  unfold loadSnapshot
  rw [hstored]
  dsimp only [decodeSnapshotDoc]
  rw [if_neg (not_not.mpr rfl)]

theorem Consistent.not_pruned (h : Consistent db) (projection : JsString) (position : ℕ) :
    historyPruned db projection position = false := by
  unfold historyPruned State.retainedFloor
  cases hfloor : Store.retainedFloor db.domainEvents.events with
  | none =>
    have hempty := Ledger.empty_of_retainedFloor _ hfloor
    have hcheckpoint := h.checkpoint projection
    simp only [decide_eq_false_iff_not]
    omega
  | some floor =>
    have hle := Ledger.retainedFloor_le _ _ hfloor
    simp only [decide_eq_false_iff_not]
    omega

/-- What a read decides about the cursor of a live subscriber. -/
def resume (db : State) (doc : SubscriberDoc) (snapshot : SnapshotDoc) : ResumePlan ⊕ SubscriptionGap :=
  if doc.cursor.generation ≠ snapshot.generation then .inr ⟨.GENERATION_CHANGED, some doc.cursor, snapshot⟩
  else if doc.cursor.position > projectionCheckpoint db doc.projection then
    .inr ⟨.CURSOR_AHEAD, some doc.cursor, snapshot⟩
  else .inl ⟨doc.cursor.position, projectionCheckpoint db doc.projection, snapshot.generation⟩

theorem decideResume_eq (h : Consistent db) (id : JsString) (doc : SubscriberDoc)
    (hfree : isReservedSubscriberId id = false) (hdoc : docRow db id = some (.subscriber doc)) :
    ∃ snapshot, docRow db (snapshotSubscriberId doc.projection) = some (.snapshot snapshot)
      ∧ currentGeneration db = some snapshot.generation
      ∧ decideResume db id doc.projection = .ok (resume db doc snapshot) := by
  obtain ⟨doc', heq, hbaseline, -⟩ := h.subscriber id _ hfree hdoc
  cases heq
  obtain ⟨snapshot, hrow, hcurrent, hload⟩ := h.baseline _ hbaseline
  refine ⟨snapshot, hrow, hcurrent, ?_⟩
  have hgeneration : requireGeneration db = .ok snapshot.generation := by
    unfold requireGeneration
    rw [hcurrent]
  have hprojection : requireProjection id doc.projection (some doc) = .ok () := if_neg (not_not.mpr rfl)
  unfold decideResume
  rw [hgeneration, hdoc]
  dsimp only [bind, Except.bind, requireDocText, decodeSubscriberDoc]
  rw [hprojection]
  dsimp only
  rw [hload]
  dsimp only
  rw [h.not_pruned doc.projection doc.cursor.position]
  unfold resume
  split
  · rfl
  · simp only [Bool.false_eq_true, if_false]
    split <;> rfl

/-! ### Pending offers reload -/

theorem formatPosition_length (n : ℕ) (h : n ≤ maxSqliteInteger) :
    (formatPosition n).length ≤ maxPositionTextLength := by
  unfold formatPosition decimal maxPositionTextLength
  split
  · decide
  · rw [List.length_map, List.length_reverse]
    exact (Nat.digits_length_le_iff (by decide) n).mpr (h.trans_lt (by decide))

/-- The bounds that an offered page puts on its offer. -/
theorem Pending.bounded (h : Consistent db) {id : JsString} {doc : SubscriberDoc} {offer : PendingSubscriptionOffer}
    (hpending : Pending db id doc offer) :
    offer.fromPosition < offer.issued ∧ offer.issued ≤ offer.checkpoint ∧ offer.checkpoint ≤ maxSqliteInteger
      ∧ 1 ≤ offer.eventCount ∧ offer.eventCount ≤ maxPageSize := by
  have hissued := hpending.issued
  have hcount := hpending.eventCount
  unfold PendingSubscriptionOffer.page windowPage at hissued hcount
  dsimp only at hissued hcount
  obtain ⟨last, hlast, hcursor⟩ := Option.map_eq_some_iff.mp hissued
  have hmem := List.mem_of_getLast? hlast
  have hwindow := (List.mem_filter.mp ((budgetPrefix_isInitial _ _ _).subset hmem)).2
  simp only [decide_eq_true_eq] at hwindow
  have hposition : last.globalPosition = offer.issued := congrArg SubscriptionCursor.position hcursor
  have hlength := budgetPrefix_length offer.limit (⟨offer.limit, offer.maxDecodedBytes⟩ : PageBounds).byteLimit
    (window db.domainEvents.events offer.fromPosition offer.checkpoint)
  have hpos := List.length_pos_of_mem hmem
  have hledger := db.domainEvents.bounded
  have hcheckpoint := h.checkpoint doc.projection
  have hbehind := hpending.behind
  have hlimit := hpending.bounds.limit.2
  dsimp only at hlimit
  omega

theorem positiveSafeInteger_eq (value maximum : ℕ) (field : String) (h : 1 ≤ value ∧ value ≤ maximum)
    (hmaximum : (maximum : ℤ) ≤ maxSafeInteger) : positiveSafeInteger value field maximum = .ok value := by
  unfold positiveSafeInteger
  rw [if_neg]
  omega

theorem absentOrPositive_eq (value : Option ℕ) (maximum : ℕ) (field : String)
    (h : ∀ v, value = some v → 1 ≤ v ∧ v ≤ maximum) (hmaximum : (maximum : ℤ) ≤ maxSafeInteger) :
    absentOrPositive value field maximum = .ok value := by
  cases value with
  | none => rfl
  | some v =>
    unfold absentOrPositive
    dsimp only
    rw [positiveSafeInteger_eq v maximum field (h v rfl) hmaximum]
    rfl

theorem position_eq (value : ℕ) (field : String) (h : value ≤ maxSqliteInteger) : position value field = .ok value := by
  unfold position
  rw [if_neg (not_lt.mpr (formatPosition_length value h))]

/-- No check of the offer reader fails on an offer that the invariant describes. -/
theorem loadPendingOffer_eq (h : Consistent db) {id : JsString} {doc : SubscriberDoc} {offer : PendingSubscriptionOffer}
    (hsafe : isGeneration doc.cursor.generation = true) (hpending : Pending db id doc offer) :
    loadPendingOffer db id = .ok (some offer) := by
  obtain ⟨hbeyond, hwithin, hrange, hcount⟩ := hpending.bounded h
  simp only [isGeneration, decide_eq_true_eq, ← hpending.generation] at hsafe
  have hidentity := hpending.identity
  subst hidentity
  unfold loadPendingOffer
  rw [hpending.row]
  dsimp only [PendingSubscriptionOffer.row]
  rw [positiveSafeInteger_eq offer.generation _ _ (by omega) (by decide), position_eq offer.fromPosition _ (by omega),
    position_eq offer.issued _ (by omega), position_eq offer.checkpoint _ hrange,
    positiveSafeInteger_eq offer.limit _ _ hpending.bounds.limit (by decide),
    positiveSafeInteger_eq offer.eventCount _ _ hcount (by decide),
    absentOrPositive_eq offer.maxDecodedBytes _ _ hpending.bounds.bytes (by decide)]
  dsimp only [bind, Except.bind]
  rw [if_neg (by omega), if_neg (not_not.mpr rfl)]

/-! ### Replayed and issued pages -/

/-- The ledger of a consistent store reproduces a pending page. -/
theorem replay_eq (h : Consistent db) {id : JsString} {doc : SubscriberDoc} {offer : PendingSubscriptionOffer}
    (hpending : Pending db id doc offer) :
    replay db ⟨doc.cursor.position, projectionCheckpoint db doc.projection, doc.cursor.generation⟩ offer =
      .ok (offer.page db.domainEvents.events) := by
  obtain ⟨hbeyond, hwithin, hrange, -⟩ := hpending.bounded h
  have hadmits : Admits (⟨offer.limit, offer.maxDecodedBytes⟩ : PageBounds).byteLimit
      (pendingAfter db.domainEvents.events offer.fromPosition) :=
    admits_of_nextCursor db.domainEvents _ _ _ _ _ hpending.issued
  unfold replay
  rw [if_neg (by simp [hpending.generation, hpending.fromCursor]), if_neg (not_lt.mpr hpending.behind),
    readClamped_eq db _ _ _ _ (by omega) hpending.bounds (hpending.behind.trans (h.checkpoint _)), if_pos hadmits]
  dsimp only [bind, Except.bind]
  rw [if_neg]
  · rfl
  · have hissued := hpending.issued
    have hcount := hpending.eventCount
    have hmore := hpending.hasMore
    unfold PendingSubscriptionOffer.page at hissued hcount hmore
    rw [hissued, hcount, hmore]
    simp [windowPage]

/-- The page that a cursor is issued when nothing is pending. -/
def freshPage (db : State) (doc : SubscriberDoc) (bounds : PageBounds) : SubscriptionPage :=
  windowPage db.domainEvents.events bounds doc.cursor.position (projectionCheckpoint db doc.projection)
    doc.cursor.generation

theorem readClamped_fresh (h : Consistent db) (doc : SubscriberDoc) (bounds : PageBounds) (hbounds : bounds.Valid)
    (hbehind : doc.cursor.position ≤ projectionCheckpoint db doc.projection) :
    readClamped db bounds doc.cursor.position (projectionCheckpoint db doc.projection) doc.cursor.generation =
      if Admits bounds.byteLimit (pendingAfter db.domainEvents.events doc.cursor.position) then
        .ok (freshPage db doc bounds)
      else
        .error (.thrown ⟨.STORE_LIMIT_EXCEEDED,
          lit "the next record does not fit within " ++ decimal bounds.byteLimit ++ lit " decoded bytes"⟩) := by
  have hledger := db.domainEvents.bounded
  have hcheckpoint := h.checkpoint doc.projection
  exact readClamped_eq db bounds _ _ _ (by omega) hbounds hcheckpoint

def offerOf (id : JsString) (doc : SubscriberDoc) (bounds : PageBounds) (page : SubscriptionPage) (issued : ℕ) :
    PendingSubscriptionOffer :=
  ⟨page.checkpoint, page.events.length, doc.cursor.position, doc.cursor.generation, page.hasMore, issued,
    bounds.limit, bounds.maxDecodedBytes, id⟩

def offered (db : State) (id : JsString) (doc : SubscriberDoc) (bounds : PageBounds) : State :=
  match (freshPage db doc bounds).nextCursor with
  | none => db
  | some cursor => db.putOffer (offerOf id doc bounds (freshPage db doc bounds) cursor.position)

/-- An issued page is either empty or recorded as the pending offer. -/
theorem issue_eq (h : Consistent db) (id : JsString) (doc : SubscriberDoc) (bounds : PageBounds)
    (hbounds : bounds.Valid) (hbehind : doc.cursor.position ≤ projectionCheckpoint db doc.projection)
    (hnone : db.pendingOffers.get id = none) :
    issue db id ⟨doc.cursor.position, projectionCheckpoint db doc.projection, doc.cursor.generation⟩ bounds =
      if Admits bounds.byteLimit (pendingAfter db.domainEvents.events doc.cursor.position) then
        .ok (freshPage db doc bounds, offered db id doc bounds)
      else
        .error (.thrown ⟨.STORE_LIMIT_EXCEEDED,
          lit "the next record does not fit within " ++ decimal bounds.byteLimit ++ lit " decoded bytes"⟩) := by
  unfold issue
  dsimp only
  rw [readClamped_fresh h doc bounds hbounds hbehind]
  split
  · dsimp only [bind, Except.bind]
    unfold offered
    cases hcursor : (freshPage db doc bounds).nextCursor with
    | none => rfl
    | some cursor =>
      obtain ⟨last, hlast, rfl⟩ := Option.map_eq_some_iff.mp hcursor
      have hmem := List.mem_of_getLast? hlast
      have hwindow := (List.mem_filter.mp ((budgetPrefix_isInitial _ _ _).subset hmem)).2
      have hlength : (freshPage db doc bounds).events.length ≠ 0 := (List.length_pos_of_mem hmem).ne'
      simp only [decide_eq_true_eq] at hwindow
      dsimp only
      rw [if_neg (by omega), issuePendingOffer, if_pos hnone]
      rfl
  · rfl

/-! ### Requests -/

structure ValidRequest (request : SubscriptionPageRequest) (bounds : PageBounds) : Prop where
  subscriber : requireSubscriberId request.subscriberId = .ok request.subscriberId
  projection : requireInput (requireIdentifier request.projection "projection") = .ok request.projection
  bounds : boundsOf request = .ok bounds

def Refused {α : Type} (code : SubscriptionCode) (outcome : Outcome α) : Prop :=
  ∃ layer detail, outcome = .error (.refused code layer detail)

theorem requireInput_refused {α : Type} (read : StoreResult α) :
    (∃ value, requireInput read = .ok value) ∨ Refused .SUBSCRIPTION_INPUT_INVALID (requireInput read) := by
  cases read with
  | ok value => exact .inl ⟨value, rfl⟩
  | error e => exact .inr ⟨_, _, rfl⟩

theorem Refused.bind {α β : Type} {code : SubscriptionCode} {outcome : Outcome α} (h : Refused code outcome)
    (next : α → Outcome β) : Refused code (outcome >>= next) := by
  obtain ⟨layer, detail, rfl⟩ := h
  exact ⟨layer, detail, rfl⟩

theorem Refused.code_unique {α : Type} {code code' : SubscriptionCode} {outcome : Outcome α} (h : Refused code outcome)
    (h' : Refused code' outcome) : code = code' := by
  obtain ⟨_, _, rfl⟩ := h
  obtain ⟨_, _, heq⟩ := h'
  cases heq
  rfl

theorem Refused.of_bind {α β : Type} {code : SubscriptionCode} (outcome : Outcome α) (next : α → Outcome β)
    (h : Refused code (outcome >>= next)) :
    Refused code outcome ∨ ∃ value, outcome = .ok value ∧ Refused code (next value) := by
  cases outcome with
  | error e =>
    obtain ⟨layer, detail, heq⟩ := h
    obtain rfl := Except.error.inj heq
    exact .inl ⟨layer, detail, rfl⟩
  | ok value => exact .inr ⟨value, rfl, h⟩

theorem requireSubscriberId_refused (value : JsString) :
    (∃ id, requireSubscriberId value = .ok id) ∨ Refused .SUBSCRIPTION_INPUT_INVALID (requireSubscriberId value) := by
  unfold requireSubscriberId
  split
  · exact .inr ⟨_, _, rfl⟩
  · exact requireInput_refused _

theorem boundsOf_refused (request : SubscriptionPageRequest) :
    (∃ bounds, boundsOf request = .ok bounds) ∨ Refused .SUBSCRIPTION_INPUT_INVALID (boundsOf request) := by
  unfold boundsOf
  obtain ⟨limit, hlimit⟩ | hlimit := requireInput_refused (requirePageLimit (request.limit.getD defaultSubscriptionPageLimit))
  · rw [hlimit]
    dsimp only [bind, Except.bind]
    cases request.maxDecodedBytes with
    | none => exact .inl ⟨_, rfl⟩
    | some bytes =>
      dsimp only
      obtain ⟨limit, hbytes⟩ | hbytes := requireInput_refused (requirePageDecodedByteLimit bytes)
      · rw [hbytes]
        exact .inl ⟨_, rfl⟩
      · exact .inr (hbytes.bind _)
  · exact .inr (hlimit.bind _)

theorem boundsOf_ok (request : SubscriptionPageRequest) (bounds : PageBounds) (h : boundsOf request = .ok bounds) :
    bounds.Valid := by
  obtain ⟨limit, hlimit, h⟩ := except_bind_ok _ _ _ h
  have hsize := requirePageLimit_ok _ _ (requireInput_ok _ _ hlimit)
  split at h
  · obtain rfl := Except.ok.inj h
    exact ⟨hsize, nofun⟩
  · obtain ⟨bytes, hbytes, h⟩ := except_bind_ok _ _ _ h
    obtain rfl := Except.ok.inj h
    refine ⟨hsize, fun b hb => ?_⟩
    obtain rfl := Option.some.inj hb
    exact requirePageDecodedByteLimit_ok _ _ (requireInput_ok _ _ hbytes)

/-- A request is well formed, or it is refused before anything is read. -/
theorem read_valid_or_refused (request : SubscriptionPageRequest) :
    (∃ bounds, ValidRequest request bounds)
      ∨ Refused .SUBSCRIPTION_INPUT_INVALID (readSubscriptionPage db request) := by
  unfold readSubscriptionPage
  obtain ⟨id, hid⟩ | hid := requireSubscriberId_refused request.subscriberId
  swap
  · exact .inr (hid.bind _)
  obtain ⟨p, hp⟩ | hp := requireInput_refused (requireIdentifier request.projection "projection")
  swap
  · rw [hid]
    exact .inr (hp.bind _)
  obtain ⟨bounds, hbounds⟩ | hbounds := boundsOf_refused request
  swap
  · rw [hid, hp]
    exact .inr (hbounds.bind _)
  obtain rfl := (requireSubscriberId_ok _ _ hid).1
  obtain rfl := requireInput_identifier_ok _ _ _ hp
  exact .inl ⟨bounds, hid, hp, hbounds⟩

/-- The part of a read that looks at the tables. -/
def readDecided (db : State) (subscriberId projection : JsString) (bounds : PageBounds) :
    Outcome (SubscriptionPageResult × State) := do
  match ← decideResume db subscriberId projection with
  | .inr gap => .ok (.CURSOR_GAP gap, db)
  | .inl plan =>
    match ← loadPendingOffer db subscriberId with
    | none => do
      let (page, db') ← issue db subscriberId plan bounds
      .ok (.PAGE page, db')
    | some pending => do
      let page ← replay db plan pending
      .ok (.PAGE page, db)

theorem readSubscriptionPage_valid {request : SubscriptionPageRequest} {bounds : PageBounds}
    (hvalid : ValidRequest request bounds) :
    readSubscriptionPage db request = readDecided db request.subscriberId request.projection bounds := by
  unfold readSubscriptionPage
  rw [hvalid.subscriber, hvalid.projection, hvalid.bounds]
  rfl

/-! ### Every outcome of a read -/

theorem read_gapped (h : Consistent db) {request : SubscriptionPageRequest} {bounds : PageBounds}
    (hvalid : ValidRequest request bounds) (doc : SubscriberDoc)
    (hdoc : docRow db request.subscriberId = some (.subscriber doc)) (hfollows : doc.projection = request.projection)
    (hgap : currentGeneration db ≠ some doc.cursor.generation
      ∨ projectionCheckpoint db doc.projection < doc.cursor.position) :
    ∃ snapshot, docRow db (snapshotSubscriberId doc.projection) = some (.snapshot snapshot)
      ∧ readSubscriptionPage db request = .ok (.CURSOR_GAP
        ⟨if doc.cursor.generation = snapshot.generation then .CURSOR_AHEAD else .GENERATION_CHANGED,
          some doc.cursor, snapshot⟩, db) := by
  obtain ⟨-, hfree⟩ := requireSubscriberId_ok _ _ hvalid.subscriber
  obtain ⟨snapshot, hsnapshot, hcurrent, hdecide⟩ := decideResume_eq h request.subscriberId doc hfree hdoc
  refine ⟨snapshot, hsnapshot, ?_⟩
  rw [readSubscriptionPage_valid hvalid, ← hfollows, readDecided, hdecide]
  dsimp only [bind, Except.bind]
  unfold resume
  by_cases hsame : doc.cursor.generation = snapshot.generation
  · rw [hsame] at hgap ⊢
    have hahead := hgap.resolve_left (not_not.mpr hcurrent)
    rw [if_neg (not_not.mpr rfl), if_pos hahead, if_pos rfl]
  · rw [if_pos hsame, if_neg hsame]

theorem resume_plan {doc : SubscriberDoc} {snapshot : SnapshotDoc}
    (hsame : doc.cursor.generation = snapshot.generation)
    (hbehind : doc.cursor.position ≤ projectionCheckpoint db doc.projection) :
    resume db doc snapshot =
      .inl ⟨doc.cursor.position, projectionCheckpoint db doc.projection, doc.cursor.generation⟩ := by
  unfold resume
  rw [if_neg (not_not.mpr hsame), if_neg (not_lt.mpr hbehind), hsame]

/-- A cursor of the current generation at or behind the checkpoint reads a page. -/
theorem decideResume_plan (h : Consistent db) {request : SubscriptionPageRequest} {bounds : PageBounds}
    (hvalid : ValidRequest request bounds) (doc : SubscriberDoc)
    (hdoc : docRow db request.subscriberId = some (.subscriber doc))
    (hcurrent : currentGeneration db = some doc.cursor.generation)
    (hbehind : doc.cursor.position ≤ projectionCheckpoint db doc.projection) :
    decideResume db request.subscriberId doc.projection =
      .ok (.inl ⟨doc.cursor.position, projectionCheckpoint db doc.projection, doc.cursor.generation⟩) := by
  obtain ⟨-, hfree⟩ := requireSubscriberId_ok _ _ hvalid.subscriber
  obtain ⟨snapshot, -, hgeneration, hdecide⟩ := decideResume_eq h request.subscriberId doc hfree hdoc
  rw [hdecide, resume_plan (Option.some.inj (hcurrent.symm.trans hgeneration)) hbehind]

theorem read_pending (h : Consistent db) {request : SubscriptionPageRequest} {bounds : PageBounds}
    (hvalid : ValidRequest request bounds) (doc : SubscriberDoc)
    (hdoc : docRow db request.subscriberId = some (.subscriber doc)) (hfollows : doc.projection = request.projection)
    (hcurrent : currentGeneration db = some doc.cursor.generation) (offer : PendingSubscriptionOffer)
    (hpending : Pending db request.subscriberId doc offer) :
    readSubscriptionPage db request = .ok (.PAGE (offer.page db.domainEvents.events), db) := by
  obtain ⟨-, hfree⟩ := requireSubscriberId_ok _ _ hvalid.subscriber
  obtain ⟨_, heq, -, hsafe⟩ := h.subscriber _ _ hfree hdoc
  cases heq
  obtain ⟨hbeyond, hwithin, -⟩ := hpending.bounded h
  have hfrom := hpending.fromCursor
  have hbehind := hpending.behind
  rw [readSubscriptionPage_valid hvalid, ← hfollows, readDecided,
    decideResume_plan h hvalid doc hdoc hcurrent (by omega)]
  dsimp only [bind, Except.bind]
  rw [loadPendingOffer_eq h hsafe hpending]
  dsimp only
  rw [replay_eq h hpending]

theorem read_fresh (h : Consistent db) {request : SubscriptionPageRequest} {bounds : PageBounds}
    (hvalid : ValidRequest request bounds) (doc : SubscriberDoc)
    (hdoc : docRow db request.subscriberId = some (.subscriber doc)) (hfollows : doc.projection = request.projection)
    (hcurrent : currentGeneration db = some doc.cursor.generation)
    (hbehind : doc.cursor.position ≤ projectionCheckpoint db doc.projection)
    (hnone : db.pendingOffers.get request.subscriberId = none) :
    readSubscriptionPage db request =
      if Admits bounds.byteLimit (pendingAfter db.domainEvents.events doc.cursor.position) then
        .ok (.PAGE (freshPage db doc bounds), offered db request.subscriberId doc bounds)
      else
        .error (.thrown ⟨.STORE_LIMIT_EXCEEDED,
          lit "the next record does not fit within " ++ decimal bounds.byteLimit ++ lit " decoded bytes"⟩) := by
  have hload : loadPendingOffer db request.subscriberId = .ok none := by
    unfold loadPendingOffer
    rw [hnone]
  rw [readSubscriptionPage_valid hvalid, ← hfollows, readDecided, decideResume_plan h hvalid doc hdoc hcurrent hbehind]
  dsimp only [bind, Except.bind]
  rw [hload]
  dsimp only
  rw [issue_eq h _ doc bounds (boundsOf_ok _ _ hvalid.bounds) hbehind hnone]
  by_cases hadmits : Admits bounds.byteLimit (pendingAfter db.domainEvents.events doc.cursor.position)
  · rw [if_pos hadmits, if_pos hadmits]
  · rw [if_neg hadmits, if_neg hadmits]

/-- A live subscriber of this projection, or a refusal that says why not. -/
theorem read_live_or_refused (h : Consistent db) {request : SubscriptionPageRequest} {bounds : PageBounds}
    (hvalid : ValidRequest request bounds) :
    (∃ doc, docRow db request.subscriberId = some (.subscriber doc) ∧ doc.projection = request.projection)
      ∨ (Refused .SUBSCRIPTION_GENERATION_MISSING (readSubscriptionPage db request) ∧ currentGeneration db = none)
      ∨ (Refused .SUBSCRIPTION_NOT_REGISTERED (readSubscriptionPage db request)
        ∧ docRow db request.subscriberId = none)
      ∨ Refused .SUBSCRIPTION_INPUT_INVALID (readSubscriptionPage db request) := by
  obtain ⟨-, hfree⟩ := requireSubscriberId_ok _ _ hvalid.subscriber
  rw [readSubscriptionPage_valid hvalid]
  unfold readDecided decideResume requireGeneration
  cases hcurrent : currentGeneration db with
  | none => exact .inr (.inl ⟨⟨_, _, rfl⟩, rfl⟩)
  | some generation =>
    cases hdoc : docRow db request.subscriberId with
    | none => exact .inr (.inr (.inl ⟨⟨_, _, rfl⟩, rfl⟩))
    | some stored =>
      obtain ⟨doc, rfl, -⟩ := h.subscriber _ _ hfree hdoc
      by_cases hfollows : doc.projection = request.projection
      · exact .inl ⟨doc, rfl, hfollows⟩
      · have hrefused : Refused .SUBSCRIPTION_INPUT_INVALID
            (requireProjection request.subscriberId request.projection (some doc)) := by
          unfold requireProjection
          dsimp only
          rw [if_pos hfollows]
          exact ⟨_, _, rfl⟩
        exact .inr (.inr (.inr ((hrefused.bind _).bind _)))

/-- A read of a live subscriber succeeds, or its byte budget is too small. -/
theorem read_live (h : Consistent db) {request : SubscriptionPageRequest} {bounds : PageBounds}
    (hvalid : ValidRequest request bounds) (doc : SubscriberDoc)
    (hdoc : docRow db request.subscriberId = some (.subscriber doc)) (hfollows : doc.projection = request.projection) :
    (∃ result, readSubscriptionPage db request = .ok result) ∨ ∃ e, readSubscriptionPage db request = .error (.thrown e) := by
  by_cases hgap : currentGeneration db ≠ some doc.cursor.generation
      ∨ projectionCheckpoint db doc.projection < doc.cursor.position
  · obtain ⟨snapshot, -, hread⟩ := read_gapped h hvalid doc hdoc hfollows hgap
    exact .inl ⟨_, hread⟩
  obtain ⟨hcurrent, hbehind⟩ := not_or.mp hgap
  rw [not_not] at hcurrent
  rw [not_lt] at hbehind
  cases hrow : db.pendingOffers.get request.subscriberId with
  | some row =>
    obtain ⟨doc', offer, -, hdoc', -, hpending⟩ := h.offer _ row hrow
    cases hdoc.symm.trans hdoc'
    exact .inl ⟨_, read_pending h hvalid doc hdoc hfollows hcurrent offer hpending⟩
  | none =>
    rw [read_fresh h hvalid doc hdoc hfollows hcurrent hbehind hrow]
    split
    · exact .inl ⟨_, rfl⟩
    · exact .inr ⟨_, rfl⟩

theorem read_never_corrupt (h : Consistent db) (request : SubscriptionPageRequest) :
    ¬ Refused .SUBSCRIPTION_STATE_CORRUPT (readSubscriptionPage db request) := by
  intro hcorrupt
  obtain ⟨bounds, hvalid⟩ | hrefused := @read_valid_or_refused db request
  swap
  · cases hcorrupt.code_unique hrefused
  obtain ⟨doc, hdoc, hfollows⟩ | ⟨hrefused, -⟩ | ⟨hrefused, -⟩ | hrefused := read_live_or_refused h hvalid
  · obtain ⟨_, _, hcorrupt⟩ := hcorrupt
    obtain ⟨result, hok⟩ | ⟨e, hthrown⟩ := read_live h hvalid doc hdoc hfollows
    · rw [hok] at hcorrupt
      cases hcorrupt
    · rw [hthrown] at hcorrupt
      cases hcorrupt
  · cases hcorrupt.code_unique hrefused
  · cases hcorrupt.code_unique hrefused
  · cases hcorrupt.code_unique hrefused

/-- The three ways in which a read succeeds. -/
inductive ReadOk (db : State) (request : SubscriptionPageRequest) (doc : SubscriberDoc) :
    SubscriptionPageResult → State → Prop where
  | gapped (gap : SubscriptionGap) (h : currentGeneration db ≠ some doc.cursor.generation
      ∨ projectionCheckpoint db doc.projection < doc.cursor.position) : ReadOk db request doc (.CURSOR_GAP gap) db
  | replayed (offer : PendingSubscriptionOffer) (hcurrent : currentGeneration db = some doc.cursor.generation)
      (h : Pending db request.subscriberId doc offer) :
      ReadOk db request doc (.PAGE (offer.page db.domainEvents.events)) db
  | issued (bounds : PageBounds) (hbounds : bounds.Valid)
      (hcurrent : currentGeneration db = some doc.cursor.generation)
      (hbehind : doc.cursor.position ≤ projectionCheckpoint db doc.projection)
      (hnone : db.pendingOffers.get request.subscriberId = none) :
      ReadOk db request doc (.PAGE (freshPage db doc bounds)) (offered db request.subscriberId doc bounds)

theorem Refused.not_ok {α : Type} {code : SubscriptionCode} {outcome : Outcome α} (h : Refused code outcome) (value : α)
    (hok : outcome = .ok value) : False := by
  obtain ⟨_, _, rfl⟩ := h
  cases hok

theorem read_ok (h : Consistent db) (request : SubscriptionPageRequest) (result : SubscriptionPageResult) (db' : State)
    (hok : readSubscriptionPage db request = .ok (result, db')) :
    ∃ doc, isReservedSubscriberId request.subscriberId = false
      ∧ docRow db request.subscriberId = some (.subscriber doc) ∧ doc.projection = request.projection
      ∧ ReadOk db request doc result db' := by
  obtain ⟨bounds, hvalid⟩ | hrefused := @read_valid_or_refused db request
  swap
  · exact (hrefused.not_ok _ hok).elim
  obtain ⟨doc, hdoc, hfollows⟩ | ⟨hrefused, -⟩ | ⟨hrefused, -⟩ | hrefused := read_live_or_refused h hvalid
  rotate_left
  · exact (hrefused.not_ok _ hok).elim
  · exact (hrefused.not_ok _ hok).elim
  · exact (hrefused.not_ok _ hok).elim
  refine ⟨doc, (requireSubscriberId_ok _ _ hvalid.subscriber).2, hdoc, hfollows, ?_⟩
  by_cases hgap : currentGeneration db ≠ some doc.cursor.generation
      ∨ projectionCheckpoint db doc.projection < doc.cursor.position
  · obtain ⟨snapshot, -, hread⟩ := read_gapped h hvalid doc hdoc hfollows hgap
    rw [hread] at hok
    obtain ⟨rfl, rfl⟩ := Prod.mk.inj (Except.ok.inj hok)
    exact .gapped _ hgap
  obtain ⟨hcurrent, hbehind⟩ := not_or.mp hgap
  rw [not_not] at hcurrent
  rw [not_lt] at hbehind
  cases hrow : db.pendingOffers.get request.subscriberId with
  | some row =>
    obtain ⟨doc', offer, -, hdoc', -, hpending⟩ := h.offer _ row hrow
    cases hdoc.symm.trans hdoc'
    rw [read_pending h hvalid doc hdoc hfollows hcurrent offer hpending] at hok
    obtain ⟨rfl, rfl⟩ := Prod.mk.inj (Except.ok.inj hok)
    exact .replayed offer hcurrent hpending
  | none =>
    rw [read_fresh h hvalid doc hdoc hfollows hcurrent hbehind hrow] at hok
    split at hok
    · obtain ⟨rfl, rfl⟩ := Prod.mk.inj (Except.ok.inj hok)
      exact .issued bounds (boundsOf_ok _ _ hvalid.bounds) hcurrent hbehind hrow
    · cases hok

/-- The offer of an issued page is pending. -/
theorem pending_offered {id : JsString} {doc : SubscriberDoc} {bounds : PageBounds} (hbounds : bounds.Valid)
    (cursor : SubscriptionCursor) (hcursor : (freshPage db doc bounds).nextCursor = some cursor) :
    Pending (db.putOffer (offerOf id doc bounds (freshPage db doc bounds) cursor.position)) id doc
      (offerOf id doc bounds (freshPage db doc bounds) cursor.position) where
  row := by simp [State.putOffer, offerOf]
  identity := rfl
  generation := rfl
  fromCursor := rfl
  behind := le_rfl
  bounds := hbounds
  issued := by
    refine (show _ = some cursor from hcursor).trans ?_
    obtain ⟨last, -, rfl⟩ := Option.map_eq_some_iff.mp hcursor
    rfl
  eventCount := rfl
  hasMore := rfl

theorem Consistent.read {db' : State} (h : Consistent db) (request : SubscriptionPageRequest)
    (result : SubscriptionPageResult) (hok : readSubscriptionPage db request = .ok (result, db')) : Consistent db' := by
  obtain ⟨doc, hfree, hdoc, -, houtcome⟩ := read_ok h request result db' hok
  cases houtcome with
  | gapped gap _ => exact h
  | replayed offer _ _ => exact h
  | issued bounds hbounds hcurrent hbehind hnone =>
    unfold offered
    cases hcursor : (freshPage db doc bounds).nextCursor with
    | none => exact h
    | some cursor =>
      refine ⟨h.sentinel, h.subscriber, fun id row hrow => ?_, h.checkpoint⟩
      by_cases heq : id = request.subscriberId
      · subst heq
        exact ⟨doc, _, hfree, hdoc, hcurrent, pending_offered hbounds cursor hcursor⟩
      · have hother : (db.putOffer (offerOf request.subscriberId doc bounds (freshPage db doc bounds)
            cursor.position)).pendingOffers.get id = db.pendingOffers.get id := by
          simp [State.putOffer, offerOf, heq]
        dsimp only at hrow
        rw [hother] at hrow
        obtain ⟨doc', offer, hfree', hdoc', hcurrent', hpending⟩ := h.offer id row hrow
        exact ⟨doc', offer, hfree', hdoc', hcurrent', hpending.carry hother le_rfl rfl⟩

end Reads

/-! ### Reachable states -/

theorem Consistent.append {db : State} (h : Consistent db) (eventId : JsString) (size : RecordSize) :
    Consistent (step db (.append eventId size)) := by
  have hlength : db.domainEvents.events.length ≤ (db.domainEvents.append eventId size).events.length := by
    unfold Ledger.append
    split
    · simp
    · exact le_rfl
  refine ⟨h.sentinel, h.subscriber, fun id row hrow => ?_, fun p => (h.checkpoint p).trans hlength⟩
  obtain ⟨doc, offer, hfree, hdoc, hcurrent, hpending⟩ := h.offer id row hrow
  refine ⟨doc, offer, hfree, hdoc, hcurrent, hpending.carry rfl le_rfl ?_⟩
  unfold PendingSubscriptionOffer.page windowPage
  rw [show (step db (.append eventId size)).domainEvents = db.domainEvents.append eventId size from rfl,
    window_append _ _ _ _ _ (hpending.behind.trans (h.checkpoint _))]

theorem projectionCheckpoint_advance (db : State) (projection : JsString) (position : ℕ) (p : JsString) :
    projectionCheckpoint db p ≤ projectionCheckpoint (advanceCheckpoint db projection position) p := by
  unfold advanceCheckpoint
  split
  · rename_i hforward
    unfold projectionCheckpoint at *
    dsimp only
    rw [OrdMap.get_set]
    split
    · rename_i heq
      subst heq
      exact hforward.1
    · exact le_rfl
  · exact le_rfl

theorem Consistent.advanceCheckpoint {db : State} (h : Consistent db) (projection : JsString) (position : ℕ) :
    Consistent (advanceCheckpoint db projection position) := by
  have hforward := projectionCheckpoint_advance db projection position
  unfold MoeNG.Subscriptions.advanceCheckpoint at *
  split
  · rename_i hposition
    rw [if_pos hposition] at hforward
    refine ⟨h.sentinel, h.subscriber, fun id row hrow => ?_, fun p => ?_⟩
    · obtain ⟨doc, offer, hfree, hdoc, hcurrent, hpending⟩ := h.offer id row hrow
      exact ⟨doc, offer, hfree, hdoc, hcurrent, hpending.carry rfl (hforward _) rfl⟩
    · have hbefore := h.checkpoint p
      unfold projectionCheckpoint at *
      dsimp only at *
      rw [OrdMap.get_set]
      split
      · exact hposition.2
      · exact hbefore
  · exact h

theorem Consistent.step {db : State} (h : Consistent db) (call : Call) : Consistent (step db call) := by
  cases call with
  | register input => exact settled_induction Consistent _ h fun seated _ hok => h.register input seated hok
  | publish input => exact settled_induction Consistent _ h fun snapshot _ hok => h.publish input snapshot hok
  | advance input => exact settled_induction Consistent _ h fun generation _ hok => h.advance input generation hok
  | reseat input => exact settled_induction Consistent _ h fun seated _ hok => h.reseat input seated hok
  | read request => exact settled_induction Consistent _ h fun result _ hok => h.read request result hok
  | acknowledge input => exact settled_induction Consistent _ h fun cursor _ hok => h.acknowledge input cursor hok
  | append eventId size => exact h.append eventId size
  | checkpoint projection position => exact h.advanceCheckpoint projection position

theorem reachable_consistent (calls : List Call) :
    Consistent (run MoeNG.Subscriptions.step State.empty calls) :=
  run_invariant _ Consistent (fun _ call h => h.step call) _ Consistent.empty calls

end MoeNG.Subscriptions
