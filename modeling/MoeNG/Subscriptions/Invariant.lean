import MoeNG.Subscriptions.OperationSpec
import MoeNG.Subscriptions.Window

/-!
# Runs of subscription operations

The operations of any number of consumers, interleaved with appends to the
ledger and with projections that move forward, and the invariant that ties the
cursor documents, the baselines and the pending offers to the ledger.
-/

namespace MoeNG.Subscriptions
open MoeNG.Kernel MoeNG.Lib MoeNG.Store

/-! ### Calls -/

/-- A projection checkpoint only advances, onto an existing event. -/
def advanceCheckpoint (db : State) (projection : JsString) (position : ℕ) : State :=
  if projectionCheckpoint db projection ≤ position ∧ position ≤ db.domainEvents.events.length then
    { db with projections := db.projections.set projection position }
  else db

inductive Call where
  | register (input : RegisterSubscriptionInput)
  | publish (input : SnapshotPublishInput)
  | advance (input : AdvanceGenerationInput)
  | reseat (input : ReseatInput)
  | read (request : SubscriptionPageRequest)
  | acknowledge (input : AcknowledgeInput)
  | append (eventId : JsString) (size : RecordSize)
  | checkpoint (projection : JsString) (position : ℕ)

/-- A failed transaction leaves the tables as they were. -/
def settled {α : Type} (db : State) : Outcome (α × State) → State
  | .ok (_, db') => db'
  | .error _ => db

def step (db : State) : Call → State
  | .register input => settled db (registerSubscription db input)
  | .publish input => settled db (publishSnapshot db input)
  | .advance input => settled db (advanceGeneration db input)
  | .reseat input => settled db (reseatToSnapshot db input)
  | .read request => settled db (readSubscriptionPage db request)
  | .acknowledge input => settled db (acknowledge db input)
  | .append eventId size => { db with domainEvents := db.domainEvents.append eventId size }
  | .checkpoint projection position => advanceCheckpoint db projection position

theorem settled_induction {α : Type} {db : State} (P : State → Prop) (outcome : Outcome (α × State)) (hkept : P db)
    (hok : ∀ result db', outcome = .ok (result, db') → P db') : P (settled db outcome) := by
  cases outcome with
  | error e => exact hkept
  | ok r => exact hok r.1 r.2 rfl

/-! ### The invariant -/

/-- The page an offer promises. -/
def PendingSubscriptionOffer.page (offer : PendingSubscriptionOffer) (events : List StoredEvent) : SubscriptionPage :=
  windowPage events ⟨offer.limit, offer.maxDecodedBytes⟩ offer.fromPosition offer.checkpoint offer.generation

/-- The pending offer of a cursor: it starts at the cursor and the ledger still reproduces it. -/
structure Pending (db : State) (subscriberId : JsString) (doc : SubscriberDoc) (offer : PendingSubscriptionOffer) :
    Prop where
  row : db.pendingOffers.get subscriberId = some offer.row
  identity : offer.subscriberId = subscriberId
  generation : offer.generation = doc.cursor.generation
  fromCursor : offer.fromPosition = doc.cursor.position
  behind : offer.checkpoint ≤ projectionCheckpoint db doc.projection
  bounds : (⟨offer.limit, offer.maxDecodedBytes⟩ : PageBounds).Valid
  issued : (offer.page db.domainEvents.events).nextCursor = some ⟨offer.generation, offer.issued⟩
  eventCount : (offer.page db.domainEvents.events).events.length = offer.eventCount
  hasMore : (offer.page db.domainEvents.events).hasMore = offer.hasMore

structure Consistent (db : State) : Prop where
  sentinel : ∀ p stored, docRow db (snapshotSubscriberId p) = some stored →
    ∃ s, stored = .snapshot s ∧ s.projection = p ∧ currentGeneration db = some s.generation
  subscriber : ∀ id stored, isReservedSubscriberId id = false → docRow db id = some stored →
    ∃ doc, stored = .subscriber doc ∧ docRow db (snapshotSubscriberId doc.projection) ≠ none
      ∧ isGeneration doc.cursor.generation = true
  offer : ∀ id row, db.pendingOffers.get id = some row →
    ∃ doc offer, isReservedSubscriberId id = false ∧ docRow db id = some (.subscriber doc)
      ∧ currentGeneration db = some doc.cursor.generation ∧ Pending db id doc offer
  checkpoint : ∀ p, projectionCheckpoint db p ≤ db.domainEvents.events.length

theorem Consistent.empty : Consistent State.empty where
  sentinel _ _ h := by cases h
  subscriber _ _ _ h := by cases h
  offer _ _ h := by cases h
  checkpoint _ := Nat.le_refl _

/-- A pending offer outlives everything that keeps its row, its projection and its page. -/
theorem Pending.carry {db db' : State} {id : JsString} {doc : SubscriberDoc} {offer : PendingSubscriptionOffer}
    (h : Pending db id doc offer) (hrow : db'.pendingOffers.get id = db.pendingOffers.get id)
    (hcheckpoint : projectionCheckpoint db doc.projection ≤ projectionCheckpoint db' doc.projection)
    (hpage : offer.page db'.domainEvents.events = offer.page db.domainEvents.events) : Pending db' id doc offer where
  row := hrow.trans h.row
  identity := h.identity
  generation := h.generation
  fromCursor := h.fromCursor
  behind := h.behind.trans hcheckpoint
  bounds := h.bounds
  issued := hpage ▸ h.issued
  eventCount := hpage ▸ h.eventCount
  hasMore := hpage ▸ h.hasMore

theorem snapshotSubscriberId_ne (id p : JsString) (hfree : isReservedSubscriberId id = false) :
    ¬ snapshotSubscriberId p = id := by
  intro h
  rw [← h, isReservedSubscriberId_snapshot] at hfree
  cases hfree

/-- Writing one subscriber's cursor without leaving it an offer. -/
theorem Consistent.cursor {db db' : State} (h : Consistent db) (id : JsString) (doc : SubscriberDoc)
    (hfree : isReservedSubscriberId id = false) (hbaseline : docRow db (snapshotSubscriberId doc.projection) ≠ none)
    (hsafe : isGeneration doc.cursor.generation = true)
    (hdocs : ∀ id', docRow db' id' = if id' = id then some (.subscriber doc) else docRow db id')
    (hcurrent : currentGeneration db' = currentGeneration db)
    (hprojections : ∀ p, projectionCheckpoint db' p = projectionCheckpoint db p)
    (hevents : db'.domainEvents = db.domainEvents)
    (hoffers : ∀ id', db'.pendingOffers.get id' = if id' = id then none else db.pendingOffers.get id') :
    Consistent db' := by
  have hsentinels : ∀ p, docRow db' (snapshotSubscriberId p) = docRow db (snapshotSubscriberId p) := fun p => by
    rw [hdocs, if_neg (snapshotSubscriberId_ne id p hfree)]
  refine ⟨fun p stored hp => ?_, fun id' stored hfree' hstored => ?_, fun id' row hrow => ?_, fun p => ?_⟩
  · rw [hsentinels] at hp
    rw [hcurrent]
    exact h.sentinel p stored hp
  · rw [hdocs] at hstored
    split at hstored
    · obtain rfl := Option.some.inj hstored
      exact ⟨doc, rfl, by rw [hsentinels]; exact hbaseline, hsafe⟩
    · obtain ⟨doc', heq, hbase, hgen⟩ := h.subscriber id' stored hfree' hstored
      exact ⟨doc', heq, by rw [hsentinels]; exact hbase, hgen⟩
  · have hoffer := hoffers id'
    rw [hrow] at hoffer
    split at hoffer
    · cases hoffer
    · rename_i hne
      obtain ⟨doc', offer, hfree', hdoc', hgen, hpending⟩ := h.offer id' row hoffer.symm
      refine ⟨doc', offer, hfree', by rw [hdocs, if_neg hne]; exact hdoc', by rw [hcurrent]; exact hgen, ?_⟩
      exact hpending.carry (by rw [hrow, hoffer]) (by rw [hprojections]) (by rw [hevents])
  · rw [hprojections, hevents]
    exact h.checkpoint p

/-- Without a cursor there is no offer. -/
theorem Consistent.no_offer {db : State} (h : Consistent db) (id : JsString) (hnone : docRow db id = none) :
    db.pendingOffers.get id = none := by
  cases hrow : db.pendingOffers.get id with
  | none => rfl
  | some row =>
    obtain ⟨doc, -, -, hdoc, -⟩ := h.offer id row hrow
    rw [hnone] at hdoc
    cases hdoc

/-! ### Each operation keeps it -/

section Steps
variable {db db' : State}

theorem Consistent.register (h : Consistent db) (input : RegisterSubscriptionInput) (seated : SubscriptionSeated)
    (hok : registerSubscription db input = .ok (seated, db')) : Consistent db' := by
  obtain ⟨doc, snapshot, hseat, hfresh, -, rfl⟩ := registerSubscription_ok input seated hok
  refine h.cursor input.subscriberId doc hseat.free ?_ hseat.safe (fun _ => docRow_putDoc ..) rfl (fun _ => rfl) rfl
    fun id => ?_
  · rw [hseat.follows, hseat.baseline]
    exact Option.some_ne_none _
  · split
    · rename_i heq
      subst heq
      exact h.no_offer _ hfresh
    · rfl

theorem Consistent.reseat (h : Consistent db) (input : ReseatInput) (seated : SubscriptionSeated)
    (hok : reseatToSnapshot db input = .ok (seated, db')) : Consistent db' := by
  obtain ⟨doc, snapshot, hseat, -, -, -, -, rfl⟩ := reseatToSnapshot_ok input seated hok
  refine h.cursor input.subscriberId doc hseat.free ?_ hseat.safe (fun _ => docRow_putDoc ..) rfl (fun _ => rfl) rfl
    fun id => pendingOffers_clearPendingOffer ..
  rw [hseat.follows, hseat.baseline]
  exact Option.some_ne_none _

theorem Consistent.acknowledge (h : Consistent db) (input : AcknowledgeInput) (cursor : SubscriptionCursor)
    (hok : acknowledge db input = .ok (cursor, db')) : Consistent db' := by
  obtain ⟨doc, pending, hack, hcursor, rfl⟩ := acknowledge_ok input cursor hok
  obtain ⟨doc', heq, hbaseline, -⟩ := h.subscriber _ _ hack.free hack.row
  cases heq
  refine h.cursor input.subscriberId { doc with cursor := cursor } hack.free hbaseline ?_ (fun _ => docRow_putDoc ..)
    rfl (fun _ => rfl) rfl fun id => pendingOffers_clearPendingOffer ..
  rw [hcursor]
  exact hack.safe

theorem Consistent.publish (h : Consistent db) (input : SnapshotPublishInput) (snapshot : SnapshotDoc)
    (hok : publishSnapshot db input = .ok (snapshot, db')) : Consistent db' := by
  obtain ⟨-, hprojection, hcurrent, -, rfl⟩ := publishSnapshot_ok input snapshot hok
  have hkept : ∀ id, isReservedSubscriberId id = false →
      docRow (db.putDoc (snapshotSubscriberId input.projection) (.snapshot snapshot)) id = docRow db id := fun id hfree => by
    rw [docRow_putDoc, if_neg fun e => snapshotSubscriberId_ne id _ hfree e.symm]
  refine ⟨fun p stored hp => ?_, fun id stored hfree hstored => ?_, fun id row hrow => ?_, h.checkpoint⟩
  · rw [docRow_putDoc] at hp
    split at hp
    · rename_i heq
      obtain rfl := Option.some.inj hp
      exact ⟨snapshot, rfl, hprojection.trans ((snapshotSubscriberId_inj _ _).mp heq).symm, hcurrent⟩
    · exact h.sentinel p stored hp
  · rw [hkept id hfree] at hstored
    obtain ⟨doc, heq, hbaseline, hgen⟩ := h.subscriber id stored hfree hstored
    refine ⟨doc, heq, ?_, hgen⟩
    rw [docRow_putDoc]
    split
    · exact Option.some_ne_none _
    · exact hbaseline
  · obtain ⟨doc, offer, hfree, hdoc, hgen, hpending⟩ := h.offer id row hrow
    exact ⟨doc, offer, hfree, by rw [hkept id hfree]; exact hdoc, hgen, hpending.carry rfl le_rfl rfl⟩

theorem Consistent.advance (h : Consistent db) (input : AdvanceGenerationInput) (generation : ℕ)
    (hok : advanceGeneration db input = .ok (generation, db')) : Consistent db' := by
  obtain ⟨baselines, hadvance, rfl⟩ := advanceGeneration_ok input generation hok
  have hcurrent := advanced_current generation baselines hadvance.next
  have hdocs := docRow_upsertBaselines
    (clearAllPendingOffers { db with cursorGenerations := db.cursorGenerations ++ [generation] }) baselines.entries
    baselines.nodup
  have hfree := docRow_upsertBaselines_free
    (clearAllPendingOffers { db with cursorGenerations := db.cursorGenerations ++ [generation] }) baselines.entries
  obtain ⟨-, hoffers, hprojections, hevents⟩ := upsertBaselines_tables
    (clearAllPendingOffers { db with cursorGenerations := db.cursorGenerations ++ [generation] }) baselines.entries
  have hsentinel : ∀ p, baselines.get p ≠ none → docRow (advanced db generation baselines) (snapshotSubscriberId p) ≠ none := by
    intro p hp
    obtain ⟨s, hs⟩ := Option.ne_none_iff_exists'.mp hp
    unfold advanced
    rw [hdocs, show (baselines.entries.find? _).map _ = some s from hs]
    exact Option.some_ne_none _
  refine ⟨fun p stored hp => ?_, fun id stored hid hstored => ?_, fun id row hrow => ?_, fun p => ?_⟩
  · unfold advanced at hp
    rw [hdocs] at hp
    split at hp
    · rename_i s hs
      obtain rfl := Option.some.inj hp
      obtain ⟨hprojection, hgeneration, -⟩ := hadvance.published p s hs
      exact ⟨s, rfl, hprojection, by rw [hcurrent, hgeneration]⟩
    · rename_i hnone
      exact absurd hnone (hadvance.sentinels p (by rw [show docRow db _ = _ from hp]; exact Option.some_ne_none _))
  · unfold advanced at hstored
    rw [hfree id hid] at hstored
    obtain ⟨doc, rfl, -, hgen⟩ := h.subscriber id stored hid hstored
    exact ⟨doc, rfl, hsentinel _ (hadvance.subscribers id doc hid hstored), hgen⟩
  · unfold advanced at hrow
    rw [hoffers] at hrow
    cases hrow
  · unfold advanced projectionCheckpoint
    rw [hprojections, hevents]
    exact h.checkpoint p

end Steps

end MoeNG.Subscriptions
