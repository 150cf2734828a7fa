import MoeNG.Subscriptions.Read

/-!
# Exactly-once delivery

What one consumer observes of a run: where it was seated, the pages it was
offered and the pages it acknowledged. Whatever else interleaves, the
acknowledged pages are the ledger between the seat and the cursor.
-/

namespace MoeNG.Subscriptions
open MoeNG.Kernel MoeNG.Lib MoeNG.Store

/-! ### Observations -/

/-- A page with the projection checkpoint at the read that first returned it. -/
structure OfferedPage where
  page : SubscriptionPage
  checkpoint : ℕ
  deriving DecidableEq

/-- Since the last seating: the acknowledged pages and the page still to be acknowledged. -/
structure Delivery where
  seated : ℕ
  acknowledged : List OfferedPage
  offered : Option OfferedPage
  deriving DecidableEq

inductive Observation where
  | seated (subscriberId : JsString) (position : ℕ)
  | returned (subscriberId : JsString) (page : OfferedPage)
  | acknowledged (subscriberId : JsString)
  | advanced

/-- A failure shows nothing. -/
def seen {α : Type} (outcome : Outcome (α × State)) (see : α → Option Observation) : Option Observation :=
  match outcome with
  | .ok (result, _) => see result
  | .error _ => none

def seePage (subscriberId : JsString) (checkpoint : ℕ) : SubscriptionPageResult → Option Observation
  | .PAGE page => some (.returned subscriberId ⟨page, checkpoint⟩)
  | .CURSOR_GAP _ => none

def observation (db : State) : Call → Option Observation
  | .register input => seen (registerSubscription db input) fun seated =>
    some (.seated input.subscriberId seated.cursor.position)
  | .reseat input => seen (reseatToSnapshot db input) fun seated =>
    some (.seated input.subscriberId seated.cursor.position)
  | .read request => seen (readSubscriptionPage db request)
    (seePage request.subscriberId (projectionCheckpoint db request.projection))
  | .acknowledge input => seen (acknowledge db input) fun _ => some (.acknowledged input.subscriberId)
  | .advance input => seen (advanceGeneration db input) fun _ => some .advanced
  | _ => none

theorem settled_seen_induction {α : Type} {db : State} (P : State → Option Observation → Prop)
    (outcome : Outcome (α × State)) (see : α → Option Observation) (hkept : P db none)
    (hok : ∀ result db', outcome = .ok (result, db') → P db' (see result)) : P (settled db outcome) (seen outcome see) := by
  cases outcome with
  | error e => exact hkept
  | ok r => exact hok r.1 r.2 rfl

/-- A re-read page stays the offer that it was. -/
def Delivery.offer (d : Delivery) (page : OfferedPage) : Delivery := { d with offered := d.offered.or (some page) }

def Delivery.acknowledge (d : Delivery) : Delivery :=
  { d with acknowledged := d.acknowledged ++ d.offered.toList, offered := none }

def Delivery.withdraw (d : Delivery) : Delivery := { d with offered := none }

-- an empty page offers nothing
def track (subscriberId : JsString) (d : Option Delivery) : Option Observation → Option Delivery
  | some (.seated id position) => if id = subscriberId then some ⟨position, [], none⟩ else d
  | some (.returned id page) =>
    if id = subscriberId ∧ page.page.nextCursor ≠ none then
      d.map fun d => d.offer page
    else d
  | some (.acknowledged id) =>
    if id = subscriberId then
      d.map Delivery.acknowledge
    else d
  | some .advanced => d.map Delivery.withdraw
  | none => d

def observed (subscriberId : JsString) (s : State × Option Delivery) (call : Call) : State × Option Delivery :=
  (step s.1 call, track subscriberId s.2 (observation s.1 call))

def history (subscriberId : JsString) (calls : List Call) : State × Option Delivery :=
  run (observed subscriberId) (State.empty, none) calls

theorem run_observed_fst (subscriberId : JsString) (s : State × Option Delivery) (calls : List Call) :
    (run (observed subscriberId) s calls).1 = run step s.1 calls := by
  induction calls generalizing s with
  | nil => rfl
  | cons call rest ih => exact ih (observed subscriberId s call)

/-! ### The delivery invariant -/

structure Delivered (db : State) (subscriberId : JsString) (doc : SubscriberDoc) (d : Delivery) : Prop where
  forward : d.seated ≤ doc.cursor.position
  grounded : doc.cursor.position = d.seated ∨ doc.cursor.position ≤ db.domainEvents.events.length
  pages : d.acknowledged.flatMap (fun p => p.page.events) = window db.domainEvents.events d.seated doc.cursor.position
  visible : ∀ p ∈ d.acknowledged, ∀ e ∈ p.page.events, e.globalPosition ≤ p.checkpoint
  offered : ∀ p, d.offered = some p → ∃ offer, Pending db subscriberId doc offer
    ∧ currentGeneration db = some doc.cursor.generation ∧ p = ⟨offer.page db.domainEvents.events, offer.checkpoint⟩
  idle : d.offered = none → db.pendingOffers.get subscriberId = none

def Tracked (subscriberId : JsString) (db : State) : Option Delivery → Prop
  | none => docRow db subscriberId = none
  | some d => ∃ doc, docRow db subscriberId = some (.subscriber doc) ∧ Delivered db subscriberId doc d

/-- The ledger `later` extends `ledger`. -/
structure Extends (ledger later : Ledger) : Prop where
  length : ledger.events.length ≤ later.events.length
  window : ∀ a c, c ≤ ledger.events.length → window later.events a c = window ledger.events a c

theorem Extends.refl (ledger : Ledger) : Extends ledger ledger := ⟨le_rfl, fun _ _ _ => rfl⟩

theorem Extends.append (ledger : Ledger) (eventId : JsString) (size : RecordSize) :
    Extends ledger (ledger.append eventId size) where
  length := by
    unfold Ledger.append
    split
    · simp
    · exact le_rfl
  window a c hc := window_append ledger eventId size a c hc

theorem Pending.page_extends {db : State} (h : Consistent db) {id : JsString} {doc : SubscriberDoc}
    {offer : PendingSubscriptionOffer} (hpending : Pending db id doc offer) {later : Ledger}
    (hextends : Extends db.domainEvents later) : offer.page later.events = offer.page db.domainEvents.events := by
  unfold PendingSubscriptionOffer.page windowPage
  rw [hextends.window _ _ (hpending.behind.trans (h.checkpoint _))]

/-- What another consumer, the ledger or a projection does leaves the delivery alone. -/
theorem Tracked.frame {subscriberId : JsString} {db db' : State} {d : Option Delivery} (h : Consistent db)
    (ht : Tracked subscriberId db d) (hdoc : docRow db' subscriberId = docRow db subscriberId)
    (hoffer : db'.pendingOffers.get subscriberId = db.pendingOffers.get subscriberId)
    (hcurrent : currentGeneration db' = currentGeneration db)
    (hcheckpoint : ∀ p, projectionCheckpoint db p ≤ projectionCheckpoint db' p)
    (hledger : Extends db.domainEvents db'.domainEvents) : Tracked subscriberId db' d := by
  cases d with
  | none => exact hdoc.trans ht
  | some d =>
    obtain ⟨doc, hrow, hd⟩ := ht
    refine ⟨doc, hdoc.trans hrow, hd.forward, ?_, ?_, hd.visible, fun p hp => ?_, fun hnone => hoffer.trans (hd.idle hnone)⟩
    · exact hd.grounded.imp_right fun hle => hle.trans hledger.length
    · rw [hd.pages]
      obtain heq | hle := hd.grounded
      · rw [heq, window_self, window_self]
      · exact (hledger.window _ _ hle).symm
    · obtain ⟨offer, hpending, hgeneration, rfl⟩ := hd.offered p hp
      have hpage := hpending.page_extends h hledger
      exact ⟨offer, hpending.carry hoffer (hcheckpoint _) hpage, hcurrent.trans hgeneration, by rw [hpage]⟩

/-- A seating starts a new delivery. -/
theorem Tracked.seated {subscriberId : JsString} {db : State} (doc : SubscriberDoc)
    (hrow : docRow db subscriberId = some (.subscriber doc)) (hnone : db.pendingOffers.get subscriberId = none) :
    Tracked subscriberId db (some ⟨doc.cursor.position, [], none⟩) :=
  ⟨doc, hrow, le_rfl, .inl rfl, (window_self _ _).symm, nofun, nofun, fun _ => hnone⟩

/-! ### One lemma for each operation -/

section Steps
variable {subscriberId : JsString} {db db' : State} {d : Option Delivery}

theorem Tracked.register (h : Consistent db) (ht : Tracked subscriberId db d) (input : RegisterSubscriptionInput)
    (seated : SubscriptionSeated) (hok : registerSubscription db input = .ok (seated, db')) :
    Tracked subscriberId db' (track subscriberId d (some (.seated input.subscriberId seated.cursor.position))) := by
  obtain ⟨doc, snapshot, -, hfresh, hcursor, rfl⟩ := registerSubscription_ok input seated hok
  dsimp only [track]
  split
  · rename_i heq
    subst heq
    rw [hcursor]
    exact Tracked.seated doc (by simp) (h.no_offer _ hfresh)
  · rename_i hne
    exact ht.frame h (by rw [docRow_putDoc, if_neg fun e => hne e.symm]) rfl rfl (fun _ => le_rfl) (Extends.refl _)

theorem Tracked.reseat (h : Consistent db) (ht : Tracked subscriberId db d) (input : ReseatInput)
    (seated : SubscriptionSeated) (hok : reseatToSnapshot db input = .ok (seated, db')) :
    Tracked subscriberId db' (track subscriberId d (some (.seated input.subscriberId seated.cursor.position))) := by
  obtain ⟨doc, snapshot, -, -, -, hcursor, -, rfl⟩ := reseatToSnapshot_ok input seated hok
  dsimp only [track]
  split
  · rename_i heq
    subst heq
    rw [hcursor]
    exact Tracked.seated doc (by simp) (by simp)
  · rename_i hne
    have hother : ¬ subscriberId = input.subscriberId := fun e => hne e.symm
    exact ht.frame h (by simp [hother]) (by simp [hother]) rfl (fun _ => le_rfl) (Extends.refl _)

theorem Tracked.publish (h : Consistent db) (ht : Tracked subscriberId db d)
    (hfree : isReservedSubscriberId subscriberId = false) (input : SnapshotPublishInput) (snapshot : SnapshotDoc)
    (hok : publishSnapshot db input = .ok (snapshot, db')) : Tracked subscriberId db' d := by
  obtain ⟨-, -, -, -, rfl⟩ := publishSnapshot_ok input snapshot hok
  refine ht.frame h ?_ rfl rfl (fun _ => le_rfl) (Extends.refl _)
  rw [docRow_putDoc, if_neg fun e => snapshotSubscriberId_ne _ _ hfree e.symm]

theorem Tracked.advance (ht : Tracked subscriberId db d)
    (hfree : isReservedSubscriberId subscriberId = false) (input : AdvanceGenerationInput) (generation : ℕ)
    (hok : advanceGeneration db input = .ok (generation, db')) :
    Tracked subscriberId db' (track subscriberId d (some .advanced)) := by
  obtain ⟨baselines, -, rfl⟩ := advanceGeneration_ok input generation hok
  obtain ⟨-, hoffers, -, hevents⟩ := upsertBaselines_tables
    (clearAllPendingOffers { db with cursorGenerations := db.cursorGenerations ++ [generation] }) baselines.entries
  have hdoc := docRow_upsertBaselines_free
    (clearAllPendingOffers { db with cursorGenerations := db.cursorGenerations ++ [generation] }) baselines.entries
    subscriberId hfree
  cases d with
  | none => exact hdoc.trans ht
  | some d =>
    obtain ⟨doc, hrow, hd⟩ := ht
    refine ⟨doc, hdoc.trans hrow, hd.forward, ?_, ?_, hd.visible, nofun, fun _ => ?_⟩
    · unfold advanced
      rw [hevents]
      exact hd.grounded
    · unfold advanced
      rw [hevents]
      exact hd.pages
    · unfold advanced
      rw [hoffers]
      rfl

theorem Tracked.read (h : Consistent db) (ht : Tracked subscriberId db d) (request : SubscriptionPageRequest)
    (result : SubscriptionPageResult) (hok : readSubscriptionPage db request = .ok (result, db')) :
    Tracked subscriberId db' (track subscriberId d
      (seePage request.subscriberId (projectionCheckpoint db request.projection) result)) := by
  obtain ⟨doc, hfree, hrow, hfollows, houtcome⟩ := read_ok h request result db' hok
  cases houtcome with
  | gapped gap _ => exact ht
  | replayed offer hcurrent hpending =>
    dsimp only [seePage, track]
    split
    · rename_i heq
      obtain ⟨rfl, -⟩ := heq
      cases d with
      | none => exact ht
      | some d =>
        obtain ⟨doc', hrow', hd⟩ := ht
        cases hoffered : d.offered with
        | none =>
          have hidle := hd.idle hoffered
          rw [hpending.row] at hidle
          cases hidle
        | some p =>
          have hsame (page : OfferedPage) : d.offer page = d := by
            unfold Delivery.offer
            rw [hoffered, Option.some_or, ← hoffered]
          rw [Option.map_some, hsame]
          exact ⟨doc', hrow', hd⟩
    · exact ht
  | issued bounds hbounds hcurrent hbehind hnone =>
    dsimp only [seePage, track]
    unfold MoeNG.Subscriptions.offered
    cases hcursor : (freshPage db doc bounds).nextCursor with
    | none =>
      rw [if_neg (by simp)]
      exact ht
    | some cursor =>
      dsimp only
      split
      · rename_i heq
        obtain ⟨rfl, -⟩ := heq
        cases d with
        | none => exact ht
        | some d =>
          obtain ⟨doc', hrow', hd⟩ := ht
          cases hrow.symm.trans hrow'
          have hoffered : d.offered = none := by
            cases hoffered : d.offered with
            | none => rfl
            | some q =>
              obtain ⟨offer, hpending, -⟩ := hd.offered q hoffered
              rw [hpending.row] at hnone
              cases hnone
          refine ⟨doc, hrow, hd.forward, hd.grounded, hd.pages, hd.visible, fun p hp => ?_, fun hempty => ?_⟩
          · dsimp only [Delivery.offer] at hp
            rw [hoffered, Option.none_or] at hp
            obtain rfl := Option.some.inj hp
            refine ⟨_, pending_offered hbounds cursor hcursor, hcurrent, ?_⟩
            rw [← hfollows]
            rfl
          · dsimp only [Delivery.offer] at hempty
            rw [hoffered, Option.none_or] at hempty
            cases hempty
      · rename_i hne
        have hother : ¬ subscriberId = request.subscriberId := fun e => hne ⟨e.symm, by simp⟩
        exact ht.frame h rfl (by simp [State.putOffer, offerOf, hother]) rfl (fun _ => le_rfl) (Extends.refl _)

/-- The acknowledged page is the ledger from the old cursor to the new one. -/
theorem windowPage_events (ledger : Ledger) (bounds : PageBounds) (after checkpoint generation : ℕ)
    (cursor : SubscriptionCursor)
    (h : (windowPage ledger.events bounds after checkpoint generation).nextCursor = some cursor) :
    (windowPage ledger.events bounds after checkpoint generation).events = window ledger.events after cursor.position := by
  obtain ⟨last, hlast, rfl⟩ := Option.map_eq_some_iff.mp h
  have hinitial := budgetPrefix_isInitial bounds.limit bounds.byteLimit (window ledger.events after checkpoint)
  have hwithin := (List.mem_filter.mp (hinitial.subset (List.mem_of_getLast? hlast))).2
  simp only [decide_eq_true_eq] at hwithin
  refine (filter_le_last StoredEvent.globalPosition _ _ (window_increasing ledger after checkpoint) last hinitial
    hlast).symm.trans ?_
  unfold window
  rw [List.filter_filter]
  refine List.filter_congr fun e _ => ?_
  rw [Bool.eq_iff_iff]
  simp only [Bool.and_eq_true, decide_eq_true_eq]
  omega

theorem Tracked.acknowledge (h : Consistent db) (ht : Tracked subscriberId db d) (input : AcknowledgeInput)
    (cursor : SubscriptionCursor) (hok : acknowledge db input = .ok (cursor, db')) :
    Tracked subscriberId db' (track subscriberId d (some (.acknowledged input.subscriberId))) := by
  obtain ⟨doc, pending, hack, hcursor, rfl⟩ := acknowledge_ok input cursor hok
  dsimp only [track]
  split
  swap
  · rename_i hne
    have hother : ¬ subscriberId = input.subscriberId := fun e => hne e.symm
    exact ht.frame h (by simp [hother]) (by simp [hother]) rfl (fun _ => le_rfl) (Extends.refl _)
  rename_i heq
  subst heq
  cases d with
  | none =>
    have hrow := hack.row
    rw [show docRow db input.subscriberId = none from ht] at hrow
    cases hrow
  | some d =>
    obtain ⟨doc', hrow', hd⟩ := ht
    cases hack.row.symm.trans hrow'
    cases hoffered : d.offered with
    | none =>
      have hidle := hd.idle hoffered
      rw [hack.offer] at hidle
      cases hidle
    | some p =>
      obtain ⟨offer, hpending, hcurrent, rfl⟩ := hd.offered p hoffered
      have hissued : offer.issued = pending.issued :=
        congrArg OfferRow.issuedPosition (Option.some.inj (hpending.row.symm.trans hack.offer))
      obtain ⟨hbeyond, hwithin, -⟩ := hpending.bounded h
      have hbehind := hpending.behind
      have hcheckpoint := h.checkpoint doc.projection
      have hfrom := hpending.fromCursor
      have hevents := windowPage_events db.domainEvents _ _ _ _ _ hpending.issued
      have hforward := hd.forward
      have hposition : cursor.position = offer.issued := by rw [hcursor, hissued]
      refine ⟨{ doc with cursor := cursor }, by simp, ?_, ?_, ?_, fun q hq => ?_, fun p hp => (by cases hp),
        fun _ => by simp⟩
      · dsimp only [Delivery.acknowledge]
        omega
      · refine .inr (show cursor.position ≤ db.domainEvents.events.length from ?_)
        omega
      · dsimp only [Delivery.acknowledge]
        rw [hoffered, Option.toList_some, List.flatMap_append, hd.pages, List.flatMap_singleton]
        dsimp only [PendingSubscriptionOffer.page]
        rw [hevents, hposition, hfrom]
        dsimp only
        exact window_join db.domainEvents _ _ _ hforward (by omega)
      · rw [Delivery.acknowledge, hoffered, Option.toList_some] at hq
        obtain hq | hq := List.mem_append.mp hq
        · exact hd.visible q hq
        · obtain rfl := List.mem_singleton.mp hq
          intro e he
          have hwindow := (List.mem_filter.mp ((budgetPrefix_isInitial _ _ _).subset he)).2
          simp only [decide_eq_true_eq] at hwindow
          exact hwindow.2

theorem Tracked.checkpoint (h : Consistent db) (ht : Tracked subscriberId db d) (projection : JsString) (position : ℕ) :
    Tracked subscriberId (advanceCheckpoint db projection position) d := by
  have hforward := projectionCheckpoint_advance db projection position
  unfold MoeNG.Subscriptions.advanceCheckpoint at *
  split
  · rename_i hposition
    rw [if_pos hposition] at hforward
    exact ht.frame h rfl rfl rfl hforward (Extends.refl _)
  · exact ht

theorem Tracked.step (h : Consistent db) (ht : Tracked subscriberId db d)
    (hfree : isReservedSubscriberId subscriberId = false) (call : Call) :
    Tracked subscriberId (step db call) (track subscriberId d (observation db call)) := by
  let P (db' : State) (seen : Option Observation) : Prop := Tracked subscriberId db' (track subscriberId d seen)
  have hkept : P db none := ht
  cases call with
  | register input =>
    exact settled_seen_induction P _ _ hkept fun seated _ hok => ht.register h input seated hok
  | publish input => exact settled_induction (P · none) _ ht fun snapshot _ hok => ht.publish h hfree input snapshot hok
  | advance input =>
    exact settled_seen_induction P _ _ hkept fun generation _ hok => ht.advance hfree input generation hok
  | reseat input => exact settled_seen_induction P _ _ hkept fun seated _ hok => ht.reseat h input seated hok
  | read request => exact settled_seen_induction P _ _ hkept fun result _ hok => ht.read h request result hok
  | acknowledge input =>
    exact settled_seen_induction P _ _ hkept fun cursor _ hok => ht.acknowledge h input cursor hok
  | append eventId size => exact ht.frame h rfl rfl rfl (fun _ => le_rfl) (Extends.append _ eventId size)
  | checkpoint projection position => exact ht.checkpoint h projection position

end Steps

/-! ### Refused acknowledgements -/

section Acknowledgements
variable {db : State}

theorem requireCurrentGeneration_refused (claimed : ℤ) (code : SubscriptionCode)
    (h : Refused code (requireCurrentGeneration db claimed)) : code = .SUBSCRIPTION_GENERATION_MISSING := by
  obtain hrefused | ⟨generation, -, hrefused⟩ := h.of_bind
  · unfold requireGeneration at hrefused
    split at hrefused
    · obtain ⟨_, _, heq⟩ := hrefused
      cases heq
    · exact hrefused.code_unique ⟨_, _, rfl⟩
  · split at hrefused
    · exact hrefused.code_unique ⟨_, _, rfl⟩
    · obtain ⟨_, _, heq⟩ := hrefused
      cases heq

theorem loadPendingOffer_consistent (h : Consistent db) (id : JsString) : ∃ pending, loadPendingOffer db id = .ok pending
    ∧ ∀ offer doc, pending = some offer → docRow db id = some (.subscriber doc) → Pending db id doc offer := by
  cases hrow : db.pendingOffers.get id with
  | none =>
    refine ⟨none, ?_, nofun⟩
    unfold loadPendingOffer
    rw [hrow]
  | some row =>
    obtain ⟨doc, offer, hfree, hdoc, -, hpending⟩ := h.offer id row hrow
    obtain ⟨_, heq, -, hsafe⟩ := h.subscriber id _ hfree hdoc
    cases heq
    refine ⟨some offer, loadPendingOffer_eq h hsafe hpending, fun offer' doc' hsome hdoc' => ?_⟩
    obtain rfl := Option.some.inj hsome
    cases hdoc.symm.trans hdoc'
    exact hpending

theorem encodedCursor_refused (filter : List JsString) (generation position : ℕ) (projection : JsString) :
    (∃ next, encodedCursor filter generation position projection = .ok next)
      ∨ Refused .SUBSCRIPTION_INPUT_INVALID (encodedCursor filter generation position projection) := by
  unfold encodedCursor
  split
  · exact .inr ⟨_, _, rfl⟩
  · exact .inl ⟨_, rfl⟩

/-- The two writes of an acknowledgement find what they read. -/
theorem acknowledge_writes (id : JsString) (doc next : SubscriberDoc) (offer : PendingSubscriptionOffer)
    (hrow : docRow db id = some (.subscriber doc)) (hpending : Pending db id doc offer) :
    compareAndSet db id (.subscriber doc) (.subscriber next) = .ok (db.putDoc id (.subscriber next))
      ∧ consumePendingOffer (db.putDoc id (.subscriber next)) offer =
        .ok (clearPendingOffer (db.putDoc id (.subscriber next)) id) := by
  have hidentity := hpending.identity
  subst hidentity
  unfold compareAndSet consumePendingOffer
  rw [if_pos hrow, pendingOffers_putDoc, if_pos hpending.row]
  exact ⟨rfl, rfl⟩

/-- Only a cursor that a newer generation superseded is reported as corrupt. -/
theorem acknowledge_corrupt (h : Consistent db) (input : AcknowledgeInput)
    (hcorrupt : Refused .SUBSCRIPTION_STATE_CORRUPT (acknowledge db input)) :
    ∃ doc, docRow db input.subscriberId = some (.subscriber doc)
      ∧ currentGeneration db ≠ some doc.cursor.generation := by
  obtain hrefused | ⟨id, hid, hcorrupt⟩ := hcorrupt.of_bind
  · obtain ⟨id, hid⟩ | hinput := requireSubscriberId_refused input.subscriberId
    · exact (hrefused.not_ok _ hid).elim
    · cases hrefused.code_unique hinput
  obtain ⟨rfl, hfree⟩ := requireSubscriberId_ok _ _ hid
  split at hcorrupt
  · cases hcorrupt.code_unique ⟨_, _, rfl⟩
  rename_i position hposition
  obtain hrefused | ⟨generation, hgeneration, hcorrupt⟩ := hcorrupt.of_bind
  · cases requireCurrentGeneration_refused _ _ hrefused
  obtain ⟨-, hcurrent⟩ := requireCurrentGeneration_ok _ _ hgeneration
  cases hrow : docRow db input.subscriberId with
  | none =>
    rw [hrow] at hcorrupt
    cases hcorrupt.code_unique ⟨_, _, rfl⟩
  | some stored =>
    obtain ⟨doc, rfl, -⟩ := h.subscriber _ _ hfree hrow
    refine ⟨doc, rfl, fun hsame => ?_⟩
    obtain rfl := Option.some.inj (hcurrent.symm.trans hsame)
    rw [hrow] at hcorrupt
    dsimp only [requireDocText, bind, Except.bind, decodeSubscriberDoc] at hcorrupt
    rw [if_neg (not_not.mpr rfl)] at hcorrupt
    split at hcorrupt
    · cases hcorrupt.code_unique ⟨_, _, rfl⟩
    obtain ⟨pending, hload, hpending⟩ := loadPendingOffer_consistent h input.subscriberId
    rw [hload] at hcorrupt
    dsimp only at hcorrupt
    split at hcorrupt
    · cases hcorrupt.code_unique ⟨_, _, rfl⟩
    rename_i offer hfilter
    obtain ⟨hsome, -⟩ := Option.filter_eq_some_iff.mp hfilter
    have hoffer := hpending offer doc hsome hrow
    obtain ⟨hbeyond, hwithin, -⟩ := hoffer.bounded h
    have hbehind := hoffer.behind
    have hfrom := hoffer.fromCursor
    rw [if_neg (by omega)] at hcorrupt
    obtain ⟨next, hnext⟩ | hencode := encodedCursor_refused doc.filter doc.cursor.generation position doc.projection
    · obtain ⟨hset, hconsume⟩ := acknowledge_writes input.subscriberId doc next offer hrow hoffer
      rw [hnext] at hcorrupt
      dsimp only at hcorrupt
      rw [hset] at hcorrupt
      dsimp only at hcorrupt
      rw [hconsume] at hcorrupt
      obtain ⟨_, _, heq⟩ := hcorrupt
      cases heq
    · obtain ⟨_, _, hencode⟩ := hencode
      rw [hencode] at hcorrupt
      cases hcorrupt.code_unique ⟨_, _, rfl⟩

end Acknowledgements

/-! ### The cursor -/

theorem Consistent.free {db : State} (h : Consistent db) (id : JsString) (doc : SubscriberDoc)
    (hdoc : docRow db id = some (.subscriber doc)) : isReservedSubscriberId id = false := by
  cases hid : isReservedSubscriberId id with
  | false => rfl
  | true =>
    obtain ⟨p, rfl⟩ := (isReservedSubscriberId_iff id).mp hid
    obtain ⟨s, heq, -⟩ := h.sentinel p _ hdoc
    cases heq

/-- Only a reseat moves a cursor back. -/
theorem cursor_monotone {db : State} (h : Consistent db) (id : JsString) (doc : SubscriberDoc)
    (hdoc : docRow db id = some (.subscriber doc)) (call : Call)
    (hcall : ∀ input, call = .reseat input → input.subscriberId ≠ id) :
    ∃ doc', docRow (step db call) id = some (.subscriber doc') ∧ doc.cursor.position ≤ doc'.cursor.position := by
  have hfree := h.free id doc hdoc
  let P (db' : State) : Prop :=
    ∃ doc', docRow db' id = some (.subscriber doc') ∧ doc.cursor.position ≤ doc'.cursor.position
  have hkept : ∀ db', docRow db' id = docRow db id → P db' := fun db' hsame => ⟨doc, hsame.trans hdoc, le_rfl⟩
  cases call with
  | register input =>
    refine settled_induction P _ (hkept db rfl) fun seated db' hok => hkept db' ?_
    obtain ⟨_, _, -, hfresh, -, rfl⟩ := registerSubscription_ok input seated hok
    rw [docRow_putDoc, if_neg]
    rintro rfl
    rw [hdoc] at hfresh
    cases hfresh
  | publish input =>
    refine settled_induction P _ (hkept db rfl) fun snapshot db' hok => hkept db' ?_
    obtain ⟨-, -, -, -, rfl⟩ := publishSnapshot_ok input snapshot hok
    rw [docRow_putDoc, if_neg fun e => snapshotSubscriberId_ne _ _ hfree e.symm]
  | advance input =>
    refine settled_induction P _ (hkept db rfl) fun generation db' hok => hkept db' ?_
    obtain ⟨baselines, -, rfl⟩ := advanceGeneration_ok input generation hok
    exact docRow_upsertBaselines_free _ _ _ hfree
  | reseat input =>
    refine settled_induction P _ (hkept db rfl) fun seated db' hok => hkept db' ?_
    obtain ⟨_, _, -, -, -, -, -, rfl⟩ := reseatToSnapshot_ok input seated hok
    rw [docRow_clearPendingOffer, docRow_putDoc, if_neg fun e => hcall input rfl e.symm]
  | read request =>
    refine settled_induction P _ (hkept db rfl) fun result db' hok => hkept db' ?_
    obtain ⟨_, -, -, -, houtcome⟩ := read_ok h request result db' hok
    cases houtcome with
    | gapped gap _ => rfl
    | replayed offer _ _ => rfl
    | issued bounds _ _ _ _ =>
      unfold offered
      split <;> rfl
  | acknowledge input =>
    refine settled_induction P _ (hkept db rfl) fun cursor db' hok => ?_
    obtain ⟨doc', pending, hack, hcursor, rfl⟩ := acknowledge_ok input cursor hok
    unfold P
    rw [docRow_clearPendingOffer, docRow_putDoc]
    split
    · rename_i heq
      subst heq
      cases hdoc.symm.trans hack.row
      obtain ⟨doc', offer, -, hdoc', -, hpending⟩ := h.offer _ _ hack.offer
      cases hdoc.symm.trans hdoc'
      obtain ⟨hbeyond, -⟩ := hpending.bounded h
      have hissued : offer.issued = pending.issued :=
        congrArg OfferRow.issuedPosition (Option.some.inj (hpending.row.symm.trans hack.offer))
      have hfrom := hpending.fromCursor
      refine ⟨_, rfl, ?_⟩
      rw [hcursor]
      dsimp only
      omega
    · exact ⟨doc, hdoc, le_rfl⟩
  | append eventId size => exact hkept _ rfl
  | checkpoint projection position =>
    refine hkept _ ?_
    unfold step advanceCheckpoint
    dsimp only
    split <;> rfl

/-! ### Exactly once -/

/-- What a run owes a consumer whose cursor document is `doc` and whose observations are `d`. -/
structure ExactlyOnce (subscriberId : JsString) (db : State) (doc : SubscriberDoc) (d : Delivery) : Prop where
  forward : d.seated ≤ doc.cursor.position
  delivered : d.acknowledged.flatMap (fun p => p.page.events) =
    window db.domainEvents.events d.seated doc.cursor.position
  visible : ∀ p ∈ d.acknowledged, ∀ e ∈ p.page.events, e.globalPosition ≤ p.checkpoint
  reread : ∀ p, d.offered = some p → ∀ request, request.subscriberId = subscriberId →
    readSubscriptionPage db request = .ok (.PAGE p.page, db)
      ∨ Refused .SUBSCRIPTION_INPUT_INVALID (readSubscriptionPage db request)
  acknowledges : ∀ input cursor db', input.subscriberId = subscriberId →
    acknowledge db input = .ok (cursor, db') → ∃ p, d.offered = some p ∧ p.page.nextCursor = some cursor

theorem reread_pending {db : State} (h : Consistent db) (request : SubscriptionPageRequest) (doc : SubscriberDoc)
    (hdoc : docRow db request.subscriberId = some (.subscriber doc))
    (hcurrent : currentGeneration db = some doc.cursor.generation) (offer : PendingSubscriptionOffer)
    (hpending : Pending db request.subscriberId doc offer) :
    readSubscriptionPage db request = .ok (.PAGE (offer.page db.domainEvents.events), db)
      ∨ Refused .SUBSCRIPTION_INPUT_INVALID (readSubscriptionPage db request) := by
  obtain ⟨bounds, hvalid⟩ | hrefused := @read_valid_or_refused db request
  swap
  · exact .inr hrefused
  obtain ⟨doc', hdoc', hfollows⟩ | ⟨-, hnone⟩ | ⟨-, hnone⟩ | hrefused := read_live_or_refused h hvalid
  · cases hdoc.symm.trans hdoc'
    exact .inl (read_pending h hvalid doc hdoc hfollows hcurrent offer hpending)
  · rw [hcurrent] at hnone
    cases hnone
  · rw [hdoc] at hnone
    cases hnone
  · exact .inr hrefused

theorem Delivered.exactlyOnce {db : State} (h : Consistent db) {subscriberId : JsString} {doc : SubscriberDoc}
    {d : Delivery} (hrow : docRow db subscriberId = some (.subscriber doc)) (hd : Delivered db subscriberId doc d) :
    ExactlyOnce subscriberId db doc d := by
  refine ⟨hd.forward, hd.pages, hd.visible, fun p hp request hrequest => ?_, fun input cursor db' hinput hok => ?_⟩
  · subst hrequest
    obtain ⟨offer, hpending, hcurrent, rfl⟩ := hd.offered p hp
    exact reread_pending h request doc hrow hcurrent offer hpending
  · subst hinput
    obtain ⟨doc', pending, hack, hcursor, -⟩ := acknowledge_ok input cursor hok
    cases hrow.symm.trans hack.row
    cases hoffered : d.offered with
    | none =>
      have hidle := hd.idle hoffered
      rw [hack.offer] at hidle
      cases hidle
    | some p =>
      obtain ⟨offer, hpending, -, rfl⟩ := hd.offered p hoffered
      have hsame := Option.some.inj (hpending.row.symm.trans hack.offer)
      refine ⟨_, rfl, hpending.issued.trans ?_⟩
      have hissued : offer.issued = pending.issued := congrArg OfferRow.issuedPosition hsame
      rw [hcursor, hissued, hpending.generation]

theorem history_tracked (subscriberId : JsString) (hfree : isReservedSubscriberId subscriberId = false)
    (calls : List Call) :
    Consistent (history subscriberId calls).1
      ∧ Tracked subscriberId (history subscriberId calls).1 (history subscriberId calls).2 :=
  run_invariant (observed subscriberId) (fun s => Consistent s.1 ∧ Tracked subscriberId s.1 s.2)
    (fun _ call hs => ⟨hs.1.step call, hs.2.step hs.1 hfree call⟩) (State.empty, none)
    ⟨Consistent.empty, show docRow State.empty subscriberId = none from rfl⟩ calls

/-- Whatever interleaves, a consumer acknowledges exactly the ledger between its
seat and its cursor, its pending page never changes, no read finds the offer
corrupt, and only a reseat moves the cursor back. -/
theorem subscription_exactly_once (subscriberId : JsString) (calls : List Call) :
    let db := (history subscriberId calls).1
    (∀ doc, docRow db subscriberId = some (.subscriber doc) →
        ∃ d, (history subscriberId calls).2 = some d ∧ ExactlyOnce subscriberId db doc d)
      ∧ (∀ request, ¬ Refused .SUBSCRIPTION_STATE_CORRUPT (readSubscriptionPage db request))
      ∧ (∀ input, Refused .SUBSCRIPTION_STATE_CORRUPT (acknowledge db input) →
        ∃ doc, docRow db input.subscriberId = some (.subscriber doc)
          ∧ currentGeneration db ≠ some doc.cursor.generation)
      ∧ ∀ doc call, docRow db subscriberId = some (.subscriber doc) →
        (∀ input, call = .reseat input → input.subscriberId ≠ subscriberId) →
        ∃ doc', docRow (step db call) subscriberId = some (.subscriber doc')
          ∧ doc.cursor.position ≤ doc'.cursor.position := by
  intro db
  have hconsistent : Consistent db := by
    rw [show db = run step State.empty calls from run_observed_fst _ _ _]
    exact reachable_consistent calls
  refine ⟨fun doc hdoc => ?_, read_never_corrupt hconsistent, acknowledge_corrupt hconsistent,
    fun doc call hdoc hcall => cursor_monotone hconsistent subscriberId doc hdoc call hcall⟩
  have htracked := (history_tracked subscriberId (hconsistent.free _ _ hdoc) calls).2
  cases hd : (history subscriberId calls).2 with
  | none =>
    rw [hd] at htracked
    exact absurd (hdoc.symm.trans htracked) (Option.some_ne_none _)
  | some d =>
    rw [hd] at htracked
    obtain ⟨doc', hdoc', hdelivered⟩ := htracked
    cases hdoc.symm.trans hdoc'
    exact ⟨d, rfl, hdelivered.exactlyOnce hconsistent hdoc⟩

def sampleAt : JsString := lit "2026-08-08T10:00:00.000Z"

def sampleBaseline (checkpoint : ℤ) : GenerationBaseline :=
  ⟨checkpoint, lit "goal-count", some (lit "\x7b\x7d"), List.replicate 64 97⟩

theorem sampleSize : 1 ≤ 10 ∧ 10 ≤ maxPageDecodedBytes := by decide

/-- One event acknowledged, the next one offered. -/
def sampleCalls : List Call :=
  [.advance ⟨sampleAt, [sampleBaseline 0], lit "initial"⟩,
    .register ⟨sampleAt, none, lit "goal-count", some .ORIGIN, lit "goal-consumer"⟩,
    .append (lit "evt-1") ⟨10, sampleSize⟩, .append (lit "evt-2") ⟨10, sampleSize⟩, .checkpoint (lit "goal-count") 2,
    .read ⟨lit "goal-count", lit "goal-consumer", some 1, none⟩, .acknowledge ⟨1, lit "1", lit "goal-consumer"⟩,
    .read ⟨lit "goal-count", lit "goal-consumer", none, none⟩]

example :
    (history (lit "goal-consumer") sampleCalls).2 =
      some ⟨0, [⟨⟨2, [⟨1, 10, lit "evt-1"⟩], true, some ⟨1, 1⟩⟩, 2⟩],
        some ⟨⟨2, [⟨2, 10, lit "evt-2"⟩], false, some ⟨1, 2⟩⟩, 2⟩⟩ := by decide +kernel

end MoeNG.Subscriptions
