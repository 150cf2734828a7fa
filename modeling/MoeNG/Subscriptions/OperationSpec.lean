import MoeNG.Lib.Run
import MoeNG.Subscriptions.Operations

/-!
# What an accepted subscription operation does

One lemma for each operation gives everything its success says about the tables
before it and the tables it leaves.
-/

namespace MoeNG.Subscriptions
open MoeNG.Kernel MoeNG.Lib MoeNG.Store

/-! ### Tables read back -/

section Tables
variable (db : State) (subscriberId : JsString) (doc : StoredDoc)

@[simp] theorem docRow_putDoc (id : JsString) :
    docRow (db.putDoc subscriberId doc) id = if id = subscriberId then some doc else docRow db id :=
  OrdMap.get_set db.eventSubscriptions subscriberId id doc

@[simp] theorem currentGeneration_putDoc : currentGeneration (db.putDoc subscriberId doc) = currentGeneration db := rfl

@[simp] theorem projectionCheckpoint_putDoc (projection : JsString) :
    projectionCheckpoint (db.putDoc subscriberId doc) projection = projectionCheckpoint db projection := rfl

@[simp] theorem pendingOffers_putDoc : (db.putDoc subscriberId doc).pendingOffers = db.pendingOffers := rfl

@[simp] theorem domainEvents_putDoc : (db.putDoc subscriberId doc).domainEvents = db.domainEvents := rfl

@[simp] theorem docRow_clearPendingOffer (id : JsString) :
    docRow (clearPendingOffer db subscriberId) id = docRow db id := rfl

@[simp] theorem pendingOffers_clearPendingOffer (id : JsString) :
    (clearPendingOffer db subscriberId).pendingOffers.get id =
      if id = subscriberId then none else db.pendingOffers.get id :=
  OrdMap.get_erase db.pendingOffers subscriberId id

end Tables

/-! ### Guards -/

section Guards
variable {db : State}

theorem requireInput_ok {α : Type} (read : StoreResult α) (value : α) (h : requireInput read = .ok value) :
    read = .ok value := by
  cases read with
  | error e => cases h
  | ok v => exact congrArg Except.ok (Except.ok.inj h)

theorem requireInput_identifier_ok (value out : JsString) (field : String)
    (h : requireInput (requireIdentifier value field) = .ok out) : out = value :=
  (requireIdentifier_ok _ _ _ (requireInput_ok _ _ h)).1

theorem requireSubscriberId_ok (value out : JsString) (h : requireSubscriberId value = .ok out) :
    out = value ∧ isReservedSubscriberId value = false := by
  unfold requireSubscriberId at h
  split at h
  · cases h
  · rename_i hfree
    exact ⟨requireInput_identifier_ok _ _ _ h, by simpa using hfree⟩

theorem requireGeneration_ok (generation : ℕ) (h : requireGeneration db = .ok generation) :
    currentGeneration db = some generation := by
  unfold requireGeneration at h
  split at h
  · rename_i hsome
    rw [hsome, Except.ok.inj h]
  · cases h

theorem requireCurrentGeneration_ok (claimed : ℤ) (generation : ℕ)
    (h : requireCurrentGeneration db claimed = .ok generation) :
    claimed = generation ∧ currentGeneration db = some generation := by
  obtain ⟨g, hg, h⟩ := except_bind_ok _ _ _ h
  split at h
  · cases h
  · rename_i heq
    obtain rfl := Except.ok.inj h
    exact ⟨not_not.mp heq, requireGeneration_ok _ hg⟩

theorem loadSnapshot_ok (projection : JsString) (generation : ℕ) (snapshot : SnapshotDoc)
    (h : loadSnapshot db projection generation = .ok snapshot) :
    docRow db (snapshotSubscriberId projection) = some (.snapshot snapshot) ∧ snapshot.generation = generation := by
  unfold loadSnapshot at h
  split at h
  · cases h
  · rename_i text htext
    cases text with
    | subscriber doc => cases h
    | unparseable text => cases h
    | snapshot doc =>
      dsimp only [decodeSnapshotDoc] at h
      split at h
      · cases h
      · rename_i heq
        obtain rfl := Except.ok.inj h
        exact ⟨htext, not_not.mp heq⟩

theorem requireDocText_ok (text : Option StoredDoc) (subscriberId : JsString) (out : StoredDoc)
    (h : requireDocText text subscriberId = .ok out) : text = some out := by
  cases text with
  | none => cases h
  | some text => exact congrArg some (Except.ok.inj h)

theorem encodedCursor_ok (filter : List JsString) (generation position : ℕ) (projection : JsString)
    (doc : SubscriberDoc) (h : encodedCursor filter generation position projection = .ok doc) :
    doc = ⟨⟨generation, position⟩, filter, projection⟩ ∧ isGeneration generation = true := by
  unfold encodedCursor at h
  split at h
  · cases h
  · rename_i next hnext
    obtain rfl := Except.ok.inj h
    obtain ⟨hdoc, -, hgeneration⟩ := encodeSubscriberDoc_some _ _ _ _ _ hnext
    exact ⟨hdoc, hgeneration⟩

theorem compareAndSet_ok (subscriberId : JsString) (expected next : StoredDoc) (db' : State)
    (h : compareAndSet db subscriberId expected next = .ok db') :
    docRow db subscriberId = some expected ∧ db' = db.putDoc subscriberId next := by
  unfold compareAndSet at h
  split at h
  · rename_i hrow
    exact ⟨hrow, (Except.ok.inj h).symm⟩
  · cases h

end Guards

/-! ### Seatings -/

section Seatings
variable {db db' : State}

/-- A seating: a cursor of the current generation, on a projection that has a baseline. -/
structure Seating (db : State) (subscriberId projection : JsString) (doc : SubscriberDoc) (snapshot : SnapshotDoc) :
    Prop where
  free : isReservedSubscriberId subscriberId = false
  current : currentGeneration db = some doc.cursor.generation
  safe : isGeneration doc.cursor.generation = true
  follows : doc.projection = projection
  baseline : docRow db (snapshotSubscriberId projection) = some (.snapshot snapshot)

theorem registerSubscription_ok (input : RegisterSubscriptionInput) (seated : SubscriptionSeated)
    (h : registerSubscription db input = .ok (seated, db')) :
    ∃ (doc : SubscriberDoc) (snapshot : SnapshotDoc), Seating db input.subscriberId input.projection doc snapshot
      ∧ docRow db input.subscriberId = none
      ∧ seated.cursor = doc.cursor ∧ db' = db.putDoc input.subscriberId (.subscriber doc) := by
  simp only [registerSubscription, ↓except_bind_iff] at h
  obtain ⟨id, hid, projection, hprojection, _, -, generation, hgeneration, h⟩ := h
  obtain ⟨rfl, hfree⟩ := requireSubscriberId_ok _ _ hid
  obtain rfl := requireInput_identifier_ok _ _ _ hprojection
  split at h
  · cases h
  rename_i hfresh
  simp only [↓except_bind_iff] at h
  obtain ⟨snapshot, hsnapshot, position, -, doc, hdoc, h⟩ := h
  obtain ⟨rfl, hsafe⟩ := encodedCursor_ok _ _ _ _ _ hdoc
  obtain ⟨rfl, rfl⟩ := Prod.mk.inj (Except.ok.inj h)
  exact ⟨_, snapshot, ⟨hfree, requireGeneration_ok _ hgeneration, hsafe, rfl, (loadSnapshot_ok _ _ _ hsnapshot).1⟩,
    not_not.mp hfresh, rfl, rfl⟩

theorem reseatToSnapshot_ok (input : ReseatInput) (seated : SubscriptionSeated)
    (h : reseatToSnapshot db input = .ok (seated, db')) :
    ∃ (doc : SubscriberDoc) (snapshot : SnapshotDoc), Seating db input.subscriberId input.projection doc snapshot
      ∧ docRow db input.subscriberId ≠ none
      ∧ doc.cursor.position = snapshot.checkpoint ∧ seated.cursor = doc.cursor ∧ seated.snapshot = snapshot
      ∧ db' = clearPendingOffer (db.putDoc input.subscriberId (.subscriber doc)) input.subscriberId := by
  simp only [reseatToSnapshot, ↓except_bind_iff] at h
  obtain ⟨id, hid, projection, hprojection, generation, hgeneration, text, htext, _, -, snapshot, hsnapshot, _, -, doc, hdoc,
    mid, hmid, h⟩ := h
  obtain ⟨rfl, hfree⟩ := requireSubscriberId_ok _ _ hid
  obtain rfl := requireInput_identifier_ok _ _ _ hprojection
  obtain ⟨rfl, hsafe⟩ := encodedCursor_ok _ _ _ _ _ hdoc
  obtain ⟨hrow, rfl⟩ := compareAndSet_ok _ _ _ _ hmid
  obtain ⟨rfl, rfl⟩ := Prod.mk.inj (Except.ok.inj h)
  exact ⟨_, snapshot, ⟨hfree, requireGeneration_ok _ hgeneration, hsafe, rfl, (loadSnapshot_ok _ _ _ hsnapshot).1⟩,
    by rw [hrow]; exact Option.some_ne_none _, rfl, rfl, rfl, rfl⟩

end Seatings

/-! ### Baselines -/

section Baselines
variable {db db' : State}

theorem publishSnapshot_ok (input : SnapshotPublishInput) (snapshot : SnapshotDoc)
    (h : publishSnapshot db input = .ok (snapshot, db')) :
    (snapshot.checkpoint : ℤ) = input.checkpoint ∧ snapshot.projection = input.projection
      ∧ currentGeneration db = some snapshot.generation
      ∧ docRow db (snapshotSubscriberId input.projection) ≠ none
      ∧ db' = db.putDoc (snapshotSubscriberId input.projection) (.snapshot snapshot) := by
  obtain ⟨projection, hprojection, h⟩ := except_bind_ok _ _ _ h
  obtain rfl := requireInput_identifier_ok _ _ _ hprojection
  obtain ⟨checkpoint, hcheckpoint, h⟩ := except_bind_ok _ _ _ h
  obtain ⟨hvalue, -⟩ := requireNonnegativeBigInt_ok _ _ _ (requireInput_ok _ _ hcheckpoint)
  obtain ⟨generation, hgeneration, h⟩ := except_bind_ok _ _ _ h
  obtain ⟨doc, hdoc, h⟩ := except_bind_ok _ _ _ h
  split at h
  · cases h
  split at h
  · cases h
  rename_i next hnext
  obtain ⟨mid, hmid, h⟩ := except_bind_ok _ _ _ h
  obtain ⟨hrow, rfl⟩ := compareAndSet_ok _ _ _ _ hmid
  obtain ⟨rfl, rfl⟩ := Prod.mk.inj (Except.ok.inj h)
  obtain ⟨h1, h2, h3⟩ := encodeSnapshotDoc_some _ _ _ _ _ _ hnext
  refine ⟨by rw [h1, hvalue], h3, ?_, by rw [hrow]; exact Option.some_ne_none _, rfl⟩
  rw [h2]
  exact (requireCurrentGeneration_ok _ _ hgeneration).2

theorem encodedBaselines_ok (generation : ℕ) (items : List GenerationBaseline) (start out : OrdMap JsString SnapshotDoc)
    (h : encodedBaselines generation start items = .ok out) (p : JsString) (s : SnapshotDoc)
    (hs : out.get p = some s) :
    start.get p = some s ∨ (s.projection = p ∧ s.generation = generation
      ∧ ∃ item ∈ items, item.projection = p ∧ item.checkpoint = s.checkpoint) := by
  induction items generalizing start with
  | nil =>
    obtain rfl := Except.ok.inj h
    exact .inl hs
  | cons item rest ih =>
    obtain ⟨projection, hprojection, h⟩ := except_bind_ok _ _ _ h
    obtain rfl := requireInput_identifier_ok _ _ _ hprojection
    obtain ⟨checkpoint, hcheckpoint, h⟩ := except_bind_ok _ _ _ h
    obtain ⟨hvalue, -⟩ := requireNonnegativeBigInt_ok _ _ _ (requireInput_ok _ _ hcheckpoint)
    split at h
    · cases h
    rename_i text htext
    obtain ⟨h1, h2, h3⟩ := encodeSnapshotDoc_some _ _ _ _ _ _ htext
    split at h
    · cases h
    obtain hstart | ⟨hp, hg, i, hi, hitem⟩ := ih _ h
    · rw [OrdMap.get_set] at hstart
      split at hstart
      · rename_i heq
        obtain rfl := Option.some.inj hstart
        exact .inr ⟨h3.trans heq.symm, h2, item, List.mem_cons_self .., heq.symm, by rw [h1, hvalue]⟩
      · exact .inl hstart
    · exact .inr ⟨hp, hg, i, List.mem_cons_of_mem _ hi, hitem⟩

theorem coveredProjections_ok (entries : List (JsString × StoredDoc)) (covered : List JsString)
    (h : coveredProjections entries = .ok covered) (id : JsString) (stored : StoredDoc) (hmem : (id, stored) ∈ entries) :
    (∀ p, id = snapshotSubscriberId p → p ∈ covered)
      ∧ (isReservedSubscriberId id = false → ∃ doc, stored = .subscriber doc ∧ doc.projection ∈ covered) := by
  induction entries generalizing covered with
  | nil => cases hmem
  | cons entry rest ih =>
    obtain ⟨id', stored'⟩ := entry
    unfold coveredProjections at h
    split at h
    · rename_i hreserved
      obtain ⟨others, hothers, h⟩ := except_bind_ok _ _ _ h
      obtain rfl := Except.ok.inj h
      obtain heq | hmem := List.mem_cons.mp hmem
      · obtain ⟨rfl, rfl⟩ := Prod.mk.inj heq
        refine ⟨fun p hp => ?_, fun hfree => absurd hreserved (by rw [hfree]; exact Bool.false_ne_true)⟩
        rw [hp, snapshotSubscriberId, List.drop_left]
        exact List.mem_cons_self ..
      · obtain ⟨h1, h2⟩ := ih others hothers hmem
        refine ⟨fun p hp => List.mem_cons_of_mem _ (h1 p hp), fun hfree => ?_⟩
        obtain ⟨doc, hdoc, hin⟩ := h2 hfree
        exact ⟨doc, hdoc, List.mem_cons_of_mem _ hin⟩
    · rename_i hunreserved
      cases stored' with
      | snapshot doc => cases h
      | unparseable text => cases h
      | subscriber doc =>
        dsimp only [decodeSubscriberDoc] at h
        obtain ⟨others, hothers, h⟩ := except_bind_ok _ _ _ h
        obtain rfl := Except.ok.inj h
        obtain heq | hmem := List.mem_cons.mp hmem
        · obtain ⟨rfl, rfl⟩ := Prod.mk.inj heq
          refine ⟨fun p hp => ?_, fun _ => ⟨doc, rfl, List.mem_cons_self ..⟩⟩
          rw [hp, isReservedSubscriberId_snapshot] at hunreserved
          exact absurd rfl hunreserved
        · obtain ⟨h1, h2⟩ := ih others hothers hmem
          refine ⟨fun p hp => List.mem_cons_of_mem _ (h1 p hp), fun hfree => ?_⟩
          obtain ⟨doc', hdoc, hin⟩ := h2 hfree
          exact ⟨doc', hdoc, List.mem_cons_of_mem _ hin⟩

theorem upsertBaselines_tables (db : State) (entries : List (JsString × SnapshotDoc)) :
    (upsertBaselines db entries).cursorGenerations = db.cursorGenerations
      ∧ (upsertBaselines db entries).pendingOffers = db.pendingOffers
      ∧ (upsertBaselines db entries).projections = db.projections
      ∧ (upsertBaselines db entries).domainEvents = db.domainEvents := by
  induction entries generalizing db with
  | nil => exact ⟨rfl, rfl, rfl, rfl⟩
  | cons entry rest ih => exact ih (db.putDoc (snapshotSubscriberId entry.1) (.snapshot entry.2))

theorem docRow_upsertBaselines_free (db : State) (entries : List (JsString × SnapshotDoc)) (id : JsString)
    (hfree : isReservedSubscriberId id = false) : docRow (upsertBaselines db entries) id = docRow db id := by
  induction entries generalizing db with
  | nil => rfl
  | cons entry rest ih =>
    refine (ih (db.putDoc (snapshotSubscriberId entry.1) (.snapshot entry.2))).trans ?_
    rw [docRow_putDoc, if_neg]
    intro heq
    rw [heq, isReservedSubscriberId_snapshot] at hfree
    cases hfree

theorem docRow_upsertBaselines (db : State) (entries : List (JsString × SnapshotDoc))
    (hnodup : (entries.map Prod.fst).Nodup) (p : JsString) :
    docRow (upsertBaselines db entries) (snapshotSubscriberId p) =
      match (entries.find? fun e => e.1 = p).map Prod.snd with
      | some s => some (.snapshot s)
      | none => docRow db (snapshotSubscriberId p) := by
  induction entries generalizing db with
  | nil => rfl
  | cons entry rest ih =>
    obtain ⟨hfresh, hrest⟩ := List.nodup_cons.mp hnodup
    refine (ih (db.putDoc (snapshotSubscriberId entry.1) (.snapshot entry.2)) hrest).trans ?_
    by_cases heq : entry.1 = p
    · have hnone : rest.find? (fun e => e.1 = p) = none := by
        refine List.find?_eq_none.mpr fun e he => ?_
        simp only [decide_eq_true_eq]
        exact fun hep => hfresh (heq ▸ hep ▸ List.mem_map_of_mem (f := Prod.fst) he)
      rw [hnone, List.find?_cons_of_pos (by simpa using heq)]
      simp [heq]
    · rw [List.find?_cons_of_neg (by simpa using heq)]
      have hne : ¬ snapshotSubscriberId p = snapshotSubscriberId entry.1 := fun h =>
        heq ((snapshotSubscriberId_inj _ _).mp h).symm
      simp only [docRow_putDoc, if_neg hne]

/-- A generation covers every baseline and every live subscriber's projection. -/
structure Advance (db : State) (input : AdvanceGenerationInput) (generation : ℕ)
    (baselines : OrdMap JsString SnapshotDoc) : Prop where
  next : generation = (currentGeneration db).getD 0 + 1
  published : ∀ p s, baselines.get p = some s → s.projection = p ∧ s.generation = generation
    ∧ ∃ item ∈ input.baselines, item.projection = p ∧ item.checkpoint = s.checkpoint
  sentinels : ∀ p, docRow db (snapshotSubscriberId p) ≠ none → baselines.get p ≠ none
  subscribers : ∀ id doc, isReservedSubscriberId id = false → docRow db id = some (.subscriber doc) →
    baselines.get doc.projection ≠ none

def advanced (db : State) (generation : ℕ) (baselines : OrdMap JsString SnapshotDoc) : State :=
  upsertBaselines (clearAllPendingOffers { db with cursorGenerations := db.cursorGenerations ++ [generation] })
    baselines.entries

theorem advanceGeneration_ok (input : AdvanceGenerationInput) (generation : ℕ)
    (h : advanceGeneration db input = .ok (generation, db')) :
    ∃ baselines, Advance db input generation baselines ∧ db' = advanced db generation baselines := by
  obtain ⟨_, -, h⟩ := except_bind_ok _ _ _ h
  obtain ⟨_, -, h⟩ := except_bind_ok _ _ _ h
  dsimp only at h
  obtain ⟨baselines, hbaselines, h⟩ := except_bind_ok _ _ _ h
  obtain ⟨covered, hcovered, h⟩ := except_bind_ok _ _ _ h
  split at h
  · cases h
  rename_i hall
  obtain ⟨rfl, rfl⟩ := Prod.mk.inj (Except.ok.inj h)
  have hin : ∀ p ∈ covered, baselines.get p ≠ none := by
    intro p hp
    have := List.find?_eq_none.mp hall p hp
    simpa [OrdMap.has, Option.isSome_iff_ne_none] using this
  refine ⟨baselines, ⟨rfl, fun p s hs => ?_, fun p hp => ?_, fun id doc hfree hdoc => ?_⟩, rfl⟩
  · obtain hempty | hitem := encodedBaselines_ok _ _ _ _ hbaselines p s hs
    · cases hempty
    · exact hitem
  · obtain ⟨stored, hstored⟩ := Option.ne_none_iff_exists'.mp hp
    exact hin p ((coveredProjections_ok _ _ hcovered _ stored (OrdMap.mem_entries_of_get _ _ _ hstored)).1 p rfl)
  · obtain ⟨doc', heq, hmem⟩ :=
      (coveredProjections_ok _ _ hcovered id _ (OrdMap.mem_entries_of_get _ _ _ hdoc)).2 hfree
    cases heq
    exact hin _ hmem

theorem advanced_current (generation : ℕ) (baselines : OrdMap JsString SnapshotDoc)
    (hnext : generation = (currentGeneration db).getD 0 + 1) :
    currentGeneration (advanced db generation baselines) = some generation := by
  have htables := (upsertBaselines_tables
    (clearAllPendingOffers { db with cursorGenerations := db.cursorGenerations ++ [generation] }) baselines.entries).1
  unfold advanced currentGeneration
  rw [htables]
  refine List.max?_eq_some_iff.mpr ⟨List.mem_append_right _ (List.mem_singleton_self _), fun g hg => ?_⟩
  obtain hg | hg := List.mem_append.mp hg
  · unfold currentGeneration at hnext
    cases hmax : db.cursorGenerations.max? with
    | none => exact absurd (List.max?_eq_none_iff.mp hmax ▸ hg) List.not_mem_nil
    | some top =>
      have hle := (List.max?_eq_some_iff.mp hmax).2 g hg
      rw [hmax, Option.getD_some] at hnext
      omega
  · exact (List.mem_singleton.mp hg).le

end Baselines

/-! ### Offers -/

section Offers
variable {db db' : State}

theorem positiveSafeInteger_ok (value out maximum : ℕ) (field : String)
    (h : positiveSafeInteger value field maximum = .ok out) : out = value := by
  unfold positiveSafeInteger at h
  split at h
  · cases h
  · exact (Except.ok.inj h).symm

theorem position_ok (value out : ℕ) (field : String) (h : position value field = .ok out) : out = value := by
  unfold position at h
  split at h
  · cases h
  · exact (Except.ok.inj h).symm

theorem absentOrPositive_ok (value out : Option ℕ) (maximum : ℕ) (field : String)
    (h : absentOrPositive value field maximum = .ok out) : out = value := by
  cases value with
  | none => exact (Except.ok.inj h).symm
  | some value =>
    obtain ⟨v, hv, rfl⟩ := except_map_ok _ _ _ h
    rw [positiveSafeInteger_ok _ _ _ _ hv]

/-- A loaded offer is the stored row. -/
theorem loadPendingOffer_some (subscriberId : JsString) (offer : PendingSubscriptionOffer)
    (h : loadPendingOffer db subscriberId = .ok (some offer)) :
    db.pendingOffers.get subscriberId = some offer.row ∧ offer.subscriberId = subscriberId := by
  unfold loadPendingOffer at h
  split at h
  · cases h
  · rename_i row hrow
    simp only [↓except_bind_iff] at h
    obtain ⟨_, h1, _, h2, _, h3, _, h4, _, h5, _, h6, _, h7, h⟩ := h
    obtain rfl := positiveSafeInteger_ok _ _ _ _ h1
    obtain rfl := position_ok _ _ _ h2
    obtain rfl := position_ok _ _ _ h3
    obtain rfl := position_ok _ _ _ h4
    obtain rfl := positiveSafeInteger_ok _ _ _ _ h5
    obtain rfl := positiveSafeInteger_ok _ _ _ _ h6
    obtain rfl := absentOrPositive_ok _ _ _ _ h7
    split at h
    · cases h
    · split at h
      · cases h
      · rename_i hdigest
        obtain rfl := Option.some.inj (Except.ok.inj h)
        refine ⟨hrow.trans ?_, rfl⟩
        unfold PendingSubscriptionOffer.row
        rw [← not_not.mp hdigest]

/-- An accepted acknowledgement moves the cursor to the end of the pending offer. -/
structure Acknowledged (db : State) (subscriberId : JsString) (doc : SubscriberDoc)
    (pending : PendingSubscriptionOffer) : Prop where
  free : isReservedSubscriberId subscriberId = false
  row : docRow db subscriberId = some (.subscriber doc)
  current : currentGeneration db = some doc.cursor.generation
  safe : isGeneration doc.cursor.generation = true
  offer : db.pendingOffers.get subscriberId = some pending.row
  generation : pending.generation = doc.cursor.generation
  fromCursor : pending.fromPosition = doc.cursor.position

theorem acknowledge_ok (input : AcknowledgeInput) (cursor : SubscriptionCursor)
    (h : acknowledge db input = .ok (cursor, db')) :
    ∃ (doc : SubscriberDoc) (pending : PendingSubscriptionOffer), Acknowledged db input.subscriberId doc pending
      ∧ cursor = ⟨doc.cursor.generation, pending.issued⟩
      ∧ db' = clearPendingOffer (db.putDoc input.subscriberId (.subscriber { doc with cursor := cursor }))
        input.subscriberId := by
  obtain ⟨id, hid, h⟩ := except_bind_ok _ _ _ h
  obtain ⟨rfl, hfree⟩ := requireSubscriberId_ok _ _ hid
  split at h
  · cases h
  rename_i position hposition
  obtain ⟨generation, hgeneration, h⟩ := except_bind_ok _ _ _ h
  obtain ⟨-, hcurrent⟩ := requireCurrentGeneration_ok _ _ hgeneration
  obtain ⟨text, htext, h⟩ := except_bind_ok _ _ _ h
  have hrow := requireDocText_ok _ _ _ htext
  cases text with
  | snapshot doc => cases h
  | unparseable text => cases h
  | subscriber doc =>
    dsimp only [decodeSubscriberDoc] at h
    split at h
    · cases h
    rename_i hsame
    obtain rfl := not_not.mp hsame
    split at h
    · cases h
    obtain ⟨pending, hpending, h⟩ := except_bind_ok _ _ _ h
    split at h
    · cases h
    rename_i pending hfilter
    obtain ⟨rfl, hissued⟩ := Option.filter_eq_some_iff.mp hfilter
    simp only [Bool.and_eq_true, decide_eq_true_eq] at hissued
    obtain ⟨hoffer, hidentity⟩ := loadPendingOffer_some _ _ hpending
    split at h
    · cases h
    rename_i hconsistent
    obtain ⟨hfrom, -⟩ := not_or.mp hconsistent
    obtain ⟨next, hnext, h⟩ := except_bind_ok _ _ _ h
    obtain ⟨rfl, hsafe⟩ := encodedCursor_ok _ _ _ _ _ hnext
    obtain ⟨mid, hmid, h⟩ := except_bind_ok _ _ _ h
    obtain ⟨-, rfl⟩ := compareAndSet_ok _ _ _ _ hmid
    obtain ⟨last, hlast, h⟩ := except_bind_ok _ _ _ h
    unfold consumePendingOffer at hlast
    split at hlast
    swap
    · cases hlast
    obtain rfl := Except.ok.inj hlast
    obtain ⟨rfl, rfl⟩ := Prod.mk.inj (Except.ok.inj h)
    refine ⟨doc, pending, ⟨hfree, hrow, hcurrent, hsafe, hoffer, hissued.1, not_not.mp hfrom⟩, by rw [hissued.2], ?_⟩
    rw [hidentity]
    rfl

end Offers

end MoeNG.Subscriptions
