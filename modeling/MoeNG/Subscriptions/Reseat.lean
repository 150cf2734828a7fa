import MoeNG.Subscriptions.Delivery

/-!
# Reading after a reseat

A reseat takes the cursor to the baseline checkpoint without comparing it with
the projection, so the next read is a page exactly when the baseline lies at or
behind the projection checkpoint.
-/

namespace MoeNG.Subscriptions
open MoeNG.Kernel MoeNG.Lib MoeNG.Store

/-! ### Baselines behind their projections -/

/-- The call publishes no baseline ahead of its projection. -/
def Grounded (db : State) : Call → Prop
  | .publish input => input.checkpoint ≤ projectionCheckpoint db input.projection
  | .advance input => ∀ item ∈ input.baselines, item.checkpoint ≤ projectionCheckpoint db item.projection
  | _ => True

def BaselinesBehind (db : State) : Prop :=
  ∀ p s, docRow db (snapshotSubscriberId p) = some (.snapshot s) → s.checkpoint ≤ projectionCheckpoint db p

theorem BaselinesBehind.carry {db db' : State} (h : BaselinesBehind db)
    (hdocs : ∀ p, docRow db' (snapshotSubscriberId p) = docRow db (snapshotSubscriberId p))
    (hprojections : ∀ p, projectionCheckpoint db p ≤ projectionCheckpoint db' p) : BaselinesBehind db' := by
  intro p s hs
  rw [hdocs] at hs
  exact (h p s hs).trans (hprojections p)

theorem BaselinesBehind.advance {db : State} (input : AdvanceGenerationInput)
    (hground : ∀ item ∈ input.baselines, item.checkpoint ≤ projectionCheckpoint db item.projection) (generation : ℕ)
    (baselines : OrdMap JsString SnapshotDoc) (hadvance : Advance db input generation baselines) :
    BaselinesBehind (advanced db generation baselines) := by
  intro p s hs
  have hdocs := docRow_upsertBaselines
    (clearAllPendingOffers { db with cursorGenerations := db.cursorGenerations ++ [generation] }) baselines.entries
    baselines.nodup p
  obtain ⟨-, -, hprojections, -⟩ := upsertBaselines_tables
    (clearAllPendingOffers { db with cursorGenerations := db.cursorGenerations ++ [generation] }) baselines.entries
  unfold advanced at hs
  rw [hdocs] at hs
  split at hs
  · rename_i s' hs'
    cases hs
    obtain ⟨-, -, item, hitem, rfl, hcheckpoint⟩ := hadvance.published p s hs'
    have hle := hground item hitem
    have hsame : projectionCheckpoint (advanced db generation baselines) item.projection =
        projectionCheckpoint db item.projection := by
      unfold advanced projectionCheckpoint
      rw [hprojections]
      rfl
    rw [hsame]
    omega
  · rename_i hnone
    exact absurd hnone (hadvance.sentinels p (by rw [show docRow db _ = _ from hs]; exact Option.some_ne_none _))

theorem BaselinesBehind.step {db : State} (hdb : Consistent db) (h : BaselinesBehind db) (call : Call)
    (hground : Grounded db call) : BaselinesBehind (step db call) := by
  cases call with
  | register input =>
    refine settled_induction BaselinesBehind _ h fun seated db' hok => ?_
    obtain ⟨_, _, hseat, -, -, rfl⟩ := registerSubscription_ok input seated hok
    exact h.carry (fun p => by rw [docRow_putDoc, if_neg (snapshotSubscriberId_ne _ p hseat.free)]) fun _ => le_rfl
  | publish input =>
    refine settled_induction BaselinesBehind _ h fun snapshot db' hok => ?_
    obtain ⟨hcheckpoint, hprojection, -, -, rfl⟩ := publishSnapshot_ok input snapshot hok
    intro p s hs
    rw [docRow_putDoc] at hs
    split at hs
    · rename_i heq
      cases hs
      obtain rfl := (snapshotSubscriberId_inj _ _).mp heq
      have hle : input.checkpoint ≤ projectionCheckpoint db input.projection := hground
      rw [projectionCheckpoint_putDoc]
      omega
    · exact h p s hs
  | advance input =>
    refine settled_induction BaselinesBehind _ h fun generation db' hok => ?_
    obtain ⟨baselines, hadvance, rfl⟩ := advanceGeneration_ok input generation hok
    exact BaselinesBehind.advance input hground generation baselines hadvance
  | reseat input =>
    refine settled_induction BaselinesBehind _ h fun seated db' hok => ?_
    obtain ⟨_, _, hseat, -, -, -, -, rfl⟩ := reseatToSnapshot_ok input seated hok
    refine h.carry (fun p => ?_) fun _ => le_rfl
    rw [docRow_clearPendingOffer, docRow_putDoc, if_neg (snapshotSubscriberId_ne _ p hseat.free)]
  | read request =>
    refine settled_induction BaselinesBehind _ h fun result db' hok => ?_
    obtain ⟨_, -, -, -, houtcome⟩ := read_ok hdb request result db' hok
    cases houtcome with
    | gapped gap _ => exact h
    | replayed offer _ _ => exact h
    | issued bounds _ _ _ _ =>
      unfold offered
      split
      · exact h
      · exact h.carry (fun _ => rfl) fun _ => le_rfl
  | acknowledge input =>
    refine settled_induction BaselinesBehind _ h fun cursor db' hok => ?_
    obtain ⟨_, _, hack, -, rfl⟩ := acknowledge_ok input cursor hok
    refine h.carry (fun p => ?_) fun _ => le_rfl
    rw [docRow_clearPendingOffer, docRow_putDoc, if_neg (snapshotSubscriberId_ne _ p hack.free)]
  | append eventId size => exact h.carry (fun _ => rfl) fun _ => le_rfl
  | checkpoint projection position =>
    refine h.carry (fun p => ?_) (projectionCheckpoint_advance db projection position)
    unfold MoeNG.Subscriptions.step advanceCheckpoint
    dsimp only
    split <;> rfl

/-! ### The read after a reseat -/

def ReadsPage (db : State) (request : SubscriptionPageRequest) : Prop :=
  ∃ page db', readSubscriptionPage db request = .ok (.PAGE page, db')

/-- Every record fits in the default byte budget. -/
theorem admits_default (ledger : Ledger) (after : ℕ) : Admits maxPageDecodedBytes (pendingAfter ledger.events after) := by
  unfold Admits
  cases hhead : (pendingAfter ledger.events after).head? with
  | none => rfl
  | some e =>
    have hsized := pendingAfter_sized ledger after e (List.mem_of_head? hhead)
    simpa using hsized.2

theorem boundsOf_default {request : SubscriptionPageRequest} {bounds : PageBounds} (h : boundsOf request = .ok bounds)
    (hdefault : request.maxDecodedBytes = none) : bounds.byteLimit = maxPageDecodedBytes := by
  obtain ⟨limit, -, h⟩ := except_bind_ok _ _ _ h
  rw [hdefault] at h
  obtain rfl := Except.ok.inj h
  rw [PageBounds.byteLimit, Option.getD_none]

theorem reseat_read {db db' : State} (h : Consistent db) (input : ReseatInput) (seated : SubscriptionSeated)
    (hok : reseatToSnapshot db input = .ok (seated, db')) {request : SubscriptionPageRequest} {bounds : PageBounds}
    (hvalid : ValidRequest request bounds) (hid : request.subscriberId = input.subscriberId)
    (hprojection : request.projection = input.projection) :
    ReadsPage db' request ↔ seated.snapshot.checkpoint ≤ projectionCheckpoint db input.projection
      ∧ Admits bounds.byteLimit (pendingAfter db.domainEvents.events seated.snapshot.checkpoint) := by
  have hconsistent := h.reseat input seated hok
  obtain ⟨doc, snapshot, hseat, -, hposition, -, rfl, hdb'⟩ := reseatToSnapshot_ok input seated hok
  have hrow : docRow db' request.subscriberId = some (.subscriber doc) := by
    rw [hdb', docRow_clearPendingOffer, docRow_putDoc, if_pos hid]
  have hnone : db'.pendingOffers.get request.subscriberId = none := by
    rw [hdb', pendingOffers_clearPendingOffer, if_pos hid]
  have hcurrent : currentGeneration db' = some doc.cursor.generation := by
    rw [hdb']
    exact hseat.current
  have hcheckpoint : projectionCheckpoint db' doc.projection = projectionCheckpoint db doc.projection := by
    rw [hdb']
    rfl
  have hevents : db'.domainEvents = db.domainEvents := by
    rw [hdb']
    rfl
  have hfollows : doc.projection = request.projection := hseat.follows.trans hprojection.symm
  rw [← hposition, ← hseat.follows, ← hcheckpoint, ← hevents]
  unfold ReadsPage
  by_cases hbehind : doc.cursor.position ≤ projectionCheckpoint db' doc.projection
  · rw [read_fresh hconsistent hvalid doc hrow hfollows hcurrent hbehind hnone]
    split
    · rename_i hadmits
      exact ⟨fun _ => ⟨hbehind, hadmits⟩, fun _ => ⟨_, _, rfl⟩⟩
    · rename_i hadmits
      exact ⟨nofun, fun hboth => absurd hboth.2 hadmits⟩
  · obtain ⟨_, -, hgap⟩ := read_gapped hconsistent hvalid doc hrow hfollows (.inr (not_le.mp hbehind))
    rw [hgap]
    exact ⟨nofun, fun hboth => absurd hboth.1 hbehind⟩

theorem BaselinesBehind.empty : BaselinesBehind State.empty := fun _ _ h => by cases h

theorem run_baselinesBehind (calls : List Call) (h : Along step Grounded State.empty calls) :
    BaselinesBehind (run step State.empty calls) := by
  have hstep : ∀ db call, Consistent db ∧ BaselinesBehind db → Grounded db call →
      Consistent (step db call) ∧ BaselinesBehind (step db call) :=
    fun db call hdb hground => ⟨hdb.1.step call, hdb.2.step hdb.1 call hground⟩
  have hinv := Along.invariant step (fun db => Consistent db ∧ BaselinesBehind db) hstep State.empty
    ⟨Consistent.empty, BaselinesBehind.empty⟩ calls h
  exact hinv.2

/-- After a reseat the next read is a page exactly when the baseline is not
ahead of the projection, and a run that publishes only grounded baselines never
puts one ahead. -/
theorem reseat_reads_page (calls : List Call) (input : ReseatInput) (seated : SubscriptionSeated) (db' : State)
    (hok : reseatToSnapshot (run step State.empty calls) input = .ok (seated, db')) (request : SubscriptionPageRequest)
    (bounds : PageBounds) (hvalid : ValidRequest request bounds) (hid : request.subscriberId = input.subscriberId)
    (hprojection : request.projection = input.projection) :
    (ReadsPage db' request ↔
        seated.snapshot.checkpoint ≤ projectionCheckpoint (run step State.empty calls) input.projection
          ∧ Admits bounds.byteLimit
            (pendingAfter (run step State.empty calls).domainEvents.events seated.snapshot.checkpoint))
      ∧ (Along step Grounded State.empty calls → request.maxDecodedBytes = none → ReadsPage db' request) := by
  have hconsistent := reachable_consistent calls
  have hread := reseat_read hconsistent input seated hok hvalid hid hprojection
  refine ⟨hread, fun hgrounded hdefault => hread.mpr ⟨?_, ?_⟩⟩
  · obtain ⟨doc, snapshot, hseat, -, -, -, rfl, -⟩ := reseatToSnapshot_ok input seated hok
    exact run_baselinesBehind calls hgrounded _ _ hseat.baseline
  · rw [boundsOf_default hvalid.bounds hdefault]
    exact admits_default _ _

/-- The same consumer over a baseline that the projection has reached. -/
def groundedCalls : List Call :=
  [.advance ⟨sampleAt, [sampleBaseline 0], lit "initial"⟩,
    .register ⟨sampleAt, none, lit "goal-count", none, lit "goal-consumer"⟩, .append (lit "evt-1") ⟨10, sampleSize⟩]

theorem reseat_reads_page_goal :
    ∃ seated db', reseatToSnapshot (run step State.empty groundedCalls) ⟨lit "goal-count", lit "goal-consumer"⟩ =
      .ok (seated, db') ∧ ReadsPage db' ⟨lit "goal-count", lit "goal-consumer", none, none⟩ := by
  have hgrounded : Along step Grounded State.empty groundedCalls := by
    refine ⟨fun item hitem => ?_, trivial, trivial, trivial⟩
    obtain rfl := List.mem_singleton.mp hitem
    exact Int.natCast_nonneg _
  have hvalid : ValidRequest ⟨lit "goal-count", lit "goal-consumer", none, none⟩ ⟨100, none⟩ :=
    ⟨by decide +kernel, by decide +kernel, by decide +kernel⟩
  cases hok : reseatToSnapshot (run step State.empty groundedCalls) ⟨lit "goal-count", lit "goal-consumer"⟩ with
  | error e =>
    have hsome : (reseatToSnapshot (run step State.empty groundedCalls)
      ⟨lit "goal-count", lit "goal-consumer"⟩).toOption.isSome = true := by decide +kernel
    rw [hok] at hsome
    cases hsome
  | ok r =>
    exact ⟨r.1, r.2, rfl, (reseat_reads_page groundedCalls _ r.1 r.2 hok _ _ hvalid rfl rfl).2 hgrounded rfl⟩

/-! ### A baseline ahead of its projection -/

/-- What the read after a reseat reports when it is gapped. -/
def gapAfterReseat (calls : List Call) (input : ReseatInput) (request : SubscriptionPageRequest) :
    Option SubscriptionGapCause :=
  match reseatToSnapshot (run step State.empty calls) input with
  | .ok (_, db') =>
    match readSubscriptionPage db' request with
    | .ok (.CURSOR_GAP gap, _) => some gap.cause
    | _ => none
  | .error _ => none

theorem gapAfterReseat_some (calls : List Call) (input : ReseatInput) (request : SubscriptionPageRequest)
    (cause : SubscriptionGapCause) (h : gapAfterReseat calls input request = some cause) :
    ∃ seated db' gap db'', reseatToSnapshot (run step State.empty calls) input = .ok (seated, db')
      ∧ readSubscriptionPage db' request = .ok (.CURSOR_GAP gap, db'') ∧ gap.cause = cause := by
  unfold gapAfterReseat at h
  split at h
  · rename_i seated db' hreseat
    split at h
    · rename_i gap db'' hread
      exact ⟨seated, db', gap, db'', hreseat, hread, Option.some.inj h⟩
    · cases h
  · cases h

/-- A generation whose baseline describes position five, while the projection has applied nothing. -/
def aheadCalls : List Call :=
  [.advance ⟨sampleAt, [sampleBaseline 5], lit "initial"⟩,
    .register ⟨sampleAt, none, lit "goal-count", none, lit "goal-consumer"⟩]

/-- The reseat succeeds and the very next read is gapped. -/
theorem reseat_then_cursor_ahead :
    ∃ (input : ReseatInput) (request : SubscriptionPageRequest) (seated : SubscriptionSeated) (db' : State)
      (gap : SubscriptionGap) (db'' : State),
      reseatToSnapshot (run step State.empty aheadCalls) input = .ok (seated, db')
        ∧ request.subscriberId = input.subscriberId ∧ request.projection = input.projection
        ∧ readSubscriptionPage db' request = .ok (.CURSOR_GAP gap, db'') ∧ gap.cause = .CURSOR_AHEAD := by
  obtain ⟨seated, db', gap, db'', hreseat, hread, hcause⟩ :=
    gapAfterReseat_some aheadCalls ⟨lit "goal-count", lit "goal-consumer"⟩
      ⟨lit "goal-count", lit "goal-consumer", none, none⟩ .CURSOR_AHEAD (by decide +kernel)
  exact ⟨_, _, seated, db', gap, db'', hreseat, rfl, rfl, hread, hcause⟩

end MoeNG.Subscriptions
