import MoeNG.Projections.Append

/-!
# What one relayed message does

A result other than `APPLIED` leaves the tables as they were. An applied
message appends the rows of its command, advances the projection row from what
the caller supplied to the fold of these rows, and records its receipt.
-/

namespace MoeNG.Projections
open MoeNG.Kernel MoeNG.Lib MoeNG.Store

section Upsert
variable (projections : OrdMap JsString ProjectionRow) (name : JsString) (position : ℤ) (digest : JsString)
  (expectedPosition : ℤ) (expectedDigest : Option JsString)

/-- The row the compare-and-set expects to find, if there is one at all. -/
def ExpectedRow : Prop :=
  ∀ row, projections.get name = some row → row.lastAppliedPosition = expectedPosition ∧ row.stateDigest = expectedDigest

/-- The compare-and-set changes one row when the stored row is the expected one or there is none, and nothing otherwise. -/
theorem upsertProjection_cases :
    (ExpectedRow projections name expectedPosition expectedDigest
        ∧ upsertProjection projections name position digest expectedPosition expectedDigest =
          (projections.set name ⟨position, some digest⟩, 1))
      ∨ (¬ ExpectedRow projections name expectedPosition expectedDigest
        ∧ upsertProjection projections name position digest expectedPosition expectedDigest = (projections, 0)) := by
  unfold upsertProjection ExpectedRow
  cases hget : projections.get name with
  | none => exact Or.inl ⟨nofun, rfl⟩
  | some row =>
    dsimp only
    by_cases hrow : row.lastAppliedPosition = expectedPosition ∧ row.stateDigest = expectedDigest
    · rw [if_pos hrow]
      exact Or.inl ⟨fun r hr => by rw [← Option.some.inj hr]; exact hrow, rfl⟩
    · rw [if_neg hrow]
      exact Or.inr ⟨fun hall => hrow (hall row rfl), rfl⟩

end Upsert

section Relay
variable (sha256 : List Byte → JsString)

/-- A plan is the request, canonicalised and digested. -/
structure PlanOf (request : OutboxRelayRequest) (plan : RelayPlan) : Prop where
  checkpoint : plan.checkpoint = request.projection.checkpoint
  nonneg : 0 ≤ plan.checkpoint
  consumerId : plan.consumerId = request.consumerId
  messageId : plan.messageId = request.message.messageId
  name : plan.name = request.projection.name
  priorDigest : plan.priorDigest = stateDigest sha256 request.projection.state
  priorState : plan.priorState = canonicalState request.projection.state
  reducers : plan.reducers = request.projection.reducers
  upcaster : plan.upcaster = request.projection.upcaster

theorem planRelay_ok (request : OutboxRelayRequest) (plan : RelayPlan) (h : planRelay sha256 request = .ok plan) :
    PlanOf sha256 request plan := by
  unfold planRelay at h
  dsimp only at h
  split at h
  · cases h
  rename_i inbox hinbox
  split at h
  · cases h
  rename_i hcheckpoint
  split at h
  · cases h
  · cases h
  · rename_i commit name _ hname
    obtain rfl := Except.ok.inj h
    exact ⟨rfl, not_lt.mp hcheckpoint, rfl, digestInboxReceipt_messageId sha256 _ _ _ hinbox,
      (requireIdentifier_ok _ _ _ hname).1, rfl, rfl, rfl, rfl⟩

/-- What the transaction of a relay read and wrote. -/
structure RelayEffect (plan : RelayPlan) (written next : Database) (events : List StoredEvent) (folded : ProjectionFolded)
    (applied : OutboxRelayApplied) : Prop where
  fresh : written.inbox.get (plan.consumerId, plan.messageId) = none
  prior : ∀ row, written.projections.get plan.name = some row →
    row.lastAppliedPosition = plan.checkpoint ∧ row.stateDigest = some plan.priorDigest
  origin : written.projections.get plan.name = none → plan.checkpoint = 0
  fold : foldProjection (.plain plan.checkpoint events plan.reducers plan.priorState plan.upcaster) = .ok folded
  events : next.events = written.events
  receipts : next.receipts = written.receipts
  inbox : next.inbox = written.inbox.set (plan.consumerId, plan.messageId) plan.receiptDigest
  projections : next.projections =
    written.projections.set plan.name ⟨folded.checkpoint, some (stateDigest sha256 folded.state)⟩
  checkpoint : applied.checkpoint = folded.checkpoint
  state : applied.state = canonicalState folded.state
  digest : applied.stateDigest = stateDigest sha256 folded.state

theorem requireFreshInbox_ok (db : Database) (plan : RelayPlan) (h : requireFreshInbox db plan = .ok ()) :
    db.inbox.get (plan.consumerId, plan.messageId) = none := by
  unfold requireFreshInbox at h
  split at h
  · assumption
  · split at h <;> cases h

theorem requireProjectionAt_ok (db : Database) (plan : RelayPlan) (h : requireProjectionAt db plan = .ok ()) :
    (∀ row, db.projections.get plan.name = some row →
        row.lastAppliedPosition = plan.checkpoint ∧ row.stateDigest = some plan.priorDigest)
      ∧ (db.projections.get plan.name = none → plan.checkpoint = 0) := by
  unfold requireProjectionAt at h
  dsimp only at h
  split at h
  · rename_i hget
    rw [hget]
    refine ⟨fun r hr => (by cases hr), fun _ => ?_⟩
    split at h
    · assumption
    · cases h
  · rename_i row hget
    rw [hget]
    split at h
    · cases h
    rename_i hposition
    split at h
    · cases h
    rename_i hdigest
    exact ⟨fun r hr => by rw [← Option.some.inj hr]; exact ⟨not_not.mp hposition, not_not.mp hdigest⟩,
      fun hnone => by cases hnone⟩

theorem applyRelay_ok (plan : RelayPlan) (written next : Database) (summary : CommitResult) (applied : OutboxRelayApplied)
    (h : applyRelay sha256 plan written summary = .ok (next, applied)) :
    ∃ events folded, materializeEvents written plan summary = .ok events
      ∧ RelayEffect sha256 plan written next events folded applied := by
  unfold applyRelay at h
  obtain ⟨⟨⟩, hfresh, h⟩ := except_bind_ok _ _ _ h
  obtain ⟨events, hevents, h⟩ := except_bind_ok _ _ _ h
  obtain ⟨⟨⟩, hprojection, h⟩ := except_bind_ok _ _ _ h
  split at h
  · cases h
  rename_i folded hfold
  obtain ⟨hprior, horigin⟩ := requireProjectionAt_ok written plan hprojection
  unfold writeRelay at h
  dsimp only at h
  obtain ⟨-, hupsert⟩ | ⟨-, hupsert⟩ := upsertProjection_cases written.projections plan.name folded.checkpoint
    (stateDigest sha256 folded.state) plan.checkpoint (some plan.priorDigest)
  · rw [hupsert] at h
    dsimp only at h
    rw [if_neg (not_not.mpr rfl)] at h
    split at h
    · cases h
    obtain ⟨rfl, rfl⟩ := Prod.mk.inj (Except.ok.inj h)
    exact ⟨events, folded, hevents, requireFreshInbox_ok written plan hfresh, hprior, horigin, hfold, rfl, rfl, rfl, rfl,
      rfl, rfl, rfl⟩
  · rw [hupsert] at h
    dsimp only at h
    rw [if_pos Nat.zero_ne_one] at h
    cases h

/-- The transaction replays a receipt and keeps the tables, or appends and applies. -/
theorem commitWithApply_ok {ρ α : Type} (db next : Database) (input : SnapshotCommitInput)
    (apply : Database → CommitResult → Except ρ (Database × α)) (validateReplay : Database → Except ρ Unit)
    (commit : CommitResult) (outcome : Option α)
    (h : commitWithApply sha256 db input apply validateReplay = .ok (next, commit, outcome)) :
    (next = db ∧ outcome = none) ∨
      ∃ written receipt a, (db.receipts.find? fun receipt => receipt.commandId = input.commandId) = none
        ∧ writeCommitEffects db input (sha256 (requestBytes input)) (assertAggregateTail db.events input.aggregateId) =
          .ok (written, receipt)
        ∧ apply written ⟨receipt, .COMMITTED⟩ = .ok (next, a) ∧ outcome = some a := by
  unfold commitWithApply at h
  split at h
  · cases h
  split at h
  · split at h
    · cases h
    split at h
    · cases h
    split at h
    · cases h
    · obtain ⟨rfl, hrest⟩ := Prod.mk.inj (Except.ok.inj h)
      exact Or.inl ⟨rfl, (Prod.mk.inj hrest).2.symm⟩
  · rename_i hfresh
    dsimp only at h
    split at h
    · cases h
    split at h
    · cases h
    rename_i written receipt hwritten
    split at h
    · cases h
    rename_i applied a happly
    obtain ⟨rfl, hrest⟩ := Prod.mk.inj (Except.ok.inj h)
    exact Or.inr ⟨written, receipt, a, hfresh, hwritten, happly, (Prod.mk.inj hrest).2.symm⟩

/-- An applied message: its plan, its command's rows and what the transaction did with them. -/
structure RelayRun (db : Database) (request : OutboxRelayRequest) (plan : RelayPlan) (written next : Database)
    (receipt : CommandReceipt) (events : List StoredEvent) (folded : ProjectionFolded) (applied : OutboxRelayApplied) :
    Prop where
  planned : PlanOf sha256 request plan
  fresh : (db.receipts.find? fun receipt => receipt.commandId = plan.commit.commandId) = none
  commits : writeCommitEffects db plan.commit (sha256 (requestBytes plan.commit))
    (assertAggregateTail db.events plan.commit.aggregateId) = .ok (written, receipt)
  materialized : materializeEvents written plan ⟨receipt, .COMMITTED⟩ = .ok events
  effect : RelayEffect sha256 plan written next events folded applied

theorem relayMessage_cases (db : Database) (request : OutboxRelayRequest) :
    ((relayMessage sha256 db request).1 = db ∧ ∀ applied, (relayMessage sha256 db request).2 ≠ .APPLIED applied) ∨
      ∃ plan written next receipt events folded applied, relayMessage sha256 db request = (next, .APPLIED applied)
        ∧ RelayRun sha256 db request plan written next receipt events folded applied := by
  unfold relayMessage
  cases hplan : planRelay sha256 request with
  | error rolled => exact Or.inl ⟨rfl, nofun⟩
  | ok plan =>
    dsimp only
    cases hcommit : commitWithApply sha256 db plan.commit (applyRelay sha256 plan) (requireReplayInbox plan) with
    | error failure =>
      cases failure with
      | store e => exact Or.inl ⟨rfl, nofun⟩
      | apply rolled => exact Or.inl ⟨rfl, nofun⟩
    | ok outcome =>
      obtain ⟨next, commit, applied⟩ := outcome
      obtain ⟨rfl, rfl⟩ | ⟨written, receipt, applied, hfresh, hwritten, happly, rfl⟩ :=
        commitWithApply_ok sha256 db next plan.commit _ _ commit applied hcommit
      · exact Or.inl ⟨rfl, nofun⟩
      · obtain ⟨events, folded, hevents, heffect⟩ := applyRelay_ok sha256 plan written next _ applied happly
        exact Or.inr ⟨plan, written, next, receipt, events, folded, applied, rfl,
          planRelay_ok sha256 request plan hplan, hfresh, hwritten, hevents, heffect⟩

/-- The batch has one event for every draft, and a commit has at least one. -/
theorem materializeEvents_ne_nil (db : Database) (plan : RelayPlan) (summary : CommitResult) (events : List StoredEvent)
    (h : materializeEvents db plan summary = .ok events) : events ≠ [] := by
  unfold materializeEvents at h
  dsimp only at h
  split at h
  · cases h
  cases hdrafts : plan.commit.events with
  | nil => exact absurd hdrafts plan.commit.nonempty
  | cons draft rest =>
    rw [hdrafts] at h
    unfold materializeFrom at h
    dsimp only at h
    split at h
    · cases h
    · split at h
      · cases h
      · obtain ⟨tail, -, h⟩ := except_bind_ok _ _ _ h
        rw [← Except.ok.inj h]
        exact List.cons_ne_nil _ _

end Relay

end MoeNG.Projections
