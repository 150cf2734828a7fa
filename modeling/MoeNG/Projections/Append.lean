import MoeNG.Projections.Relay

/-!
# What a commit appends

The rows of one command stand together at the end of the ledger, and the
ledger stays one that a fold accepts.
-/

namespace MoeNG.Projections
open MoeNG.Kernel MoeNG.Lib MoeNG.Store

/-! ### The rows of one command -/

/-- The rows written for the drafts from `index` on, behind `base` older rows. -/
def appendedRows (input : SnapshotCommitInput) (requestSha256 : JsString) (previousVersion base : ℕ) :
    ℕ → List SnapshotEventDraft → List EventRow
  | _, [] => []
  | index, event :: rest =>
    { eventRowOf input requestSha256 previousVersion index event with
      globalPosition := base + index + 1, decodedBytes := event.size.val }
      :: appendedRows input requestSha256 previousVersion base (index + 1) rest

theorem insert_ok (t t' : EventTable) (row : EventRow) (size : RecordSize) (h : t.insert row size = .ok t') :
    t'.rows = t.rows ++ [{ row with globalPosition := t.rows.length + 1, decodedBytes := size.val }]
      ∧ row.eventId ∉ t.rows.map EventRow.eventId := by
  unfold EventTable.insert at h
  split at h
  · cases h
  rename_i hfresh
  split at h
  · rw [← Except.ok.inj h]
    exact ⟨rfl, hfresh⟩
  · cases h

/-- A table whose stored events follow one another and pass the checks of a fold. -/
structure Orderly (t : EventTable) : Prop where
  follows : t.storedEvents.Pairwise Follows
  plain : ∀ e ∈ t.storedEvents, plainEvent e = true

theorem Orderly.insert {t t' : EventTable} {row : EventRow} {size : RecordSize} (ht : Orderly t)
    (h : t.insert row size = .ok t') (hsafe : (row.aggregateSequence : ℤ) ≤ maxSafeInteger)
    (hsequence : ∀ r ∈ t.rows, r.aggregateId = row.aggregateId → r.aggregateSequence < row.aggregateSequence) :
    Orderly t' := by
  obtain ⟨hrows, hfresh⟩ := insert_ok t t' row size h
  constructor
  · rw [EventTable.storedEvents, hrows, List.map_append, List.pairwise_append]
    refine ⟨ht.follows, List.pairwise_singleton _ _, ?_⟩
    intro a ha b hb
    obtain ⟨r, hr, rfl⟩ := List.mem_map.mp ha
    obtain rfl := List.mem_singleton.mp hb
    have hlast : r.globalPosition < 1 + t.rows.length := by
      have hmem : r.globalPosition ∈ List.range' 1 t.rows.length := by
        rw [← t.positions]
        exact List.mem_map_of_mem hr
      exact (List.mem_range'_1.mp hmem).2
    refine ⟨?_, ?_, fun haggregate => ?_⟩
    · simp only [EventRow.storedEvent]
      omega
    · intro heq
      exact hfresh (List.mem_map.mpr ⟨r, hr, heq⟩)
    · exact Nat.cast_lt.mpr (hsequence r hr haggregate)
  · intro e he
    rw [EventTable.storedEvents, hrows, List.map_append] at he
    obtain he | he := List.mem_append.mp he
    · exact ht.plain e he
    · obtain rfl := List.mem_singleton.mp he
      simp [plainEvent, EventRow.storedEvent, isSafeCount, hsafe]
      omega

theorem writeEvents_rows (input : SnapshotCommitInput) (requestSha256 : JsString) (previousVersion base index : ℕ)
    (t t' : EventTable) (drafts : List SnapshotEventDraft)
    (h : writeEvents input requestSha256 previousVersion index t drafts = .ok t') (hbase : t.rows.length = base + index) :
    t'.rows = t.rows ++ appendedRows input requestSha256 previousVersion base index drafts := by
  induction drafts generalizing t index with
  | nil =>
    rw [← Except.ok.inj h]
    exact (List.append_nil _).symm
  | cons event rest ih =>
    obtain ⟨next, hinsert, hrest⟩ := except_bind_ok _ _ _ h
    obtain ⟨hrows, -⟩ := insert_ok t next _ _ hinsert
    have hlength : next.rows.length = base + (index + 1) := by
      rw [hrows, List.length_append, List.length_singleton, hbase, Nat.add_assoc]
    rw [ih (index + 1) next hrest hlength, hrows, hbase, List.append_assoc]
    rfl

theorem writeEvents_orderly (input : SnapshotCommitInput) (requestSha256 : JsString) (previousVersion index : ℕ)
    (t t' : EventTable) (drafts : List SnapshotEventDraft) (ht : Orderly t)
    (h : writeEvents input requestSha256 previousVersion index t drafts = .ok t')
    (hsafe : ((previousVersion + index + drafts.length : ℕ) : ℤ) ≤ maxSafeInteger)
    (htail : ∀ r ∈ t.rows, r.aggregateId = input.aggregateId → r.aggregateSequence ≤ previousVersion + index) :
    Orderly t' := by
  induction drafts generalizing t index with
  | nil =>
    rw [← Except.ok.inj h]
    exact ht
  | cons event rest ih =>
    obtain ⟨next, hinsert, hrest⟩ := except_bind_ok _ _ _ h
    obtain ⟨hrows, -⟩ := insert_ok t next _ _ hinsert
    rw [List.length_cons] at hsafe
    have hnext : Orderly next := by
      refine ht.insert hinsert ?_ fun r hr haggregate => Nat.lt_succ_of_le (htail r hr haggregate)
      simp only [eventRowOf]
      omega
    refine ih (index + 1) next hnext hrest (by rwa [Nat.add_assoc, Nat.add_assoc, Nat.add_comm 1, ← Nat.add_assoc]) ?_
    intro r hr haggregate
    rw [hrows] at hr
    obtain hr | hr := List.mem_append.mp hr
    · have := htail r hr haggregate
      omega
    · obtain rfl := List.mem_singleton.mp hr
      exact le_refl _

/-! ### One commit -/

/-- The tables of a ledger that only commits wrote. -/
structure Sound (db : Database) : Prop where
  orderly : Orderly db.events
  receipts : ∀ row ∈ db.events.rows, ∃ receipt ∈ db.receipts, receipt.commandId = row.commandId

theorem Sound.empty : Sound .empty := ⟨⟨List.Pairwise.nil, nofun⟩, nofun⟩

/-- The receipt is that of the input, and its rows are all that was appended. -/
structure Written (db : Database) (input : SnapshotCommitInput) (requestSha256 : JsString) (previousVersion : ℕ)
    (next : Database) (receipt : CommandReceipt) : Prop where
  rows : next.events.rows =
    db.events.rows ++ appendedRows input requestSha256 previousVersion db.events.rows.length 0 input.events
  receipts : next.receipts = db.receipts ++ [receipt]
  inbox : next.inbox = db.inbox
  projections : next.projections = db.projections
  aggregateId : receipt.aggregateId = input.aggregateId
  commandId : receipt.commandId = input.commandId
  previousVersion : receipt.previousVersion = previousVersion
  requestSha256 : receipt.requestSha256 = requestSha256

theorem le_tail (t : EventTable) (aggregateId : JsString) (row : EventRow) (hrow : row ∈ t.rows)
    (h : row.aggregateId = aggregateId) : row.aggregateSequence ≤ assertAggregateTail t aggregateId := by
  have hmax : ∀ (l : List ℕ) (n : ℕ), n ∈ l → n ≤ l.foldr max 0 := by
    intro l n hn
    induction l with
    | nil => cases hn
    | cons a rest ih =>
      rw [List.foldr_cons]
      obtain rfl | hn := List.mem_cons.mp hn
      · exact le_max_left _ _
      · exact (ih hn).trans (le_max_right _ _)
  exact hmax _ _ (List.mem_map_of_mem (List.mem_filter.mpr ⟨hrow, by simpa using h⟩))

theorem writeCommitEffects_ok (db next : Database) (input : SnapshotCommitInput) (requestSha256 : JsString)
    (previousVersion : ℕ) (receipt : CommandReceipt)
    (h : writeCommitEffects db input requestSha256 previousVersion = .ok (next, receipt)) :
    Written db input requestSha256 previousVersion next receipt
      ∧ ((previousVersion + input.events.length : ℕ) : ℤ) ≤ maxSafeInteger
      ∧ writeEvents input requestSha256 previousVersion 0 db.events input.events = .ok next.events := by
  unfold writeCommitEffects at h
  dsimp only at h
  split at h
  · cases h
  rename_i hsafe
  rw [not_lt] at hsafe
  obtain ⟨-, -, h⟩ := except_bind_ok _ _ _ h
  obtain ⟨events, hevents, h⟩ := except_bind_ok _ _ _ h
  obtain ⟨rfl, rfl⟩ := Prod.mk.inj (Except.ok.inj h)
  exact ⟨⟨writeEvents_rows _ _ _ _ _ _ _ _ hevents (Nat.add_zero _).symm, rfl, rfl, rfl, rfl, rfl, rfl, rfl⟩, hsafe,
    hevents⟩

theorem appendedRows_commandId (input : SnapshotCommitInput) (requestSha256 : JsString) (previousVersion base index : ℕ)
    (drafts : List SnapshotEventDraft) :
    ∀ row ∈ appendedRows input requestSha256 previousVersion base index drafts, row.commandId = input.commandId := by
  induction drafts generalizing index with
  | nil => nofun
  | cons event rest ih =>
    intro row hrow
    obtain rfl | hrow := List.mem_cons.mp hrow
    · rfl
    · exact ih (index + 1) row hrow

/-- A commit onto its own tail keeps the ledger sound. -/
theorem Sound.written {db next : Database} {input : SnapshotCommitInput} {requestSha256 : JsString}
    {receipt : CommandReceipt} (hs : Sound db)
    (h : writeCommitEffects db input requestSha256 (assertAggregateTail db.events input.aggregateId) = .ok (next, receipt)) :
    Sound next := by
  obtain ⟨hwritten, hsafe, hevents⟩ := writeCommitEffects_ok db next input requestSha256 _ receipt h
  refine ⟨?_, fun row hrow => ?_⟩
  · exact writeEvents_orderly _ _ _ 0 _ _ _ hs.orderly hevents (by rwa [Nat.add_zero])
      fun r hr haggregate => le_tail db.events _ r hr haggregate
  · rw [hwritten.receipts]
    rw [hwritten.rows] at hrow
    obtain hrow | hrow := List.mem_append.mp hrow
    · obtain ⟨old, hold, hid⟩ := hs.receipts row hrow
      exact ⟨old, List.mem_append_left _ hold, hid⟩
    · refine ⟨receipt, List.mem_append_right _ (List.mem_singleton_self _), ?_⟩
      rw [hwritten.commandId, appendedRows_commandId _ _ _ _ _ _ row hrow]

/-! ### The batch a relay folds -/

theorem materializeFrom_appended (plan : RelayPlan) (summary : CommitResult) (base index : ℕ)
    (drafts : List SnapshotEventDraft) (haggregate : summary.receipt.aggregateId = plan.commit.aggregateId)
    (hcommand : summary.receipt.commandId = plan.commit.commandId) :
    materializeFrom plan summary index drafts
        (appendedRows plan.commit summary.receipt.requestSha256 summary.receipt.previousVersion base index drafts) =
      .ok ((appendedRows plan.commit summary.receipt.requestSha256 summary.receipt.previousVersion base index drafts).map
        EventRow.storedEvent) := by
  induction drafts generalizing index with
  | nil => rfl
  | cons draft rest ih =>
    unfold appendedRows materializeFrom
    dsimp only [eventRowOf]
    rw [if_neg (by simp), ih (index + 1)]
    simp only [bind, Except.bind, List.map_cons, materializeEvent, EventRow.storedEvent, haggregate, hcommand]
    push_cast
    rfl

/-- The rows of a fresh command are the appended ones, and they are read back as they were stored. -/
theorem materializeEvents_written (db next : Database) (plan : RelayPlan) (summary : CommitResult) (hs : Sound db)
    (hfresh : (db.receipts.find? fun receipt => receipt.commandId = plan.commit.commandId) = none)
    (hwritten : Written db plan.commit summary.receipt.requestSha256 summary.receipt.previousVersion next summary.receipt) :
    materializeEvents next plan summary =
      .ok ((next.events.rows.drop db.events.rows.length).map EventRow.storedEvent) := by
  have hold : db.events.rows.filter (fun row => row.commandId = plan.commit.commandId) = [] := by
    refine List.filter_eq_nil_iff.mpr fun row hrow hid => ?_
    obtain ⟨receipt, hreceipt, hcommand⟩ := hs.receipts row hrow
    have hnone := List.find?_eq_none.mp hfresh receipt hreceipt
    rw [hcommand] at hnone
    exact hnone hid
  have hnew : next.events.rows.filter (fun row => row.commandId = plan.commit.commandId) =
      appendedRows plan.commit summary.receipt.requestSha256 summary.receipt.previousVersion db.events.rows.length 0
        plan.commit.events := by
    rw [hwritten.rows, List.filter_append, hold, List.nil_append, List.filter_eq_self]
    intro row hrow
    simpa using appendedRows_commandId _ _ _ _ _ _ row hrow
  have hlength : ∀ (index : ℕ) (drafts : List SnapshotEventDraft),
      (appendedRows plan.commit summary.receipt.requestSha256 summary.receipt.previousVersion db.events.rows.length index
        drafts).length = drafts.length := by
    intro index drafts
    induction drafts generalizing index with
    | nil => rfl
    | cons draft rest ih => rw [appendedRows, List.length_cons, List.length_cons, ih]
  unfold materializeEvents
  dsimp only
  rw [hnew, if_neg (by rw [hlength]; simp), hwritten.rows, List.drop_left]
  exact materializeFrom_appended plan summary _ 0 _ hwritten.aggregateId hwritten.commandId

end MoeNG.Projections
