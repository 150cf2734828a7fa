import MoeNG.Subscriptions.Operations

/-!
# The window of a page

A clamped page is a function of the events that the cursor still owes at the
checkpoint, so appends and later checkpoints cannot change it.
-/

namespace MoeNG.Subscriptions
open MoeNG.Kernel MoeNG.Lib MoeNG.Store

/-! ### The window -/

/-- The events behind the checkpoint that lie beyond the cursor. -/
def window (events : List StoredEvent) (after checkpoint : ℕ) : List StoredEvent :=
  events.filter fun e => after < e.globalPosition ∧ e.globalPosition ≤ checkpoint

theorem filter_pendingAfter (events : List StoredEvent) (after checkpoint : ℕ) :
    (pendingAfter events after).filter (fun e => e.globalPosition ≤ checkpoint) = window events after checkpoint := by
  unfold pendingAfter window
  rw [List.filter_filter]
  congr 1
  funext e
  rw [Bool.and_comm]
  exact (Bool.decide_and _ _).symm

theorem window_increasing (ledger : Ledger) (after checkpoint : ℕ) :
    Increasing (window ledger.events after checkpoint) :=
  ledger.increasing.filter _

theorem window_join (ledger : Ledger) (a b c : ℕ) (hab : a ≤ b) (hbc : b ≤ c) :
    window ledger.events a b ++ window ledger.events b c = window ledger.events a c :=
  filter_interval_append StoredEvent.globalPosition ledger.events ledger.increasing a b c hab hbc

theorem window_self (events : List StoredEvent) (a : ℕ) : window events a a = [] :=
  List.filter_eq_nil_iff.mpr fun e _ => by
    simp only [decide_eq_true_eq]
    omega

theorem Ledger.mem_positions (ledger : Ledger) (p : ℕ) :
    (∃ e ∈ ledger.events, e.globalPosition = p) ↔ 1 ≤ p ∧ p ≤ ledger.events.length := by
  have h : p ∈ ledger.events.map StoredEvent.globalPosition ↔ 1 ≤ p ∧ p < 1 + ledger.events.length := by
    rw [ledger.positions, List.mem_range'_1]
  rw [List.mem_map] at h
  rw [h]
  omega

/-- What is appended lies beyond every checkpoint on the ledger. -/
theorem window_append (ledger : Ledger) (eventId : JsString) (size : RecordSize) (after checkpoint : ℕ)
    (hcheckpoint : checkpoint ≤ ledger.events.length) :
    window (ledger.append eventId size).events after checkpoint = window ledger.events after checkpoint := by
  unfold Ledger.append
  split
  · have hbeyond : ¬ ledger.events.length + 1 ≤ checkpoint := by omega
    simp [window, List.filter_append, hbeyond]
  · rfl

/-- Unless it is empty, the window ends at the checkpoint. -/
theorem window_last (ledger : Ledger) (after checkpoint : ℕ) (hcheckpoint : checkpoint ≤ ledger.events.length)
    (last : StoredEvent) (hlast : (window ledger.events after checkpoint).getLast? = some last) :
    last.globalPosition = checkpoint := by
  have hmem := List.mem_of_getLast? hlast
  obtain ⟨-, hrange⟩ := List.mem_filter.mp hmem
  simp only [decide_eq_true_eq] at hrange
  obtain ⟨e, he, hposition⟩ := (Ledger.mem_positions ledger checkpoint).mpr ⟨by omega, hcheckpoint⟩
  have hin : e ∈ window ledger.events after checkpoint :=
    List.mem_filter.mpr ⟨he, by simp only [decide_eq_true_eq]; omega⟩
  have hle := le_last_of_increasing StoredEvent.globalPosition _ (window_increasing ledger after checkpoint) last
    hlast e hin
  omega

/-! ### The clamped page -/

def windowPage (events : List StoredEvent) (bounds : PageBounds) (after checkpoint generation : ℕ) :
    SubscriptionPage :=
  let kept := budgetPrefix bounds.limit bounds.byteLimit (window events after checkpoint)
  ⟨checkpoint, kept, kept.length < (window events after checkpoint).length,
    kept.getLast?.map fun e => ⟨generation, e.globalPosition⟩⟩

/-- A page cut off before the checkpoint holds nothing from beyond it. -/
theorem items_eq_kept (ledger : Ledger) (limit byteLimit after checkpoint : ℕ)
    (hshort : (budgetPrefix limit byteLimit (window ledger.events after checkpoint)).length <
      (window ledger.events after checkpoint).length) :
    budgetPrefix limit byteLimit (pendingAfter ledger.events after) =
      budgetPrefix limit byteLimit (window ledger.events after checkpoint) := by
  have hincreasing := pendingAfter_increasing ledger after
  have hfilter := budgetPrefix_filter limit byteLimit checkpoint _ hincreasing
  rw [filter_pendingAfter] at hfilter
  rw [← hfilter] at hshort ⊢
  symm
  refine List.filter_eq_self.mpr fun e he => ?_
  simp only [decide_eq_true_eq]
  by_contra hbeyond
  -- an item beyond the checkpoint comes after the whole window
  obtain ⟨rest, hrest⟩ := budgetPrefix_isInitial limit byteLimit (pendingAfter ledger.events after)
  have hwindow : window ledger.events after checkpoint =
      (budgetPrefix limit byteLimit (pendingAfter ledger.events after)).filter fun x => x.globalPosition ≤ checkpoint := by
    rw [← filter_pendingAfter]
    nth_rewrite 1 [← hrest]
    rw [List.filter_append, (List.filter_eq_nil_iff (l := rest)).mpr, List.append_nil]
    intro x hx
    rw [← hrest] at hincreasing
    have := (List.pairwise_append.mp hincreasing).2.2 e he x hx
    simp only [decide_eq_true_eq]
    omega
  rw [hwindow] at hshort
  exact lt_irrefl _ hshort

/-- `hasMore` is recomputed inside the checkpoint. -/
theorem clampToCheckpoint_hasMore (ledger : Ledger) (limit byteLimit after checkpoint : ℕ)
    (hlimit : 1 ≤ limit) (hcheckpoint : checkpoint ≤ ledger.events.length)
    (hadmits : Admits byteLimit (pendingAfter ledger.events after)) :
    let items := budgetPrefix limit byteLimit (pendingAfter ledger.events after)
    let kept := budgetPrefix limit byteLimit (window ledger.events after checkpoint)
    ((kept.length = items.length && kept.getLast?.any fun e => e.globalPosition < checkpoint) &&
        decide (items.length < (pendingAfter ledger.events after).length)) =
      decide (kept.length < (window ledger.events after checkpoint).length) := by
  intro items kept
  have hinitial : kept <+: window ledger.events after checkpoint := budgetPrefix_isInitial _ _ _
  rw [Bool.eq_iff_iff]
  simp only [Bool.and_eq_true, decide_eq_true_eq, Option.any_eq_true]
  constructor
  · rintro ⟨⟨-, last, hlast, hbelow⟩, -⟩
    refine lt_of_le_of_ne hinitial.length_le fun hlength => ?_
    rw [hinitial.eq_of_length hlength] at hlast
    exact absurd (window_last ledger after checkpoint hcheckpoint last hlast) hbelow.ne
  · intro hshort
    have hitems : items = kept := items_eq_kept ledger limit byteLimit after checkpoint hshort
    have hwindow : (window ledger.events after checkpoint).length ≤ (pendingAfter ledger.events after).length := by
      rw [← filter_pendingAfter]
      exact List.length_filter_le _ _
    have hnonempty : kept ≠ [] := by
      intro hnil
      have hempty := (budgetPrefix_eq_nil_iff limit byteLimit _ hlimit hadmits).mp (hitems.trans hnil)
      rw [hempty, List.length_nil] at hwindow
      omega
    obtain ⟨rest, hrest⟩ := hinitial
    have hlast := List.getLast?_eq_some_getLast hnonempty
    refine ⟨⟨by rw [hitems], kept.getLast hnonempty, hlast, ?_⟩, by rw [hitems]; omega⟩
    cases rest with
    | nil =>
      rw [← hrest, List.append_nil] at hshort
      exact absurd hshort (lt_irrefl _)
    | cons x rest =>
      have hx : x ∈ window ledger.events after checkpoint := hrest ▸ List.mem_append_right _ (List.mem_cons_self ..)
      have hle : x.globalPosition ≤ checkpoint := (by simpa using (List.mem_filter.mp hx).2 : _ ∧ _).2
      have hincreasing := window_increasing ledger after checkpoint
      rw [← hrest] at hincreasing
      have := (List.pairwise_append.mp hincreasing).2.2 _ (List.getLast_mem hnonempty) x (List.mem_cons_self ..)
      omega

theorem clampToCheckpoint_pageOf (ledger : Ledger) (bounds : PageBounds) (after checkpoint generation : ℕ)
    (hlimit : 1 ≤ bounds.limit) (hcheckpoint : checkpoint ≤ ledger.events.length)
    (hadmits : Admits bounds.byteLimit (pendingAfter ledger.events after)) :
    clampToCheckpoint (pageOf bounds.limit bounds.byteLimit (pendingAfter ledger.events after)) checkpoint generation =
      windowPage ledger.events bounds after checkpoint generation := by
  have hkept := budgetPrefix_filter bounds.limit bounds.byteLimit checkpoint _ (pendingAfter_increasing ledger after)
  rw [filter_pendingAfter] at hkept
  unfold clampToCheckpoint pageOf windowPage
  dsimp only
  rw [hkept, clampToCheckpoint_hasMore ledger _ _ after checkpoint hlimit hcheckpoint hadmits]

/-- The first event of a nonempty window is the first pending event. -/
theorem pendingAfter_head (ledger : Ledger) (after checkpoint : ℕ) (e : StoredEvent)
    (h : (window ledger.events after checkpoint).head? = some e) :
    (pendingAfter ledger.events after).head? = some e := by
  have hincreasing := pendingAfter_increasing ledger after
  rw [← filter_pendingAfter] at h
  cases hpending : pendingAfter ledger.events after with
  | nil =>
    rw [hpending] at h
    cases h
  | cons first rest =>
    rw [hpending] at h hincreasing
    have hmem := List.mem_of_head? h
    obtain ⟨hin, hle⟩ := List.mem_filter.mp hmem
    simp only [decide_eq_true_eq] at hle
    have hfirst : first.globalPosition ≤ checkpoint := by
      obtain rfl | hrest := List.mem_cons.mp hin
      · exact hle
      · have := (List.pairwise_cons.mp hincreasing).1 e hrest
        omega
    rw [List.filter_cons_of_pos (by simpa using hfirst)] at h
    exact h

theorem admits_of_nextCursor (ledger : Ledger) (bounds : PageBounds) (after checkpoint generation : ℕ)
    (cursor : SubscriptionCursor)
    (h : (windowPage ledger.events bounds after checkpoint generation).nextCursor = some cursor) :
    Admits bounds.byteLimit (pendingAfter ledger.events after) := by
  obtain ⟨last, hlast, -⟩ := Option.map_eq_some_iff.mp h
  have hmem := List.mem_of_getLast? hlast
  have hhead := pendingAfter_head ledger after checkpoint
  cases hwindow : window ledger.events after checkpoint with
  | nil =>
    rw [hwindow, List.prefix_nil.mp (budgetPrefix_isInitial _ _ [])] at hmem
    cases hmem
  | cons e rest =>
    rw [hwindow] at hhead hmem
    unfold Admits
    rw [hhead e rfl]
    cases hlimit : bounds.limit with
    | zero =>
      rw [hlimit] at hmem
      cases hmem
    | succ limit =>
      rw [hlimit, budgetPrefix] at hmem
      split at hmem
      · simpa
      · cases hmem

structure PageBounds.Valid (bounds : PageBounds) : Prop where
  limit : 1 ≤ bounds.limit ∧ bounds.limit ≤ maxPageSize
  bytes : ∀ bytes, bounds.maxDecodedBytes = some bytes → 1 ≤ bytes ∧ bytes ≤ maxPageDecodedBytes

theorem PageBounds.Valid.byteLimit {bounds : PageBounds} (h : bounds.Valid) :
    1 ≤ bounds.byteLimit ∧ bounds.byteLimit ≤ maxPageDecodedBytes := by
  unfold PageBounds.byteLimit
  cases hbytes : bounds.maxDecodedBytes with
  | none => exact ⟨by decide, le_refl _⟩
  | some bytes => exact h.bytes bytes hbytes

theorem readClamped_eq (db : State) (bounds : PageBounds) (after checkpoint generation : ℕ)
    (hafter : after ≤ maxSqliteInteger) (hbounds : bounds.Valid)
    (hcheckpoint : checkpoint ≤ db.domainEvents.events.length) :
    readClamped db bounds after checkpoint generation =
      if Admits bounds.byteLimit (pendingAfter db.domainEvents.events after) then
        .ok (windowPage db.domainEvents.events bounds after checkpoint generation)
      else
        .error (.thrown ⟨.STORE_LIMIT_EXCEEDED,
          lit "the next record does not fit within " ++ decimal bounds.byteLimit ++ lit " decoded bytes"⟩) := by
  unfold readClamped
  rw [globalEventPage_eq db.domainEvents after bounds.limit bounds.byteLimit hafter hbounds.limit hbounds.byteLimit]
  by_cases hadmits : Admits bounds.byteLimit (pendingAfter db.domainEvents.events after)
  · rw [if_pos hadmits, if_pos hadmits,
      ← clampToCheckpoint_pageOf db.domainEvents bounds after checkpoint generation hbounds.limit.1 hcheckpoint hadmits]
    rfl
  · rw [if_neg hadmits, if_neg hadmits]
    rfl

end MoeNG.Subscriptions
