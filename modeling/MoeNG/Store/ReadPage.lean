import Mathlib.Data.List.Range
import MoeNG.Lib.Lists
import MoeNG.Lib.Run
import MoeNG.Store.Input

/-!
# Byte-budgeted event pages (`read-page-budget.ts`, `event-read-query.ts:190-243`)

The event ledger, the prefix selection of a page and the page itself, and the
page as a function of the events still pending.
-/

namespace MoeNG.Store
open MoeNG.Kernel MoeNG.Lib

/-! ### Prefix selection (`read-page-budget.ts:12-103`) -/

structure SizedReadCursor where
  cursor : ℕ
  decodedBytes : ℕ
  deriving DecidableEq

structure ReadPagePrefix where
  decodedBytes : ℕ
  hasMore : Bool
  selected : List SizedReadCursor
  deriving DecidableEq

def requirePageDecodedByteLimit (value : ℤ) : StoreResult ℕ := do
  let limit ← requireSafePositiveInteger value "maxDecodedBytes"
  if limit > maxPageDecodedBytes then
    limitExceeded (lit "maxDecodedBytes cannot exceed " ++ decimal maxPageDecodedBytes)
  else .ok limit

theorem requirePageDecodedByteLimit_cast (n : ℕ) (h : 1 ≤ n ∧ n ≤ maxPageDecodedBytes) :
    requirePageDecodedByteLimit n = .ok n := by
  have hsafe : maxPageDecodedBytes ≤ 2 ^ 53 - 1 := by decide
  unfold requirePageDecodedByteLimit
  rw [requireSafePositiveInteger_cast n _ h.1 (h.2.trans hsafe)]
  dsimp only [bind, Except.bind]
  rw [if_neg (not_lt.mpr h.2)]

theorem requirePageDecodedByteLimit_ok (value : ℤ) (limit : ℕ) (h : requirePageDecodedByteLimit value = .ok limit) :
    1 ≤ limit ∧ limit ≤ maxPageDecodedBytes := by
  unfold requirePageDecodedByteLimit requireSafePositiveInteger at h
  split at h
  · rename_i hpos
    dsimp only [bind, Except.bind] at h
    split at h
    · cases h
    · rename_i hle
      cases h
      exact ⟨by omega, not_lt.mp hle⟩
  · cases h

def requireStoredDecodedByteCount (stored : ℕ) : StoreResult ℕ :=
  if stored = 0 then storeCorrupt (lit "a read-page candidate has an invalid decoded byte count")
  else if stored > maxPageDecodedBytes then
    storeCorrupt (lit "a read-page candidate exceeds the valid single-record ceiling")
  else .ok stored

/-- The loop of `selectReadPagePrefix`, from the cursor, the bytes and the records taken so far. -/
def selectFrom (rowLimit decodedByteLimit : ℕ) (previous : Option ℕ) (decodedBytes : ℕ)
    (selected : List SizedReadCursor) : List SizedReadCursor → StoreResult (ℕ × List SizedReadCursor)
  | [] => .ok (decodedBytes, selected)
  | candidate :: rest =>
    if previous.any fun p => candidate.cursor ≤ p then
      storeCorrupt (lit "read-page candidate cursors are not strictly increasing")
    else if candidate.decodedBytes = 0 ∨ (candidate.decodedBytes : ℤ) > maxSafeInteger then
      storeCorrupt (lit "a read-page candidate has an invalid decoded byte count")
    else if candidate.decodedBytes > maxPageDecodedBytes then
      storeCorrupt (lit "a read-page candidate exceeds the valid single-record ceiling")
    else if selected.length ≥ rowLimit then .ok (decodedBytes, selected)
    else if decodedBytes + candidate.decodedBytes > decodedByteLimit then
      if selected.length = 0 then
        limitExceeded (lit "the next record does not fit within " ++ decimal decodedByteLimit ++ lit " decoded bytes")
      else .ok (decodedBytes, selected)
    else selectFrom rowLimit decodedByteLimit (some candidate.cursor) (decodedBytes + candidate.decodedBytes)
      (selected ++ [candidate]) rest

def selectReadPagePrefix (candidates : List SizedReadCursor) (rowLimit decodedByteLimit : ℕ) :
    StoreResult ReadPagePrefix := do
  let (decodedBytes, selected) ← selectFrom rowLimit decodedByteLimit none 0 [] candidates
  .ok ⟨decodedBytes, selected.length < candidates.length, selected⟩

/-! ### The ledger -/

structure StoredEvent where
  globalPosition : ℕ
  decodedBytes : ℕ
  eventId : JsString
  deriving DecidableEq

/-- An append-only ledger that nothing was pruned from: `AUTOINCREMENT` numbers
the events from one without gaps, and the commit limits bound their size. -/
structure Ledger where
  events : List StoredEvent
  positions : events.map StoredEvent.globalPosition = List.range' 1 events.length
  sized : ∀ e ∈ events, 1 ≤ e.decodedBytes ∧ e.decodedBytes ≤ maxPageDecodedBytes
  bounded : events.length ≤ maxSqliteInteger

def Ledger.empty : Ledger := ⟨[], rfl, nofun, Nat.zero_le _⟩

/-- The size of one stored record, within the single-record ceiling. -/
abbrev RecordSize := { n : ℕ // 1 ≤ n ∧ n ≤ maxPageDecodedBytes }

-- the insert fails when the rowid space is used up
def Ledger.append (l : Ledger) (eventId : JsString) (size : RecordSize) : Ledger :=
  if h : l.events.length < maxSqliteInteger then
    { events := l.events ++ [⟨l.events.length + 1, size.val, eventId⟩]
      positions := by
        rw [List.map_append, l.positions, List.length_append, List.length_singleton, List.range'_concat]
        simp [Nat.add_comm]
      sized := by
        intro e he
        obtain he | he := List.mem_append.mp he
        · exact l.sized e he
        · obtain rfl := List.mem_singleton.mp he
          exact size.property
      bounded := by
        rw [List.length_append, List.length_singleton]
        exact h }
  else l

def retainedFloor (events : List StoredEvent) : Option ℕ := (events.map StoredEvent.globalPosition).min?

/-! ### Pages (`event-read-query.ts:190-243`) -/

structure CursorPage where
  items : List StoredEvent
  hasMore : Bool
  nextCursor : Option ℕ
  deriving DecidableEq

def assertReadPageCursors (actual : List ℕ) (selected : List SizedReadCursor) : StoreResult Unit :=
  if actual ≠ selected.map SizedReadCursor.cursor then
    storeCorrupt (lit "selected read-page records changed between preflight and materialization")
  else .ok ()

def pendingAfter (events : List StoredEvent) (after : ℕ) : List StoredEvent :=
  events.filter fun e => after < e.globalPosition

def globalEventPage (events : List StoredEvent) (afterGlobalPosition limit maxDecodedBytes : ℤ) :
    StoreResult CursorPage := do
  let safeAfter ← requireNonnegativeBigInt afterGlobalPosition "afterGlobalPosition"
  let safeLimit ← requirePageLimit limit
  let safeDecodedByteLimit ← requirePageDecodedByteLimit maxDecodedBytes
  let candidateRows := (pendingAfter events safeAfter).take (safeLimit + 1)
  let candidates ← candidateRows.mapM fun row => do
    let decodedBytes ← requireStoredDecodedByteCount row.decodedBytes
    pure (⟨row.globalPosition, decodedBytes⟩ : SizedReadCursor)
  let selection ← selectReadPagePrefix candidates safeLimit safeDecodedByteLimit
  match selection.selected.getLast? with
  | none => .ok ⟨[], false, none⟩
  | some last =>
    let items := ((pendingAfter events safeAfter).filter fun e => e.globalPosition ≤ last.cursor).take
      selection.selected.length
    assertReadPageCursors (items.map StoredEvent.globalPosition) selection.selected
    .ok ⟨items, selection.hasMore, some last.cursor⟩

/-! ### The page as a budgeted prefix -/

/-- The longest prefix within a record count and a byte budget. -/
def budgetPrefix : ℕ → ℕ → List StoredEvent → List StoredEvent
  | 0, _, _ => []
  | _, _, [] => []
  | limit + 1, budget, e :: rest =>
    if e.decodedBytes ≤ budget then e :: budgetPrefix limit (budget - e.decodedBytes) rest else []

theorem budgetPrefix_isInitial (limit budget : ℕ) (l : List StoredEvent) : budgetPrefix limit budget l <+: l := by
  induction l generalizing limit budget with
  | nil => cases limit <;> exact List.nil_prefix
  | cons e rest ih =>
    cases limit with
    | zero => exact List.nil_prefix
    | succ limit =>
      unfold budgetPrefix
      split
      · exact List.cons_prefix_cons.mpr ⟨rfl, ih _ _⟩
      · exact List.nil_prefix

theorem budgetPrefix_length (limit budget : ℕ) (l : List StoredEvent) : (budgetPrefix limit budget l).length ≤ limit := by
  induction l generalizing limit budget with
  | nil => cases limit <;> exact Nat.zero_le _
  | cons e rest ih =>
    cases limit with
    | zero => exact Nat.le_refl _
    | succ limit =>
      unfold budgetPrefix
      split
      · exact Nat.succ_le_succ (ih _ _)
      · exact Nat.zero_le _

/-- Cutting the ledger at a checkpoint before or after taking the prefix is the same. -/
theorem budgetPrefix_filter (limit budget checkpoint : ℕ) (l : List StoredEvent)
    (hl : l.Pairwise fun a b => a.globalPosition < b.globalPosition) :
    (budgetPrefix limit budget l).filter (fun e => e.globalPosition ≤ checkpoint) =
      budgetPrefix limit budget (l.filter fun e => e.globalPosition ≤ checkpoint) := by
  induction l generalizing limit budget with
  | nil => cases limit <;> rfl
  | cons e rest ih =>
    obtain ⟨hfirst, hrest⟩ := List.pairwise_cons.mp hl
    cases limit with
    | zero => simp [budgetPrefix]
    | succ limit =>
      by_cases hle : e.globalPosition ≤ checkpoint
      · rw [List.filter_cons_of_pos (by simpa using hle), budgetPrefix, budgetPrefix]
        split
        · rw [List.filter_cons_of_pos (by simpa using hle), ih _ _ hrest]
        · rfl
      · have hempty : ∀ l' : List StoredEvent, (∀ x ∈ l', x = e ∨ x ∈ rest) →
            l'.filter (fun x => x.globalPosition ≤ checkpoint) = [] := by
          intro l' hmem
          refine List.filter_eq_nil_iff.mpr fun x hx => ?_
          simp only [decide_eq_true_eq]
          obtain rfl | hx := hmem x hx
          · exact hle
          · have := hfirst x hx
            omega
        rw [hempty (e :: rest) fun x hx => List.mem_cons.mp hx,
          hempty _ fun x hx => List.mem_cons.mp ((budgetPrefix_isInitial _ _ _).subset hx)]
        rfl

theorem budgetPrefix_take (limit budget n : ℕ) (l : List StoredEvent) (h : limit ≤ n) :
    budgetPrefix limit budget (l.take n) = budgetPrefix limit budget l := by
  induction l generalizing limit budget n with
  | nil => rw [List.take_nil]
  | cons e rest ih =>
    cases limit with
    | zero => simp [budgetPrefix]
    | succ limit =>
      obtain ⟨m, rfl⟩ : ∃ m, n = m + 1 := ⟨n - 1, by omega⟩
      rw [List.take_succ_cons, budgetPrefix, budgetPrefix, ih _ _ _ (by omega)]

/-- A page budget that admits the first pending event makes progress. -/
def Admits (budget : ℕ) (pending : List StoredEvent) : Prop := pending.head?.all fun e => e.decodedBytes ≤ budget

instance (budget : ℕ) (pending : List StoredEvent) : Decidable (Admits budget pending) := inferInstanceAs (Decidable (_ = true))

theorem budgetPrefix_eq_nil_iff (limit budget : ℕ) (l : List StoredEvent) (hlimit : 1 ≤ limit) (h : Admits budget l) :
    budgetPrefix limit budget l = [] ↔ l = [] := by
  cases l with
  | nil => cases limit <;> simp [budgetPrefix]
  | cons e rest =>
    obtain ⟨limit, rfl⟩ : ∃ m, limit = m + 1 := ⟨limit - 1, by omega⟩
    have hle : e.decodedBytes ≤ budget := by simpa [Admits] using h
    simp [budgetPrefix, hle]

def StoredEvent.sizedCursor (e : StoredEvent) : SizedReadCursor := ⟨e.globalPosition, e.decodedBytes⟩

def Sized (l : List StoredEvent) : Prop := ∀ e ∈ l, 1 ≤ e.decodedBytes ∧ e.decodedBytes ≤ maxPageDecodedBytes

abbrev Increasing (l : List StoredEvent) : Prop := l.Pairwise fun a b => a.globalPosition < b.globalPosition

/-- A sized record passes the count checks. -/
theorem sizedCursor_valid (e : StoredEvent) (h : 1 ≤ e.decodedBytes ∧ e.decodedBytes ≤ maxPageDecodedBytes) :
    ¬ (e.sizedCursor.decodedBytes = 0 ∨ (e.sizedCursor.decodedBytes : ℤ) > maxSafeInteger)
      ∧ ¬ e.sizedCursor.decodedBytes > maxPageDecodedBytes := by
  have hceiling : maxPageDecodedBytes ≤ 2 ^ 53 - 1 := by decide
  unfold StoredEvent.sizedCursor maxSafeInteger
  dsimp only
  omega

theorem selectFrom_eq (rowLimit byteLimit : ℕ) (previous : Option ℕ) (bytes : ℕ) (selected : List SizedReadCursor)
    (l : List StoredEvent) (hsized : Sized l) (hl : Increasing l)
    (hprevious : ∀ p, previous = some p → ∀ e ∈ l, p < e.globalPosition)
    (hadmits : selected = [] → bytes = 0 ∧ Admits byteLimit l) :
    selectFrom rowLimit byteLimit previous bytes selected (l.map StoredEvent.sizedCursor) =
      .ok (bytes + ((budgetPrefix (rowLimit - selected.length) (byteLimit - bytes) l).map StoredEvent.decodedBytes).sum,
        selected ++ (budgetPrefix (rowLimit - selected.length) (byteLimit - bytes) l).map StoredEvent.sizedCursor) := by
  induction l generalizing previous bytes selected with
  | nil =>
    have hnil : budgetPrefix (rowLimit - selected.length) (byteLimit - bytes) [] = [] :=
      List.prefix_nil.mp (budgetPrefix_isInitial _ _ _)
    rw [hnil, List.map_nil, List.map_nil, List.sum_nil, List.append_nil]
    rfl
  | cons e rest ih =>
    obtain ⟨hfirst, hrest⟩ := List.pairwise_cons.mp hl
    obtain ⟨hpos, hceiling⟩ := hsized e (List.mem_cons_self ..)
    obtain ⟨hcount, hrecord⟩ := sizedCursor_valid e ⟨hpos, hceiling⟩
    have hnext : ¬ (previous.any fun p => e.sizedCursor.cursor ≤ p) = true := by
      cases previous with
      | none => exact Bool.false_ne_true
      | some p =>
        have := hprevious p rfl e (List.mem_cons_self ..)
        simpa using (show p < e.sizedCursor.cursor from this)
    have hsize : e.sizedCursor.decodedBytes = e.decodedBytes := rfl
    rw [List.map_cons, selectFrom, if_neg hnext, if_neg hcount, if_neg hrecord]
    by_cases hfull : selected.length ≥ rowLimit
    · rw [if_pos hfull, show rowLimit - selected.length = 0 by omega, budgetPrefix]
      simp
    · obtain ⟨room, hroom⟩ : ∃ room, rowLimit - selected.length = room + 1 :=
        ⟨rowLimit - selected.length - 1, by omega⟩
      rw [if_neg hfull, hroom, budgetPrefix]
      by_cases hover : bytes + e.sizedCursor.decodedBytes > byteLimit
      · have hsome : selected.length ≠ 0 := by
          intro hzero
          obtain ⟨rfl, hhead⟩ := hadmits (List.length_eq_zero_iff.mp hzero)
          have hle : e.decodedBytes ≤ byteLimit := by simpa [Admits] using hhead
          omega
        rw [if_pos hover, if_neg hsome, if_neg (by omega)]
        simp
      · have hlength : rowLimit - (selected ++ [e.sizedCursor]).length = room := by
          rw [List.length_append, List.length_singleton]
          omega
        have hrec := ih (some e.globalPosition) (bytes + e.decodedBytes) (selected ++ [e.sizedCursor])
          (fun x hx => hsized x (List.mem_cons_of_mem _ hx)) hrest
          (fun p hp x hx => by obtain rfl := Option.some.inj hp; exact hfirst x hx)
          (fun hempty => by simp at hempty)
        rw [hlength] at hrec
        rw [if_neg hover, if_pos (by omega)]
        refine hrec.trans ?_
        rw [Nat.sub_sub, List.map_cons, List.map_cons, List.sum_cons, List.append_assoc, Nat.add_assoc]
        rfl

/-- Without room for the first event there is no page. -/
theorem selectFrom_limitExceeded (rowLimit byteLimit : ℕ) (e : StoredEvent) (rest : List StoredEvent)
    (hsized : Sized (e :: rest)) (hlimit : 1 ≤ rowLimit) (hover : byteLimit < e.decodedBytes) :
    selectFrom rowLimit byteLimit none 0 [] ((e :: rest).map StoredEvent.sizedCursor) =
      limitExceeded (lit "the next record does not fit within " ++ decimal byteLimit ++ lit " decoded bytes") := by
  obtain ⟨hcount, hrecord⟩ := sizedCursor_valid e (hsized e (List.mem_cons_self ..))
  have hfull : ¬ ([] : List SizedReadCursor).length ≥ rowLimit := not_le.mpr hlimit
  have hbytes : 0 + e.sizedCursor.decodedBytes > byteLimit := by
    rw [Nat.zero_add]
    exact hover
  rw [List.map_cons, selectFrom, if_neg (show ¬ Option.any _ none = true from Bool.false_ne_true), if_neg hcount,
    if_neg hrecord, if_neg hfull, if_pos hbytes, if_pos List.length_nil]

/-! ### The page of a ledger -/

theorem Ledger.increasing (ledger : Ledger) : Increasing ledger.events := by
  have h : (ledger.events.map StoredEvent.globalPosition).Pairwise (· < ·) := by
    rw [ledger.positions]
    exact List.pairwise_lt_range'
  exact List.pairwise_map.mp h

theorem mapM_sizedCursor (l : List StoredEvent) (hsized : Sized l) :
    (l.mapM fun row => do
      let decodedBytes ← requireStoredDecodedByteCount row.decodedBytes
      pure (⟨row.globalPosition, decodedBytes⟩ : SizedReadCursor)) = .ok (l.map StoredEvent.sizedCursor) := by
  induction l with
  | nil => rfl
  | cons e rest ih =>
    obtain ⟨hpos, hceiling⟩ := hsized e (List.mem_cons_self ..)
    have hcount : requireStoredDecodedByteCount e.decodedBytes = .ok e.decodedBytes := by
      unfold requireStoredDecodedByteCount
      rw [if_neg (by omega), if_neg (by omega)]
    rw [List.mapM_cons, ih fun x hx => hsized x (List.mem_cons_of_mem _ hx), hcount]
    rfl

def pageOf (limit byteLimit : ℕ) (pending : List StoredEvent) : CursorPage :=
  let items := budgetPrefix limit byteLimit pending
  ⟨items, items.length < pending.length, items.getLast?.map StoredEvent.globalPosition⟩

theorem pendingAfter_increasing (ledger : Ledger) (after : ℕ) : Increasing (pendingAfter ledger.events after) :=
  ledger.increasing.filter _

theorem pendingAfter_sized (ledger : Ledger) (after : ℕ) : Sized (pendingAfter ledger.events after) :=
  fun e he => ledger.sized e (List.mem_filter.mp he).1

/-- One record beyond the limit tells whether there is more. -/
theorem selectReadPagePrefix_eq (limit byteLimit : ℕ) (pending : List StoredEvent) (hsized : Sized pending)
    (hl : Increasing pending) (hadmits : Admits byteLimit pending) :
    selectReadPagePrefix ((pending.take (limit + 1)).map StoredEvent.sizedCursor) limit byteLimit =
      .ok ⟨((budgetPrefix limit byteLimit pending).map StoredEvent.decodedBytes).sum,
        (budgetPrefix limit byteLimit pending).length < pending.length,
        (budgetPrefix limit byteLimit pending).map StoredEvent.sizedCursor⟩ := by
  have htake : Admits byteLimit (pending.take (limit + 1)) := by
    cases pending with
    | nil => exact hadmits
    | cons e rest => exact hadmits
  have hselect := selectFrom_eq limit byteLimit none 0 [] (pending.take (limit + 1))
    (fun e he => hsized e (List.mem_of_mem_take he)) (hl.sublist (List.take_sublist _ _)) nofun fun _ => ⟨rfl, htake⟩
  rw [List.length_nil, Nat.sub_zero, Nat.sub_zero, List.nil_append, Nat.zero_add,
    budgetPrefix_take _ _ _ _ (Nat.le_succ limit)] at hselect
  unfold selectReadPagePrefix
  rw [hselect]
  dsimp only [bind, Except.bind]
  have hlength := budgetPrefix_length limit byteLimit pending
  have hmore : ((budgetPrefix limit byteLimit pending).length < min (limit + 1) pending.length) =
      ((budgetPrefix limit byteLimit pending).length < pending.length) := by
    rw [eq_iff_iff, lt_min_iff]
    omega
  simp only [List.length_map, List.length_take, hmore]

/-- The page of any records that are numbered upwards and fit the ceiling. -/
theorem globalEventPage_of_pending (events : List StoredEvent) (after limit byteLimit : ℕ)
    (hsized : Sized (pendingAfter events after)) (hincreasing : Increasing (pendingAfter events after))
    (hafter : after ≤ maxSqliteInteger) (hlimit : 1 ≤ limit ∧ limit ≤ maxPageSize)
    (hbytes : 1 ≤ byteLimit ∧ byteLimit ≤ maxPageDecodedBytes) :
    globalEventPage events after limit byteLimit =
      if Admits byteLimit (pendingAfter events after) then .ok (pageOf limit byteLimit (pendingAfter events after))
      else limitExceeded (lit "the next record does not fit within " ++ decimal byteLimit ++ lit " decoded bytes") := by
  unfold globalEventPage
  rw [requireNonnegativeBigInt_cast after _ hafter, requirePageLimit_cast limit hlimit,
    requirePageDecodedByteLimit_cast byteLimit hbytes]
  dsimp only [bind, Except.bind]
  have hcandidates := mapM_sizedCursor ((pendingAfter events after).take (limit + 1)) fun e he =>
    hsized e (List.mem_of_mem_take he)
  dsimp only [bind, Except.bind] at hcandidates
  rw [hcandidates]
  dsimp only
  by_cases hadmits : Admits byteLimit (pendingAfter events after)
  · rw [if_pos hadmits, selectReadPagePrefix_eq limit byteLimit _ hsized hincreasing hadmits]
    dsimp only
    rw [List.getLast?_map]
    cases hlast : (budgetPrefix limit byteLimit (pendingAfter events after)).getLast? with
    | none =>
      have hnil := List.getLast?_eq_none_iff.mp hlast
      have hpending := (budgetPrefix_eq_nil_iff limit byteLimit _ hlimit.1 hadmits).mp hnil
      rw [hpending] at hnil
      simp [pageOf, hpending, hnil]
    | some last =>
      have hinitial := budgetPrefix_isInitial limit byteLimit (pendingAfter events after)
      have hfilter := filter_le_last StoredEvent.globalPosition _ _ hincreasing last hinitial hlast
      dsimp only [Option.map_some, StoredEvent.sizedCursor]
      rw [hfilter, List.length_map, List.take_length, assertReadPageCursors, if_neg]
      · simp [pageOf, hlast]
      · simp [StoredEvent.sizedCursor]
  · rw [if_neg hadmits]
    cases hpending : pendingAfter events after with
    | nil => exact absurd (hpending ▸ rfl) hadmits
    | cons e rest =>
      rw [hpending] at hsized hadmits
      have hover : byteLimit < e.decodedBytes := by simpa [Admits] using hadmits
      unfold selectReadPagePrefix
      rw [List.take_succ_cons, selectFrom_limitExceeded limit byteLimit e _
        (fun x hx => hsized x (List.cons_subset_cons _ (List.take_subset _ _) hx)) hlimit.1 hover]
      rfl

theorem globalEventPage_eq (ledger : Ledger) (after limit byteLimit : ℕ) (hafter : after ≤ maxSqliteInteger)
    (hlimit : 1 ≤ limit ∧ limit ≤ maxPageSize) (hbytes : 1 ≤ byteLimit ∧ byteLimit ≤ maxPageDecodedBytes) :
    globalEventPage ledger.events after limit byteLimit =
      if Admits byteLimit (pendingAfter ledger.events after) then
        .ok (pageOf limit byteLimit (pendingAfter ledger.events after))
      else limitExceeded (lit "the next record does not fit within " ++ decimal byteLimit ++ lit " decoded bytes") :=
  globalEventPage_of_pending ledger.events after limit byteLimit (pendingAfter_sized ledger after)
    (pendingAfter_increasing ledger after) hafter hlimit hbytes

end MoeNG.Store
