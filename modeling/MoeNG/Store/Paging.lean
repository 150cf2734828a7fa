import MoeNG.Store.ReadPage

/-!
# Reading page after page (`read-page-budget.ts:53-107`, `event-read-query.ts:191-249`)

A reader starts at position zero and asks for one page after the other behind
the last position it was given. What it has read is always the front of the
records, and what is behind its position is the rest of them.
-/

namespace MoeNG.Store
open MoeNG.Kernel MoeNG.Lib

/-! ### The reader -/

/-- Records numbered upwards, each within the single-record ceiling. -/
structure StoredRecords where
  records : List StoredEvent
  increasing : Increasing records
  numbered : ∀ e ∈ records, 0 < e.globalPosition ∧ e.globalPosition ≤ maxSqliteInteger
  sized : Sized records

/-- Page limits that the guards of a page admit. -/
structure PageRequest where
  limit : ℤ
  maxDecodedBytes : ℤ
  limitAdmitted : ∃ n, requirePageLimit limit = .ok n
  bytesAdmitted : ∃ n, requirePageDecodedByteLimit maxDecodedBytes = .ok n

inductive ReadingStatus where
  | running
  | ended
  | failed (request : PageRequest) (error : StoreError)

structure Reading where
  after : ℕ
  pages : List (PageRequest × CursorPage)
  status : ReadingStatus

def Reading.start : Reading := ⟨0, [], .running⟩

/-- The next page, unless the reader has stopped. -/
def Reading.next (records : List StoredEvent) (r : Reading) (request : PageRequest) : Reading :=
  match r.status with
  | .running =>
    match globalEventPage records r.after request.limit request.maxDecodedBytes with
    | .error error => { r with status := .failed request error }
    | .ok page => ⟨page.nextCursor.getD r.after, r.pages ++ [(request, page)], if page.hasMore then .running else .ended⟩
  | _ => r

def itemsOf (pages : List (PageRequest × CursorPage)) : List StoredEvent := pages.flatMap fun p => p.2.items

def readPages (stored : StoredRecords) (requests : List PageRequest) : Reading :=
  run (Reading.next stored.records) .start requests

/-! ### One page -/

theorem requireSafePositiveInteger_ok (value : ℤ) (field : String) (n : ℕ) (h : requireSafePositiveInteger value field = .ok n) :
    value = n := by
  unfold requireSafePositiveInteger at h
  split at h
  · obtain rfl := Except.ok.inj h
    omega
  · cases h

theorem PageRequest.limit_cast (request : PageRequest) : ∃ n : ℕ, request.limit = n ∧ 1 ≤ n ∧ n ≤ maxPageSize := by
  obtain ⟨n, hn⟩ := request.limitAdmitted
  obtain ⟨hpos, hle⟩ := requirePageLimit_ok _ _ hn
  unfold requirePageLimit at hn
  obtain ⟨m, hm, hn⟩ := except_bind_ok _ _ _ hn
  split at hn
  · cases hn
  · obtain rfl := Except.ok.inj hn
    exact ⟨m, requireSafePositiveInteger_ok _ _ _ hm, hpos, hle⟩

theorem PageRequest.bytes_cast (request : PageRequest) :
    ∃ n : ℕ, request.maxDecodedBytes = n ∧ 1 ≤ n ∧ n ≤ maxPageDecodedBytes := by
  obtain ⟨n, hn⟩ := request.bytesAdmitted
  obtain ⟨hpos, hle⟩ := requirePageDecodedByteLimit_ok _ _ hn
  unfold requirePageDecodedByteLimit at hn
  obtain ⟨m, hm, hn⟩ := except_bind_ok _ _ _ hn
  split at hn
  · cases hn
  · obtain rfl := Except.ok.inj hn
    exact ⟨m, requireSafePositiveInteger_ok _ _ _ hm, hpos, hle⟩

theorem budgetPrefix_bytes (limit budget : ℕ) (l : List StoredEvent) :
    ((budgetPrefix limit budget l).map StoredEvent.decodedBytes).sum ≤ budget := by
  induction l generalizing limit budget with
  | nil => cases limit <;> exact Nat.zero_le _
  | cons e rest ih =>
    cases limit with
    | zero => exact Nat.zero_le _
    | succ limit =>
      unfold budgetPrefix
      split
      · have hrest := ih limit (budget - e.decodedBytes)
        rw [List.map_cons, List.sum_cons]
        omega
      · exact Nat.zero_le _

/-- What the reader finds behind its position: a page, or a record that is too large alone. -/
structure PageRead (records : List StoredEvent) (after : ℕ) (request : PageRequest) (page : CursorPage) : Prop where
  count : (page.items.length : ℤ) ≤ request.limit
  bytes : (((page.items.map StoredEvent.decodedBytes).sum : ℕ) : ℤ) ≤ request.maxDecodedBytes
  split : pendingAfter records after = page.items ++ pendingAfter records (page.nextCursor.getD after)
  more : page.hasMore = true ↔ pendingAfter records (page.nextCursor.getD after) ≠ []
  progress : page.hasMore = true → page.items ≠ []
  bounded : page.nextCursor.getD after ≤ maxSqliteInteger

variable (stored : StoredRecords)

theorem pendingAfter_position (l : List StoredEvent) (hl : Increasing l) (front rest : List StoredEvent) (last : StoredEvent)
    (after : ℕ) (hsplit : pendingAfter l after = front ++ rest) (hlast : front.getLast? = some last) :
    pendingAfter l last.globalPosition = rest := by
  have hmem := List.mem_of_getLast? hlast
  have hafter : after < last.globalPosition := by
    have hin : last ∈ pendingAfter l after := hsplit ▸ List.mem_append_left _ hmem
    simpa [pendingAfter] using (List.mem_filter.mp hin).2
  have hpending : Increasing (front ++ rest) := hsplit ▸ hl.filter _
  obtain ⟨hfront, -, hcross⟩ := List.pairwise_append.mp hpending
  have hagain : pendingAfter l last.globalPosition = pendingAfter (pendingAfter l after) last.globalPosition := by
    unfold pendingAfter
    rw [List.filter_filter]
    refine List.filter_congr fun e _ => ?_
    rw [Bool.eq_iff_iff, Bool.and_eq_true, decide_eq_true_eq, decide_eq_true_eq]
    omega
  rw [hagain, hsplit, pendingAfter, List.filter_append, List.filter_eq_nil_iff.mpr, List.filter_eq_self.mpr, List.nil_append]
  · intro e he
    simpa using hcross last hmem e he
  · intro e he
    simpa using le_last_of_increasing StoredEvent.globalPosition front hfront last hlast e he

theorem page_cases (after : ℕ) (hafter : after ≤ maxSqliteInteger) (request : PageRequest) :
    (∃ page, globalEventPage stored.records after request.limit request.maxDecodedBytes = .ok page
        ∧ PageRead stored.records after request page)
      ∨ ∃ error next rest, globalEventPage stored.records after request.limit request.maxDecodedBytes = .error error
        ∧ error.code = .STORE_LIMIT_EXCEEDED ∧ pendingAfter stored.records after = next :: rest
        ∧ request.maxDecodedBytes < next.decodedBytes := by
  obtain ⟨limit, hlimit, hlimitPos, hlimitLe⟩ := request.limit_cast
  obtain ⟨bytes, hbytes, hbytesPos, hbytesLe⟩ := request.bytes_cast
  have hincreasing : Increasing (pendingAfter stored.records after) := stored.increasing.filter _
  have hpage := globalEventPage_of_pending stored.records after limit bytes (fun e he => stored.sized e (List.mem_filter.mp he).1)
    hincreasing hafter ⟨hlimitPos, hlimitLe⟩ ⟨hbytesPos, hbytesLe⟩
  rw [hlimit, hbytes, hpage]
  by_cases hadmits : Admits bytes (pendingAfter stored.records after)
  · rw [if_pos hadmits]
    have hcount := budgetPrefix_length limit bytes (pendingAfter stored.records after)
    have hsum := budgetPrefix_bytes limit bytes (pendingAfter stored.records after)
    obtain ⟨rest, hrest⟩ := budgetPrefix_isInitial limit bytes (pendingAfter stored.records after)
    have hnil := budgetPrefix_eq_nil_iff limit bytes (pendingAfter stored.records after) hlimitPos hadmits
    have hbehind : pendingAfter stored.records
        (((budgetPrefix limit bytes (pendingAfter stored.records after)).getLast?.map
          StoredEvent.globalPosition).getD after) = rest := by
      cases hlast : (budgetPrefix limit bytes (pendingAfter stored.records after)).getLast? with
      | none =>
        have hempty := List.getLast?_eq_none_iff.mp hlast
        rw [hempty, List.nil_append] at hrest
        rw [Option.map_none, Option.getD_none, hrest]
      | some last => exact pendingAfter_position _ stored.increasing _ rest last after hrest.symm hlast
    have hlength := congrArg List.length hrest
    rw [List.length_append] at hlength
    refine Or.inl ⟨_, rfl, ⟨?_, ?_, ?_, ?_, ?_, ?_⟩⟩
    · rw [hlimit]
      exact Int.ofNat_le.mpr hcount
    · rw [hbytes]
      exact Int.ofNat_le.mpr hsum
    · exact (hrest.symm.trans (congrArg _ hbehind.symm))
    · refine decide_eq_true_iff.trans ?_
      show _ ↔ pendingAfter stored.records _ ≠ []
      rw [pageOf, hbehind, ← List.length_pos_iff_ne_nil]
      omega
    · intro hmore hempty
      have hlt := of_decide_eq_true hmore
      have hpending := hnil.mp hempty
      rw [hpending] at hlt
      exact absurd hlt (Nat.not_lt_zero _)
    · show (Option.map _ _).getD after ≤ maxSqliteInteger
      cases hlast : (budgetPrefix limit bytes (pendingAfter stored.records after)).getLast? with
      | none => exact hafter
      | some last =>
        have hin : last ∈ pendingAfter stored.records after := by
          rw [← hrest]
          exact List.mem_append_left _ (List.mem_of_getLast? hlast)
        exact (stored.numbered last (List.mem_filter.mp hin).1).2
  · rw [if_neg hadmits]
    cases hpending : pendingAfter stored.records after with
    | nil => exact absurd (hpending ▸ rfl) hadmits
    | cons next rest =>
      rw [hpending] at hadmits
      have hover : bytes < next.decodedBytes := by simpa [Admits] using hadmits
      exact Or.inr ⟨_, next, rest, rfl, rfl, rfl, Int.ofNat_lt.mpr hover⟩

/-! ### Runs of the reader -/

theorem itemsOf_append (pages pages' : List (PageRequest × CursorPage)) : itemsOf (pages ++ pages')
    = itemsOf pages ++ itemsOf pages' :=
  List.flatMap_append

theorem itemsOf_snoc (pages : List (PageRequest × CursorPage)) (p : PageRequest × CursorPage) :
    itemsOf (pages ++ [p]) = itemsOf pages ++ p.2.items := by
  rw [itemsOf_append, itemsOf, itemsOf, List.flatMap_singleton]

/-- A page among those read: within its limits, and it tells whether there is more. -/
structure PageHonest (records : List StoredEvent) (front : List (PageRequest × CursorPage)) (p : PageRequest × CursorPage)
    (back : List (PageRequest × CursorPage)) : Prop where
  count : (p.2.items.length : ℤ) ≤ p.1.limit
  bytes : (((p.2.items.map StoredEvent.decodedBytes).sum : ℕ) : ℤ) ≤ p.1.maxDecodedBytes
  more : p.2.hasMore = true ↔ itemsOf (front ++ [p]) ≠ records
  progress : p.2.hasMore = true → p.2.items ≠ []
  notLast : back ≠ [] → p.2.hasMore = true

structure Paged (records : List StoredEvent) (r : Reading) : Prop where
  split : records = itemsOf r.pages ++ pendingAfter records r.after
  bounded : r.after ≤ maxSqliteInteger
  honest : ∀ front p back, r.pages = front ++ p :: back → PageHonest records front p back
  running : r.status = .running → ∀ p ∈ r.pages, p.2.hasMore = true
  ended : r.status = .ended → itemsOf r.pages = records
  failed : ∀ request error, r.status = .failed request error → error.code = .STORE_LIMIT_EXCEEDED
    ∧ ∃ next rest, records = itemsOf r.pages ++ next :: rest ∧ request.maxDecodedBytes < next.decodedBytes

theorem Paged.start : Paged stored.records .start := by
  refine ⟨?_, Nat.zero_le _, fun front p back h => ?_, nofun, nofun, nofun⟩
  · show stored.records = pendingAfter stored.records 0
    exact (List.filter_eq_self.mpr fun e he => decide_eq_true (stored.numbered e he).1).symm
  · exact absurd h.symm (List.append_ne_nil_of_right_ne_nil _ (List.cons_ne_nil _ _))

variable {stored}

theorem Paged.extend {r : Reading} (h : Paged stored.records r) (hrunning : r.status = .running) (request : PageRequest)
    (page : CursorPage) (hpage : PageRead stored.records r.after request page) :
    Paged stored.records ⟨page.nextCursor.getD r.after, r.pages ++ [(request, page)],
      if page.hasMore then .running else .ended⟩ := by
  have hsplit : stored.records = itemsOf (r.pages ++ [(request, page)])
      ++ pendingAfter stored.records (page.nextCursor.getD r.after) := by
    rw [itemsOf_snoc, List.append_assoc, ← hpage.split]
    exact h.split
  have hmore : page.hasMore = true ↔ itemsOf (r.pages ++ [(request, page)]) ≠ stored.records := by
    rw [hpage.more, not_iff_not]
    constructor
    · intro hnil
      rw [hnil, List.append_nil] at hsplit
      exact hsplit.symm
    · intro heq
      rw [heq] at hsplit
      exact List.self_eq_append_right.mp hsplit
  refine ⟨hsplit, hpage.bounded, fun front p back hback => ?_, fun hstatus p hp => ?_, fun hstatus => ?_, fun _ _ hstatus => ?_⟩
  · rcases List.eq_nil_or_concat back with rfl | ⟨back', last, rfl⟩
    · obtain ⟨rfl, hlast⟩ := List.append_inj' hback rfl
      obtain rfl := (List.cons.inj hlast).1
      exact ⟨hpage.count, hpage.bytes, hmore, hpage.progress, fun hne => absurd rfl hne⟩
    · have hpages : r.pages ++ [(request, page)] = (front ++ p :: back') ++ [last] := hback.trans (by simp)
      obtain ⟨hpages, -⟩ := List.append_inj' hpages rfl
      have hold := h.honest front p back' hpages
      have hin : p ∈ r.pages := hpages ▸ List.mem_append_right _ (List.mem_cons_self ..)
      exact ⟨hold.count, hold.bytes, hold.more, hold.progress, fun _ => h.running hrunning p hin⟩
  · rcases List.mem_append.mp hp with hp | hp
    · exact h.running hrunning p hp
    · rw [List.mem_singleton.mp hp]
      by_contra hnot
      dsimp only at hstatus hnot
      rw [if_neg hnot] at hstatus
      cases hstatus
  · by_contra hne
    dsimp only at hstatus
    rw [if_pos (hmore.mpr hne)] at hstatus
    cases hstatus
  · dsimp only at hstatus
    split at hstatus <;> cases hstatus

theorem Paged.next {r : Reading} (h : Paged stored.records r) (request : PageRequest) :
    Paged stored.records (r.next stored.records request) := by
  unfold Reading.next
  split
  · rename_i hrunning
    rcases page_cases stored r.after h.bounded request with ⟨page, hok, hpage⟩ | ⟨error, next, rest, herror, hcode,
      hpending, hover⟩
    · rw [hok]
      exact h.extend hrunning request page hpage
    · rw [herror]
      refine ⟨h.split, h.bounded, h.honest, nofun, nofun, fun request' error' hstatus => ?_⟩
      obtain ⟨rfl, rfl⟩ := ReadingStatus.failed.inj hstatus
      exact ⟨hcode, next, rest, by rw [← hpending]; exact h.split, hover⟩
  · exact h

theorem readPages_paged (requests : List PageRequest) : Paged stored.records (readPages stored requests) :=
  run_invariant _ _ (fun _ request h => h.next request) _ (Paged.start stored) requests

/-- A reader that goes on has read one page for every request. -/
theorem readPages_length (requests : List PageRequest) (h : (readPages stored requests).status = .running) :
    (readPages stored requests).pages.length = requests.length := by
  induction requests using List.reverseRecOn with
  | nil => rfl
  | append_singleton front request ih =>
    rw [readPages, run_append] at h ⊢
    rw [run_cons, run_nil] at h ⊢
    unfold Reading.next at h ⊢
    split at h
    · rename_i hrunning
      have hfront := ih hrunning
      split at h
      · cases h
      · dsimp only
        rw [List.length_append, List.length_append]
        exact congrArg (· + 1) hfront
    · rename_i hstopped
      exact absurd h hstopped

theorem pages_le_items (pages : List (PageRequest × CursorPage)) (h : ∀ p ∈ pages, p.2.items ≠ []) :
    pages.length ≤ (itemsOf pages).length := by
  induction pages with
  | nil => exact Nat.zero_le _
  | cons p rest ih =>
    have hp := List.length_pos_iff_ne_nil.mpr (h p (List.mem_cons_self ..))
    have hrest := ih fun q hq => h q (List.mem_cons_of_mem _ hq)
    rw [itemsOf, List.flatMap_cons, List.length_append, List.length_cons]
    rw [itemsOf] at hrest
    omega

theorem Paged.items_ne_nil {r : Reading} (h : Paged stored.records r) (hrunning : r.status = .running) :
    ∀ p ∈ r.pages, p.2.items ≠ [] := by
  intro p hp
  obtain ⟨front, back, hsplit⟩ := List.append_of_mem hp
  exact (h.honest front p back hsplit).progress (h.running hrunning p hp)

theorem readPages_failed_iff (requests : List PageRequest) (request : PageRequest)
    (hrunning : (readPages stored requests).status = .running) :
    (∃ error, (readPages stored (requests ++ [request])).status = .failed request error)
      ↔ ∃ next rest, stored.records = itemsOf (readPages stored requests).pages ++ next :: rest
        ∧ request.maxDecodedBytes < next.decodedBytes := by
  have h : Paged stored.records (readPages stored requests) := readPages_paged requests
  have hnext : readPages stored (requests ++ [request]) = (readPages stored requests).next stored.records request := by
    rw [readPages, run_append, run_cons, run_nil]
    rfl
  rw [hnext, Reading.next, hrunning]
  dsimp only
  rcases page_cases stored _ h.bounded request with ⟨page, hok, hpage⟩ | ⟨error, next, rest, herror, -, hpending, hover⟩
  · rw [hok]
    constructor
    · rintro ⟨error, hstatus⟩
      dsimp only at hstatus
      split at hstatus <;> cases hstatus
    · rintro ⟨next, rest, hrecords, hover⟩
      have hpending := List.append_cancel_left (h.split.symm.trans hrecords)
      rw [hpage.split] at hpending
      exfalso
      cases hitems : page.items with
      | nil =>
        rw [hitems, List.nil_append] at hpending
        exact hpage.progress (hpage.more.mpr (hpending ▸ List.cons_ne_nil _ _)) hitems
      | cons first items =>
        rw [hitems, List.cons_append] at hpending
        have hbytes := hpage.bytes
        rw [hitems, List.map_cons, List.sum_cons, (List.cons.inj hpending).1] at hbytes
        omega
  · rw [herror]
    exact iff_of_true ⟨error, rfl⟩ ⟨next, rest, by rw [← hpending]; exact h.split, hover⟩

/-! ### The law of paging -/

/-- What has been read after some requests. -/
structure PagingLaw (stored : StoredRecords) (requests : List PageRequest) : Prop where
  inOrder : itemsOf (readPages stored requests).pages <+: stored.records
  honest : ∀ front p back, (readPages stored requests).pages = front ++ p :: back → PageHonest stored.records front p back
  ends : stored.records.length < requests.length → (readPages stored requests).status ≠ .running
  ended : (readPages stored requests).status = .ended → itemsOf (readPages stored requests).pages = stored.records
  failed : ∀ request error, (readPages stored requests).status = .failed request error → error.code = .STORE_LIMIT_EXCEEDED
    ∧ ∃ next rest, stored.records = itemsOf (readPages stored requests).pages ++ next :: rest
      ∧ request.maxDecodedBytes < next.decodedBytes
  raised : (readPages stored requests).status = .running → ∀ request,
    (∃ error, (readPages stored (requests ++ [request])).status = .failed request error)
      ↔ ∃ next rest, stored.records = itemsOf (readPages stored requests).pages ++ next :: rest
        ∧ request.maxDecodedBytes < next.decodedBytes

theorem paging_law (stored : StoredRecords) (requests : List PageRequest) : PagingLaw stored requests := by
  have h : Paged stored.records (readPages stored requests) := readPages_paged requests
  refine ⟨⟨_, h.split.symm⟩, h.honest, fun hlength hrunning => ?_, h.ended, h.failed, fun hrunning request =>
    readPages_failed_iff requests request hrunning⟩
  have hpages := readPages_length requests hrunning
  have hitems := pages_le_items _ (h.items_ne_nil hrunning)
  have hrecords := congrArg List.length h.split
  rw [List.length_append] at hrecords
  omega

/-- Three records of two bytes each. -/
def threeRecords : StoredRecords where
  records := [⟨1, 2, lit "a"⟩, ⟨2, 2, lit "b"⟩, ⟨5, 2, lit "c"⟩]
  increasing := by decide
  numbered := by decide
  sized := by unfold Sized; decide

/-- Room for two of them. -/
def twoRecords : PageRequest := ⟨10, 4, ⟨10, rfl⟩, ⟨4, rfl⟩⟩

theorem paging_law_pages : (readPages threeRecords [twoRecords, twoRecords]).pages.map (fun p => p.2.items.length) = [2, 1]
    ∧ itemsOf (readPages threeRecords [twoRecords, twoRecords]).pages = threeRecords.records :=
  ⟨by decide +kernel, (paging_law threeRecords [twoRecords, twoRecords]).ended rfl⟩

end MoeNG.Store
