import MoeNG.Budget.SettlementSpec
import MoeNG.Lib.Run

/-!
# The budget lifecycle of one account

A state is the stored view of one account together with its holds, each hold
being the stored reservation and the stored settlement, if there is one. A call
runs one of the seven operations on stored records; an accepted call's records
replace the stored ones and a refused call changes nothing. Settlement gets the
stored settlement as its `prior`.

The units of a meter are tied to the records: RESERVED is what the outstanding
reservations hold, QUARANTINED what the quarantined settlements hold, and the
four buckets together only ever grow by recorded overrun. The units are
integers: no sum is rounded.
-/

namespace MoeNG.Budget
open MoeNG.Kernel MoeNG.Lib
open Reservation (lineSum)
open Settlement (quarantinedAt overrunAt)

/-! ### State and calls -/

structure Hold where
  reservation : ReservationRecord
  settlement : Option SettlementRecord
  deriving DecidableEq

structure LifecycleState where
  view : BudgetAvailableView
  holds : List Hold
  deriving DecidableEq

-- a slot is the position of a stored hold
inductive LifecycleCall where
  | reserveForAdmission (request : AdmissionRequest) (gate : AdmissionGate)
  | activateReservation (slot : ℕ) (command : ReservationActivateCommand)
  | cancelReservation (slot : ℕ) (command : ReservationCancelCommand)
  | settleReservation (slot : ℕ) (evidence : SettleEvidence) (expectedViewVersion expectedReservationVersion : ℤ)
  | reconcileSettlement (slot : ℕ) (evidence : ReconcileEvidence) (command : SettlementCommand)
  | conservativeSettle (slot : ℕ) (command : ConservativeCommand)
  | closeSettledView (settlements : List SettlementRecord) (command : CloseCommand)

namespace LifecycleState

def storeReservation (s : LifecycleState) (slot : ℕ) (hold : Hold) : BudgetReservationResult → LifecycleState
  | .accept reservation view => ⟨view, s.holds.set slot { hold with reservation := reservation }⟩
  | .fail _ _ _ => s

def storeSettlement (s : LifecycleState) (slot : ℕ) (hold : Hold) : BudgetSettlementResult → LifecycleState
  | .accept settlement view => ⟨view, s.holds.set slot { hold with settlement := settlement }⟩
  | .fail _ _ _ => s

def call (s : LifecycleState) : LifecycleCall → LifecycleState
  | .reserveForAdmission request gate =>
    match Budget.reserveForAdmission exactly s.view request gate with
    | .accept reservation view => ⟨view, s.holds ++ [⟨reservation, none⟩]⟩
    | .fail _ _ _ => s
  | .activateReservation slot command =>
    match s.holds[slot]? with
    | none => s
    | some hold => s.storeReservation slot hold (Budget.activateReservation s.view hold.reservation command)
  | .cancelReservation slot command =>
    match s.holds[slot]? with
    | none => s
    | some hold => s.storeReservation slot hold (Budget.cancelReservation exactly s.view hold.reservation command)
  | .settleReservation slot evidence viewVersion reservationVersion =>
    match s.holds[slot]? with
    | none => s
    | some hold => s.storeSettlement slot hold (Budget.settleReservation exactly s.view hold.reservation evidence
        ⟨viewVersion, reservationVersion, hold.settlement⟩)
  | .reconcileSettlement slot evidence command =>
    match s.holds[slot]? with
    | none => s
    | some hold =>
      match hold.settlement with
      | none => s
      | some settlement =>
        s.storeSettlement slot hold (Budget.reconcileSettlement exactly s.view settlement evidence command)
  | .conservativeSettle slot command =>
    match s.holds[slot]? with
    | none => s
    | some hold =>
      match hold.settlement with
      | none => s
      | some settlement => s.storeSettlement slot hold (Budget.conservativeSettle exactly s.view settlement command)
  | .closeSettledView settlements command =>
    match Budget.closeSettledView exactly s.view settlements command with
    | .accept _ view => { s with view := view }
    | .fail _ _ _ => s

/-- The meters named by the reservation a call moves. -/
def named (s : LifecycleState) : LifecycleCall → List JsString
  | .reserveForAdmission request _ => request.amounts.map ReservationLine.meter
  | .activateReservation slot _ | .cancelReservation slot _ | .settleReservation slot _ _ _
  | .reconcileSettlement slot _ _ | .conservativeSettle slot _ =>
    (s.holds[slot]?.map fun hold => hold.reservation.lines.map ReservationLine.meter).getD []
  | .closeSettledView _ _ => []

end LifecycleState

/-! ### What the records say about one meter -/

namespace Hold

def reservedAt (hold : Hold) (meter : JsString) : ℤ :=
  if hold.reservation.state = .RESERVED ∨ (hold.reservation.state = .ACTIVATED ∧ hold.settlement = none) then
    lineSum hold.reservation.lines meter
  else 0

def quarantinedAt (hold : Hold) (meter : JsString) : ℤ :=
  match hold.settlement with
  | none => 0
  | some settlement =>
    if settlement.state = .QUARANTINED then Settlement.quarantinedAt settlement.lines meter else 0

def overrunAt (hold : Hold) (meter : JsString) : ℤ :=
  match hold.settlement with
  | none => 0
  | some settlement => Settlement.overrunAt settlement.overrun meter

end Hold

namespace LifecycleState

def reservedAt (s : LifecycleState) (meter : JsString) : ℤ := (s.holds.map (·.reservedAt meter)).sum
def quarantinedAt (s : LifecycleState) (meter : JsString) : ℤ := (s.holds.map (·.quarantinedAt meter)).sum
def overrunAt (s : LifecycleState) (meter : JsString) : ℤ := (s.holds.map (·.overrunAt meter)).sum

end LifecycleState

/-! ### The invariant -/

/-- A settled hold keeps its activated reservation, and its settlement speaks
about that reservation's meters only. -/
def Hold.WellFormed (hold : Hold) : Prop :=
  ∀ settlement, hold.settlement = some settlement →
    hold.reservation.state = .ACTIVATED
      ∧ ∀ line ∈ settlement.lines, line.meter ∈ hold.reservation.lines.map ReservationLine.meter

structure LifecycleInv (initial : BudgetAvailableView) (s : LifecycleState) : Prop where
  meters : s.view.meters.map BudgetMeterBuckets.meter = initial.meters.map BudgetMeterBuckets.meter
  distinct : (s.view.meters.map BudgetMeterBuckets.meter).Nodup
  nonneg : ∀ row ∈ s.view.meters, row.Nonneg
  total : ∀ row ∈ s.view.meters, ∃ start ∈ initial.meters,
    start.meter = row.meter ∧ row.total = start.total + s.overrunAt row.meter
  reserved : ∀ row ∈ s.view.meters, row.reserved = s.reservedAt row.meter
  quarantined : ∀ row ∈ s.view.meters, row.quarantined = s.quarantinedAt row.meter
  holds : ∀ hold ∈ s.holds, hold.WellFormed

/-- How one row moved, against what the records gained at its meter. -/
structure RowMoved (row row' : BudgetMeterBuckets) (reserved quarantined overrun : ℤ) : Prop where
  meter : row'.meter = row.meter
  nonneg : row'.Nonneg
  reserved : row'.reserved = row.reserved + reserved
  quarantined : row'.quarantined = row.quarantined + quarantined
  total : row'.total = row.total + overrun

variable (initial : BudgetAvailableView)

theorem LifecycleInv.moved (s s' : LifecycleState) (h : LifecycleInv initial s)
    (move : BudgetMeterBuckets → BudgetMeterBuckets) (hrows : s'.view.meters = s.view.meters.map move)
    (hmove : ∀ row ∈ s.view.meters, RowMoved row (move row) (s'.reservedAt row.meter - s.reservedAt row.meter)
      (s'.quarantinedAt row.meter - s.quarantinedAt row.meter) (s'.overrunAt row.meter - s.overrunAt row.meter))
    (hholds : ∀ hold ∈ s'.holds, hold.WellFormed) : LifecycleInv initial s' := by
  have hmeters : s'.view.meters.map BudgetMeterBuckets.meter = s.view.meters.map BudgetMeterBuckets.meter := by
    rw [hrows, List.map_map]
    exact List.map_congr_left fun row hrow => (hmove row hrow).meter
  have hmem : ∀ row' ∈ s'.view.meters, ∃ row ∈ s.view.meters, move row = row' := by
    intro row' hrow'
    rw [hrows] at hrow'
    exact List.mem_map.mp hrow'
  refine ⟨hmeters.trans h.meters, hmeters ▸ h.distinct, ?_, ?_, ?_, ?_, hholds⟩
  · intro row' hrow'
    obtain ⟨row, hrow, rfl⟩ := hmem row' hrow'
    exact (hmove row hrow).nonneg
  · intro row' hrow'
    obtain ⟨row, hrow, rfl⟩ := hmem row' hrow'
    obtain ⟨start, hstart, hmeter, htotal⟩ := h.total row hrow
    have hm := hmove row hrow
    refine ⟨start, hstart, hmeter.trans hm.meter.symm, ?_⟩
    rw [hm.total, hm.meter, htotal]
    omega
  · intro row' hrow'
    obtain ⟨row, hrow, rfl⟩ := hmem row' hrow'
    have hm := hmove row hrow
    rw [hm.reserved, hm.meter, h.reserved row hrow]
    omega
  · intro row' hrow'
    obtain ⟨row, hrow, rfl⟩ := hmem row' hrow'
    have hm := hmove row hrow
    rw [hm.quarantined, hm.meter, h.quarantined row hrow]
    omega

theorem LifecycleInv.replaced (s : LifecycleState) (h : LifecycleInv initial s)
    (slot : ℕ) (old new : Hold) (hslot : s.holds[slot]? = some old) (view' : BudgetAvailableView)
    (move : BudgetMeterBuckets → BudgetMeterBuckets) (hrows : view'.meters = s.view.meters.map move)
    (hmove : ∀ row ∈ s.view.meters, RowMoved row (move row) (new.reservedAt row.meter - old.reservedAt row.meter)
      (new.quarantinedAt row.meter - old.quarantinedAt row.meter) (new.overrunAt row.meter - old.overrunAt row.meter))
    (hnew : new.WellFormed) : LifecycleInv initial ⟨view', s.holds.set slot new⟩ := by
  refine h.moved initial s _ move hrows (fun row hrow => ?_) ?_
  · have hm := hmove row hrow
    have hr := sum_map_set (·.reservedAt row.meter) s.holds slot old new hslot
    have hq := sum_map_set (·.quarantinedAt row.meter) s.holds slot old new hslot
    have ho := sum_map_set (·.overrunAt row.meter) s.holds slot old new hslot
    refine ⟨hm.meter, hm.nonneg, hm.reserved.trans ?_, hm.quarantined.trans ?_, hm.total.trans ?_⟩
    · unfold LifecycleState.reservedAt
      rw [hr]
      omega
    · unfold LifecycleState.quarantinedAt
      rw [hq]
      omega
    · unfold LifecycleState.overrunAt
      rw [ho]
      omega
  · intro hold hhold
    rcases List.mem_or_eq_of_mem_set hhold with hmem | heq
    · exact h.holds hold hmem
    · exact heq ▸ hnew

/-! ### Reservation steps -/

theorem RowMoved.shifted (row : BudgetMeterBuckets) (lines : List ReservationLine) (sign : ℤ) (hrow : row.Nonneg)
    (havailable : sign * lineSum lines row.meter ≤ row.available)
    (hreserved : 0 ≤ row.reserved + sign * lineSum lines row.meter) :
    RowMoved row (Reservation.shiftRow exactly (Reservation.totalPerMeter exactly lines) sign row)
      (sign * lineSum lines row.meter)
      0 0 := by
  rw [Reservation.shiftRow_eq]
  simp only [exactly_apply]
  refine ⟨rfl, ⟨?_, hreserved, hrow.quarantined, hrow.committed⟩, rfl, ?_, ?_⟩
  · dsimp only
    omega
  · dsimp only
    omega
  · unfold BudgetMeterBuckets.total
    dsimp only
    omega

theorem LifecycleInv.reserved_step (s : LifecycleState) (h : LifecycleInv initial s)
    (request : AdmissionRequest) (gate : AdmissionGate) (r : ReservationRecord) (view' : BudgetAvailableView)
    (haccept : reserveForAdmission exactly s.view request gate = .accept r view') :
    LifecycleInv initial ⟨view', s.holds ++ [⟨r, none⟩]⟩ := by
  obtain ⟨_, _, hlines, hcovered, rfl, _, rfl⟩ := reserveForAdmission_accept _ _ _ _ _ _ haccept
  refine h.moved initial s _ _ rfl (fun row hrow => ?_) ?_
  · have hsum := Reservation.lineSum_nonneg request.amounts hlines row.meter
    have hcover := hcovered row hrow
    have hnonneg := h.nonneg row hrow
    have hreserved := hnonneg.reserved
    have hmoved := RowMoved.shifted row request.amounts 1 hnonneg (by omega) (by omega)
    -- the new hold is the only new record, and it is outstanding
    refine ⟨hmoved.meter, hmoved.nonneg, hmoved.reserved.trans ?_, hmoved.quarantined.trans ?_,
      hmoved.total.trans ?_⟩
    · simp [LifecycleState.reservedAt, Hold.reservedAt]
    · simp [LifecycleState.quarantinedAt, Hold.quarantinedAt]
    · simp [LifecycleState.overrunAt, Hold.overrunAt]
  · intro hold hhold
    rcases List.mem_append.mp hhold with hmem | hmem
    · exact h.holds hold hmem
    · rw [List.mem_singleton.mp hmem]
      intro settlement hsettlement
      cases hsettlement

theorem Hold.WellFormed.unsettled (hold : Hold) (h : hold.WellFormed) (hstate : hold.reservation.state = .RESERVED) :
    hold.settlement = none := by
  cases hs : hold.settlement with
  | none => rfl
  | some settlement =>
    have hactivated := (h settlement hs).1
    rw [hstate] at hactivated
    cases hactivated

theorem RowMoved.refl (row : BudgetMeterBuckets) (h : row.Nonneg) : RowMoved row row 0 0 0 :=
  ⟨rfl, h, by omega, by omega, by omega⟩

theorem LifecycleInv.activated_step (s : LifecycleState) (h : LifecycleInv initial s)
    (slot : ℕ) (hold : Hold) (hslot : s.holds[slot]? = some hold) (command : ReservationActivateCommand)
    (r : ReservationRecord) (view' : BudgetAvailableView)
    (haccept : activateReservation s.view hold.reservation command = .accept r view') :
    LifecycleInv initial ⟨view', s.holds.set slot { hold with reservation := r }⟩ := by
  obtain ⟨hstate, rfl, rfl⟩ := activateReservation_accept _ _ _ _ _ haccept
  have hunsettled := (h.holds hold (List.mem_of_getElem? hslot)).unsettled hold hstate
  refine h.replaced initial s slot hold _ hslot s.view id (by simp) (fun row hrow => ?_) ?_
  · have hrefl := RowMoved.refl row (h.nonneg row hrow)
    simpa [Hold.reservedAt, Hold.quarantinedAt, Hold.overrunAt, hstate, hunsettled] using hrefl
  · intro settlement hsettlement
    rw [hunsettled] at hsettlement
    cases hsettlement

theorem LifecycleInv.cancelled_step (s : LifecycleState) (h : LifecycleInv initial s)
    (slot : ℕ) (hold : Hold) (hslot : s.holds[slot]? = some hold) (command : ReservationCancelCommand)
    (r : ReservationRecord) (view' : BudgetAvailableView)
    (haccept : cancelReservation exactly s.view hold.reservation command = .accept r view') :
    LifecycleInv initial ⟨view', s.holds.set slot { hold with reservation := r }⟩ := by
  obtain ⟨_, _, hlines, hstate, hcovered, rfl, rfl⟩ := cancelReservation_accept _ _ _ _ _ _ haccept
  have hunsettled := (h.holds hold (List.mem_of_getElem? hslot)).unsettled hold hstate
  refine h.replaced initial s slot hold _ hslot _ _ rfl (fun row hrow => ?_) ?_
  · have hsum := Reservation.lineSum_nonneg hold.reservation.lines hlines row.meter
    have hcover := hcovered row hrow
    have hnonneg := h.nonneg row hrow
    have havailable := hnonneg.available
    have hmoved := RowMoved.shifted row hold.reservation.lines (-1) hnonneg (by omega) (by omega)
    simpa [Hold.reservedAt, Hold.quarantinedAt, Hold.overrunAt, hstate, hunsettled] using hmoved
  · intro settlement hsettlement
    rw [hunsettled] at hsettlement
    cases hsettlement

/-! ### Settlement steps -/

theorem Hold.quarantinedAt_eq (hold : Hold) (settlement : SettlementRecord) (hs : hold.settlement = some settlement)
    (h : settlement.state ≠ .QUARANTINED → ∀ line ∈ settlement.lines, line.quarantined = 0) (meter : JsString) :
    hold.quarantinedAt meter = Settlement.quarantinedAt settlement.lines meter := by
  unfold Hold.quarantinedAt
  rw [hs]
  dsimp only
  split
  · rfl
  · rename_i hstate
    have hzero := h hstate
    have hsum : ∀ lines : List SettlementLine, (∀ line ∈ lines, line.quarantined = 0) →
        Settlement.quarantinedAt lines meter = 0 := by
      intro lines hlines
      unfold Settlement.quarantinedAt OrdMap.sumAt
      apply List.sum_eq_zero
      intro q hq
      obtain ⟨line, hline, rfl⟩ := List.mem_map.mp hq
      exact hlines line (List.mem_of_mem_filter hline)
    exact (hsum settlement.lines hzero).symm

theorem RowMoved.settled (row : BudgetMeterBuckets) (moves : OrdMap JsString Settlement.Movement)
    (lines : List SettlementLine) (before after : List BudgetOverrun) (heldR heldQ : ℤ) (hrow : row.Nonneg)
    (h : Settlement.Balance moves lines before after heldR heldQ row.meter) (hR : heldR ≤ row.reserved)
    (hQ : heldQ ≤ row.quarantined) :
    RowMoved row (Settlement.shiftRow exactly row (moves.get row.meter)) (-heldR)
      (Settlement.quarantinedAt lines row.meter - heldQ)
      (Settlement.overrunAt after row.meter - Settlement.overrunAt before row.meter) := by
  have hr := h.reserved
  have hq := h.quarantined
  have ht := h.total
  have ha := h.available
  have hc := h.committed
  have hl := h.lines
  obtain ⟨ra, rr, rq, rc⟩ := hrow
  unfold Settlement.Movement.total at ht
  rw [Settlement.shiftRow_exactly]
  refine ⟨rfl, ⟨?_, ?_, ?_, ?_⟩, ?_, ?_, ?_⟩ <;> simp only [BudgetMeterBuckets.total] <;> omega

/-- A check over the named meters covers every row of the view. -/
theorem covered_row (view : BudgetAvailableView) (hdistinct : (view.meters.map BudgetMeterBuckets.meter).Nodup)
    (row : BudgetMeterBuckets) (hrow : row ∈ view.meters) (amount : BudgetMeterBuckets → ℤ) (names : List JsString)
    (held : ℤ) (hnonneg : 0 ≤ amount row) (hzero : row.meter ∉ names → held = 0)
    (h : row.meter ∈ names → held ≤ ((Settlement.bucketOf view row.meter).map amount).getD (-1)) :
    held ≤ amount row := by
  by_cases hm : row.meter ∈ names
  · have hcheck := h hm
    have hfind : Settlement.bucketOf view row.meter = some row :=
      find_key_of_mem BudgetMeterBuckets.meter view.meters hdistinct row hrow
    rw [hfind] at hcheck
    exact hcheck
  · rw [hzero hm]
    exact hnonneg

theorem LifecycleInv.settled_step (s : LifecycleState) (h : LifecycleInv initial s)
    (slot : ℕ) (hold : Hold) (hslot : s.holds[slot]? = some hold) (hnone : hold.settlement = none)
    (settlement : SettlementRecord) (view' : BudgetAvailableView)
    (hsettled : Settlement.Settled exactly s.view hold.reservation settlement view') :
    LifecycleInv initial ⟨view', s.holds.set slot { hold with settlement := some settlement }⟩ := by
  obtain ⟨moves, state, rfl, _, hbalance⟩ := hsettled.moved
  refine h.replaced initial s slot hold _ hslot _ _ rfl (fun row hrow => ?_) ?_
  · have hnonneg := h.nonneg row hrow
    have hcover : lineSum hold.reservation.lines row.meter ≤ row.reserved :=
      covered_row s.view h.distinct row hrow (·.reserved) _ _ hnonneg.reserved
        (fun hm => OrdMap.sumAt_eq_zero _ _ _ _ hm) (hsettled.covered row.meter)
    have hmoved := RowMoved.settled row moves _ _ _ _ _ hnonneg (hbalance row.meter) hcover hnonneg.quarantined
    have hquarantine := Hold.quarantinedAt_eq { hold with settlement := some settlement } settlement rfl
      (fun hne => Settlement.stateOf_settled _ (hsettled.state ▸ hne)) row.meter
    rw [hquarantine]
    simpa [Hold.reservedAt, Hold.quarantinedAt, Hold.overrunAt, hsettled.activated, hnone,
      Settlement.overrunAt] using hmoved
  · intro other hother
    rw [← Option.some.inj hother]
    exact ⟨hsettled.activated, hsettled.meters⟩

theorem LifecycleInv.exited_step (s : LifecycleState) (h : LifecycleInv initial s)
    (slot : ℕ) (hold : Hold) (hslot : s.holds[slot]? = some hold) (settlement settlement' : SettlementRecord)
    (hsome : hold.settlement = some settlement) (view' : BudgetAvailableView)
    (hexited : Settlement.Exited exactly s.view settlement settlement' view') :
    LifecycleInv initial ⟨view', s.holds.set slot { hold with settlement := some settlement' }⟩ := by
  have hwf := h.holds hold (List.mem_of_getElem? hslot) settlement hsome
  obtain ⟨moves, state, rfl, _, hbalance⟩ := hexited.moved
  refine h.replaced initial s slot hold _ hslot _ _ rfl (fun row hrow => ?_) ?_
  · have hnonneg := h.nonneg row hrow
    have hcover : Settlement.quarantinedAt settlement.lines row.meter ≤ row.quarantined :=
      covered_row s.view h.distinct row hrow (·.quarantined) _ _ hnonneg.quarantined
        (fun hm => OrdMap.sumAt_eq_zero _ _ _ _ hm) (hexited.covered row.meter)
    have hmoved := RowMoved.settled row moves _ _ _ _ _ hnonneg (hbalance row.meter) hnonneg.reserved hcover
    have hafter := Hold.quarantinedAt_eq { hold with settlement := some settlement' } settlement' rfl
      hexited.state row.meter
    have hbefore := Hold.quarantinedAt_eq hold settlement hsome
      (fun hne => absurd hexited.quarantined hne) row.meter
    rw [hafter, hbefore]
    simpa [Hold.reservedAt, Hold.overrunAt, hwf.1, hsome] using hmoved
  · intro other hother
    rw [← Option.some.inj hother]
    refine ⟨hwf.1, fun line hline => ?_⟩
    have hmem : line.meter ∈ settlement.lines.map SettlementLine.meter := by
      rw [← hexited.meters]
      exact List.mem_map_of_mem (f := SettlementLine.meter) hline
    obtain ⟨first, hfirst, heq⟩ := List.mem_map.mp hmem
    exact heq ▸ hwf.2 first hfirst

/-! ### One call -/

theorem LifecycleInv.view_only (s : LifecycleState) (h : LifecycleInv initial s)
    (view' : BudgetAvailableView) (hrows : view'.meters = s.view.meters) :
    LifecycleInv initial { s with view := view' } := by
  refine h.moved initial s _ id (by simp [hrows]) (fun row hrow => ?_) h.holds
  have hrefl := RowMoved.refl row (h.nonneg row hrow)
  simpa [LifecycleState.reservedAt, LifecycleState.quarantinedAt, LifecycleState.overrunAt] using hrefl

/-- Everything one call can do to the stored state. -/
inductive LifecycleStep (s : LifecycleState) : LifecycleCall → LifecycleState → Prop where
  | unchanged (c : LifecycleCall) : LifecycleStep s c s
  | reserved (request : AdmissionRequest) (gate : AdmissionGate) (r : ReservationRecord) (view' : BudgetAvailableView)
      (h : reserveForAdmission exactly s.view request gate = .accept r view') :
      LifecycleStep s (.reserveForAdmission request gate) ⟨view', s.holds ++ [⟨r, none⟩]⟩
  | activated (slot : ℕ) (hold : Hold) (hslot : s.holds[slot]? = some hold) (command : ReservationActivateCommand)
      (r : ReservationRecord) (view' : BudgetAvailableView)
      (h : activateReservation s.view hold.reservation command = .accept r view') :
      LifecycleStep s (.activateReservation slot command) ⟨view', s.holds.set slot { hold with reservation := r }⟩
  | cancelled (slot : ℕ) (hold : Hold) (hslot : s.holds[slot]? = some hold) (command : ReservationCancelCommand)
      (r : ReservationRecord) (view' : BudgetAvailableView)
      (h : cancelReservation exactly s.view hold.reservation command = .accept r view') :
      LifecycleStep s (.cancelReservation slot command) ⟨view', s.holds.set slot { hold with reservation := r }⟩
  | settled (slot : ℕ) (hold : Hold) (hslot : s.holds[slot]? = some hold) (evidence : SettleEvidence)
      (viewVersion reservationVersion : ℤ) (hnone : hold.settlement = none) (settlement : SettlementRecord)
      (view' : BudgetAvailableView) (h : Settlement.Settled exactly s.view hold.reservation settlement view') :
      LifecycleStep s (.settleReservation slot evidence viewVersion reservationVersion)
        ⟨view', s.holds.set slot { hold with settlement := some settlement }⟩
  | reconciled (slot : ℕ) (hold : Hold) (hslot : s.holds[slot]? = some hold) (evidence : ReconcileEvidence)
      (command : SettlementCommand) (settlement settlement' : SettlementRecord)
      (hsome : hold.settlement = some settlement) (view' : BudgetAvailableView)
      (h : Settlement.Exited exactly s.view settlement settlement' view') :
      LifecycleStep s (.reconcileSettlement slot evidence command)
        ⟨view', s.holds.set slot { hold with settlement := some settlement' }⟩
  | writtenOff (slot : ℕ) (hold : Hold) (hslot : s.holds[slot]? = some hold) (command : ConservativeCommand)
      (settlement settlement' : SettlementRecord) (hsome : hold.settlement = some settlement)
      (view' : BudgetAvailableView) (h : Settlement.Exited exactly s.view settlement settlement' view') :
      LifecycleStep s (.conservativeSettle slot command)
        ⟨view', s.holds.set slot { hold with settlement := some settlement' }⟩
  | closed (settlements : List SettlementRecord) (command : CloseCommand) (view' : BudgetAvailableView)
      (h : view'.meters = s.view.meters) : LifecycleStep s (.closeSettledView settlements command) ⟨view', s.holds⟩

theorem set_same (holds : List Hold) (slot : ℕ) (hold : Hold) (h : holds[slot]? = some hold) :
    holds.set slot hold = holds := by
  obtain ⟨hlt, rfl⟩ := List.getElem?_eq_some_iff.mp h
  exact List.set_getElem_self hlt

theorem LifecycleState.call_step (s : LifecycleState) (c : LifecycleCall) : LifecycleStep s c (s.call c) := by
  unfold LifecycleState.call
  cases c with
  | reserveForAdmission request gate =>
    dsimp only
    cases hr : reserveForAdmission exactly s.view request gate with
    | accept r view' => exact .reserved request gate r view' hr
    | fail _ _ _ => exact .unchanged _
  | activateReservation slot command =>
    dsimp only
    cases hslot : s.holds[slot]? with
    | none => exact .unchanged _
    | some hold =>
      dsimp only
      cases hr : activateReservation s.view hold.reservation command with
      | accept r view' => exact .activated slot hold hslot command r view' hr
      | fail _ _ _ => exact .unchanged _
  | cancelReservation slot command =>
    dsimp only
    cases hslot : s.holds[slot]? with
    | none => exact .unchanged _
    | some hold =>
      dsimp only
      cases hr : cancelReservation exactly s.view hold.reservation command with
      | accept r view' => exact .cancelled slot hold hslot command r view' hr
      | fail _ _ _ => exact .unchanged _
  | settleReservation slot evidence viewVersion reservationVersion =>
    dsimp only
    cases hslot : s.holds[slot]? with
    | none => exact .unchanged _
    | some hold =>
      dsimp only
      cases hr : settleReservation exactly s.view hold.reservation evidence
          ⟨viewVersion, reservationVersion, hold.settlement⟩ with
      | fail _ _ _ => exact .unchanged _
      | accept result view' =>
        simp only [LifecycleState.storeSettlement]
        rcases Settlement.settleReservation_accept _ _ _ _ _ _ hr with
          ⟨hnone, settlement, rfl, hsettled⟩ | ⟨hprior, _, rfl⟩
        · exact .settled slot hold hslot evidence viewVersion reservationVersion hnone settlement view' hsettled
        · -- a replay hands the stored settlement back, so the slot keeps its hold
          rw [← hprior, set_same s.holds slot hold hslot]
          exact .unchanged _
  | reconcileSettlement slot evidence command =>
    dsimp only
    cases hslot : s.holds[slot]? with
    | none => exact .unchanged _
    | some hold =>
      dsimp only
      cases hsome : hold.settlement with
      | none => exact .unchanged _
      | some settlement =>
        dsimp only
        cases hr : reconcileSettlement exactly s.view settlement evidence command with
        | fail _ _ _ => exact .unchanged _
        | accept result view' =>
          obtain ⟨settlement', rfl, hexited⟩ := Settlement.reconcileSettlement_accept _ _ _ _ _ _ hr
          exact .reconciled slot hold hslot evidence command settlement settlement' hsome view' hexited
  | conservativeSettle slot command =>
    dsimp only
    cases hslot : s.holds[slot]? with
    | none => exact .unchanged _
    | some hold =>
      dsimp only
      cases hsome : hold.settlement with
      | none => exact .unchanged _
      | some settlement =>
        dsimp only
        cases hr : conservativeSettle exactly s.view settlement command with
        | fail _ _ _ => exact .unchanged _
        | accept result view' =>
          obtain ⟨settlement', rfl, hexited⟩ := Settlement.conservativeSettle_accept _ _ _ _ _ hr
          exact .writtenOff slot hold hslot command settlement settlement' hsome view' hexited
  | closeSettledView settlements command =>
    dsimp only
    cases hr : closeSettledView exactly s.view settlements command with
    | fail _ _ _ => exact .unchanged _
    | accept result view' =>
      exact .closed settlements command view' (Settlement.closeSettledView_accept _ _ _ _ _ hr)

theorem LifecycleInv.step (s s' : LifecycleState) (c : LifecycleCall)
    (h : LifecycleInv initial s) (hstep : LifecycleStep s c s') : LifecycleInv initial s' := by
  cases hstep with
  | unchanged => exact h
  | reserved request gate r view' hr => exact h.reserved_step initial s request gate r view' hr
  | activated slot hold hslot command r view' hr =>
    exact h.activated_step initial s slot hold hslot command r view' hr
  | cancelled slot hold hslot command r view' hr =>
    exact h.cancelled_step initial s slot hold hslot command r view' hr
  | settled slot hold hslot _ _ _ hnone settlement view' hsettled =>
    exact h.settled_step initial s slot hold hslot hnone settlement view' hsettled
  | reconciled slot hold hslot _ _ settlement settlement' hsome view' hexited =>
    exact h.exited_step initial s slot hold hslot settlement settlement' hsome view' hexited
  | writtenOff slot hold hslot _ settlement settlement' hsome view' hexited =>
    exact h.exited_step initial s slot hold hslot settlement settlement' hsome view' hexited
  | closed _ _ view' hrows => exact h.view_only initial s view' hrows

/-! ### Meters a call does not name -/

theorem bucketOf_map (view view' : BudgetAvailableView) (move : BudgetMeterBuckets → BudgetMeterBuckets)
    (hrows : view'.meters = view.meters.map move) (hmeter : ∀ row, (move row).meter = row.meter) (meter : JsString)
    (hsame : ∀ row, row.meter = meter → move row = row) :
    Settlement.bucketOf view' meter = Settlement.bucketOf view meter := by
  unfold Settlement.bucketOf
  rw [hrows, List.find?_map]
  have hpred : ((fun e : BudgetMeterBuckets => decide (e.meter = meter)) ∘ move) =
      fun e => decide (e.meter = meter) := by
    funext row
    simp [hmeter row]
  rw [hpred]
  cases hf : view.meters.find? fun e => e.meter = meter with
  | none => rfl
  | some row =>
    have hrow : row.meter = meter := by simpa using List.find?_some hf
    rw [Option.map_some, hsame row hrow]

theorem bucketOf_shiftView (view : BudgetAvailableView) (lines : List ReservationLine) (sign : ℤ) (meter : JsString)
    (h : meter ∉ lines.map ReservationLine.meter) :
    Settlement.bucketOf (Reservation.shiftView exactly view (Reservation.totalPerMeter exactly lines) sign) meter =
      Settlement.bucketOf view meter := by
  refine bucketOf_map view _ (Reservation.shiftRow exactly (Reservation.totalPerMeter exactly lines) sign) rfl
    (fun row => rfl) meter fun row hrow => ?_
  have hzero : lineSum lines meter = 0 := OrdMap.sumAt_eq_zero _ _ _ _ h
  rw [Reservation.shiftRow_eq, hrow, hzero]
  simp [← hrow]

theorem bucketOf_shift (view : BudgetAvailableView) (moves : OrdMap JsString Settlement.Movement)
    (state : BudgetAccountState) (meter : JsString) (h : moves.get meter = none) :
    Settlement.bucketOf (Settlement.shift exactly view moves state) meter = Settlement.bucketOf view meter := by
  refine bucketOf_map view _ _ rfl (fun row => ?_) meter fun row hrow => ?_
  · exact Settlement.shiftRow_meter row _
  · rw [hrow, h]
    rfl

theorem LifecycleStep.frame (s s' : LifecycleState) (c : LifecycleCall)
    (h : LifecycleInv initial s) (hstep : LifecycleStep s c s') (meter : JsString) (hm : meter ∉ s.named c) :
    Settlement.bucketOf s'.view meter = Settlement.bucketOf s.view meter := by
  cases hstep with
  | unchanged => rfl
  | reserved request gate r view' hr =>
    obtain ⟨_, _, _, _, _, _, rfl⟩ := reserveForAdmission_accept _ _ _ _ _ _ hr
    exact bucketOf_shiftView s.view request.amounts 1 meter hm
  | activated slot hold hslot command r view' hr =>
    obtain ⟨_, _, rfl⟩ := activateReservation_accept _ _ _ _ _ hr
    rfl
  | cancelled slot hold hslot command r view' hr =>
    obtain ⟨_, _, _, _, _, _, rfl⟩ := cancelReservation_accept _ _ _ _ _ _ hr
    simp only [LifecycleState.named, hslot, Option.map_some, Option.getD_some] at hm
    exact bucketOf_shiftView s.view hold.reservation.lines (-1) meter hm
  | settled slot hold hslot _ _ _ hnone settlement view' hsettled =>
    simp only [LifecycleState.named, hslot, Option.map_some, Option.getD_some] at hm
    obtain ⟨moves, state, rfl, hother, _⟩ := hsettled.moved
    exact bucketOf_shift s.view moves state meter (hother meter hm)
  | reconciled slot hold hslot _ _ settlement settlement' hsome view' hexited =>
    simp only [LifecycleState.named, hslot, Option.map_some, Option.getD_some] at hm
    obtain ⟨moves, state, rfl, hother, _⟩ := hexited.moved
    refine bucketOf_shift s.view moves state meter (hother meter fun hmem => hm ?_)
    obtain ⟨line, hline, rfl⟩ := List.mem_map.mp hmem
    exact (h.holds hold (List.mem_of_getElem? hslot) settlement hsome).2 line hline
  | writtenOff slot hold hslot _ settlement settlement' hsome view' hexited =>
    simp only [LifecycleState.named, hslot, Option.map_some, Option.getD_some] at hm
    obtain ⟨moves, state, rfl, hother, _⟩ := hexited.moved
    refine bucketOf_shift s.view moves state meter (hother meter fun hmem => hm ?_)
    obtain ⟨line, hline, rfl⟩ := List.mem_map.mp hmem
    exact (h.holds hold (List.mem_of_getElem? hslot) settlement hsome).2 line hline
  | closed _ _ view' hrows =>
    unfold Settlement.bucketOf
    rw [hrows]

/-! ### Every run -/

theorem LifecycleInv.start (hdistinct : (initial.meters.map BudgetMeterBuckets.meter).Nodup)
    (hnonneg : ∀ row ∈ initial.meters, row.Nonneg)
    (hopen : ∀ row ∈ initial.meters, row.reserved = 0 ∧ row.quarantined = 0) :
    LifecycleInv initial ⟨initial, []⟩ := by
  refine ⟨rfl, hdistinct, hnonneg, fun row hrow => ⟨row, hrow, rfl, ?_⟩, fun row hrow => (hopen row hrow).1,
    fun row hrow => (hopen row hrow).2, fun hold hhold => ?_⟩
  · simp [LifecycleState.overrunAt]
  · cases hhold

/-- Budget lifecycle conservation: along every run from an account without open
holds, the four buckets of a meter are the initial total plus the recorded
overrun, none is negative, RESERVED and QUARANTINED are exactly what the
records hold, and a call leaves every meter it does not name alone. -/
theorem lifecycle_conserves_budget (hdistinct : (initial.meters.map BudgetMeterBuckets.meter).Nodup)
    (hnonneg : ∀ row ∈ initial.meters, row.Nonneg)
    (hopen : ∀ row ∈ initial.meters, row.reserved = 0 ∧ row.quarantined = 0) (calls : List LifecycleCall) :
    let s := run LifecycleState.call ⟨initial, []⟩ calls
    s.view.meters.map BudgetMeterBuckets.meter = initial.meters.map BudgetMeterBuckets.meter
      ∧ (∀ row ∈ s.view.meters, row.Nonneg
          ∧ (∃ start ∈ initial.meters, start.meter = row.meter ∧ row.total = start.total + s.overrunAt row.meter)
          ∧ row.reserved = s.reservedAt row.meter
          ∧ row.quarantined = s.quarantinedAt row.meter)
      ∧ ∀ c meter, meter ∉ s.named c →
          Settlement.bucketOf (s.call c).view meter = Settlement.bucketOf s.view meter := by
  intro s
  have h : LifecycleInv initial s :=
    run_invariant LifecycleState.call (LifecycleInv initial)
      (fun s c hs => hs.step initial s (s.call c) c (s.call_step c)) _
      (LifecycleInv.start initial hdistinct hnonneg hopen) calls
  refine ⟨h.meters, fun row hrow => ⟨h.nonneg row hrow, h.total row hrow, h.reserved row hrow,
    h.quarantined row hrow⟩, fun c meter hm => ?_⟩
  exact (s.call_step c).frame initial s (s.call c) c h meter hm

/- One admission of 10 units, settled by a partial receipt of 4 and then by a
   complete receipt of 13: the last three units are overrun. -/
def tokensView : BudgetAvailableView := ⟨lit "acct", .OPEN, 0, [⟨lit "tokens", 20, 0, 0, 0⟩]⟩

def tokensReceipt (quantity sequence : ℤ) (coverage : BudgetMeasurementCoverage) : NormalizedMeasurement :=
  ⟨⟨lit "tokens", some quantity, coverage, encodeProviderRunRef ⟨lit "a1", 0, lit "codex", lit "r1"⟩, sequence⟩,
    lit "m"⟩

def tokensCalls : List LifecycleCall := [
  .reserveForAdmission ⟨lit "adm", 0, [⟨.EXECUTION, lit "tokens", 6⟩, ⟨.VERIFICATION, lit "tokens", 1⟩,
    ⟨.INDEPENDENT_REVIEW, lit "tokens", 1⟩, ⟨.FINAL_ACCEPTANCE, lit "tokens", 1⟩,
    ⟨.CONTINGENCY, lit "tokens", 1⟩]⟩ ⟨some ⟨lit "d", .ALLOW⟩, none⟩,
  .activateReservation 0 ⟨0, lit "a1"⟩,
  .settleReservation 0 ⟨[tokensReceipt 4 1 .PARTIAL]⟩ 1 1,
  .reconcileSettlement 0 ⟨some [tokensReceipt 13 2 .COMPLETE], none⟩ ⟨2, 0⟩]

theorem lifecycle_conserves_budget_tokens :
    (run LifecycleState.call ⟨tokensView, []⟩ tokensCalls).view.meters = [⟨lit "tokens", 10, 0, 0, 13⟩]
      ∧ (run LifecycleState.call ⟨tokensView, []⟩ tokensCalls).overrunAt (lit "tokens") = 3
      ∧ ∀ row ∈ (run LifecycleState.call ⟨tokensView, []⟩ tokensCalls).view.meters, row.Nonneg := by
  refine ⟨by decide +kernel, by decide +kernel, fun row hrow => ?_⟩
  refine ((lifecycle_conserves_budget tokensView (by decide) ?_ (by decide) tokensCalls).2.1 row hrow).1
  intro start hstart
  rw [List.mem_singleton.mp hstart]
  constructor <;> decide

end MoeNG.Budget
