import MoeNG.Budget.SettlementGuards

/-!
# When an accepted call leaves an admissible view

Every call takes units from a bucket that it has checked and adds them, with
the overrun of a settlement, to another one that it has not. A sum of doubles is
a count exactly when the sum of integers is, so rounding decides no verdict.
-/

namespace MoeNG.Budget
open MoeNG.Kernel MoeNG.Lib
open Reservation (lineSum)
open Settlement (Moved LineEffect Movement SettlementCall measuredAt resolved lineAt)

/-! ### The two guards -/

/-- The view guard of the reservations and the one of the settlements. -/
inductive ViewGuard where
  | reservation
  | settlement

def ViewGuard.admits : ViewGuard → BudgetAvailableView → Bool
  | .reservation => Reservation.isView
  | .settlement => Settlement.isView

theorem rows_iff (ref : JsString → Bool) (buckets : BudgetMeterBuckets → Bool)
    (h : ∀ row, buckets row = true ↔ ref row.meter = true ∧ row.Safe) (rows : List BudgetMeterBuckets) :
    rows.all buckets = true ↔ (∀ meter ∈ rows.map BudgetMeterBuckets.meter, ref meter = true) ∧ ∀ row ∈ rows, row.Safe := by
  simp only [List.all_eq_true, h, List.forall_mem_map]
  exact ⟨fun hall => ⟨fun row hrow => (hall row hrow).1, fun row hrow => (hall row hrow).2⟩,
    fun hall row hrow => ⟨hall.1 row hrow, hall.2 row hrow⟩⟩

/-- A view that keeps its account and its meters is admitted again when its buckets are counts. -/
theorem ViewGuard.admits_iff (guard : ViewGuard) (view view' : BudgetAvailableView) (h : guard.admits view = true)
    (haccount : view'.accountId = view.accountId)
    (hmeters : view'.meters.map BudgetMeterBuckets.meter = view.meters.map BudgetMeterBuckets.meter)
    (hversion : isSafeCount view'.version = true) : guard.admits view' = true ↔ ∀ row ∈ view'.meters, row.Safe := by
  have hlength : view'.meters.length = view.meters.length := by simpa using congrArg List.length hmeters
  cases guard with
  | reservation =>
    simp only [ViewGuard.admits, Reservation.isView, Bool.and_eq_true, rows_iff _ _ Reservation.isBuckets_iff] at h ⊢
    obtain ⟨⟨⟨⟨⟨ha, _⟩, hpos⟩, hmax⟩, hrefs, _⟩, hdistinct⟩ := h
    rw [haccount, hlength, hmeters]
    exact ⟨fun h => h.1.2.2, fun hsafe => ⟨⟨⟨⟨⟨ha, hversion⟩, hpos⟩, hmax⟩, hrefs, hsafe⟩, hdistinct⟩⟩
  | settlement =>
    simp only [ViewGuard.admits, Settlement.isView, Bool.and_eq_true, rows_iff _ _ Settlement.isBuckets_iff] at h ⊢
    obtain ⟨⟨⟨⟨ha, _⟩, hpos⟩, hmax⟩, hrefs, _⟩ := h
    rw [haccount, hlength, hmeters]
    exact ⟨fun h => h.2.2, fun hsafe => ⟨⟨⟨⟨ha, hversion⟩, hpos⟩, hmax⟩, hrefs, hsafe⟩⟩

theorem ViewGuard.safe (guard : ViewGuard) (view : BudgetAvailableView) (h : guard.admits view = true) :
    isSafeCount view.version = true ∧ ∀ row ∈ view.meters, row.Safe := by
  cases guard with
  | reservation =>
    simp only [ViewGuard.admits, Reservation.isView, Bool.and_eq_true, rows_iff _ _ Reservation.isBuckets_iff] at h
    exact ⟨h.1.1.1.1.2, h.1.2.2⟩
  | settlement =>
    simp only [ViewGuard.admits, Settlement.isView, Bool.and_eq_true, rows_iff _ _ Settlement.isBuckets_iff] at h
    exact ⟨h.1.1.1.2, h.2.2⟩

theorem version_safe (version : ℤ) (h : isSafeCount version = true) (hlt : version < maxBudgetVersion) :
    isSafeCount (version + 1) = true := by
  rw [isSafeCount_iff] at h ⊢
  unfold maxBudgetVersion at hlt
  omega

/-! ### The calls -/

inductive BudgetCall where
  | reserve (request : AdmissionRequest) (gate : AdmissionGate)
  | cancel (reservation : ReservationRecord) (command : ReservationCancelCommand)
  | settlement (call : SettlementCall)
  | close (settlements : List SettlementRecord) (cmd : CloseCommand)

/-- An accepted call and the view it returns. -/
def BudgetCall.accepts (view view' : BudgetAvailableView) : BudgetCall → Prop
  | .reserve request gate => ∃ record, reserveForAdmission double view request gate = .accept record view'
  | .cancel reservation command => ∃ record, cancelReservation double view reservation command = .accept record view'
  | .settlement call => ∃ record, call.result view = .accept record view'
  | .close settlements cmd => ∃ record, closeSettledView double view settlements cmd = .accept record view'

/-- Room in the buckets that a settlement call adds to. -/
def fitsSettlement (view : BudgetAvailableView) : SettlementCall → Prop
  | .settle record evidence _ =>
    ∀ row ∈ view.meters, row.meter ∈ record.lines.map ReservationLine.meter →
      match measuredAt evidence.measurements row.meter with
      | none => row.quarantined + lineSum record.lines row.meter ≤ maxSafeInteger
      | some (used, complete) => row.committed + used ≤ maxSafeInteger
        ∧ (if complete then row.available else row.quarantined) + (lineSum record.lines row.meter - used) ≤ maxSafeInteger
  | .reconcile settlement evidence _ =>
    ∀ row ∈ view.meters, ∀ line ∈ settlement.lines, line.meter = row.meter → line.disposition ∉ resolved →
      (evidence.neverStartedProofRef.isSome = true → row.available + line.quarantined ≤ maxSafeInteger)
        ∧ ∀ use ∈ measuredAt (evidence.measurements.getD []) row.meter,
          row.committed + (use.1 - line.committed) ≤ maxSafeInteger
            ∧ (use.2 = true → row.available + (line.quarantined - (use.1 - line.committed)) ≤ maxSafeInteger)
  | .writeOff settlement _ =>
    ∀ row ∈ view.meters, ∀ line ∈ settlement.lines, line.meter = row.meter →
      row.committed + line.quarantined ≤ maxSafeInteger

/-- Room in the buckets that a call adds to. -/
def BudgetCall.Fits (view : BudgetAvailableView) : BudgetCall → Prop
  | .reserve request _ => ∀ row ∈ view.meters, row.reserved + lineSum request.amounts row.meter ≤ maxSafeInteger
  | .cancel reservation _ => ∀ row ∈ view.meters, row.available + lineSum reservation.lines row.meter ≤ maxSafeInteger
  | .settlement call => call.replays = true ∨ fitsSettlement view call
  | .close _ _ => True

/-! ### Reservations -/

theorem shiftView_meters (view : BudgetAvailableView) (totals : OrdMap JsString ℤ) (sign : ℤ) :
    (Reservation.shiftView double view totals sign).meters.map BudgetMeterBuckets.meter
      = view.meters.map BudgetMeterBuckets.meter := by
  unfold Reservation.shiftView
  rw [List.map_map]
  exact List.map_congr_left fun _ _ => rfl

theorem shiftView_safe (view : BudgetAvailableView) (hsafe : ∀ row ∈ view.meters, row.Safe) (lines : List ReservationLine)
    (sign : ℤ) (hcovered : ∀ row ∈ view.meters,
      sign * lineSum lines row.meter ≤ row.available ∧ 0 ≤ row.reserved + sign * lineSum lines row.meter) :
    (∀ row ∈ (Reservation.shiftView double view (Reservation.totalPerMeter exactly lines) sign).meters, row.Safe)
      ↔ ∀ row ∈ view.meters, row.available - sign * lineSum lines row.meter ≤ maxSafeInteger
        ∧ row.reserved + sign * lineSum lines row.meter ≤ maxSafeInteger := by
  simp only [Reservation.shiftView, List.forall_mem_map]
  refine forall₂_congr fun row hrow => ?_
  obtain ⟨-, -, hquarantined, hcommitted⟩ := hsafe row hrow
  obtain ⟨havailable, hreserved⟩ := hcovered row hrow
  rw [Reservation.shiftRow_eq]
  constructor
  · rintro ⟨ha, hr, -⟩
    rw [isSafeCount_fl, isSafeCount_iff] at ha hr
    exact ⟨ha.2, hr.2⟩
  · rintro ⟨ha, hr⟩
    refine ⟨?_, ?_, hquarantined, hcommitted⟩
    · rw [isSafeCount_fl, isSafeCount_iff]
      omega
    · rw [isSafeCount_fl, isSafeCount_iff]
      omega

theorem reserve_safe (view : BudgetAvailableView) (hsafe : ∀ row ∈ view.meters, row.Safe) (lines : List ReservationLine)
    (hlines : Reservation.checkLines lines = none) (hcovered : ∀ row ∈ view.meters, lineSum lines row.meter ≤ row.available) :
    (∀ row ∈ (Reservation.shiftView double view (Reservation.totalPerMeter exactly lines) 1).meters, row.Safe)
      ↔ ∀ row ∈ view.meters, row.reserved + lineSum lines row.meter ≤ maxSafeInteger := by
  have hbounds (row : BudgetMeterBuckets) (hrow : row ∈ view.meters) : 0 ≤ lineSum lines row.meter ∧ 0 ≤ row.reserved
      ∧ row.available ≤ maxSafeInteger := by
    obtain ⟨hnonneg, ha, -⟩ := row.safe_iff.mp (hsafe row hrow)
    exact ⟨Reservation.lineSum_nonneg lines hlines row.meter, hnonneg.reserved, ha⟩
  rw [shiftView_safe view hsafe lines 1 fun row hrow => by
    have hrow' := hbounds row hrow
    have hle := hcovered row hrow
    omega]
  refine forall₂_congr fun row hrow => ?_
  have hrow' := hbounds row hrow
  omega

theorem cancel_safe (view : BudgetAvailableView) (hsafe : ∀ row ∈ view.meters, row.Safe) (lines : List ReservationLine)
    (hlines : Reservation.checkLines lines = none) (hcovered : ∀ row ∈ view.meters, lineSum lines row.meter ≤ row.reserved) :
    (∀ row ∈ (Reservation.shiftView double view (Reservation.totalPerMeter exactly lines) (-1)).meters, row.Safe)
      ↔ ∀ row ∈ view.meters, row.available + lineSum lines row.meter ≤ maxSafeInteger := by
  have hbounds (row : BudgetMeterBuckets) (hrow : row ∈ view.meters) : 0 ≤ lineSum lines row.meter ∧ 0 ≤ row.available
      ∧ row.reserved ≤ maxSafeInteger := by
    obtain ⟨hnonneg, -, hr, -⟩ := row.safe_iff.mp (hsafe row hrow)
    exact ⟨Reservation.lineSum_nonneg lines hlines row.meter, hnonneg.available, hr⟩
  rw [shiftView_safe view hsafe lines (-1) fun row hrow => by
    have hrow' := hbounds row hrow
    have hle := hcovered row hrow
    omega]
  refine forall₂_congr fun row hrow => ?_
  have hrow' := hbounds row hrow
  omega

/-! ### Settlements -/

/-- The room that the effect of a meter needs. -/
def fitsEffect (effect : LineEffect) (row : BudgetMeterBuckets) : Prop :=
  row.available + (effect.move.getD .zero).available ≤ maxSafeInteger
    ∧ row.quarantined + (effect.move.getD .zero).quarantined ≤ maxSafeInteger
    ∧ row.committed + (effect.move.getD .zero).committed ≤ maxSafeInteger

variable {view view' : BudgetAvailableView} {effectAt : JsString → Option LineEffect} {before after : List BudgetOverrun}

theorem moved_safe_iff (h : Moved double view view' effectAt before after)
    (hnodup : (view.meters.map BudgetMeterBuckets.meter).Nodup) (hsafe : ∀ row ∈ view.meters, row.Safe) :
    (∀ row ∈ view'.meters, row.Safe)
      ↔ ∀ row ∈ view.meters, ∀ effect, effectAt row.meter = some effect → fitsEffect effect row := by
  have hnonneg := h.nonneg_iff.mp (h.nonneg_of_nodup hnodup)
  constructor
  · intro hsafe' row hrow effect heffect
    have hafter := hsafe' _ ((h.row _).mpr ⟨row, hrow, rfl⟩)
    rw [heffect, Option.bind_some, Settlement.shiftRow_getD row (hsafe row hrow)] at hafter
    obtain ⟨ha, -, hq, hc⟩ := hafter
    rw [isSafeCount_fl, isSafeCount_iff] at ha hq hc
    exact ⟨ha.2, hq.2, hc.2⟩
  · intro hfits row' hrow'
    obtain ⟨row, hrow, rfl⟩ := (h.row row').mp hrow'
    cases heffect : effectAt row.meter with
    | none => exact hsafe row hrow
    | some effect =>
      obtain ⟨hA, hQ, hC⟩ := hfits row hrow effect heffect
      obtain ⟨hreserved', hquarantined'⟩ := hnonneg row hrow effect heffect
      obtain ⟨heldR, heldQ, hbalanced, hheldR, -⟩ := h.balanced _ effect heffect
      obtain ⟨⟨ha, -, -, hc⟩, -, hr, -⟩ := row.safe_iff.mp (hsafe row hrow)
      have hreserved := hbalanced.reserved
      have havailable := hbalanced.available
      have hcommitted := hbalanced.committed
      rw [Option.bind_some, Settlement.shiftRow_getD row (hsafe row hrow)]
      constructor <;> dsimp only <;> rw [isSafeCount_fl, isSafeCount_iff] <;> omega

theorem settleEffect_fits (readings : List Settlement.Reading) (measurements : List NormalizedMeasurement)
    (hread : Settlement.readReadings measurements = some readings) (row : BudgetMeterBuckets) (hold : ℤ)
    (hrow : row.Safe) : fitsEffect (Settlement.settleEffect readings (row.meter, hold)) row
      ↔ match measuredAt measurements row.meter with
        | none => row.quarantined + hold ≤ maxSafeInteger
        | some (used, complete) => row.committed + used ≤ maxSafeInteger
          ∧ (if complete then row.available else row.quarantined) + (hold - used) ≤ maxSafeInteger := by
  have huse := Settlement.readReadings_measuredAt measurements readings hread row.meter
  obtain ⟨-, ha, -, hq, hc⟩ := row.safe_iff.mp hrow
  unfold fitsEffect Settlement.settleEffect Settlement.Disposed.effect
  dsimp only [Option.getD_some]
  cases hmeasured : measuredAt measurements row.meter with
  | none =>
    rw [hmeasured] at huse
    rw [(Settlement.dispose_reserved_unknown row.meter hold 0 _ huse).1]
    dsimp only
    omega
  | some use =>
    obtain ⟨used, complete⟩ := use
    rw [hmeasured] at huse
    rw [(Settlement.dispose_reserved_known row.meter hold 0 used complete _ huse).1]
    cases complete
    · simp only [Bool.false_eq_true, if_false]
      omega
    · simp only [if_true]
      omega

theorem keep_fits (line : SettlementLine) (row : BudgetMeterBuckets) (hrow : row.Safe) : fitsEffect ⟨line, none, 0⟩ row := by
  obtain ⟨-, ha, -, hq, hc⟩ := row.safe_iff.mp hrow
  simp [fitsEffect, Movement.zero, ha, hq, hc]

theorem reconcileEffect_fits (evidence : ReconcileEvidence) (settlement : SettlementRecord)
    (hnodup : (settlement.lines.map SettlementLine.meter).Nodup)
    (hchecks : firstOf (Settlement.reconcileChecks (Settlement.readingsOf evidence) evidence.neverStartedProofRef settlement)
      = none)
    (hread : ∀ measurements, evidence.measurements = some measurements →
      (Settlement.readReadings measurements).isSome = true)
    (row : BudgetMeterBuckets) (hrow : row.Safe) (line : SettlementLine) (hline : line ∈ settlement.lines)
    (hquarantined : 0 ≤ line.quarantined) (hmeter : line.meter = row.meter) (hunresolved : line.disposition ∉ resolved) :
    fitsEffect (Settlement.reconcileEffect double (Settlement.readingsOf evidence) line) row
      ↔ (evidence.neverStartedProofRef.isSome = true → row.available + line.quarantined ≤ maxSafeInteger)
        ∧ ∀ use ∈ measuredAt (evidence.measurements.getD []) row.meter,
          row.committed + (use.1 - line.committed) ≤ maxSafeInteger
            ∧ (use.2 = true → row.available + (line.quarantined - (use.1 - line.committed)) ≤ maxSafeInteger) := by
  obtain ⟨-, ha, -, hq, hc⟩ := row.safe_iff.mp hrow
  have heffect := @Settlement.reconcileEffect_unresolved double settlement evidence hchecks hread line hunresolved
  have hused := Settlement.reconcile_used settlement evidence hnodup hchecks hread line hline
  rw [hmeter] at heffect hused
  unfold fitsEffect
  cases hmeasured : measuredAt (evidence.measurements.getD []) row.meter with
  | none =>
    rw [hmeasured] at heffect
    rw [heffect.1]
    cases evidence.neverStartedProofRef.isSome
    · simp [Movement.zero, ha, hq, hc]
    · simp [hc]
      omega
  | some use =>
    obtain ⟨used, complete⟩ := use
    have hbound := (hused used complete hmeasured).1
    rw [hmeasured] at heffect
    rw [heffect.1, heffect.2.1]
    cases complete
    · simp [ha]
      omega
    · simp
      omega

theorem writeOffEffect_fits (row : BudgetMeterBuckets) (hrow : row.Safe) (line : SettlementLine)
    (hquarantined : 0 ≤ line.quarantined) :
    fitsEffect (Settlement.writeOffEffect double line) row ↔ row.committed + line.quarantined ≤ maxSafeInteger := by
  obtain ⟨-, ha, -, hq, hc⟩ := row.safe_iff.mp hrow
  unfold Settlement.writeOffEffect
  split
  · rename_i hzero
    simp [keep_fits line row hrow, hzero, hc]
  · simp [fitsEffect, ha]
    omega

theorem lineAt_forall (settlement : SettlementRecord) (hnodup : (settlement.lines.map SettlementLine.meter).Nodup)
    (effect : SettlementLine → LineEffect) (meter : JsString) (P : LineEffect → Prop) :
    (∀ found, (lineAt settlement meter).map effect = some found → P found)
      ↔ ∀ line ∈ settlement.lines, line.meter = meter → P (effect line) := by
  constructor
  · rintro h line hline rfl
    exact h _ (by rw [Settlement.lineAt_mem settlement hnodup line hline, Option.map_some])
  · intro h found hfound
    obtain ⟨line, hline, rfl⟩ := Option.map_eq_some_iff.mp hfound
    exact h line (List.mem_of_find?_eq_some hline) (by simpa using List.find?_some hline)

theorem fitsSettlement_iff (call : SettlementCall) (settlement : SettlementRecord) (hmoves : call.replays = false)
    (h : call.result view = .accept (some settlement) view') (hnodup : (view.meters.map BudgetMeterBuckets.meter).Nodup)
    (hsafe : ∀ row ∈ view.meters, row.Safe) : (∀ row ∈ view'.meters, row.Safe) ↔ fitsSettlement view call := by
  cases call with
  | settle record evidence cmd =>
    obtain ⟨readings, hread, -, hmoved⟩ := Settlement.settleReservation_moved view view' record evidence cmd settlement
      (Option.isNone_iff_eq_none.mp (Option.isSome_eq_false_iff.mp hmoves)) h
    refine (moved_safe_iff hmoved hnodup hsafe).trans (forall₂_congr fun row hrow => ?_)
    unfold Settlement.settleEffectAt
    by_cases hm : row.meter ∈ record.lines.map ReservationLine.meter
    · simp only [if_pos hm, Option.some.injEq, forall_eq']
      rw [settleEffect_fits readings evidence.measurements hread row _ (hsafe row hrow)]
      exact ⟨fun h _ => h, fun h => h hm⟩
    · simp [hm]
  | reconcile settlement₀ evidence cmd =>
    obtain ⟨hlines, hdistinct, hchecks, hread, hmoved⟩ :=
      Settlement.reconcileSettlement_moved view view' settlement₀ settlement evidence cmd h
    refine (moved_safe_iff hmoved hnodup hsafe).trans (forall₂_congr fun row hrow => ?_)
    refine (lineAt_forall settlement₀ hdistinct _ _ _).trans (forall₂_congr fun line hline => ?_)
    refine forall_congr' fun hmeter => ?_
    by_cases hresolved : line.disposition ∈ resolved
    · have hkeep : Settlement.reconcileEffect double (Settlement.readingsOf evidence) line = ⟨line, none, 0⟩ :=
        if_pos (.inl hresolved)
      rw [hkeep]
      exact iff_of_true (keep_fits line row (hsafe row hrow)) fun hunresolved => absurd hresolved hunresolved
    · rw [reconcileEffect_fits evidence settlement₀ hdistinct hchecks hread row (hsafe row hrow) line hline
        (isSafeCount_nonneg _ (hlines line hline).quarantined) hmeter hresolved]
      exact ⟨fun h _ => h, fun h => h hresolved⟩
  | writeOff settlement₀ cmd =>
    obtain ⟨hlines, hdistinct, hmoved⟩ := Settlement.conservativeSettle_moved view view' settlement₀ settlement cmd h
    refine (moved_safe_iff hmoved hnodup hsafe).trans (forall₂_congr fun row hrow => ?_)
    refine (lineAt_forall settlement₀ hdistinct _ _ _).trans (forall₂_congr fun line hline => ?_)
    exact forall_congr' fun _ => writeOffEffect_fits row (hsafe row hrow) line
      (isSafeCount_nonneg _ (hlines line hline).quarantined)

/-- A settlement call either replays or moves, with the record it returns. -/
theorem settlementCall_record (call : SettlementCall) (record : Option SettlementRecord)
    (h : call.result view = .accept record view') :
    call.replays = true ∧ view' = view ∨ call.replays = false ∧ ∃ settlement, record = some settlement := by
  cases call with
  | settle reservation evidence cmd =>
    obtain ⟨hprior, settlement, hrecord, -⟩ | ⟨-, hprior, hview⟩ :=
      Settlement.settleReservation_accept view view' reservation evidence cmd record h
    · exact .inr ⟨by rw [SettlementCall.replays, hprior]; rfl, settlement, hrecord⟩
    · exact .inl ⟨Option.isSome_iff_ne_none.mpr hprior, hview⟩
  | reconcile settlement evidence cmd =>
    obtain ⟨settlement', hrecord, -⟩ := Settlement.reconcileSettlement_accept view view' settlement evidence cmd record h
    exact .inr ⟨rfl, settlement', hrecord⟩
  | writeOff settlement cmd =>
    obtain ⟨settlement', hrecord, -⟩ := Settlement.conservativeSettle_accept view view' settlement cmd record h
    exact .inr ⟨rfl, settlement', hrecord⟩

theorem settlementCall_shifted (call : SettlementCall) (settlement : SettlementRecord) (hmoves : call.replays = false)
    (h : call.result view = .accept (some settlement) view') :
    view.version < maxBudgetVersion ∧ ∃ moves state, view' = Settlement.shift double view moves state := by
  obtain ⟨effectAt, hmoved, -⟩ := Settlement.result_moved view view' call settlement hmoves h
  obtain ⟨moves, state, hview, -⟩ := hmoved.shifted
  exact ⟨hmoved.version, moves, state, hview⟩

theorem shift_meters (moves : OrdMap JsString Movement) (state : BudgetAccountState) :
    (Settlement.shift double view moves state).meters.map BudgetMeterBuckets.meter
      = view.meters.map BudgetMeterBuckets.meter := by
  unfold Settlement.shift
  rw [List.map_map]
  exact List.map_congr_left fun row _ => Settlement.shiftRow_meter row _

theorem closeSettledView_shifted (settlements : List SettlementRecord) (cmd : CloseCommand)
    (record : Option SettlementRecord) (h : closeSettledView double view settlements cmd = .accept record view') :
    view.version < maxBudgetVersion ∧ ∃ state, view' = Settlement.shift double view OrdMap.empty state := by
  unfold closeSettledView at h
  split at h
  · cases h
  · split at h
    · cases h
    · rename_i hcode
      simp only [firstOf_append_eq_none] at hcode
      injection h with _ hv
      exact ⟨Settlement.fence_none _ _ _ _ hcode.1.2, _, hv.symm⟩

/-! ### Closure -/

/-- An accepted call leaves a view that the guard admits exactly when the buckets it adds to have room. -/
theorem view_closure_iff (guard : ViewGuard) (call : BudgetCall) (view view' : BudgetAvailableView)
    (hadmits : guard.admits view = true) (hnodup : (view.meters.map BudgetMeterBuckets.meter).Nodup)
    (h : call.accepts view view') : guard.admits view' = true ↔ call.Fits view := by
  obtain ⟨hversion, hsafe⟩ := guard.safe view hadmits
  cases call with
  | reserve request gate =>
    obtain ⟨record, h⟩ := h
    obtain ⟨-, hlt, hlines, hcovered, -, -, rfl⟩ := reserveForAdmission_accept double view view' request gate record h
    have hframe := guard.admits_iff view (Reservation.shiftView double view
      (Reservation.totalPerMeter exactly request.amounts) 1) hadmits
      rfl (shiftView_meters view _ 1) (version_safe _ hversion hlt)
    exact hframe.trans (reserve_safe view hsafe request.amounts hlines hcovered)
  | cancel reservation command =>
    obtain ⟨record, h⟩ := h
    obtain ⟨-, hlt, hlines, -, hcovered, -, rfl⟩ := cancelReservation_accept double view view' reservation record command h
    have hframe := guard.admits_iff view (Reservation.shiftView double view
      (Reservation.totalPerMeter exactly reservation.lines) (-1))
      hadmits rfl (shiftView_meters view _ (-1)) (version_safe _ hversion hlt)
    exact hframe.trans (cancel_safe view hsafe reservation.lines hlines hcovered)
  | settlement call =>
    obtain ⟨record, h⟩ := h
    obtain ⟨hreplays, rfl⟩ | ⟨hmoves, settlement, rfl⟩ := settlementCall_record call record h
    · exact iff_of_true hadmits (.inl hreplays)
    · obtain ⟨hlt, moves, state, hview⟩ := settlementCall_shifted call settlement hmoves h
      have hfits := fitsSettlement_iff call settlement hmoves h hnodup hsafe
      rw [guard.admits_iff view view' hadmits (by rw [hview]; rfl) (by rw [hview]; exact shift_meters moves state)
        (by rw [hview]; exact version_safe _ hversion hlt), hfits]
      exact ⟨.inr, fun hor => hor.resolve_left (by rw [hmoves]; exact Bool.false_ne_true)⟩
  | close settlements cmd =>
    obtain ⟨record, h⟩ := h
    obtain ⟨hlt, state, rfl⟩ := closeSettledView_shifted settlements cmd record h
    rw [guard.admits_iff view (Settlement.shift double view OrdMap.empty state) hadmits rfl (shift_meters _ _)
      (version_safe _ hversion hlt)]
    refine iff_of_true (fun row hrow => ?_) trivial
    obtain ⟨old, hold, rfl⟩ := List.mem_map.mp hrow
    exact hsafe old hold

def spentView : BudgetAvailableView := ⟨lit "acct", .OPEN, 3, [⟨lit "tokens", 0, 10, 0, 1⟩]⟩

theorem view_closure_iff_closed : ∃ view', ViewGuard.settlement.admits view' = true
    ∧ (BudgetCall.settlement (.settle Settlement.heldReservation ⟨[]⟩ ⟨3, 1, none⟩)).accepts spentView view' := by
  have hrun : Settlement.settledView spentView ⟨[]⟩ = some (⟨lit "acct", .OPEN, 4, [⟨lit "tokens", 0, 0, 10, 1⟩]⟩, []) := by
    decide +kernel
  unfold Settlement.settledView at hrun
  split at hrun
  · rename_i settlement view' hresult
    refine ⟨view', (view_closure_iff .settlement (.settlement (.settle Settlement.heldReservation ⟨[]⟩ ⟨3, 1, none⟩))
      spentView view' (by decide +kernel) (by decide +kernel) ⟨_, hresult⟩).mpr (.inr ?_), _, hresult⟩
    intro row hrow _
    obtain rfl := List.mem_singleton.mp hrow
    show (10 : ℤ) ≤ maxSafeInteger
    decide
  · cases hrun

/-- A measured use of the largest count on an account that has already committed one unit. -/
theorem view_closure_overrun : ∃ view', ViewGuard.settlement.admits spentView = true
    ∧ (spentView.meters.map BudgetMeterBuckets.meter).Nodup
    ∧ (BudgetCall.settlement (.settle Settlement.heldReservation Settlement.overrunEvidence ⟨3, 1, none⟩)).accepts spentView view'
    ∧ ViewGuard.settlement.admits view' = false := by
  have hrun : (match settleReservation double spentView Settlement.heldReservation Settlement.overrunEvidence ⟨3, 1, none⟩ with
      | .accept _ view' => some view'
      | .fail _ _ _ => none) = some ⟨lit "acct", .OVERDRAWN, 4, [⟨lit "tokens", 0, 0, 0, 2 ^ 53⟩]⟩ := by
    decide +kernel
  split at hrun
  · rename_i record view' hresult
    obtain rfl := Option.some.inj hrun
    exact ⟨_, by decide +kernel, by decide +kernel, ⟨record, hresult⟩, by decide +kernel⟩
  · cases hrun

end MoeNG.Budget
