import MoeNG.Budget.Movement

/-!
# What the settlement guards protect

A call checks the first row of a meter and moves all of them, and it adds to
buckets that it has not checked. So the guards protect a view whose meters are
listed once and whose sums are counts; on any other they protect it exactly when
the remaining rows cover the call as well and what the repetition and the
rounding of doubles add cancels out.
-/

namespace MoeNG.Budget.Settlement
open MoeNG.Kernel hiding isRef
open MoeNG.Lib
open Rounding (drift)
open Reservation (lineSum)

section Arithmetic
variable {fl : Rounding 53}

/-! ### Totals of a view -/

def rowsAt (view : BudgetAvailableView) (meter : JsString) : ℕ := (view.meters.filter fun row => row.meter = meter).length

def totalAt (view : BudgetAvailableView) (meter : JsString) : ℤ :=
  OrdMap.sumAt BudgetMeterBuckets.meter BudgetMeterBuckets.total view.meters meter

/-- No bucket is negative, and every meter gains what the call recorded as overrun. -/
structure Conserved (view view' : BudgetAvailableView) (before after : List BudgetOverrun) : Prop where
  nonneg : ∀ row ∈ view'.meters, row.Nonneg
  total : ∀ meter, totalAt view' meter = totalAt view meter + (overrunAt after meter - overrunAt before meter)

section Loss
variable (fl)

/-- What rounding adds to a row that moves. -/
def rowLoss (m : Option Movement) (row : BudgetMeterBuckets) : ℤ :=
  (shiftRow fl row m).total - (row.total + (m.getD .zero).total)

def lossAt (view : BudgetAvailableView) (meter : JsString) (m : Option Movement) : ℤ :=
  OrdMap.sumAt BudgetMeterBuckets.meter (rowLoss fl m) view.meters meter

end Loss

theorem rowLoss_none (row : BudgetMeterBuckets) : rowLoss fl none row = 0 := by
  simp [rowLoss, shiftRow, Movement.zero, Movement.total]

theorem lossAt_none (view : BudgetAvailableView) (meter : JsString) : lossAt fl view meter none = 0 := by
  unfold lossAt OrdMap.sumAt
  exact List.sum_eq_zero fun x hx => by
    obtain ⟨row, -, rfl⟩ := List.mem_map.mp hx
    exact rowLoss_none row

theorem totalAt_shift (view : BudgetAvailableView) (moves : OrdMap JsString Movement) (state : BudgetAccountState)
    (meter : JsString) : totalAt (shift fl view moves state) meter
      = totalAt view meter + rowsAt view meter * ((moves.get meter).getD .zero).total
        + lossAt fl view meter (moves.get meter) := by
  unfold totalAt rowsAt lossAt shift
  dsimp only
  induction view.meters with
  | nil => simp
  | cons row rows ih =>
    rw [List.map_cons, OrdMap.sumAt_cons, OrdMap.sumAt_cons, OrdMap.sumAt_cons, ih, shiftRow_meter, List.filter_cons]
    by_cases h : row.meter = meter
    · simp only [h, if_true, decide_true, List.length_cons, Nat.cast_add, Nat.cast_one, rowLoss]
      rw [Int.add_mul]
      omega
    · simp [h]

theorem rowsAt_of_nodup (view : BudgetAvailableView) (h : (view.meters.map BudgetMeterBuckets.meter).Nodup)
    (row : BudgetMeterBuckets) (hrow : row ∈ view.meters) : rowsAt view row.meter = 1 := by
  have hcount := List.count_eq_one_of_mem h (List.mem_map_of_mem (f := BudgetMeterBuckets.meter) hrow)
  unfold List.count at hcount
  rw [List.countP_map] at hcount
  unfold rowsAt
  rw [← List.countP_eq_length_filter, ← hcount]
  refine List.countP_congr fun x _ => ?_
  simp

/-! ### When a movement conserves the view -/

variable (fl) in
/-- What a row must have for the effect of its meter, and what the rows of the meter must balance. -/
def LineEffect.CoveredBy (effect : LineEffect) (view : BudgetAvailableView) (row : BudgetMeterBuckets) : Prop :=
  0 ≤ row.reserved + (effect.move.getD .zero).reserved ∧ 0 ≤ row.quarantined + (effect.move.getD .zero).quarantined
    ∧ (rowsAt view row.meter - 1) * effect.overrun + lossAt fl view row.meter effect.move = 0

variable {view view' : BudgetAvailableView} {effectAt : JsString → Option LineEffect} {before after : List BudgetOverrun}

theorem Moved.row (h : Moved fl view view' effectAt before after) (row : BudgetMeterBuckets) :
    row ∈ view'.meters ↔ ∃ old ∈ view.meters, shiftRow fl old ((effectAt old.meter).bind LineEffect.move) = row := by
  obtain ⟨moves, state, rfl, hmoves⟩ := h.shifted
  simp only [shift, List.mem_map, hmoves]

theorem Moved.gain (h : Moved fl view view' effectAt before after) (meter : JsString) (effect : LineEffect)
    (heffect : effectAt meter = some effect) : overrunAt after meter - overrunAt before meter = effect.overrun := by
  rw [h.overrun meter, heffect, Option.map_some, Option.getD_some]
  omega

theorem Moved.total (h : Moved fl view view' effectAt before after) (meter : JsString) : totalAt view' meter
    = totalAt view meter + rowsAt view meter * (overrunAt after meter - overrunAt before meter)
      + lossAt fl view meter ((effectAt meter).bind LineEffect.move) := by
  obtain ⟨moves, state, rfl, hmoves⟩ := h.shifted
  rw [totalAt_shift, hmoves]
  cases heffect : effectAt meter with
  | none =>
    rw [h.overrun meter, heffect]
    simp [Movement.zero, Movement.total]
  | some effect =>
    obtain ⟨heldR, heldQ, hbalanced, -⟩ := h.balanced meter effect heffect
    rw [h.gain meter effect heffect, Option.bind_some, hbalanced.total]

/-- A shifted row is as nonnegative as the exact sums in it. -/
theorem Moved.nonneg_iff (h : Moved fl view view' effectAt before after) : (∀ row ∈ view'.meters, row.Nonneg)
    ↔ ∀ row ∈ view.meters, ∀ effect, effectAt row.meter = some effect →
      0 ≤ row.reserved + (effect.move.getD .zero).reserved ∧ 0 ≤ row.quarantined + (effect.move.getD .zero).quarantined := by
  constructor
  · intro hnonneg row hrow effect heffect
    have hshifted := hnonneg _ ((h.row _).mpr ⟨row, hrow, rfl⟩)
    rw [shiftRow_getD row (isView_safe view h.admitted row hrow), heffect, Option.bind_some] at hshifted
    exact ⟨(fl.nonneg_iff _).mp hshifted.reserved, (fl.nonneg_iff _).mp hshifted.quarantined⟩
  · intro hcovered row hrow
    obtain ⟨old, hold, rfl⟩ := (h.row row).mp hrow
    have hnonneg := isView_nonneg view h.admitted old hold
    cases heffect : effectAt old.meter with
    | none => exact hnonneg
    | some effect =>
      obtain ⟨heldR, heldQ, hbalanced, -⟩ := h.balanced _ effect heffect
      obtain ⟨hreserved, hquarantined⟩ := hcovered old hold effect heffect
      rw [shiftRow_getD old (isView_safe view h.admitted old hold), Option.bind_some]
      exact ⟨(fl.nonneg_iff _).mpr (add_nonneg hnonneg.available hbalanced.available), (fl.nonneg_iff _).mpr hreserved,
        (fl.nonneg_iff _).mpr hquarantined, (fl.nonneg_iff _).mpr (add_nonneg hnonneg.committed hbalanced.committed)⟩

theorem Moved.conserved_iff (h : Moved fl view view' effectAt before after) :
    Conserved view view' before after
      ↔ ∀ row ∈ view.meters, ∀ effect, effectAt row.meter = some effect → effect.CoveredBy fl view row := by
  constructor
  · intro hconserved row hrow effect heffect
    obtain ⟨hreserved, hquarantined⟩ := h.nonneg_iff.mp hconserved.nonneg row hrow effect heffect
    refine ⟨hreserved, hquarantined, ?_⟩
    have htotal := hconserved.total row.meter
    rw [h.total row.meter, h.gain _ _ heffect, heffect, Option.bind_some] at htotal
    rw [Int.sub_mul]
    omega
  · intro hcovered
    refine ⟨h.nonneg_iff.mpr fun row hrow effect heffect => ?_, fun meter => ?_⟩
    · exact ⟨(hcovered row hrow effect heffect).1, (hcovered row hrow effect heffect).2.1⟩
    · rw [h.total meter]
      cases heffect : effectAt meter with
      | none =>
        have hsame : overrunAt after meter - overrunAt before meter = 0 := by
          rw [h.overrun meter, heffect, Option.map_none, Option.getD_none]
          omega
        rw [hsame, Int.mul_zero, Option.bind_none, lossAt_none, add_zero]
      | some effect =>
        obtain ⟨heldR, heldQ, -, -, row, hrow, -⟩ := h.balanced meter effect heffect
        have hmem : row ∈ view.meters := List.mem_of_find?_eq_some hrow
        obtain rfl : row.meter = meter := by simpa using List.find?_some hrow
        have hbalance := (hcovered row hmem effect heffect).2.2
        rw [Int.sub_mul] at hbalance
        rw [h.gain _ _ heffect, Option.bind_some]
        omega

/-- The first row is the only one. -/
theorem Moved.nonneg_of_nodup (h : Moved fl view view' effectAt before after)
    (hnodup : (view.meters.map BudgetMeterBuckets.meter).Nodup) : ∀ row ∈ view'.meters, row.Nonneg := by
  refine h.nonneg_iff.mpr fun row hrow effect heffect => ?_
  obtain ⟨heldR, heldQ, hbalanced, -, found, hfound, hreserved, hquarantined⟩ := h.balanced _ effect heffect
  have hfirst : bucketOf view row.meter = some row := find_key_of_mem BudgetMeterBuckets.meter view.meters hnodup row hrow
  obtain rfl : row = found := Option.some.inj (hfirst.symm.trans hfound)
  have hline := hbalanced.line
  rw [hbalanced.reserved, hbalanced.quarantined]
  omega

end Arithmetic

/-! ### The three calls -/

inductive SettlementCall where
  | settle (record : ReservationRecord) (evidence : SettleEvidence) (cmd : SettleCommand)
  | reconcile (settlement : SettlementRecord) (evidence : ReconcileEvidence) (cmd : SettlementCommand)
  | writeOff (settlement : SettlementRecord) (cmd : ConservativeCommand)

namespace SettlementCall

def result (view : BudgetAvailableView) : SettlementCall → BudgetSettlementResult
  | .settle record evidence cmd => settleReservation double view record evidence cmd
  | .reconcile settlement evidence cmd => reconcileSettlement double view settlement evidence cmd
  | .writeOff settlement cmd => conservativeSettle double view settlement cmd

/-- A replay of a settlement moves nothing. -/
def replays : SettlementCall → Bool
  | .settle _ _ cmd => cmd.prior.isSome
  | _ => false

def recorded : SettlementCall → List BudgetOverrun
  | .settle _ _ _ => []
  | .reconcile settlement _ _ | .writeOff settlement _ => settlement.overrun

/-- What the reservation holds at a meter that it names. -/
def holdAt (record : ReservationRecord) (meter : JsString) : Option ℤ :=
  if meter ∈ record.lines.map ReservationLine.meter then some (lineSum record.lines meter) else none

/-- The line that a reconciliation may still move. -/
def openLine (settlement : SettlementRecord) (meter : JsString) : Option SettlementLine :=
  (lineAt settlement meter).filter fun line => line.disposition ∉ resolved

/-- The row has the units that the call takes from it. -/
def Takes (row : BudgetMeterBuckets) : SettlementCall → Prop
  | .settle record _ _ => ∀ hold, holdAt record row.meter = some hold → hold ≤ row.reserved
  | .reconcile settlement evidence _ =>
    ∀ line, openLine settlement row.meter = some line →
      (evidence.neverStartedProofRef.isSome = true → line.quarantined ≤ row.quarantined)
        ∧ ∀ use, measuredAt (evidence.measurements.getD []) row.meter = some use →
          (if use.2 then line.quarantined else min line.quarantined (use.1 - line.committed)) ≤ row.quarantined
  | .writeOff settlement _ => ∀ line, lineAt settlement row.meter = some line → line.quarantined ≤ row.quarantined

/-- The use of a meter that is measured above its hold. -/
def overUse (meter : JsString) : SettlementCall → ℤ
  | .settle record evidence _ =>
    match holdAt record meter, measuredAt evidence.measurements meter with
    | some hold, some (used, _) => max 0 (used - hold)
    | _, _ => 0
  | .reconcile settlement evidence _ =>
    match openLine settlement meter, measuredAt (evidence.measurements.getD []) meter with
    | some line, some (used, _) => max 0 (used - line.committed - line.quarantined)
    | _, _ => 0
  | .writeOff _ _ => 0

/-- The sums of counts that the call writes into the row. -/
def written (row : BudgetMeterBuckets) : SettlementCall → List ℤ
  | .settle record evidence _ =>
    match holdAt record row.meter, measuredAt evidence.measurements row.meter with
    | none, _ => []
    | some hold, none => [row.quarantined + hold]
    | some hold, some (used, complete) =>
      [row.committed + used, (if complete then row.available else row.quarantined) + max 0 (hold - used)]
  | .reconcile settlement evidence _ =>
    match openLine settlement row.meter, measuredAt (evidence.measurements.getD []) row.meter with
    | none, _ => []
    | some line, none => if evidence.neverStartedProofRef.isSome then [row.available + line.quarantined] else []
    | some line, some (used, complete) =>
      let delta := used - line.committed
      if complete then [row.committed + delta, row.available + max 0 (line.quarantined - delta)]
      else [row.committed + delta]
  | .writeOff settlement _ =>
    match lineAt settlement row.meter with
    | none => []
    | some line => [row.committed + line.quarantined]

/-- What rounding adds to the sums that the call writes at a meter: an odd sum above `2 ^ 53` loses or gains one. -/
def driftAt (view : BudgetAvailableView) (meter : JsString) (call : SettlementCall) : ℤ :=
  OrdMap.sumAt BudgetMeterBuckets.meter (fun row => ((call.written row).map (drift 53)).sum) view.meters meter

/-- Every row has what the call takes from it, and at every meter the use above the hold that the further rows commit
and the roundings add up to nothing. -/
structure Covered (view : BudgetAvailableView) (call : SettlementCall) : Prop where
  takes : ∀ row ∈ view.meters, call.Takes row
  balanced : ∀ row ∈ view.meters, (rowsAt view row.meter - 1) * call.overUse row.meter + call.driftAt view row.meter = 0

end SettlementCall

open SettlementCall (Takes overUse written openLine holdAt)

/-! ### What a call does to a row -/

section Described
variable {fl : Rounding 53}

/-- The units that a movement adds or takes are counts. -/
structure Movement.Bounded (m : Movement) : Prop where
  available : 0 ≤ m.available ∧ m.available ≤ maxSafeInteger
  reserved : -maxSafeInteger ≤ m.reserved ∧ m.reserved ≤ 0
  quarantined : -maxSafeInteger ≤ m.quarantined ∧ m.quarantined ≤ maxSafeInteger
  committed : 0 ≤ m.committed ∧ m.committed ≤ maxSafeInteger

theorem double_drift (z : ℤ) (h0 : -maxSafeInteger ≤ z) (h : z ≤ 2 * maxSafeInteger) : double z = z + drift 53 z := by
  unfold maxSafeInteger at h0 h
  exact Rounding.nearestEven_drift 53 _ z (by omega) (by omega)

/-- The reserved bucket only shrinks, so only the other three can lose anything. -/
theorem rowLoss_double (row : BudgetMeterBuckets) (hrow : row.Safe) (m : Movement) (hm : m.Bounded) :
    rowLoss double (some m) row = drift 53 (row.available + m.available) + drift 53 (row.quarantined + m.quarantined)
      + drift 53 (row.committed + m.committed) := by
  obtain ⟨⟨ha, hr, hq, hc⟩, ha', hr', hq', hc'⟩ := row.safe_iff.mp hrow
  obtain ⟨hma, hmr, hmq, hmc⟩ := hm
  have hreserved : drift 53 (row.reserved + m.reserved) = 0 := by
    unfold maxSafeInteger at hr'
    exact Rounding.drift_of_le 53 _ (by omega)
  simp only [rowLoss, shiftRow, Option.getD_some, BudgetMeterBuckets.total, Movement.total]
  rw [double_drift (row.available + m.available) (by omega) (by omega),
    double_drift (row.reserved + m.reserved) (by omega) (by omega),
    double_drift (row.quarantined + m.quarantined) (by omega) (by omega),
    double_drift (row.committed + m.committed) (by omega) (by omega), hreserved]
  omega

theorem rowLoss_getD (row : BudgetMeterBuckets) (hrow : row.Safe) (m : Option Movement) :
    rowLoss fl m row = rowLoss fl (some (m.getD .zero)) row := by
  unfold rowLoss
  rw [shiftRow_getD row hrow, shiftRow_getD row hrow, Option.getD_some]

theorem drift_count (z : ℤ) (h : z ≤ maxSafeInteger) : drift 53 z = 0 := by
  unfold maxSafeInteger at h
  exact Rounding.drift_of_le 53 z (by omega)

namespace SettlementCall

/-- What the call says about a row is what the effect of its meter does to it. -/
structure Describes (call : SettlementCall) (row : BudgetMeterBuckets) (effect : Option LineEffect) : Prop where
  takes : call.Takes row ↔ ∀ e, effect = some e →
    0 ≤ row.reserved + (e.move.getD .zero).reserved ∧ 0 ≤ row.quarantined + (e.move.getD .zero).quarantined
  overUse : call.overUse row.meter = (effect.map LineEffect.overrun).getD 0
  drift : rowLoss double (effect.bind LineEffect.move) row = ((call.written row).map (drift 53)).sum

/-- It is enough to compare the call with the units that the effect moves. -/
theorem Describes.of_move {call : SettlementCall} {row : BudgetMeterBuckets} (hrow : row.Safe) (effect : LineEffect)
    (m : Movement) (hmove : effect.move.getD .zero = m) (hm : m.Bounded)
    (htakes : call.Takes row ↔ 0 ≤ row.reserved + m.reserved ∧ 0 ≤ row.quarantined + m.quarantined)
    (huse : call.overUse row.meter = effect.overrun)
    (hwritten : ((call.written row).map (Rounding.drift 53)).sum = Rounding.drift 53 (row.available + m.available)
      + Rounding.drift 53 (row.quarantined + m.quarantined) + Rounding.drift 53 (row.committed + m.committed)) :
    call.Describes row (some effect) := by
  subst hmove
  refine ⟨by simpa using htakes, huse, ?_⟩
  rw [Option.bind_some, rowLoss_getD row hrow, rowLoss_double row hrow _ hm, hwritten]

end SettlementCall

variable {view view' : BudgetAvailableView} {effectAt : JsString → Option LineEffect} {before after : List BudgetOverrun}
  {call : SettlementCall}

theorem driftAt_eq (hcall : ∀ row ∈ view.meters, call.Describes row (effectAt row.meter)) (meter : JsString) :
    call.driftAt view meter = lossAt double view meter ((effectAt meter).bind LineEffect.move) := by
  refine OrdMap.sumAt_congr _ _ _ _ _ fun row hrow hmeter => ?_
  rw [← (hcall row hrow).drift, hmeter]

theorem Moved.covered_iff (h : Moved double view view' effectAt before after)
    (hcall : ∀ row ∈ view.meters, call.Describes row (effectAt row.meter)) :
    Conserved view view' before after ↔ call.Covered view := by
  rw [h.conserved_iff]
  constructor
  · intro hcovered
    refine ⟨fun row hrow => (hcall row hrow).takes.mpr fun effect heffect => ?_, fun row hrow => ?_⟩
    · obtain ⟨hreserved, hquarantined, -⟩ := hcovered row hrow effect heffect
      exact ⟨hreserved, hquarantined⟩
    · rw [(hcall row hrow).overUse, driftAt_eq hcall]
      cases heffect : effectAt row.meter with
      | none => rw [Option.map_none, Option.getD_none, Int.mul_zero, Option.bind_none, lossAt_none, add_zero]
      | some effect => exact (hcovered row hrow effect heffect).2.2
  · rintro ⟨htakes, hbalanced⟩ row hrow effect heffect
    obtain ⟨hreserved, hquarantined⟩ := (hcall row hrow).takes.mp (htakes row hrow) effect heffect
    have hbalance := hbalanced row hrow
    rw [(hcall row hrow).overUse, driftAt_eq hcall, heffect] at hbalance
    exact ⟨hreserved, hquarantined, hbalance⟩

theorem settleEffectAt_eq (record : ReservationRecord) (readings : List Reading) (meter : JsString) :
    settleEffectAt record readings meter
      = (holdAt record meter).map fun hold => settleEffect readings (meter, hold) := by
  unfold settleEffectAt holdAt
  split <;> rfl

theorem settle_describes (record : ReservationRecord) (evidence : SettleEvidence) (cmd : SettleCommand)
    (readings : List Reading) (hread : readReadings evidence.measurements = some readings) (row : BudgetMeterBuckets)
    (hrow : row.Safe) (hhold : ∀ hold, holdAt record row.meter = some hold → isSafeCount hold = true) :
    (SettlementCall.settle record evidence cmd).Describes row (settleEffectAt record readings row.meter) := by
  have huse := readReadings_measuredAt evidence.measurements readings hread row.meter
  have hmax : 0 ≤ maxSafeInteger := by decide
  obtain ⟨⟨ha, hr, hq, hc⟩, ha', -, hq', hc'⟩ := row.safe_iff.mp hrow
  rw [settleEffectAt_eq]
  cases hheld : holdAt record row.meter with
  | none => constructor <;> simp [Takes, overUse, written, hheld, rowLoss_none]
  | some hold =>
    obtain ⟨hhold0, hholdmax⟩ := (isSafeCount_iff hold).mp (hhold hold hheld)
    rw [Option.map_some]
    unfold settleEffect Disposed.effect
    cases hmeasured : measuredAt evidence.measurements row.meter with
    | none =>
      rw [hmeasured] at huse
      obtain ⟨hmove, hoverrun⟩ := dispose_reserved_unknown row.meter hold 0 _ huse
      refine .of_move hrow _ ⟨0, -hold, hold, 0⟩ hmove (by constructor <;> dsimp only <;> omega) ?_ ?_ ?_
      · simp [Takes, hheld]
        omega
      · simp [overUse, hheld, hmeasured, hoverrun]
      · simp [written, hheld, hmeasured, drift_count _ ha', drift_count _ hc']
    | some use =>
      obtain ⟨used, complete⟩ := use
      obtain ⟨hused0, husedmax⟩ := (isSafeCount_iff used).mp (measuredAt_safe _ readings hread _ _ hmeasured)
      rw [hmeasured] at huse
      obtain ⟨hmove, hoverrun⟩ := dispose_reserved_known row.meter hold 0 used complete _ huse
      rw [sub_zero] at hmove hoverrun
      refine .of_move hrow _ _ hmove (by constructor <;> dsimp only <;> (try split) <;> omega) ?_ ?_ ?_
      · cases complete <;> simp [Takes, hheld] <;> omega
      · simp [overUse, hheld, hmeasured, hoverrun]
      · cases complete <;> simp [written, hheld, hmeasured, drift_count _ ha', drift_count _ hq'] <;> omega

theorem reconcile_describes (settlement : SettlementRecord) (evidence : ReconcileEvidence) (cmd : SettlementCommand)
    (hsafe : ∀ line ∈ settlement.lines, SafeLine line) (hnodup : (settlement.lines.map SettlementLine.meter).Nodup)
    (hchecks : firstOf (reconcileChecks (readingsOf evidence) evidence.neverStartedProofRef settlement) = none)
    (hread : ∀ measurements, evidence.measurements = some measurements → (readReadings measurements).isSome = true)
    (row : BudgetMeterBuckets) (hrow : row.Safe) : (SettlementCall.reconcile settlement evidence cmd).Describes row
      ((lineAt settlement row.meter).map (reconcileEffect double (readingsOf evidence))) := by
  have hmax : 0 ≤ maxSafeInteger := by decide
  obtain ⟨⟨ha, hr, hq, hc⟩, ha', -, hq', hc'⟩ := row.safe_iff.mp hrow
  cases hline : lineAt settlement row.meter with
  | none =>
    constructor <;> simp [Takes, overUse, written, openLine, hline, rowLoss_none]
  | some line =>
    have hmem : line ∈ settlement.lines := List.mem_of_find?_eq_some hline
    have hmeter : line.meter = row.meter := by simpa using List.find?_some hline
    by_cases hresolved : line.disposition ∈ resolved
    · have hopen : openLine settlement row.meter = none := by
        simp [openLine, hline, hresolved]
      have hkeep : reconcileEffect double (readingsOf evidence) line = ⟨line, none, 0⟩ := if_pos (.inl hresolved)
      rw [Option.map_some, hkeep]
      constructor <;> simp [Takes, overUse, written, hopen, rowLoss_none, Movement.zero, hr, hq]
    · have hopen : openLine settlement row.meter = some line := by
        simp [openLine, hline, hresolved]
      obtain ⟨-, hquarantined⟩ := (isSafeCount_iff _).mp (hsafe line hmem).quarantined
      have hquarantined0 := isSafeCount_nonneg _ (hsafe line hmem).quarantined
      have hcommitted0 := isSafeCount_nonneg _ (hsafe line hmem).committed
      have heffect := @reconcileEffect_unresolved double settlement evidence hchecks hread line hresolved
      rw [hmeter] at heffect
      rw [Option.map_some]
      cases hmeasured : measuredAt (evidence.measurements.getD []) row.meter with
      | none =>
        rw [hmeasured] at heffect
        obtain ⟨hmove, hoverrun⟩ := heffect
        have hshrunk : drift 53 (row.quarantined + -line.quarantined) = 0 := drift_count _ (by omega)
        refine .of_move hrow _ _ hmove (by constructor <;> split <;> simp [Movement.zero] <;> omega) ?_ ?_ ?_
        · simp only [Takes, hopen, hmeasured]
          cases evidence.neverStartedProofRef.isSome <;> simp [Movement.zero, hr, hq]
        · simp [overUse, hopen, hmeasured, hoverrun]
        · cases hproof : evidence.neverStartedProofRef.isSome <;>
            simp [written, hopen, hmeasured, hproof, hshrunk, Movement.zero, drift_count _ ha', drift_count _ hq',
              drift_count _ hc']
      | some use =>
        obtain ⟨used, complete⟩ := use
        obtain ⟨hused, hsafeUse⟩ := reconcile_used settlement evidence hnodup hchecks hread line hmem used complete
          (hmeter ▸ hmeasured)
        obtain ⟨-, husedmax⟩ := (isSafeCount_iff used).mp hsafeUse
        rw [hmeasured] at heffect
        obtain ⟨hproof, hmove, hoverrun⟩ := heffect
        have hshrunk : drift 53 (row.quarantined
            + (-line.quarantined + (if complete then 0 else max 0 (line.quarantined - (used - line.committed))))) = 0 :=
          drift_count _ (by split <;> omega)
        refine .of_move hrow _ _ hmove (by constructor <;> dsimp only <;> (try split) <;> omega) ?_ ?_ ?_
        · simp only [Takes, hopen, hmeasured, Option.some.injEq, forall_eq', hproof]
          cases complete <;> simp [hr]; omega
        · simp [overUse, hopen, hmeasured, hoverrun]
        · rw [hshrunk]
          cases complete <;> simp [written, hopen, hmeasured, drift_count _ ha']; omega

theorem writeOff_describes (settlement : SettlementRecord) (cmd : ConservativeCommand)
    (hsafe : ∀ line ∈ settlement.lines, SafeLine line) (row : BudgetMeterBuckets) (hrow : row.Safe) :
    (SettlementCall.writeOff settlement cmd).Describes row ((lineAt settlement row.meter).map (writeOffEffect double)) := by
  have hmax : 0 ≤ maxSafeInteger := by decide
  obtain ⟨⟨ha, hr, hq, hc⟩, ha', -, hq', hc'⟩ := row.safe_iff.mp hrow
  cases hline : lineAt settlement row.meter with
  | none => constructor <;> simp [Takes, overUse, written, hline, rowLoss_none]
  | some line =>
    have hmem : line ∈ settlement.lines := List.mem_of_find?_eq_some hline
    obtain ⟨hquarantined0, hquarantined⟩ := (isSafeCount_iff _).mp (hsafe line hmem).quarantined
    rw [Option.map_some]
    unfold writeOffEffect
    split
    · rename_i hzero
      constructor <;>
        simp [Takes, overUse, written, hline, hzero, rowLoss_none, Movement.zero, hr, hq, drift_count _ hc']
    · have hshrunk : drift 53 (row.quarantined + -line.quarantined) = 0 := drift_count _ (by omega)
      refine .of_move hrow _ _ rfl (by constructor <;> dsimp only [Option.getD_some] <;> omega) ?_ rfl ?_
      · simp [Takes, hline, hr]
      · simp [written, hline, hshrunk, drift_count _ ha']

end Described

/-! ### What the guards protect -/

theorem settleEffect_reserved (readings : List Reading) (meter : JsString) (hold : ℤ) :
    ((settleEffect readings (meter, hold)).move.getD .zero).reserved = -hold := by
  unfold settleEffect Disposed.effect dispose
  dsimp only
  split
  · simp
  · split <;> simp

/-- A hold that settles is within the reserved bucket of its row. -/
theorem settle_hold (view view' : BudgetAvailableView) (record : ReservationRecord) (readings : List Reading)
    (before after : List BudgetOverrun) (hmoved : Moved double view view' (settleEffectAt record readings) before after)
    (meter : JsString) (hold : ℤ) (hhold : holdAt record meter = some hold) : isSafeCount hold = true := by
  have heffect : settleEffectAt record readings meter = some (settleEffect readings (meter, hold)) := by
    rw [settleEffectAt_eq, hhold, Option.map_some]
  obtain ⟨heldR, heldQ, hbalanced, hheld, row, hrow, hle, -⟩ := hmoved.balanced meter _ heffect
  have hreserved := hbalanced.reserved
  rw [settleEffect_reserved] at hreserved
  obtain ⟨-, hr', -, -⟩ := (row.safe_iff.mp (isView_safe view hmoved.admitted row (List.mem_of_find?_eq_some hrow))).2
  exact (isSafeCount_iff hold).mpr ⟨by omega, by omega⟩

/-- An accepted movement is the one that the call describes. -/
theorem result_moved (view view' : BudgetAvailableView) (call : SettlementCall) (settlement : SettlementRecord)
    (hmoves : call.replays = false) (h : call.result view = .accept (some settlement) view') :
    ∃ effectAt, Moved double view view' effectAt call.recorded settlement.overrun
      ∧ ∀ row ∈ view.meters, call.Describes row (effectAt row.meter) := by
  cases call with
  | settle record evidence cmd =>
    obtain ⟨readings, hread, -, hmoved⟩ := settleReservation_moved view view' record evidence cmd settlement
      (Option.isSome_eq_false_iff.mp hmoves |> Option.isNone_iff_eq_none.mp) h
    exact ⟨_, hmoved, fun row hrow => settle_describes record evidence cmd readings hread row
      (isView_safe view hmoved.admitted row hrow) fun hold => settle_hold view view' record readings _ _ hmoved row.meter hold⟩
  | reconcile settlement₀ evidence cmd =>
    obtain ⟨hsafe, hnodup, hchecks, hread, hmoved⟩ := reconcileSettlement_moved view view' settlement₀ settlement evidence cmd h
    exact ⟨_, hmoved, fun row hrow => reconcile_describes settlement₀ evidence cmd hsafe hnodup hchecks hread row
      (isView_safe view hmoved.admitted row hrow)⟩
  | writeOff settlement₀ cmd =>
    obtain ⟨hsafe, -, hmoved⟩ := conservativeSettle_moved view view' settlement₀ settlement cmd h
    exact ⟨_, hmoved, fun row hrow => writeOff_describes settlement₀ cmd hsafe row
      (isView_safe view hmoved.admitted row hrow)⟩

/-- An accepted movement conserves an admitted view exactly when every row of a meter covers it and nothing that the
repeated rows and the rounded sums add is left. -/
theorem settlement_guards_iff (view view' : BudgetAvailableView) (call : SettlementCall) (settlement : SettlementRecord)
    (hmoves : call.replays = false) (h : call.result view = .accept (some settlement) view') :
    Conserved view view' call.recorded settlement.overrun ↔ call.Covered view := by
  obtain ⟨effectAt, hmoved, hcall⟩ := result_moved view view' call settlement hmoves h
  exact hmoved.covered_iff hcall

/-- On a view without repeated meters only a sum that is no count can break the totals. -/
theorem conserved_of_nodup (view view' : BudgetAvailableView) (call : SettlementCall) (settlement : SettlementRecord)
    (hmoves : call.replays = false) (h : call.result view = .accept (some settlement) view')
    (hnodup : (view.meters.map BudgetMeterBuckets.meter).Nodup)
    (hroom : ∀ row ∈ view.meters, ∀ sum ∈ call.written row, sum ≤ maxSafeInteger) :
    Conserved view view' call.recorded settlement.overrun := by
  obtain ⟨effectAt, hmoved, hcall⟩ := result_moved view view' call settlement hmoves h
  refine (hmoved.covered_iff hcall).mpr ⟨fun row hrow => ?_, fun row hrow => ?_⟩
  · exact (hcall row hrow).takes.mpr (hmoved.nonneg_iff.mp (hmoved.nonneg_of_nodup hnodup) row hrow)
  · have hdrift : call.driftAt view row.meter = 0 := List.sum_eq_zero fun x hx => by
      obtain ⟨other, hother, rfl⟩ := List.mem_map.mp hx
      refine List.sum_eq_zero fun y hy => ?_
      obtain ⟨sum, hsum, rfl⟩ := List.mem_map.mp hy
      exact drift_count sum (hroom other (List.mem_of_mem_filter hother) sum hsum)
    rw [rowsAt_of_nodup view hnodup row hrow, hdrift]
    omega

def heldReservation : ReservationRecord :=
  { reservationId := Reservation.deriveReservationId (lit "acct") (lit "run-1"), accountId := lit "acct"
    admissionRef := lit "run-1", state := .ACTIVATED, version := 1, lines := [⟨.EXECUTION, lit "tokens", 10⟩]
    attemptRef := some (lit "attempt-1"), neverStartedProofRef := none }

def heldView (rest : List BudgetMeterBuckets) : BudgetAvailableView :=
  ⟨lit "acct", .OPEN, 3, ⟨lit "tokens", 0, 10, 0, 0⟩ :: rest⟩

def settledView (view : BudgetAvailableView) (evidence : SettleEvidence) : Option (BudgetAvailableView × List BudgetOverrun) :=
  match settleReservation double view heldReservation evidence ⟨3, 1, none⟩ with
  | .accept (some settlement) view' => some (view', settlement.overrun)
  | _ => none

theorem settlement_guards_iff_single : ∃ settlement view',
    (SettlementCall.settle heldReservation ⟨[]⟩ ⟨3, 1, none⟩).result (heldView []) = .accept (some settlement) view'
      ∧ Conserved (heldView []) view' [] settlement.overrun := by
  have hrun : settledView (heldView []) ⟨[]⟩ = some (⟨lit "acct", .OPEN, 4, [⟨lit "tokens", 0, 0, 10, 0⟩]⟩, []) := by
    decide +kernel
  unfold settledView at hrun
  split at hrun
  · rename_i settlement view' hresult
    refine ⟨settlement, view', hresult, (settlement_guards_iff (heldView []) view'
      (.settle heldReservation ⟨[]⟩ ⟨3, 1, none⟩) settlement rfl hresult).mpr ?_⟩
    refine ⟨fun row hrow => ?_, fun row hrow => ?_⟩
    · obtain rfl := List.mem_singleton.mp hrow
      exact fun hold hhold => Option.some.inj hhold ▸ by decide +kernel
    · obtain rfl := List.mem_singleton.mp hrow
      decide +kernel
  · cases hrun

/-- The hold of the first of two rows leaves the second one with a negative bucket. -/
theorem settlement_guards_doubled : isView (heldView [⟨lit "tokens", 0, 0, 0, 0⟩]) = true
    ∧ ∃ settlement view', (SettlementCall.settle heldReservation ⟨[]⟩ ⟨3, 1, none⟩).result
        (heldView [⟨lit "tokens", 0, 0, 0, 0⟩]) = .accept (some settlement) view'
      ∧ ¬ Conserved (heldView [⟨lit "tokens", 0, 0, 0, 0⟩]) view' [] settlement.overrun := by
  have hrun : settledView (heldView [⟨lit "tokens", 0, 0, 0, 0⟩]) ⟨[]⟩
      = some (⟨lit "acct", .OPEN, 4, [⟨lit "tokens", 0, 0, 10, 0⟩, ⟨lit "tokens", 0, -10, 10, 0⟩]⟩, []) := by
    decide +kernel
  refine ⟨by decide +kernel, ?_⟩
  unfold settledView at hrun
  split at hrun
  · rename_i settlement view' hresult
    obtain ⟨rfl, -⟩ := Prod.mk.inj (Option.some.inj hrun)
    refine ⟨settlement, _, hresult, fun hconserved => ?_⟩
    have hrow := (hconserved.nonneg ⟨lit "tokens", 0, -10, 10, 0⟩ (by simp)).reserved
    exact absurd hrow (by decide)
  · cases hrun

/-- A use of the largest count. -/
def overrunEvidence : SettleEvidence :=
  ⟨[⟨⟨lit "tokens", some maxSafeInteger, .COMPLETE,
    encodeProviderRunRef ⟨lit "attempt-1", 1, lit "codex", lit "run"⟩, 1⟩, lit "m-1"⟩]⟩

-- the total grows by `2 ^ 53 - 12`, the recorded overrun is `2 ^ 53 - 11`
example : settledView ⟨lit "acct", .OPEN, 3, [⟨lit "tokens", 1, 10, 0, 2⟩]⟩ overrunEvidence
    = some (⟨lit "acct", .OVERDRAWN, 4, [⟨lit "tokens", 1, 0, 0, 2 ^ 53⟩]⟩, [⟨lit "tokens", 2 ^ 53 - 11⟩]) := by
  decide +kernel

end MoeNG.Budget.Settlement
