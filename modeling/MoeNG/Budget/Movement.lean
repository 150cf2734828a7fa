import MoeNG.Budget.SettlementSpec

/-!
# What an accepted settlement call moves at each meter

The calls look up their meters by the first row of the view and move every row
of it. `Moved` says what an accepted call does at one meter in terms of the
effect its loop has there.
-/

namespace MoeNG.Budget.Settlement
open MoeNG.Kernel hiding isRef
open MoeNG.Lib
open Reservation (lineSum)

section Arithmetic
variable {fl : Rounding 53}

/-! ### The measured use of a meter -/

/-- The measured use of a meter and whether it is complete, when it is known. -/
def measuredAt (measurements : List NormalizedMeasurement) (meter : JsString) : Option (ℤ × Bool) :=
  (measurements.find? fun item => item.measurement.meter = meter).bind fun item =>
    item.measurement.quantity.map fun quantity => (quantity, decide (item.measurement.coverage = .COMPLETE))

def knownUse (reading : Option Reading) : Option (ℤ × Bool) :=
  (reading.filter (·.known)).map fun r => (r.quantity, r.complete)

theorem readMeasurement_known (item : NormalizedMeasurement) (r : Reading) (h : readMeasurement item = some r) :
    r.meter = item.measurement.meter ∧ knownUse (some r)
      = item.measurement.quantity.map fun quantity => (quantity, decide (item.measurement.coverage = .COMPLETE)) := by
  unfold readMeasurement at h
  dsimp only at h
  split at h
  · cases h
  by_cases hk : item.measurement.coverage = .UNKNOWN
  · simp only [hk, ne_eq, not_true_eq_false, decide_false, Bool.false_eq_true, if_false] at h
    split at h
    · cases h
    · rename_i hquantity
      obtain rfl := Option.some.inj h
      refine ⟨rfl, ?_⟩
      simp only [Bool.not_eq_true, Option.isSome_eq_false_iff, Option.isNone_iff_eq_none] at hquantity
      rw [hquantity]
      rfl
  · simp only [hk, ne_eq, not_false_eq_true, decide_true, if_true] at h
    split at h
    · cases h
    · rename_i hquantity
      obtain rfl := Option.some.inj h
      refine ⟨rfl, ?_⟩
      cases hq : item.measurement.quantity with
      | none => simp [hq] at hquantity
      | some q => rfl

theorem readReadings_measuredAt (measurements : List NormalizedMeasurement) (readings : List Reading)
    (h : readReadings measurements = some readings) (meter : JsString) :
    knownUse (readings.find? fun r => r.meter = meter) = measuredAt measurements meter := by
  unfold readReadings at h
  split at h
  · cases h
  rename_i hlength
  obtain ⟨hall, rfl⟩ := (mapM_eq_some_iff _ _ _).mp h
  clear h hlength
  induction measurements with
  | nil => rfl
  | cons item items ih =>
    obtain ⟨r, hr⟩ := Option.isSome_iff_exists.mp (hall item (List.mem_cons_self ..))
    obtain ⟨hmeter, hknown⟩ := readMeasurement_known item r hr
    have ih := ih fun x hx => hall x (List.mem_cons_of_mem _ hx)
    unfold measuredAt at ih ⊢
    rw [List.filterMap_cons_some hr, List.find?_cons, List.find?_cons, hmeter]
    by_cases hm : item.measurement.meter = meter
    · rw [decide_eq_true hm]
      exact hknown
    · rw [decide_eq_false hm]
      exact ih

theorem measuredAt_safe (measurements : List NormalizedMeasurement) (readings : List Reading)
    (h : readReadings measurements = some readings) (meter : JsString) (use : ℤ × Bool)
    (huse : measuredAt measurements meter = some use) : isSafeCount use.1 = true := by
  rw [← readReadings_measuredAt measurements readings h meter] at huse
  obtain ⟨r, hknown, rfl⟩ := Option.map_eq_some_iff.mp huse
  exact readReadings_safe measurements readings h r (List.mem_of_find?_eq_some (Option.filter_eq_some_iff.mp hknown).1)

/-! ### One meter of a call -/

theorem dispose_reserved_unknown (meter : JsString) (hold credited : ℤ) (reading : Option Reading)
    (h : knownUse reading = none) : (dispose meter hold credited .reserved reading).move = ⟨0, -hold, hold, 0⟩
      ∧ (dispose meter hold credited .reserved reading).overrun = 0 := by
  have hknown : reading.filter (·.known) = none := Option.map_eq_none_iff.mp h
  simp [dispose, hknown]

theorem dispose_reserved_known (meter : JsString) (hold credited used : ℤ) (complete : Bool) (reading : Option Reading)
    (h : knownUse reading = some (used, complete)) :
    (dispose meter hold credited .reserved reading).move
      = ⟨if complete then max 0 (hold - (used - credited)) else 0, -hold,
        if complete then 0 else max 0 (hold - (used - credited)), used - credited⟩
      ∧ (dispose meter hold credited .reserved reading).overrun = max 0 (used - credited - hold) := by
  obtain ⟨r, hknown, huse⟩ := Option.map_eq_some_iff.mp h
  obtain ⟨rfl, rfl⟩ := Prod.mk.inj huse
  cases hc : r.complete <;> simp [dispose, hknown, hc]

theorem dispose_quarantined_unknown (meter : JsString) (hold credited : ℤ) (reading : Option Reading)
    (h : knownUse reading = none) : (dispose meter hold credited .quarantined reading).move = ⟨0, 0, 0, 0⟩
      ∧ (dispose meter hold credited .quarantined reading).overrun = 0 := by
  have hknown : reading.filter (·.known) = none := Option.map_eq_none_iff.mp h
  simp [dispose, hknown]

theorem dispose_quarantined_known (meter : JsString) (hold credited used : ℤ) (complete : Bool) (reading : Option Reading)
    (h : knownUse reading = some (used, complete)) :
    (dispose meter hold credited .quarantined reading).move
      = ⟨if complete then max 0 (hold - (used - credited)) else 0, 0,
        -hold + (if complete then 0 else max 0 (hold - (used - credited))), used - credited⟩
      ∧ (dispose meter hold credited .quarantined reading).overrun = max 0 (used - credited - hold) := by
  obtain ⟨r, hknown, huse⟩ := Option.map_eq_some_iff.mp h
  obtain ⟨rfl, rfl⟩ := Prod.mk.inj huse
  cases hc : r.complete <;> simp [dispose, hknown, hc]

/-! ### A whole call -/

theorem find_key_eq_none {A : Type} (key : A → JsString) (l : List A) (meter : JsString) (h : meter ∉ l.map key) :
    (l.find? fun x => key x = meter) = none :=
  List.find?_eq_none.mpr fun _ hx hkey => h (of_decide_eq_true hkey ▸ List.mem_map_of_mem hx)

theorem loop_get {A : Type} (key : A → JsString) (effect : A → LineEffect) (overrun : List BudgetOverrun) (l : List A)
    (hl : (l.map key).Nodup) (meter : JsString) :
    (loop key effect ⟨OrdMap.empty, [], overrun⟩ l).moves.get meter
      = ((l.find? fun x => key x = meter).map effect).bind LineEffect.move := by
  by_cases hm : meter ∈ l.map key
  · obtain ⟨x, hx, rfl⟩ := List.mem_map.mp hm
    rw [find_key_of_mem key l hl x hx]
    exact loop_moves_mem key effect _ l hl x hx rfl
  · rw [find_key_eq_none key l meter hm]
    exact loop_moves_other key effect _ l meter hm

theorem loop_overrunAt {A : Type} (key : A → JsString) (effect : A → LineEffect) (overrun : List BudgetOverrun) (l : List A)
    (hl : (l.map key).Nodup) (h : ∀ x ∈ l, 0 ≤ (effect x).overrun) (meter : JsString) :
    overrunAt (loop key effect ⟨OrdMap.empty, [], overrun⟩ l).overrun meter
      = overrunAt overrun meter + (((l.find? fun x => key x = meter).map effect).map LineEffect.overrun).getD 0 := by
  rw [loop_overrun key effect _ l h]
  by_cases hm : meter ∈ l.map key
  · obtain ⟨x, hx, rfl⟩ := List.mem_map.mp hm
    rw [find_key_of_mem key l hl x hx, OrdMap.sumAt_of_mem key _ l hl x hx]
    rfl
  · rw [find_key_eq_none key l meter hm, OrdMap.sumAt_eq_zero key _ l meter hm]
    rfl

variable (fl) in
/-- An accepted call: every row of a meter is shifted by the movement that the loop gave the meter. -/
structure Moved (view view' : BudgetAvailableView) (effectAt : JsString → Option LineEffect)
    (before after : List BudgetOverrun) : Prop where
  admitted : isView view = true
  version : view.version < maxBudgetVersion
  shifted : ∃ moves state, view' = shift fl view moves state ∧ ∀ meter, moves.get meter = (effectAt meter).bind LineEffect.move
  overrun : ∀ meter, overrunAt after meter = overrunAt before meter + ((effectAt meter).map LineEffect.overrun).getD 0
  balanced : ∀ meter effect, effectAt meter = some effect → ∃ heldR heldQ, effect.Balanced meter heldR heldQ ∧ 0 ≤ heldR
    ∧ ∃ row, bucketOf view meter = some row ∧ heldR ≤ row.reserved ∧ heldQ ≤ row.quarantined

theorem covering_row (found : Option BudgetMeterBuckets) (amount : BudgetMeterBuckets → ℤ) (held : ℤ) (h : 0 ≤ held)
    (hcover : held ≤ (found.map amount).getD (-1)) : ∃ row, found = some row ∧ held ≤ amount row := by
  cases found with
  | none =>
    simp only [Option.map_none, Option.getD_none] at hcover
    omega
  | some row => exact ⟨row, rfl, hcover⟩

/-! ### Settling -/

def settleEffectAt (record : ReservationRecord) (readings : List Reading) (meter : JsString) : Option LineEffect :=
  if meter ∈ record.lines.map ReservationLine.meter then some (settleEffect readings (meter, lineSum record.lines meter))
  else none

theorem tally_find (lines : List ReservationLine) (readings : List Reading) (meter : JsString) :
    ((OrdMap.tally ReservationLine.meter ReservationLine.quantity lines).entries.find? fun e => e.1 = meter).map
        (settleEffect readings)
      = if meter ∈ lines.map ReservationLine.meter then some (settleEffect readings (meter, lineSum lines meter)) else none := by
  have hnodup := (OrdMap.tally ReservationLine.meter ReservationLine.quantity lines).nodup
  split
  · rename_i hm
    have hentry := (OrdMap.mem_entries_tally ReservationLine.meter ReservationLine.quantity lines meter _).mpr ⟨hm, rfl⟩
    rw [find_key_of_mem Prod.fst _ hnodup _ hentry]
    rfl
  · rename_i hm
    rw [find_key_eq_none Prod.fst _ meter fun h => hm ((OrdMap.mem_keys_tally _ _ _ _).mp h)]
    rfl

theorem settleReservation_moved (view view' : BudgetAvailableView) (record : ReservationRecord) (evidence : SettleEvidence)
    (cmd : SettleCommand) (settlement : SettlementRecord) (hprior : cmd.prior = none)
    (h : settleReservation fl view record evidence cmd = .accept (some settlement) view') :
    ∃ readings, readReadings evidence.measurements = some readings ∧ (∀ line ∈ record.lines, 0 ≤ line.quantity)
      ∧ Moved fl view view' (settleEffectAt record readings) [] settlement.overrun := by
  unfold settleReservation at h
  split at h
  swap
  · cases h
  rename_i held readings hheld hreadings
  have hnonneg := readReadings_nonneg _ _ hreadings
  split at h
  · cases h
  rename_i hshape
  simp only [Bool.or_eq_true, not_or, Bool.not_eq_true, Bool.not_eq_false'] at hshape
  obtain ⟨⟨⟨⟨⟨⟨hview, _⟩, _⟩, _⟩, _⟩, _⟩, _⟩ := hshape
  split at h
  · cases h
  rename_i hcode
  simp only [firstOf_append_eq_none, firstOf_cons_eq_none] at hcode
  obtain ⟨⟨_, hfence⟩, _, _, _, hshort, _⟩ := hcode
  obtain ⟨rfl, hlines⟩ := readHolds_exact view hview _ _ hheld hshort
  rw [hprior] at h
  injection h with hs hv
  obtain rfl := Option.some.inj hs
  have hnodup := (OrdMap.tally ReservationLine.meter ReservationLine.quantity record.lines).nodup
  have hbalanced := settleHolds_balanced record.lines readings hlines hnonneg
  refine ⟨readings, hreadings, hlines, hview, fence_none _ _ _ _ hfence, ⟨_, _, hv.symm, fun meter => ?_⟩, fun meter => ?_, ?_⟩
  · rw [settleHolds_eq_loop, loop_get _ _ _ _ hnodup, tally_find]
    rfl
  · rw [settleHolds_eq_loop, loop_overrunAt _ _ _ _ hnodup fun x hx => (hbalanced x hx).overrun, tally_find]
    rfl
  · intro meter effect heffect
    unfold settleEffectAt at heffect
    split at heffect
    · rename_i hm
      obtain rfl := Option.some.inj heffect
      have hentry := (OrdMap.mem_entries_tally ReservationLine.meter ReservationLine.quantity record.lines meter _).mpr
        ⟨hm, rfl⟩
      have hcover := List.any_eq_false.mp hshort _ hentry
      simp only [decide_eq_true_eq, not_lt] at hcover
      have hheldR : 0 ≤ lineSum record.lines meter := OrdMap.sumAt_nonneg _ _ _ _ hlines
      obtain ⟨row, hrow, hle⟩ := covering_row _ _ _ hheldR hcover
      exact ⟨_, 0, hbalanced _ hentry, hheldR, row, hrow, hle,
        (isView_nonneg view hview row (List.mem_of_find?_eq_some hrow)).quarantined⟩
    · cases heffect

/-! ### Leaving quarantine -/

theorem exit_moved (view : BudgetAvailableView) (settlement : SettlementRecord) (effect : SettlementLine → LineEffect)
    (hview : isView view = true) (hversion : view.version < maxBudgetVersion)
    (hsafe : ∀ line ∈ settlement.lines, SafeLine line)
    (hnodup : (settlement.lines.map SettlementLine.meter).Nodup)
    (hcovered : ∀ line ∈ settlement.lines,
      line.quarantined ≤ ((bucketOf view line.meter).map (·.quarantined)).getD (-1))
    (hbalanced : ∀ line ∈ settlement.lines, (effect line).Balanced line.meter 0 line.quarantined) (state : BudgetAccountState) :
    Moved fl view (shift fl view (loop SettlementLine.meter effect ⟨OrdMap.empty, [],
      settlement.overrun⟩ settlement.lines).moves state)
      (fun meter => (lineAt settlement meter).map effect) settlement.overrun
      (loop SettlementLine.meter effect ⟨OrdMap.empty, [], settlement.overrun⟩ settlement.lines).overrun := by
  refine ⟨hview, hversion, ⟨_, state, rfl, fun meter => loop_get _ _ _ _ hnodup meter⟩,
    fun meter => loop_overrunAt _ _ _ _ hnodup (fun line hline => (hbalanced line hline).overrun) meter, ?_⟩
  intro meter found hfound
  obtain ⟨line, hline, rfl⟩ := Option.map_eq_some_iff.mp hfound
  have hmem : line ∈ settlement.lines := List.mem_of_find?_eq_some hline
  obtain rfl : line.meter = meter := by simpa using List.find?_some hline
  obtain ⟨row, hrow, hle⟩ := covering_row _ _ _ (isSafeCount_nonneg _ (hsafe line hmem).quarantined) (hcovered line hmem)
  exact ⟨0, _, hbalanced line hmem, le_rfl, row, hrow, (isView_nonneg view hview row
    (List.mem_of_find?_eq_some hrow)).reserved, hle⟩

/-- The readings of a reconciliation: no measurement at all stands for the proof arm. -/
def readingsOf (evidence : ReconcileEvidence) : Option (List Reading) :=
  (evidence.measurements.bind readReadings).filter fun l => l.length > 0

theorem reconcileSettlement_moved (view view' : BudgetAvailableView) (settlement settlement' : SettlementRecord)
    (evidence : ReconcileEvidence) (cmd : SettlementCommand)
    (h : reconcileSettlement fl view settlement evidence cmd = .accept (some settlement') view') :
    (∀ line ∈ settlement.lines, SafeLine line) ∧ (settlement.lines.map SettlementLine.meter).Nodup
      ∧ firstOf (reconcileChecks (readingsOf evidence) evidence.neverStartedProofRef settlement) = none
      ∧ (∀ measurements, evidence.measurements = some measurements → (readReadings measurements).isSome = true)
      ∧ Moved fl view view' (fun meter => (lineAt settlement meter).map (reconcileEffect fl (readingsOf evidence)))
        settlement.overrun settlement'.overrun := by
  unfold reconcileSettlement at h
  dsimp only at h
  split at h
  · cases h
  rename_i hread
  split at h
  · cases h
  rename_i record hopen
  obtain ⟨rfl, _, hchecks, hsafe, hnodup, hcovered, hview, hversion⟩ := openQuarantine_ok _ _ _ _ _ hopen
  injection h with hs hv
  rw [reconcile_loop] at hs hv
  obtain rfl := Option.some.inj hs
  refine ⟨hsafe, hnodup, hchecks, fun measurements hm => ?_, ?_⟩
  · simp only [Bool.or_eq_true, not_or, Bool.and_eq_true, not_and, hm, Option.isSome_some, forall_const] at hread
    simpa [Option.isSome_iff_ne_none, Option.isNone_iff_eq_none] using hread.1
  · rw [← hv]
    exact exit_moved view record _ hview hversion hsafe hnodup hcovered (fun line hline =>
      reconcileEffect_balanced _ line (isSafeCount_nonneg _ (hsafe line hline).quarantined)
        (reconcileChecks_bound _ _ record hchecks hnodup line hline)) _

theorem readingsOf_none (evidence : ReconcileEvidence) (h : readingsOf evidence = none)
    (hread : ∀ measurements, evidence.measurements = some measurements → (readReadings measurements).isSome = true)
    (meter : JsString) : measuredAt (evidence.measurements.getD []) meter = none := by
  cases hm : evidence.measurements with
  | none => rfl
  | some measurements =>
    obtain ⟨readings, hreadings⟩ := Option.isSome_iff_exists.mp (hread measurements hm)
    have huse := readReadings_measuredAt measurements readings hreadings meter
    unfold readingsOf at h
    rw [hm, Option.bind_some, hreadings, Option.filter_eq_none_iff] at h
    have hempty : readings = [] := by simpa using h readings rfl
    rw [Option.getD_some, ← huse, hempty]
    rfl

theorem readingsOf_some (evidence : ReconcileEvidence) (readings : List Reading) (h : readingsOf evidence = some readings)
    (meter : JsString) : knownUse (readings.find? fun r => r.meter = meter)
      = measuredAt (evidence.measurements.getD []) meter := by
  obtain ⟨hread, -⟩ := Option.filter_eq_some_iff.mp h
  obtain ⟨measurements, hm, hread⟩ := Option.bind_eq_some_iff.mp hread
  rw [hm]
  exact readReadings_measuredAt measurements readings hread meter

theorem reconcileChecks_arm (readings : Option (List Reading)) (proof : Option JsString) (settlement : SettlementRecord)
    (hchecks : firstOf (reconcileChecks readings proof settlement) = none) : proof.isSome = readings.isNone := by
  unfold reconcileChecks at hchecks
  simp only [firstOf_cons_eq_none, decide_eq_false_iff_not] at hchecks
  cases readings <;> cases proof <;> simp_all

/-- A receipt on a line is not below what the line already committed. -/
theorem reconcile_used (settlement : SettlementRecord) (evidence : ReconcileEvidence)
    (hnodup : (settlement.lines.map SettlementLine.meter).Nodup)
    (hchecks : firstOf (reconcileChecks (readingsOf evidence) evidence.neverStartedProofRef settlement) = none)
    (hread : ∀ measurements, evidence.measurements = some measurements → (readReadings measurements).isSome = true)
    (line : SettlementLine) (hline : line ∈ settlement.lines) (used : ℤ) (complete : Bool)
    (h : measuredAt (evidence.measurements.getD []) line.meter = some (used, complete)) :
    line.committed ≤ used ∧ isSafeCount used = true := by
  cases hreadings : readingsOf evidence with
  | none =>
    rw [readingsOf_none evidence hreadings hread] at h
    cases h
  | some readings =>
    have huse := readingsOf_some evidence readings hreadings line.meter
    rw [h] at huse
    obtain ⟨r, hfilter, heq⟩ := Option.map_eq_some_iff.mp huse
    obtain ⟨hfind, hknown⟩ := Option.filter_eq_some_iff.mp hfilter
    obtain ⟨rfl, -⟩ := Prod.mk.inj heq
    have hmem := List.mem_of_find?_eq_some hfind
    refine ⟨reconcileChecks_bound _ _ settlement hchecks hnodup line hline readings hreadings r hmem
      (by simpa using List.find?_some hfind) hknown, ?_⟩
    obtain ⟨measurements, -, hmeasurements⟩ := Option.bind_eq_some_iff.mp (Option.filter_eq_some_iff.mp hreadings).1
    exact readReadings_safe measurements readings hmeasurements r hmem

/-- What a reconciliation does to an unresolved line, by its evidence. -/
theorem reconcileEffect_unresolved (settlement : SettlementRecord) (evidence : ReconcileEvidence)
    (hchecks : firstOf (reconcileChecks (readingsOf evidence) evidence.neverStartedProofRef settlement) = none)
    (hread : ∀ measurements, evidence.measurements = some measurements → (readReadings measurements).isSome = true)
    (line : SettlementLine) (hunresolved : line.disposition ∉ resolved) :
    match measuredAt (evidence.measurements.getD []) line.meter with
    | none => (reconcileEffect fl (readingsOf evidence) line).move.getD .zero
          = (if evidence.neverStartedProofRef.isSome then ⟨line.quarantined, 0, -line.quarantined, 0⟩ else .zero)
        ∧ (reconcileEffect fl (readingsOf evidence) line).overrun = 0
    | some (used, complete) => evidence.neverStartedProofRef.isSome = false
        ∧ (reconcileEffect fl (readingsOf evidence) line).move.getD .zero
          = ⟨if complete then max 0 (line.quarantined - (used - line.committed)) else 0, 0,
            -line.quarantined + (if complete then 0 else max 0 (line.quarantined - (used - line.committed))),
            used - line.committed⟩
        ∧ (reconcileEffect fl (readingsOf evidence) line).overrun = max 0 (used - line.committed - line.quarantined) := by
  have harm := reconcileChecks_arm _ _ settlement hchecks
  unfold reconcileEffect
  cases hreadings : readingsOf evidence with
  | none =>
    rw [hreadings] at harm
    rw [readingsOf_none evidence hreadings hread, harm]
    simp [hunresolved]
  | some readings =>
    rw [hreadings] at harm
    have huse := readingsOf_some evidence readings hreadings line.meter
    rw [← huse, harm]
    cases hfind : readings.find? fun r => r.meter = line.meter with
    | none => simp [hfind, knownUse]
    | some r =>
      simp only [Option.bind_some, hfind, hunresolved, Option.isNone_some, Bool.false_eq_true, and_false, or_self, if_false,
        Option.getD_some]
      cases hknown : knownUse (some r) with
      | none => exact dispose_quarantined_unknown line.meter line.quarantined line.committed _ hknown
      | some use =>
        obtain ⟨hmove, hoverrun⟩ :=
          dispose_quarantined_known line.meter line.quarantined line.committed use.1 use.2 _ hknown
        exact ⟨trivial, hmove, hoverrun⟩

theorem conservativeSettle_moved (view view' : BudgetAvailableView) (settlement settlement' : SettlementRecord)
    (cmd : ConservativeCommand) (h : conservativeSettle fl view settlement cmd = .accept (some settlement') view') :
    (∀ line ∈ settlement.lines, SafeLine line) ∧ (settlement.lines.map SettlementLine.meter).Nodup
      ∧ Moved fl view view' (fun meter => (lineAt settlement meter).map
        (writeOffEffect fl)) settlement.overrun settlement'.overrun := by
  unfold conservativeSettle at h
  split at h
  · cases h
  rename_i record hopen
  obtain ⟨rfl, _, _, hsafe, hnodup, hcovered, hview, hversion⟩ := openQuarantine_ok _ _ _ _ _ hopen
  injection h with hs hv
  rw [writeOff_loop] at hs hv
  obtain rfl := Option.some.inj hs
  have hmoved := @exit_moved fl view record (writeOffEffect fl) hview hversion hsafe hnodup hcovered
    (fun line hline => writeOffEffect_balanced line (isSafeCount_nonneg _ (hsafe line hline).quarantined)) view.state
  have hoverrun : (loop SettlementLine.meter (writeOffEffect fl) ⟨OrdMap.empty, [], record.overrun⟩ record.lines).overrun
      = record.overrun := loop_overrun_same _ _ _ writeOffEffect_overrun
  rw [hoverrun] at hmoved
  exact ⟨hsafe, hnodup, hv ▸ hmoved⟩

end Arithmetic

end MoeNG.Budget.Settlement
