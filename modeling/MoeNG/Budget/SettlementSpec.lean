import MoeNG.Budget.Settlement

/-!
# What the settlement loops move

Every settling loop treats its meters one at a time and gives each of them one
new line, at most one movement and an overrun. `LineEffect.Balanced` says what
one meter's treatment must satisfy; `loop_balanced` carries it to the whole
loop, meter by meter. The four ways of treating a meter (a receipt, a missing
receipt, a never-started refund, a write-off) are instances.
-/

namespace MoeNG.Budget.Settlement
open MoeNG.Kernel hiding isRef
open MoeNG.Lib

section Arithmetic
variable {fl : Rounding 53}

/-! ### Movements of one meter -/

def Movement.zero : Movement := ⟨0, 0, 0, 0⟩

def Movement.total (m : Movement) : ℤ := m.available + m.reserved + m.quarantined + m.committed

theorem shiftRow_meter (e : BudgetMeterBuckets) (m : Option Movement) : (shiftRow fl e m).meter = e.meter := by
  cases m <;> rfl

theorem shiftRow_exactly (e : BudgetMeterBuckets) (m : Option Movement) :
    shiftRow exactly e m = ⟨e.meter, e.available + (m.getD .zero).available, e.reserved + (m.getD .zero).reserved,
      e.quarantined + (m.getD .zero).quarantined, e.committed + (m.getD .zero).committed⟩ := by
  cases m with
  | none => simp [shiftRow, Movement.zero]
  | some m => rfl

/-- Rounding does not touch a row that nothing moves. -/
theorem shiftRow_getD (e : BudgetMeterBuckets) (he : e.Safe) (m : Option Movement) :
    shiftRow fl e m = ⟨e.meter, fl (e.available + (m.getD .zero).available), fl (e.reserved + (m.getD .zero).reserved),
      fl (e.quarantined + (m.getD .zero).quarantined), fl (e.committed + (m.getD .zero).committed)⟩ := by
  cases m with
  | none =>
    simp only [shiftRow, Movement.zero, Option.getD_none, add_zero, fl_of_safe fl _ he.available, fl_of_safe fl _ he.reserved,
      fl_of_safe fl _ he.quarantined, fl_of_safe fl _ he.committed]
  | some m => rfl

structure LineEffect where
  line : SettlementLine
  move : Option Movement
  overrun : ℤ

/-- One meter's treatment: `heldR` units leave RESERVED, the quarantined units
go from `heldQ` to the new line's, and what the four buckets gain together is
the recorded overrun. -/
structure LineEffect.Balanced (e : LineEffect) (meter : JsString) (heldR heldQ : ℤ) : Prop where
  meter : e.line.meter = meter
  reserved : (e.move.getD .zero).reserved = -heldR
  quarantined : (e.move.getD .zero).quarantined = e.line.quarantined - heldQ
  total : (e.move.getD .zero).total = e.overrun
  available : 0 ≤ (e.move.getD .zero).available
  committed : 0 ≤ (e.move.getD .zero).committed
  overrun : 0 ≤ e.overrun
  line : 0 ≤ e.line.quarantined

def Disposed.effect (one : Disposed) : LineEffect := ⟨one.line, some one.move, one.overrun⟩

theorem dispose_reserved_balanced (meter : JsString) (hold : ℤ) (reading : Option Reading) (hhold : 0 ≤ hold)
    (hreading : ∀ r, reading = some r → 0 ≤ r.quantity) :
    (dispose meter hold 0 .reserved reading).effect.Balanced meter hold 0 := by
  unfold dispose Disposed.effect
  cases reading with
  | none => constructor <;> simp [Movement.total, hhold]
  | some r =>
    have hq := hreading r rfl
    by_cases hk : r.known = true
    · by_cases hc : r.complete = true
      · constructor <;> simp [Movement.total, Option.filter, hk, hc] <;> omega
      · constructor <;> simp [Movement.total, Option.filter, hk, hc] <;> omega
    · constructor <;> simp [Movement.total, Option.filter, hk, hhold]

/- A receipt on a quarantined line: the conflict check has put the measured
   use at or above what the line already committed. -/
theorem dispose_quarantined_balanced (line : SettlementLine) (r : Reading) (hhold : 0 ≤ line.quarantined)
    (hbound : r.known = true → line.committed ≤ r.quantity) :
    (dispose line.meter line.quarantined line.committed .quarantined (some r)).effect.Balanced
      line.meter 0 line.quarantined := by
  unfold dispose Disposed.effect
  by_cases hk : r.known = true
  · have hb := hbound hk
    by_cases hc : r.complete = true
    · constructor <;> simp [Movement.total, Option.filter, hk, hc] <;> omega
    · constructor <;> simp [Movement.total, Option.filter, hk, hc] <;> omega
  · constructor <;> simp [Movement.total, Option.filter, hk, hhold]

theorem keep_balanced (line : SettlementLine) (h : 0 ≤ line.quarantined) :
    (⟨line, none, 0⟩ : LineEffect).Balanced line.meter 0 line.quarantined := by
  constructor <;> simp [Movement.zero, Movement.total, h]

theorem exit_balanced (line line' : SettlementLine) (move : Movement)
    (hmeter : line'.meter = line.meter) (hq : line'.quarantined = 0) (hr : move.reserved = 0)
    (hmq : move.quarantined = -line.quarantined) (ha : 0 ≤ move.available) (hc : 0 ≤ move.committed)
    (hsum : move.available + move.committed = line.quarantined) :
    (⟨line', some move, 0⟩ : LineEffect).Balanced line.meter 0 line.quarantined := by
  constructor <;> simp [Movement.total] <;> omega

/-! ### The loop -/

def Progress.apply (p : Progress) (meter : JsString) (e : LineEffect) : Progress :=
  { moves := match e.move with
      | none => p.moves
      | some m => p.moves.set meter m
    lines := p.lines ++ [e.line]
    overrun := if e.overrun > 0 then p.overrun ++ [⟨meter, e.overrun⟩] else p.overrun }

def overrunAt (overrun : List BudgetOverrun) (meter : JsString) : ℤ :=
  OrdMap.sumAt BudgetOverrun.meter BudgetOverrun.amount overrun meter

def quarantinedAt (lines : List SettlementLine) (meter : JsString) : ℤ :=
  OrdMap.sumAt SettlementLine.meter SettlementLine.quarantined lines meter

section Loop
variable {A : Type} (key : A → JsString) (effect : A → LineEffect)

def loop (p : Progress) (l : List A) : Progress := l.foldl (fun p x => p.apply (key x) (effect x)) p

theorem loop_lines (p : Progress) (l : List A) : (loop key effect p l).lines = p.lines ++ l.map fun x => (effect x).line := by
  unfold loop
  induction l generalizing p with
  | nil => simp
  | cons x rest ih =>
    rw [List.foldl_cons, ih]
    simp [Progress.apply]

theorem loop_overrun (p : Progress) (l : List A) (h : ∀ x ∈ l, 0 ≤ (effect x).overrun) (meter : JsString) :
    overrunAt (loop key effect p l).overrun meter =
      overrunAt p.overrun meter + OrdMap.sumAt key (fun x => (effect x).overrun) l meter := by
  unfold loop
  induction l generalizing p with
  | nil => simp
  | cons x rest ih =>
    have hx := h x (List.mem_cons_self ..)
    have hstep : overrunAt (p.apply (key x) (effect x)).overrun meter =
        overrunAt p.overrun meter + if key x = meter then (effect x).overrun else 0 := by
      unfold Progress.apply overrunAt
      by_cases hpos : (effect x).overrun > 0
      · simp [hpos]
      · have hzero : (effect x).overrun = 0 := by omega
        simp [hzero]
    rw [List.foldl_cons, ih _ fun y hy => h y (List.mem_cons_of_mem _ hy), hstep, OrdMap.sumAt_cons]
    omega

theorem apply_moves (p : Progress) (meter other : JsString) (e : LineEffect) (h : other ≠ meter) :
    (p.apply meter e).moves.get other = p.moves.get other := by
  unfold Progress.apply
  cases he : e.move with
  | none => rfl
  | some m => simp [h]

theorem loop_moves_other (p : Progress) (l : List A) (meter : JsString) (h : meter ∉ l.map key) :
    (loop key effect p l).moves.get meter = p.moves.get meter := by
  unfold loop
  induction l generalizing p with
  | nil => rfl
  | cons x rest ih =>
    simp only [List.map_cons, List.mem_cons, not_or] at h
    rw [List.foldl_cons, ih _ h.2, apply_moves p (key x) meter (effect x) h.1]

theorem loop_moves_mem (p : Progress) (l : List A) (hl : (l.map key).Nodup) (x : A) (hx : x ∈ l)
    (hp : p.moves.get (key x) = none) : (loop key effect p l).moves.get (key x) = (effect x).move := by
  induction l generalizing p with
  | nil => cases hx
  | cons y rest ih =>
    obtain ⟨hne, hrest⟩ := List.nodup_cons.mp hl
    have hstep : loop key effect p (y :: rest) = loop key effect (p.apply (key y) (effect y)) rest := rfl
    rw [hstep]
    rcases List.mem_cons.mp hx with h | h
    · subst h
      rw [loop_moves_other key effect _ rest (key x) hne]
      unfold Progress.apply
      cases he : (effect x).move with
      | none => exact hp
      | some m => simp
    · have hkey : key x ≠ key y := fun e => hne (e ▸ List.mem_map_of_mem (f := key) h)
      exact ih _ hrest h ((apply_moves p (key y) (key x) (effect y) hkey).trans hp)

/-- What a whole loop did to one meter. -/
structure Balance (moves : OrdMap JsString Movement) (lines : List SettlementLine) (before after : List BudgetOverrun)
    (heldR heldQ : ℤ) (meter : JsString) : Prop where
  reserved : ((moves.get meter).getD .zero).reserved = -heldR
  quarantined : ((moves.get meter).getD .zero).quarantined = quarantinedAt lines meter - heldQ
  total : ((moves.get meter).getD .zero).total = overrunAt after meter - overrunAt before meter
  available : 0 ≤ ((moves.get meter).getD .zero).available
  committed : 0 ≤ ((moves.get meter).getD .zero).committed
  lines : 0 ≤ quarantinedAt lines meter

theorem loop_balanced (overrun : List BudgetOverrun) (l : List A) (hl : (l.map key).Nodup) (heldR heldQ : A → ℤ)
    (h : ∀ x ∈ l, (effect x).Balanced (key x) (heldR x) (heldQ x)) (meter : JsString) :
    Balance (loop key effect ⟨OrdMap.empty, [], overrun⟩ l).moves (loop key effect ⟨OrdMap.empty, [], overrun⟩ l).lines
      overrun (loop key effect ⟨OrdMap.empty, [], overrun⟩ l).overrun
      (OrdMap.sumAt key heldR l meter) (OrdMap.sumAt key heldQ l meter) meter := by
  have hlines : quarantinedAt (loop key effect ⟨OrdMap.empty, [], overrun⟩ l).lines meter =
      OrdMap.sumAt key (fun x => (effect x).line.quarantined) l meter := by
    rw [loop_lines, List.nil_append]
    unfold quarantinedAt
    rw [OrdMap.sumAt_map]
    unfold OrdMap.sumAt
    rw [List.filter_congr]
    intro x hx
    simp only [(h x hx).meter]
  have hover := loop_overrun key effect ⟨OrdMap.empty, [], overrun⟩ l (fun x hx => (h x hx).overrun) meter
  dsimp only at hover
  by_cases hm : meter ∈ l.map key
  · obtain ⟨x, hx, rfl⟩ := List.mem_map.mp hm
    have hmoves := loop_moves_mem key effect ⟨OrdMap.empty, [], overrun⟩ l hl x hx rfl
    have hsum : ∀ q : A → ℤ, OrdMap.sumAt key q l (key x) = q x := fun q => OrdMap.sumAt_of_mem key q l hl x hx
    rw [hsum] at hlines hover
    have hx := h x hx
    constructor
    · rw [hmoves, hsum, hx.reserved]
    · rw [hmoves, hlines, hsum, hx.quarantined]
    · rw [hmoves, hover, hx.total]
      omega
    · rw [hmoves]
      exact hx.available
    · rw [hmoves]
      exact hx.committed
    · rw [hlines]
      exact hx.line
  · have hmoves := loop_moves_other key effect ⟨OrdMap.empty, [], overrun⟩ l meter hm
    have hsum : ∀ q : A → ℤ, OrdMap.sumAt key q l meter = 0 := fun q => OrdMap.sumAt_eq_zero key q l meter hm
    rw [hsum] at hlines hover
    constructor <;> (try rw [hmoves]) <;> simp [Movement.zero, Movement.total, hsum, hlines, hover]

theorem loop_lines_meter (overrun : List BudgetOverrun) (l : List A) (heldR heldQ : A → ℤ)
    (h : ∀ x ∈ l, (effect x).Balanced (key x) (heldR x) (heldQ x)) :
    (loop key effect ⟨OrdMap.empty, [], overrun⟩ l).lines.map SettlementLine.meter = l.map key := by
  rw [loop_lines, List.nil_append, List.map_map]
  exact List.map_congr_left fun x hx => (h x hx).meter

end Loop

/-! ### Settling a reservation -/

theorem isBuckets_iff (row : BudgetMeterBuckets) : isBuckets row = true ↔ isRef row.meter = true ∧ row.Safe := by
  simp only [isBuckets, Bool.and_eq_true]
  exact ⟨fun ⟨⟨⟨⟨hm, ha⟩, hr⟩, hq⟩, hc⟩ => ⟨hm, ha, hr, hq, hc⟩, fun ⟨hm, ha, hr, hq, hc⟩ => ⟨⟨⟨⟨hm, ha⟩, hr⟩, hq⟩, hc⟩⟩

theorem isView_safe (view : BudgetAvailableView) (h : isView view = true) (row : BudgetMeterBuckets)
    (hrow : row ∈ view.meters) : row.Safe := by
  unfold isView at h
  rw [Bool.and_eq_true] at h
  exact ((isBuckets_iff row).mp (List.all_eq_true.mp h.2 row hrow)).2

theorem isView_nonneg (view : BudgetAvailableView) (h : isView view = true) (row : BudgetMeterBuckets)
    (hrow : row ∈ view.meters) : row.Nonneg :=
  (row.safe_iff.mp (isView_safe view h row hrow)).1

theorem readHolds_some (lines : List ReservationLine) (held : OrdMap JsString ℤ) (h : readHolds fl lines = some held) :
    held = Reservation.totalPerMeter fl lines ∧ ∀ line ∈ lines, 0 ≤ line.quantity := by
  unfold readHolds at h
  split at h
  · cases h
  · split at h
    · rename_i hall
      refine ⟨(Option.some.inj h).symm, fun line hline => ?_⟩
      have hone := List.all_eq_true.mp hall line hline
      rw [Bool.and_eq_true] at hone
      exact isSafeCount_nonneg _ hone.2
    · cases h

theorem readMeasurement_safe (item : NormalizedMeasurement) (r : Reading) (h : readMeasurement item = some r) :
    isSafeCount r.quantity = true := by
  unfold readMeasurement at h
  dsimp only at h
  by_cases hk : item.measurement.coverage ≠ .UNKNOWN
  · simp only [hk, ne_eq, not_false_eq_true, decide_true, if_true] at h
    split at h
    · cases h
    · split at h
      · cases h
      · rename_i hquantity
        rw [← Option.some.inj h]
        cases hq : item.measurement.quantity with
        | none => rfl
        | some q => simpa [hq] using hquantity
  · simp only [hk, decide_false, Bool.false_eq_true, if_false] at h
    split at h
    · cases h
    · split at h
      · cases h
      · rw [← Option.some.inj h]
        rfl

theorem readReadings_safe (value : List NormalizedMeasurement) (readings : List Reading)
    (h : readReadings value = some readings) : ∀ r ∈ readings, isSafeCount r.quantity = true := by
  unfold readReadings at h
  split at h
  · cases h
  · intro r hr
    obtain ⟨item, _, hitem⟩ := mem_of_mapM_some _ _ _ h r hr
    exact readMeasurement_safe item r hitem

theorem readReadings_nonneg (value : List NormalizedMeasurement) (readings : List Reading)
    (h : readReadings value = some readings) (r : Reading) (hr : r ∈ readings) : 0 ≤ r.quantity :=
  isSafeCount_nonneg _ (readReadings_safe value readings h r hr)

/-- Holds that the reserved buckets cover have been summed exactly. -/
theorem readHolds_exact (view : BudgetAvailableView) (hview : isView view = true) (lines : List ReservationLine)
    (held : OrdMap JsString ℤ) (h : readHolds fl lines = some held)
    (hshort : (held.entries.any fun e => ((bucketOf view e.1).map (·.reserved)).getD (-1) < e.2) = false) :
    held = OrdMap.tally ReservationLine.meter ReservationLine.quantity lines ∧ ∀ line ∈ lines, 0 ≤ line.quantity := by
  obtain ⟨rfl, hlines⟩ := readHolds_some lines held h
  refine ⟨Reservation.totalPerMeter_exact fl lines hlines fun e he => ?_, hlines⟩
  have hcheck := List.any_eq_false.mp hshort e he
  rw [decide_eq_true_eq, not_lt] at hcheck
  refine hcheck.trans ?_
  cases hbucket : bucketOf view e.1 with
  | none => exact (by decide : (-1 : ℤ) ≤ maxSafeInteger)
  | some row => exact (row.safe_iff.mp (isView_safe view hview row (List.mem_of_find?_eq_some hbucket))).2.2.1

def settleEffect (readings : List Reading) (h : JsString × ℤ) : LineEffect :=
  (dispose h.1 h.2 0 .reserved (readings.find? fun r => r.meter = h.1)).effect

theorem settleHolds_eq_loop (held : List (JsString × ℤ)) (readings : List Reading) (p : Progress) :
    settleHolds held readings p = loop Prod.fst (settleEffect readings) p held := rfl

theorem sumAt_tally (lines : List ReservationLine) (meter : JsString) :
    OrdMap.sumAt Prod.fst Prod.snd (OrdMap.tally ReservationLine.meter ReservationLine.quantity lines).entries meter =
      Reservation.lineSum lines meter := by
  have hkeys := OrdMap.mem_keys_tally ReservationLine.meter ReservationLine.quantity lines meter
  have hnodup := (OrdMap.tally ReservationLine.meter ReservationLine.quantity lines).nodup
  by_cases hm : meter ∈ lines.map ReservationLine.meter
  · have hentry := (OrdMap.mem_entries_tally ReservationLine.meter ReservationLine.quantity lines meter _).mpr
      ⟨hm, rfl⟩
    exact OrdMap.sumAt_of_mem Prod.fst Prod.snd _ hnodup _ hentry
  · have hzero : Reservation.lineSum lines meter = 0 := OrdMap.sumAt_eq_zero _ _ _ _ hm
    rw [hzero]
    exact OrdMap.sumAt_eq_zero _ _ _ _ fun h => hm (hkeys.mp h)

variable (fl) in
/-- What a first settlement did: the whole hold left RESERVED. -/
structure Settled (view : BudgetAvailableView) (record : ReservationRecord) (settlement : SettlementRecord)
    (view' : BudgetAvailableView) : Prop where
  activated : record.state = .ACTIVATED
  state : settlement.state = stateOf settlement.lines
  covered : ∀ meter ∈ record.lines.map ReservationLine.meter,
    Reservation.lineSum record.lines meter ≤ ((bucketOf view meter).map (·.reserved)).getD (-1)
  meters : ∀ line ∈ settlement.lines, line.meter ∈ record.lines.map ReservationLine.meter
  moved : ∃ moves state, view' = shift fl view moves state
    ∧ (∀ meter, meter ∉ record.lines.map ReservationLine.meter → moves.get meter = none)
    ∧ ∀ meter, Balance moves settlement.lines [] settlement.overrun
        (Reservation.lineSum record.lines meter) 0 meter

theorem settleHolds_balanced (lines : List ReservationLine) (readings : List Reading)
    (hlines : ∀ line ∈ lines, 0 ≤ line.quantity) (hreadings : ∀ r ∈ readings, 0 ≤ r.quantity) :
    ∀ h ∈ (OrdMap.tally ReservationLine.meter ReservationLine.quantity lines).entries,
      (settleEffect readings h).Balanced h.1 h.2 0 := by
  intro h hh
  have hentry := (OrdMap.mem_entries_tally ReservationLine.meter ReservationLine.quantity lines h.1 h.2).mp hh
  have hhold : 0 ≤ h.2 := by
    rw [hentry.2]
    exact OrdMap.sumAt_nonneg _ _ _ _ hlines
  exact dispose_reserved_balanced h.1 h.2 _ hhold fun r hr => hreadings r (List.mem_of_find?_eq_some hr)

theorem settled_of_holds (record : ReservationRecord) (readings : List Reading)
    (p : Progress) (hp : p = settleHolds (OrdMap.tally ReservationLine.meter ReservationLine.quantity record.lines).entries
      readings ⟨OrdMap.empty, [], []⟩)
    (hlines : ∀ line ∈ record.lines, 0 ≤ line.quantity) (hreadings : ∀ r ∈ readings, 0 ≤ r.quantity) :
    (∀ line ∈ p.lines, line.meter ∈ record.lines.map ReservationLine.meter)
      ∧ (∀ meter, meter ∉ record.lines.map ReservationLine.meter → p.moves.get meter = none)
      ∧ ∀ meter, Balance p.moves p.lines [] p.overrun (Reservation.lineSum record.lines meter) 0 meter := by
  have hkeys := OrdMap.mem_keys_tally ReservationLine.meter ReservationLine.quantity record.lines
  have hnodup := (OrdMap.tally ReservationLine.meter ReservationLine.quantity record.lines).nodup
  have hbal := settleHolds_balanced record.lines readings hlines hreadings
  rw [settleHolds_eq_loop] at hp
  subst hp
  refine ⟨?_, ?_, ?_⟩
  · intro line hline
    have hmap := loop_lines_meter Prod.fst (settleEffect readings) [] _ Prod.snd (fun _ => 0) hbal
    have hmem : line.meter ∈ (OrdMap.tally ReservationLine.meter ReservationLine.quantity record.lines).keys := by
      unfold OrdMap.keys
      rw [← hmap]
      exact List.mem_map_of_mem (f := SettlementLine.meter) hline
    exact (hkeys line.meter).mp hmem
  · intro meter hm
    exact loop_moves_other Prod.fst (settleEffect readings) _ _ meter fun h => hm ((hkeys meter).mp h)
  · intro meter
    have h := loop_balanced Prod.fst (settleEffect readings) [] _ hnodup Prod.snd (fun _ => 0) hbal meter
    rw [sumAt_tally] at h
    have hzero : OrdMap.sumAt Prod.fst (fun _ => (0 : ℤ))
        (OrdMap.tally ReservationLine.meter ReservationLine.quantity record.lines).entries meter = 0 := by
      simp [OrdMap.sumAt]
    rw [hzero] at h
    exact h

theorem settleReservation_accept (view view' : BudgetAvailableView) (record : ReservationRecord)
    (evidence : SettleEvidence) (cmd : SettleCommand) (result : Option SettlementRecord)
    (h : settleReservation fl view record evidence cmd = .accept result view') :
    (cmd.prior = none ∧ ∃ settlement, result = some settlement ∧ Settled fl view record settlement view')
      ∨ (cmd.prior = result ∧ cmd.prior ≠ none ∧ view' = view) := by
  unfold settleReservation at h
  split at h
  · rename_i held readings hheld hreadings
    have hnonneg := readReadings_nonneg _ _ hreadings
    split at h
    · cases h
    · rename_i hshape
      simp only [Bool.or_eq_true, not_or, Bool.not_eq_true, Bool.not_eq_false'] at hshape
      split at h
      · cases h
      · rename_i hcode
        simp only [firstOf_append_eq_none, firstOf_cons_eq_none] at hcode
        obtain ⟨⟨⟨_, hactive, _⟩, _⟩, _, _, _, hshort, _⟩ := hcode
        obtain ⟨rfl, hlines⟩ := readHolds_exact view hshape.1.1.1.1.1.1 _ _ hheld hshort
        dsimp only at h
        cases hprior : cmd.prior with
        | some given =>
          rw [hprior] at h
          dsimp only at h
          split at h
          · cases h
          · split at h
            · injection h with hs hv
              exact .inr ⟨hs, by simp, hv.symm⟩
            · cases h
        | none =>
          rw [hprior] at h
          injection h with hs hv
          obtain ⟨hmeters, hother, hbalance⟩ := settled_of_holds record readings _ rfl hlines hnonneg
          refine .inl ⟨rfl, _, hs.symm, ?_⟩
          refine ⟨?_, rfl, ?_, hmeters, _, _, hv.symm, hother, hbalance⟩
          · simp only [Bool.or_eq_false_iff, decide_eq_false_iff_not, not_not] at hactive
            exact hactive.1
          · intro meter hm
            have hentry := (OrdMap.mem_entries_tally ReservationLine.meter ReservationLine.quantity record.lines
              meter _).mpr ⟨hm, rfl⟩
            have hone := List.any_eq_false.mp hshort _ hentry
            simp only [decide_eq_true_eq, not_lt] at hone
            exact hone
  · cases h

/-! ### Leaving quarantine -/

variable (fl) in
/-- What an exit from quarantine did to the record it moved. -/
structure Exited (view : BudgetAvailableView) (settlement settlement' : SettlementRecord)
    (view' : BudgetAvailableView) : Prop where
  quarantined : settlement.state = .QUARANTINED
  state : settlement'.state ≠ .QUARANTINED → ∀ line ∈ settlement'.lines, line.quarantined = 0
  covered : ∀ meter ∈ settlement.lines.map SettlementLine.meter,
    quarantinedAt settlement.lines meter ≤ ((bucketOf view meter).map (·.quarantined)).getD (-1)
  meters : settlement'.lines.map SettlementLine.meter = settlement.lines.map SettlementLine.meter
  moved : ∃ moves state, view' = shift fl view moves state
    ∧ (∀ meter, meter ∉ settlement.lines.map SettlementLine.meter → moves.get meter = none)
    ∧ ∀ meter, Balance moves settlement'.lines settlement.overrun settlement'.overrun
        0 (quarantinedAt settlement.lines meter) meter

structure SafeLine (line : SettlementLine) : Prop where
  committed : isSafeCount line.committed = true
  quarantined : isSafeCount line.quarantined = true

theorem readSettlement_some (item record : SettlementRecord) (h : readSettlement item = some record) :
    record = item ∧ (∀ line ∈ item.lines, SafeLine line)
      ∧ (item.lines.map SettlementLine.meter).Nodup := by
  unfold readSettlement at h
  split at h
  · cases h
  · rename_i hshape
    simp only [Bool.or_eq_true, not_or, Bool.not_eq_true, Bool.not_eq_false'] at hshape
    obtain ⟨⟨_, hall⟩, hdup⟩ := hshape
    refine ⟨(Option.some.inj h).symm, fun line hline => ?_, (hasDuplicates_eq_false _).mp hdup⟩
    have hone := List.all_eq_true.mp hall line hline
    unfold isLine at hone
    simp only [Bool.and_eq_true] at hone
    exact ⟨hone.1.1.1.1.2, hone.1.1.2⟩

theorem fence_none (view : BudgetAvailableView) (version expectedView expected : ℤ)
    (h : firstOf (fence view version expectedView expected) = none) : view.version < maxBudgetVersion := by
  unfold fence at h
  simp only [firstOf_cons_eq_none, decide_eq_false_iff_not] at h
  omega

theorem openQuarantine_ok (view : BudgetAvailableView) (settlement record : SettlementRecord) (cmd : SettlementCommand)
    (extra : SettlementRecord → List (Bool × BudgetSettlementIssueCode))
    (h : openQuarantine view settlement cmd extra = .ok record) :
    record = settlement ∧ settlement.state = .QUARANTINED ∧ firstOf (extra settlement) = none
      ∧ (∀ line ∈ settlement.lines, SafeLine line)
      ∧ (settlement.lines.map SettlementLine.meter).Nodup
      ∧ (∀ line ∈ settlement.lines, line.quarantined ≤ ((bucketOf view line.meter).map (·.quarantined)).getD (-1))
      ∧ isView view = true ∧ view.version < maxBudgetVersion := by
  unfold openQuarantine at h
  split at h
  · cases h
  · rename_i found hread
    obtain ⟨rfl, hsafe, hnodup⟩ := readSettlement_some _ _ hread
    split at h
    · cases h
    · rename_i hshape
      simp only [Bool.or_eq_true, not_or, Bool.not_eq_true, Bool.not_eq_false'] at hshape
      split at h
      · cases h
      · rename_i hcode
        simp only [firstOf_append_eq_none, firstOf_cons_eq_none] at hcode
        obtain ⟨⟨⟨⟨_, hstate, _⟩, hextra⟩, hfence⟩, hshort, _⟩ := hcode
        injection h with hrec
        subst hrec
        refine ⟨rfl, by simpa using hstate, hextra, hsafe, hnodup, fun line hline => ?_, hshape.1.1,
          fence_none _ _ _ _ hfence⟩
        have hone := List.any_eq_false.mp hshort line hline
        simp only [decide_eq_true_eq, not_lt] at hone
        exact hone

theorem exited_of_loop (view : BudgetAvailableView) (settlement settlement' : SettlementRecord)
    (effect : SettlementLine → LineEffect) (p : Progress)
    (hp : p = loop SettlementLine.meter effect ⟨OrdMap.empty, [], settlement.overrun⟩ settlement.lines)
    (hlines : settlement'.lines = p.lines) (hoverrun : settlement'.overrun = p.overrun)
    (hstate : settlement.state = .QUARANTINED)
    (hstate' : settlement'.state ≠ .QUARANTINED → ∀ line ∈ settlement'.lines, line.quarantined = 0)
    (hnodup : (settlement.lines.map SettlementLine.meter).Nodup)
    (hcovered : ∀ line ∈ settlement.lines,
      line.quarantined ≤ ((bucketOf view line.meter).map (·.quarantined)).getD (-1))
    (hbal : ∀ line ∈ settlement.lines, (effect line).Balanced line.meter 0 line.quarantined)
    (state : BudgetAccountState) : Exited fl view settlement settlement' (shift fl view p.moves state) := by
  have hzero : ∀ meter, OrdMap.sumAt SettlementLine.meter (fun _ => (0 : ℤ)) settlement.lines meter = 0 := by
    intro meter
    simp [OrdMap.sumAt]
  refine ⟨hstate, hstate', ?_, ?_, p.moves, state, rfl, ?_, ?_⟩
  · intro meter hm
    obtain ⟨line, hline, rfl⟩ := List.mem_map.mp hm
    have hsum : quarantinedAt settlement.lines line.meter = line.quarantined :=
      OrdMap.sumAt_of_mem SettlementLine.meter SettlementLine.quarantined _ hnodup line hline
    rw [hsum]
    exact hcovered line hline
  · rw [hlines, hp]
    exact loop_lines_meter SettlementLine.meter effect _ _ (fun _ => 0) SettlementLine.quarantined hbal
  · intro meter hm
    rw [hp]
    exact loop_moves_other SettlementLine.meter effect _ _ meter hm
  · intro meter
    have h := loop_balanced SettlementLine.meter effect settlement.overrun _ hnodup (fun _ => 0)
      SettlementLine.quarantined hbal meter
    rw [hzero] at h
    rw [hlines, hoverrun, hp]
    exact h

theorem stateOf_settled (lines : List SettlementLine) (h : stateOf lines ≠ .QUARANTINED) :
    ∀ line ∈ lines, line.quarantined = 0 := by
  unfold stateOf at h
  split at h
  · rename_i hall
    intro line hline
    have hone := List.all_eq_true.mp hall line hline
    exact (of_decide_eq_true hone).1
  · exact absurd rfl h

variable (fl) in
def reconcileEffect (readings : Option (List Reading)) (line : SettlementLine) : LineEffect :=
  let reading := readings.bind fun list => list.find? fun x => x.meter = line.meter
  if line.disposition ∈ resolved ∨ (readings.isSome ∧ reading.isNone) then ⟨line, none, 0⟩
  else if readings.isNone then
    ⟨{ line with refunded := fl (line.refunded + line.quarantined), quarantined := 0,
                 disposition := .NEVER_STARTED_REFUND },
      some ⟨line.quarantined, 0, -line.quarantined, 0⟩, 0⟩
  else
    let one := dispose line.meter line.quarantined line.committed .quarantined reading
    ⟨{ one.line with reserved := line.reserved, refunded := fl (line.refunded + one.line.refunded) },
      some one.move, one.overrun⟩

theorem reconcileLine_eq_apply (readings : Option (List Reading)) (p : Progress) (line : SettlementLine) :
    reconcileLine fl readings p line = p.apply line.meter (reconcileEffect fl readings line) := by
  unfold reconcileLine reconcileEffect
  dsimp only
  split
  · rfl
  · split <;> rfl

theorem reconcile_loop (readings : Option (List Reading)) (p : Progress) (lines : List SettlementLine) :
    lines.foldl (reconcileLine fl readings) p = loop SettlementLine.meter (reconcileEffect fl readings) p lines := by
  unfold loop
  congr 1
  funext p line
  exact reconcileLine_eq_apply readings p line

theorem reconcileEffect_balanced (readings : Option (List Reading)) (line : SettlementLine)
    (hline : 0 ≤ line.quarantined)
    (hbound : ∀ list, readings = some list → ∀ r ∈ list, r.meter = line.meter → r.known = true →
      line.committed ≤ r.quantity) :
    (reconcileEffect fl readings line).Balanced line.meter 0 line.quarantined := by
  unfold reconcileEffect
  dsimp only
  split
  · exact keep_balanced line hline
  · rename_i hkeep
    split
    · exact exit_balanced line _ _ rfl rfl rfl rfl hline (le_refl 0) (by simp)
    · rename_i hsome
      cases hr : readings with
      | none => simp [hr] at hsome
      | some list =>
        rw [hr] at hkeep
        simp only [Option.isSome_some, Option.bind_some, true_and, not_or, Option.isNone_iff_eq_none] at hkeep
        obtain ⟨r, hfind⟩ := Option.ne_none_iff_exists'.mp hkeep.2
        have hmem := List.mem_of_find?_eq_some hfind
        have hmeter : r.meter = line.meter := by simpa using List.find?_some hfind
        have hbal := dispose_quarantined_balanced line r hline (hbound list hr r hmem hmeter)
        simp only [Option.bind_some, hfind]
        -- the reported line differs from the disposed one in two amounts only
        exact ⟨hbal.meter, hbal.reserved, hbal.quarantined, hbal.total, hbal.available, hbal.committed,
          hbal.overrun, hbal.line⟩

theorem lineAt_mem (r : SettlementRecord) (hnodup : (r.lines.map SettlementLine.meter).Nodup) (line : SettlementLine)
    (hline : line ∈ r.lines) : lineAt r line.meter = some line :=
  find_key_of_mem SettlementLine.meter r.lines hnodup line hline

-- the conflict check compares with the committed amount of the line at the receipt's meter
theorem reconcileChecks_bound (readings : Option (List Reading)) (proof : Option JsString) (r : SettlementRecord)
    (hchecks : firstOf (reconcileChecks readings proof r) = none) (hnodup : (r.lines.map SettlementLine.meter).Nodup)
    (line : SettlementLine) (hline : line ∈ r.lines) (list : List Reading) (hlist : readings = some list) (x : Reading)
    (hx : x ∈ list) (hmeter : x.meter = line.meter) (hknown : x.known = true) : line.committed ≤ x.quantity := by
  unfold reconcileChecks at hchecks
  simp only [firstOf_cons_eq_none] at hchecks
  obtain ⟨_, _, _, _, _, hconflict, _⟩ := hchecks
  rw [hlist] at hconflict
  simp only [Option.any_some, Bool.or_eq_false_iff] at hconflict
  have hone := List.any_eq_false.mp hconflict.1 x hx
  rw [hmeter, lineAt_mem r hnodup line hline] at hone
  simpa [hknown] using hone

theorem reconcileSettlement_accept (view view' : BudgetAvailableView) (settlement : SettlementRecord)
    (evidence : ReconcileEvidence) (cmd : SettlementCommand) (result : Option SettlementRecord)
    (h : reconcileSettlement fl view settlement evidence cmd = .accept result view') :
    ∃ settlement', result = some settlement' ∧ Exited fl view settlement settlement' view' := by
  unfold reconcileSettlement at h
  dsimp only at h
  split at h
  · cases h
  · split at h
    · cases h
    · rename_i record hopen
      obtain ⟨rfl, hstate, hchecks, hsafe, hnodup, hcovered, -, -⟩ := openQuarantine_ok _ _ _ _ _ hopen
      injection h with hs hv
      rw [reconcile_loop] at hs hv
      refine ⟨_, hs.symm, ?_⟩
      rw [← hv]
      refine exited_of_loop view record _ (reconcileEffect fl _) _ rfl rfl rfl hstate
        (fun hne => stateOf_settled _ hne) hnodup hcovered ?_ _
      exact fun line hline => reconcileEffect_balanced _ line (isSafeCount_nonneg _ (hsafe line hline).quarantined)
        (reconcileChecks_bound _ _ record hchecks hnodup line hline)

variable (fl) in
def writeOffEffect (l : SettlementLine) : LineEffect :=
  if l.quarantined = 0 then ⟨l, none, 0⟩
  else
    ⟨{ l with committed := fl (l.committed + l.quarantined), quarantined := 0, disposition := .CONSERVATIVE_WRITE_OFF },
      some ⟨0, 0, -l.quarantined, l.quarantined⟩, 0⟩

theorem writeOff_loop (p : Progress) (lines : List SettlementLine) :
    lines.foldl (writeOff fl) p = loop SettlementLine.meter (writeOffEffect fl) p lines := by
  unfold loop
  congr 1
  funext p line
  unfold writeOff writeOffEffect
  split <;> rfl

theorem writeOffEffect_balanced (line : SettlementLine) (h : 0 ≤ line.quarantined) :
    (writeOffEffect fl line).Balanced line.meter 0 line.quarantined := by
  unfold writeOffEffect
  split
  · exact keep_balanced line h
  · exact exit_balanced line _ _ rfl rfl rfl rfl (le_refl 0) h (by simp)

theorem writeOffEffect_quarantined (line : SettlementLine) : (writeOffEffect fl line).line.quarantined = 0 := by
  unfold writeOffEffect
  split
  · assumption
  · rfl

theorem writeOffEffect_overrun (line : SettlementLine) : (writeOffEffect fl line).overrun = 0 := by
  unfold writeOffEffect
  split <;> rfl

theorem loop_overrun_same (effect : SettlementLine → LineEffect) (p : Progress) (lines : List SettlementLine)
    (h : ∀ line, (effect line).overrun = 0) :
    (loop SettlementLine.meter effect p lines).overrun = p.overrun := by
  unfold loop
  induction lines generalizing p with
  | nil => rfl
  | cons line rest ih =>
    rw [List.foldl_cons, ih]
    simp [Progress.apply, h]

theorem conservativeSettle_accept (view view' : BudgetAvailableView) (settlement : SettlementRecord)
    (cmd : ConservativeCommand) (result : Option SettlementRecord)
    (h : conservativeSettle fl view settlement cmd = .accept result view') :
    ∃ settlement', result = some settlement' ∧ Exited fl view settlement settlement' view' := by
  unfold conservativeSettle at h
  split at h
  · cases h
  · rename_i record hopen
    obtain ⟨rfl, hstate, _, hsafe, hnodup, hcovered, -, -⟩ := openQuarantine_ok _ _ _ _ _ hopen
    injection h with hs hv
    rw [writeOff_loop] at hs hv
    refine ⟨_, hs.symm, ?_⟩
    rw [← hv]
    refine exited_of_loop view record _ (writeOffEffect fl) _ rfl rfl ?_ hstate ?_ hnodup hcovered
      (fun line hline => writeOffEffect_balanced line (isSafeCount_nonneg _ (hsafe line hline).quarantined)) _
    · exact (loop_overrun_same (writeOffEffect fl) ⟨OrdMap.empty, [], record.overrun⟩ record.lines writeOffEffect_overrun).symm
    · intro _ line hline
      rw [loop_lines, List.nil_append] at hline
      obtain ⟨l, _, rfl⟩ := List.mem_map.mp hline
      exact writeOffEffect_quarantined l

/-! ### Closing -/

theorem closeSettledView_accept (view view' : BudgetAvailableView) (settlements : List SettlementRecord)
    (cmd : CloseCommand) (result : Option SettlementRecord)
    (h : closeSettledView fl view settlements cmd = .accept result view') : view'.meters = view.meters := by
  unfold closeSettledView at h
  split at h
  · cases h
  · split at h
    · cases h
    · injection h with _ hv
      rw [← hv]
      exact List.map_id' view.meters

end Arithmetic

end MoeNG.Budget.Settlement
