import MoeNG.Budget.RunRef
import MoeNG.Lib.Rounding

/-!
# Protected admission reservations (`budget/budget-reservation.ts`)

Admission moves a five-purpose amount set from AVAILABLE to RESERVED in one
all-or-none step, activation moves nothing, cancellation refunds the whole set.
Record shapes are the types below; every value check of the source is explicit.
The source adds doubles: `fl` rounds each sum of counts, and is `double` for the
numbers of the source and `exactly` for the integers they stand for. Each
operation has one spec lemma that says what an accepted call did.
-/

namespace MoeNG.Budget
open MoeNG.Kernel MoeNG.Lib

/-! ### Vocabulary (`budget-reservation.ts:33-86`) -/

inductive AdmissionPurpose where
  | EXECUTION
  | VERIFICATION
  | INDEPENDENT_REVIEW
  | FINAL_ACCEPTANCE
  | CONTINGENCY
  deriving DecidableEq

def protectedAdmissionPurposes : List AdmissionPurpose :=
  [.VERIFICATION, .INDEPENDENT_REVIEW, .FINAL_ACCEPTANCE, .CONTINGENCY]

inductive ReservationState where
  | RESERVED
  | ACTIVATED
  | CANCELLED
  deriving DecidableEq

inductive BudgetPolicyOutcome where
  | ALLOW
  | REQUIRE_HUMAN_APPROVAL
  | HOLD_UNKNOWN
  | DENY
  deriving DecidableEq

inductive ApprovalDecision where
  | APPROVE
  | REJECT
  deriving DecidableEq

inductive ApprovalValidity where
  | CURRENT
  | INVALIDATED
  | SUPERSEDED
  deriving DecidableEq

inductive BudgetReservationIssueCode where
  | ACCOUNT_NOT_OPEN
  | ALREADY_SETTLED
  | APPROVAL_NOT_CURRENT
  | COUNTER_EXHAUSTED
  | DUPLICATE_PURPOSE
  | EXECUTION_MISSING
  | GATE_ABSENT
  | GATE_MALFORMED
  | IDENTITY_MISMATCH
  | INSUFFICIENT_AVAILABLE
  | INSUFFICIENT_RESERVED
  | INVALID_QUANTITY
  | MALFORMED
  | NEVER_STARTED_PROOF_MISSING
  | POLICY_NOT_ALLOWED
  | PROTECTED_PURPOSE_MISSING
  | STALE_VERSION
  | UNKNOWN_METER
  deriving DecidableEq

def BudgetReservationIssueCode.text : BudgetReservationIssueCode → String
  | ACCOUNT_NOT_OPEN => "BUDGET_RESERVATION_ACCOUNT_NOT_OPEN"
  | ALREADY_SETTLED => "BUDGET_RESERVATION_ALREADY_SETTLED"
  | APPROVAL_NOT_CURRENT => "BUDGET_RESERVATION_APPROVAL_NOT_CURRENT"
  | COUNTER_EXHAUSTED => "BUDGET_RESERVATION_COUNTER_EXHAUSTED"
  | DUPLICATE_PURPOSE => "BUDGET_RESERVATION_DUPLICATE_PURPOSE"
  | EXECUTION_MISSING => "BUDGET_RESERVATION_EXECUTION_MISSING"
  | GATE_ABSENT => "BUDGET_RESERVATION_GATE_ABSENT"
  | GATE_MALFORMED => "BUDGET_RESERVATION_GATE_MALFORMED"
  | IDENTITY_MISMATCH => "BUDGET_RESERVATION_IDENTITY_MISMATCH"
  | INSUFFICIENT_AVAILABLE => "BUDGET_RESERVATION_INSUFFICIENT_AVAILABLE"
  | INSUFFICIENT_RESERVED => "BUDGET_RESERVATION_INSUFFICIENT_RESERVED"
  | INVALID_QUANTITY => "BUDGET_RESERVATION_INVALID_QUANTITY"
  | MALFORMED => "BUDGET_RESERVATION_MALFORMED"
  | NEVER_STARTED_PROOF_MISSING => "BUDGET_RESERVATION_NEVER_STARTED_PROOF_MISSING"
  | POLICY_NOT_ALLOWED => "BUDGET_RESERVATION_POLICY_NOT_ALLOWED"
  | PROTECTED_PURPOSE_MISSING => "BUDGET_RESERVATION_PROTECTED_PURPOSE_MISSING"
  | STALE_VERSION => "BUDGET_RESERVATION_STALE_VERSION"
  | UNKNOWN_METER => "BUDGET_RESERVATION_UNKNOWN_METER"

structure BudgetReservationIssue where
  code : BudgetReservationIssueCode
  message : JsString
  deriving DecidableEq

-- the ledger-derived projection this module reserves within: one account, its buckets
structure BudgetAvailableView where
  accountId : JsString
  state : BudgetAccountState
  version : ℤ
  meters : List BudgetMeterBuckets
  deriving DecidableEq

structure ReservationLine where
  purpose : AdmissionPurpose
  meter : JsString
  quantity : ℤ
  deriving DecidableEq

structure AdmissionRequest where
  admissionRef : JsString
  expectedVersion : ℤ
  amounts : List ReservationLine
  deriving DecidableEq

structure AdmissionPolicyAllowance where
  decisionRef : JsString
  outcome : BudgetPolicyOutcome
  deriving DecidableEq

structure AdmissionHumanApproval where
  approvalRef : JsString
  decision : ApprovalDecision
  validity : ApprovalValidity
  deriving DecidableEq

structure AdmissionGate where
  allowance : Option AdmissionPolicyAllowance
  approval : Option AdmissionHumanApproval
  deriving DecidableEq

structure ReservationRecord where
  reservationId : JsString
  accountId : JsString
  admissionRef : JsString
  state : ReservationState
  version : ℤ
  lines : List ReservationLine
  attemptRef : Option JsString
  neverStartedProofRef : Option JsString
  deriving DecidableEq

structure ReservationActivateCommand where
  expectedVersion : ℤ
  attemptRef : JsString

structure ReservationCancelCommand where
  expectedVersion : ℤ
  neverStartedProofRef : Option JsString

inductive BudgetReservationResult where
  | accept (reservation : ReservationRecord) (view : BudgetAvailableView)
  | fail (view : BudgetAvailableView) (reservation : Option ReservationRecord)
      (issues : List BudgetReservationIssue)
  deriving DecidableEq

/-! ### Arithmetic -/

/-- Sums of doubles. -/
def double : Rounding 53 := Rounding.nearestEven 53 (by decide)

/-- Sums of integers. -/
def exactly : Rounding 53 := Rounding.exactly 53

@[simp] theorem exactly_apply (z : ℤ) : exactly z = z := rfl

section Arithmetic
variable (fl : Rounding 53)

/-! ### Readers and checks (`budget-reservation.ts:88-190`) -/

namespace Reservation

def maxAdmissionLines : ℕ := maxBudgetMeters * 5

def isRefOrNull (value : Option JsString) : Bool := value.all isRef

def issue (code : BudgetReservationIssueCode) : BudgetReservationIssue :=
  ⟨code, restate "BUDGET_RESERVATION_" code.text⟩

def fail (view : BudgetAvailableView) (reservation : Option ReservationRecord)
    (code : BudgetReservationIssueCode) : BudgetReservationResult :=
  .fail view reservation [issue code]

def bucketOf (view : BudgetAvailableView) (meter : JsString) : Option BudgetMeterBuckets :=
  view.meters.find? fun entry => entry.meter = meter

def readLines (value : List ReservationLine) : Option (List ReservationLine) :=
  if value.length = 0 ∨ value.length > maxAdmissionLines then none
  else if value.all fun item => isRef item.meter then some value else none

def isBuckets (entry : BudgetMeterBuckets) : Bool :=
  isRef entry.meter && isSafeCount entry.available && isSafeCount entry.reserved
    && isSafeCount entry.quarantined && isSafeCount entry.committed

def isView (value : BudgetAvailableView) : Bool :=
  isRef value.accountId && isSafeCount value.version
    && 0 < value.meters.length && value.meters.length ≤ maxBudgetMeters
    && value.meters.all isBuckets
    && !hasDuplicates (value.meters.map fun entry => entry.meter)

def deriveReservationId (accountId admissionRef : JsString) : JsString :=
  lit "reservation:" ++ decimal accountId.length ++ lit ":" ++ accountId ++ lit ":" ++ admissionRef

def checkLines (lines : List ReservationLine) : Option BudgetReservationIssueCode :=
  -- the purposes have no blank in their text, so the joined key is the pair
  let keys := lines.map fun line => (line.purpose, line.meter)
  let present := lines.map fun line => line.purpose
  firstOf [
    (hasDuplicates keys, .DUPLICATE_PURPOSE),
    (lines.any fun line => !isSafeCount line.quantity || line.quantity = 0, .INVALID_QUANTITY),
    (protectedAdmissionPurposes.any fun p => p ∉ present, .PROTECTED_PURPOSE_MISSING),
    (AdmissionPurpose.EXECUTION ∉ present, .EXECUTION_MISSING)]

def readGate (gate : AdmissionGate) : Option AdmissionGate :=
  if gate.allowance.any fun one => !isRef one.decisionRef then none
  else if gate.approval.any fun two => !isRef two.approvalRef then none
  else some gate

def checkGate (gate : AdmissionGate) : Option BudgetReservationIssueCode :=
  firstOf [
    (gate.allowance.any fun one => one.outcome ≠ .ALLOW, .POLICY_NOT_ALLOWED),
    (gate.approval.any fun two => two.decision ≠ .APPROVE ∨ two.validity ≠ .CURRENT, .APPROVAL_NOT_CURRENT),
    (gate.allowance.isNone && gate.approval.isNone, .GATE_ABSENT)]

def totalPerMeter (lines : List ReservationLine) : OrdMap JsString ℤ :=
  fl.tally ReservationLine.meter ReservationLine.quantity lines

def shiftRow (totals : OrdMap JsString ℤ) (sign : ℤ) (entry : BudgetMeterBuckets) : BudgetMeterBuckets :=
  let moved := sign * (totals.get entry.meter).getD 0
  { entry with available := fl (entry.available - moved), reserved := fl (entry.reserved + moved) }

def shiftView (view : BudgetAvailableView) (totals : OrdMap JsString ℤ) (sign : ℤ) : BudgetAvailableView :=
  ⟨view.accountId, view.state, view.version + 1, view.meters.map (shiftRow fl totals sign)⟩

def unknownMeter (view : BudgetAvailableView) (totals : OrdMap JsString ℤ) : Bool :=
  totals.keys.any fun meter => (bucketOf view meter).isNone

end Reservation

/-! ### Operations (`budget-reservation.ts:192-237`) -/

open Reservation in
def reserveForAdmission (view : BudgetAvailableView) (request : AdmissionRequest) (gate : AdmissionGate) :
    BudgetReservationResult :=
  match readLines request.amounts with
  | none => fail view none .MALFORMED
  | some lines =>
    if !isView view || !isRef request.admissionRef || !isSafeCount request.expectedVersion then
      fail view none .MALFORMED
    else
      match readGate gate with
      | none => fail view none .GATE_MALFORMED
      | some supplied =>
        let totals := totalPerMeter fl lines
        let code := (checkLines lines).or ((firstOf [
          (view.state ≠ .OPEN, .ACCOUNT_NOT_OPEN),
          (view.version ≥ maxBudgetVersion, .COUNTER_EXHAUSTED),
          (view.version ≠ request.expectedVersion, .STALE_VERSION),
          (unknownMeter view totals, .UNKNOWN_METER),
          (totals.entries.any fun e => ((bucketOf view e.1).map (·.available)).getD 0 < e.2,
            .INSUFFICIENT_AVAILABLE)]).or (checkGate supplied))
        match code with
        | some code => fail view none code
        | none => .accept
            { reservationId := deriveReservationId view.accountId request.admissionRef
              accountId := view.accountId, admissionRef := request.admissionRef
              state := .RESERVED, version := 0, lines := lines
              attemptRef := none, neverStartedProofRef := none }
            (shiftView fl view totals 1)

namespace Reservation

-- re-derives identity and re-checks the whole purpose set, so a tampered record cannot transition
def checkTransition (view : BudgetAvailableView) (reservation : ReservationRecord) (expectedVersion : ℤ) :
    Except BudgetReservationIssueCode ReservationRecord :=
  match readLines reservation.lines with
  | none => .error .MALFORMED
  | some lines =>
    if !isView view || !isRef reservation.reservationId || !isRef reservation.accountId
        || !isRef reservation.admissionRef || !isSafeCount reservation.version
        || !isRefOrNull reservation.attemptRef || !isRefOrNull reservation.neverStartedProofRef then
      .error .MALFORMED
    else
      match (checkLines lines).or (firstOf [
          (reservation.accountId ≠ view.accountId
            ∨ reservation.reservationId ≠ deriveReservationId reservation.accountId reservation.admissionRef,
            .IDENTITY_MISMATCH),
          (reservation.version ≠ expectedVersion, .STALE_VERSION),
          (reservation.state ≠ .RESERVED, .ALREADY_SETTLED)]) with
      | some code => .error code
      | none => .ok { reservation with lines := lines }

end Reservation

open Reservation in
def activateReservation (view : BudgetAvailableView) (reservation : ReservationRecord)
    (command : ReservationActivateCommand) : BudgetReservationResult :=
  if !isSafeCount command.expectedVersion || !isRef command.attemptRef then
    fail view (some reservation) .MALFORMED
  else
    match checkTransition view reservation command.expectedVersion with
    | .error code => fail view (some reservation) code
    | .ok record => .accept
        { record with state := .ACTIVATED, version := record.version + 1, attemptRef := some command.attemptRef } view

open Reservation in
def cancelReservation (view : BudgetAvailableView) (reservation : ReservationRecord)
    (command : ReservationCancelCommand) : BudgetReservationResult :=
  if !isSafeCount command.expectedVersion || !isRefOrNull command.neverStartedProofRef then
    fail view (some reservation) .MALFORMED
  else
    match checkTransition view reservation command.expectedVersion with
    | .error code => fail view (some reservation) code
    | .ok record =>
      let totals := totalPerMeter fl record.lines
      match firstOf [
          (command.neverStartedProofRef.isNone, .NEVER_STARTED_PROOF_MISSING),
          (view.version ≥ maxBudgetVersion, .COUNTER_EXHAUSTED),
          (unknownMeter view totals, .UNKNOWN_METER),
          (totals.entries.any fun e => ((bucketOf view e.1).map (·.reserved)).getD 0 < e.2,
            .INSUFFICIENT_RESERVED)] with
      | some code => fail view (some reservation) code
      | none => .accept
          { record with state := .CANCELLED, version := record.version + 1,
                        neverStartedProofRef := command.neverStartedProofRef }
          (shiftView fl view totals (-1))

/-! ### What an accepted call did -/

structure BudgetMeterBuckets.Safe (row : BudgetMeterBuckets) : Prop where
  available : isSafeCount row.available = true
  reserved : isSafeCount row.reserved = true
  quarantined : isSafeCount row.quarantined = true
  committed : isSafeCount row.committed = true

theorem isSafeCount_iff (value : ℤ) : isSafeCount value = true ↔ 0 ≤ value ∧ value ≤ maxSafeInteger := by
  simp only [isSafeCount, decide_eq_true_eq]

theorem BudgetMeterBuckets.safe_iff (row : BudgetMeterBuckets) : row.Safe ↔ row.Nonneg
    ∧ row.available ≤ maxSafeInteger ∧ row.reserved ≤ maxSafeInteger ∧ row.quarantined ≤ maxSafeInteger
    ∧ row.committed ≤ maxSafeInteger := by
  constructor
  · rintro ⟨ha, hr, hq, hc⟩
    rw [isSafeCount_iff] at ha hr hq hc
    exact ⟨⟨ha.1, hr.1, hq.1, hc.1⟩, ha.2, hr.2, hq.2, hc.2⟩
  · rintro ⟨⟨ha, hr, hq, hc⟩, ha', hr', hq', hc'⟩
    exact ⟨(isSafeCount_iff _).mpr ⟨ha, ha'⟩, (isSafeCount_iff _).mpr ⟨hr, hr'⟩, (isSafeCount_iff _).mpr ⟨hq, hq'⟩,
      (isSafeCount_iff _).mpr ⟨hc, hc'⟩⟩

/-- Rounding moves no sum across the ceiling of the counts. -/
theorem isSafeCount_fl (value : ℤ) : isSafeCount (fl value) = isSafeCount value := by
  have hnonneg := fl.nonneg_iff value
  have hbound := fl.lt_bound_iff value
  rw [Bool.eq_iff_iff, isSafeCount_iff, isSafeCount_iff]
  unfold maxSafeInteger
  omega

theorem fl_of_safe (value : ℤ) (h : isSafeCount value = true) : fl value = value := by
  obtain ⟨h0, hle⟩ := (isSafeCount_iff value).mp h
  unfold maxSafeInteger at hle
  exact fl.exact_of_le value h0 (by omega)

namespace Reservation

theorem readLines_some (value lines : List ReservationLine) (h : readLines value = some lines) : lines = value := by
  unfold readLines at h
  split at h
  · cases h
  · split at h
    · exact (Option.some.inj h).symm
    · cases h

theorem checkLines_quantity (lines : List ReservationLine) (h : checkLines lines = none) :
    ∀ line ∈ lines, 0 < line.quantity := by
  unfold checkLines at h
  simp only [firstOf_cons_eq_none] at h
  obtain ⟨_, hq, _⟩ := h
  intro line hline
  have hone := List.any_eq_false.mp hq line hline
  simp only [Bool.or_eq_true, not_or, Bool.not_eq_true, Bool.not_eq_false', decide_eq_true_eq] at hone
  have hnonneg := isSafeCount_nonneg _ hone.1
  omega

/-- One meter's share of a line set. -/
def lineSum (lines : List ReservationLine) (meter : JsString) : ℤ :=
  OrdMap.sumAt ReservationLine.meter ReservationLine.quantity lines meter

theorem lineSum_nonneg (lines : List ReservationLine) (h : checkLines lines = none) (meter : JsString) :
    0 ≤ lineSum lines meter :=
  OrdMap.sumAt_nonneg _ _ _ _ fun line hline => le_of_lt (checkLines_quantity lines h line hline)

theorem shiftRow_eq (lines : List ReservationLine) (sign : ℤ) (entry : BudgetMeterBuckets) :
    shiftRow fl (totalPerMeter exactly lines) sign entry =
      { entry with available := fl (entry.available - sign * lineSum lines entry.meter),
                   reserved := fl (entry.reserved + sign * lineSum lines entry.meter) } := by
  unfold shiftRow totalPerMeter lineSum exactly
  rw [Rounding.tally_exactly, OrdMap.getD_tally]

/-- Precision can only be lost above the ceiling of the bucket the total is checked against. -/
theorem totalPerMeter_exact (lines : List ReservationLine) (hlines : ∀ line ∈ lines, 0 ≤ line.quantity)
    (h : ∀ e ∈ (totalPerMeter fl lines).entries, e.2 ≤ maxSafeInteger) : totalPerMeter fl lines
      = totalPerMeter exactly lines := by
  refine fl.tally_eq _ _ lines hlines fun meter => ?_
  cases hget : (fl.tally ReservationLine.meter ReservationLine.quantity lines).get meter with
  | none => decide
  | some total =>
    have hle : total ≤ 2 ^ 53 - 1 := h _ (OrdMap.mem_entries_of_get _ _ _ hget)
    rw [Option.getD_some]
    omega

theorem bucketOf_row (view : BudgetAvailableView) (hv : (view.meters.map fun e => e.meter).Nodup)
    (row : BudgetMeterBuckets) (hrow : row ∈ view.meters) : bucketOf view row.meter = some row :=
  find_key_of_mem BudgetMeterBuckets.meter view.meters hv row hrow

theorem isView_nodup (view : BudgetAvailableView) (h : isView view = true) :
    (view.meters.map fun e => e.meter).Nodup := by
  unfold isView at h
  simp only [Bool.and_eq_true, Bool.not_eq_true'] at h
  exact (hasDuplicates_eq_false _).mp h.2

theorem isBuckets_iff (row : BudgetMeterBuckets) : isBuckets row = true ↔ isRef row.meter = true ∧ row.Safe := by
  simp only [isBuckets, Bool.and_eq_true]
  exact ⟨fun ⟨⟨⟨⟨hm, ha⟩, hr⟩, hq⟩, hc⟩ => ⟨hm, ha, hr, hq, hc⟩, fun ⟨hm, ha, hr, hq, hc⟩ => ⟨⟨⟨⟨hm, ha⟩, hr⟩, hq⟩, hc⟩⟩

theorem isView_safe (view : BudgetAvailableView) (h : isView view = true) : ∀ row ∈ view.meters, row.Safe := by
  intro row hrow
  unfold isView at h
  simp only [Bool.and_eq_true] at h
  exact ((isBuckets_iff row).mp (List.all_eq_true.mp h.1.2 row hrow)).2

theorem isView_nonneg (view : BudgetAvailableView) (h : isView view = true) : ∀ row ∈ view.meters, row.Nonneg :=
  fun row hrow => (row.safe_iff.mp (isView_safe view h row hrow)).1

/-- A per-meter sufficiency check that passed has summed exactly and covers every row of the view. -/
theorem covered_of_check (view : BudgetAvailableView) (lines : List ReservationLine)
    (hv : (view.meters.map fun e => e.meter).Nodup) (hlines : ∀ line ∈ lines, 0 ≤ line.quantity)
    (amount : BudgetMeterBuckets → ℤ) (hamount : ∀ row ∈ view.meters, isSafeCount (amount row) = true)
    (h : ((totalPerMeter fl lines).entries.any fun e => ((bucketOf view e.1).map amount).getD 0 < e.2) = false) :
    totalPerMeter fl lines = totalPerMeter exactly lines ∧ ∀ row ∈ view.meters, lineSum lines row.meter ≤ amount row := by
  have hexact : totalPerMeter fl lines = totalPerMeter exactly lines := by
    refine totalPerMeter_exact fl lines hlines fun e he => ?_
    have hcheck := List.any_eq_false.mp h e he
    rw [decide_eq_true_eq, not_lt] at hcheck
    refine hcheck.trans ?_
    cases hbucket : bucketOf view e.1 with
    | none => exact (by decide : (0 : ℤ) ≤ maxSafeInteger)
    | some row => exact ((isSafeCount_iff _).mp (hamount row (List.mem_of_find?_eq_some hbucket))).2
  refine ⟨hexact, fun row hrow => ?_⟩
  rw [hexact] at h
  by_cases hm : row.meter ∈ lines.map ReservationLine.meter
  · have hentry := (OrdMap.mem_entries_tally ReservationLine.meter ReservationLine.quantity lines row.meter _).mpr
      ⟨hm, rfl⟩
    have hcheck := List.any_eq_false.mp h _ hentry
    rw [bucketOf_row view hv row hrow] at hcheck
    simp only [Option.map_some, Option.getD_some, decide_eq_true_eq, not_lt] at hcheck
    exact hcheck
  · have hzero : lineSum lines row.meter = 0 := OrdMap.sumAt_eq_zero _ _ _ _ hm
    have hnonneg := isSafeCount_nonneg _ (hamount row hrow)
    omega

end Reservation

open Reservation

theorem reserveForAdmission_accept (view view' : BudgetAvailableView) (request : AdmissionRequest)
    (gate : AdmissionGate) (r : ReservationRecord) (h : reserveForAdmission fl view request gate = .accept r view') :
    isView view = true ∧ view.version < maxBudgetVersion ∧ checkLines request.amounts = none
      ∧ (∀ row ∈ view.meters, lineSum request.amounts row.meter ≤ row.available)
      ∧ r = { reservationId := deriveReservationId view.accountId request.admissionRef
              accountId := view.accountId, admissionRef := request.admissionRef
              state := .RESERVED, version := 0, lines := request.amounts
              attemptRef := none, neverStartedProofRef := none }
      ∧ totalPerMeter fl request.amounts = totalPerMeter exactly request.amounts
      ∧ view' = shiftView fl view (totalPerMeter exactly request.amounts) 1 := by
  unfold reserveForAdmission at h
  split at h
  · cases h
  · rename_i lines hlines
    have heq := readLines_some _ _ hlines
    subst heq
    split at h
    · cases h
    · rename_i hshape
      simp only [Bool.or_eq_true, not_or, Bool.not_eq_true, Bool.not_eq_false'] at hshape
      obtain ⟨⟨hview, _⟩, _⟩ := hshape
      split at h
      · cases h
      · dsimp only at h
        split at h
        · cases h
        · rename_i hcode
          simp only [Option.or_eq_none_iff] at hcode
          obtain ⟨hlines, hchecks, _⟩ := hcode
          simp only [firstOf_cons_eq_none] at hchecks
          obtain ⟨_, hversion, _, _, hshort, _⟩ := hchecks
          injection h with hr hv
          obtain ⟨hexact, hcovered⟩ := covered_of_check fl view _ (isView_nodup view hview)
            (fun line hline => (checkLines_quantity _ hlines line hline).le) (·.available)
            (fun row hrow => (isView_safe view hview row hrow).available) hshort
          exact ⟨hview, not_le.mp (of_decide_eq_false hversion), hlines, hcovered, hr.symm, hexact, hexact ▸ hv.symm⟩

theorem checkTransition_ok (view : BudgetAvailableView) (reservation record : ReservationRecord)
    (expectedVersion : ℤ) (h : checkTransition view reservation expectedVersion = .ok record) :
    isView view = true ∧ checkLines reservation.lines = none ∧ reservation.state = .RESERVED
      ∧ record = reservation := by
  unfold checkTransition at h
  split at h
  · cases h
  · rename_i lines hlines
    have heq := readLines_some _ _ hlines
    subst heq
    split at h
    · cases h
    · rename_i hshape
      simp only [Bool.or_eq_true, not_or, Bool.not_eq_true, Bool.not_eq_false'] at hshape
      split at h
      · cases h
      · rename_i hcode
        simp only [Option.or_eq_none_iff] at hcode
        obtain ⟨hcheck, hstate⟩ := hcode
        simp only [firstOf_cons_eq_none] at hstate
        obtain ⟨_, _, hres, _⟩ := hstate
        injection h with hrec
        exact ⟨hshape.1.1.1.1.1.1, hcheck, by simpa using hres, hrec.symm⟩

theorem activateReservation_accept (view view' : BudgetAvailableView) (reservation r : ReservationRecord)
    (command : ReservationActivateCommand) (h : activateReservation view reservation command = .accept r view') :
    reservation.state = .RESERVED
      ∧ r = { reservation with state := .ACTIVATED, version := reservation.version + 1,
                               attemptRef := some command.attemptRef }
      ∧ view' = view := by
  unfold activateReservation at h
  split at h
  · cases h
  · split at h
    · cases h
    · rename_i record hrecord
      obtain ⟨_, _, hstate, heq⟩ := checkTransition_ok _ _ _ _ hrecord
      subst heq
      injection h with hr hv
      exact ⟨hstate, hr.symm, hv.symm⟩

theorem cancelReservation_accept (view view' : BudgetAvailableView) (reservation r : ReservationRecord)
    (command : ReservationCancelCommand) (h : cancelReservation fl view reservation command = .accept r view') :
    isView view = true ∧ view.version < maxBudgetVersion ∧ checkLines reservation.lines = none ∧ reservation.state = .RESERVED
      ∧ (∀ row ∈ view.meters, lineSum reservation.lines row.meter ≤ row.reserved)
      ∧ r = { reservation with state := .CANCELLED, version := reservation.version + 1,
                               neverStartedProofRef := command.neverStartedProofRef }
      ∧ view' = shiftView fl view (totalPerMeter exactly reservation.lines) (-1) := by
  unfold cancelReservation at h
  split at h
  · cases h
  · split at h
    · cases h
    · rename_i record hrecord
      obtain ⟨hview, hlines, hstate, heq⟩ := checkTransition_ok _ _ _ _ hrecord
      subst heq
      dsimp only at h
      split at h
      · cases h
      · rename_i hcode
        simp only [firstOf_cons_eq_none] at hcode
        obtain ⟨_, hversion, _, hshort, _⟩ := hcode
        injection h with hr hv
        obtain ⟨hexact, hcovered⟩ := covered_of_check fl view _ (isView_nodup view hview)
          (fun line hline => (checkLines_quantity _ hlines line hline).le) (·.reserved)
          (fun row hrow => (isView_safe view hview row hrow).reserved) hshort
        exact ⟨hview, not_le.mp (of_decide_eq_false hversion), hlines, hstate, hcovered, hr.symm, hexact ▸ hv.symm⟩

end Arithmetic

end MoeNG.Budget
