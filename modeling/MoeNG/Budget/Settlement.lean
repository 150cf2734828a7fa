import MoeNG.Budget.Reservation

/-!
# Settlement and reconciliation (`budget/budget-settlement.ts`)

An exact receipt commits RESERVED to COMMITTED and refunds the proven
remainder, a partial one commits its lower bound and quarantines the rest, an
unknown or missing one quarantines the whole hold. Use above the hold enters
COMMITTED and is recorded as overrun at the same time. Sums of counts are
rounded by `fl`; differences of counts are exact in doubles.
-/

namespace MoeNG.Budget
open MoeNG.Kernel hiding isRef
open MoeNG.Lib

/-! ### Vocabulary (`budget-settlement.ts:20-60`) -/

inductive BudgetSettlementIssueCode where
  | ACKNOWLEDGEMENT_MISSING
  | ALREADY_SETTLED
  | COUNTER_EXHAUSTED
  | DUPLICATE_METER
  | EVIDENCE_AMBIGUOUS
  | IDENTITY_MISMATCH
  | ILLEGAL_CLOSE
  | INSUFFICIENT_QUARANTINED
  | INSUFFICIENT_RESERVED
  | MALFORMED
  | MEASUREMENT_CONFLICT
  | NOT_ACTIVATED
  | SEQUENCE_STALE
  | STALE_VERSION
  | UNCORRELATED_MEASUREMENT
  | UNKNOWN_METER
  deriving DecidableEq

def BudgetSettlementIssueCode.text : BudgetSettlementIssueCode → String
  | ACKNOWLEDGEMENT_MISSING => "BUDGET_SETTLEMENT_ACKNOWLEDGEMENT_MISSING"
  | ALREADY_SETTLED => "BUDGET_SETTLEMENT_ALREADY_SETTLED"
  | COUNTER_EXHAUSTED => "BUDGET_SETTLEMENT_COUNTER_EXHAUSTED"
  | DUPLICATE_METER => "BUDGET_SETTLEMENT_DUPLICATE_METER"
  | EVIDENCE_AMBIGUOUS => "BUDGET_SETTLEMENT_EVIDENCE_AMBIGUOUS"
  | IDENTITY_MISMATCH => "BUDGET_SETTLEMENT_IDENTITY_MISMATCH"
  | ILLEGAL_CLOSE => "BUDGET_SETTLEMENT_ILLEGAL_CLOSE"
  | INSUFFICIENT_QUARANTINED => "BUDGET_SETTLEMENT_INSUFFICIENT_QUARANTINED"
  | INSUFFICIENT_RESERVED => "BUDGET_SETTLEMENT_INSUFFICIENT_RESERVED"
  | MALFORMED => "BUDGET_SETTLEMENT_MALFORMED"
  | MEASUREMENT_CONFLICT => "BUDGET_SETTLEMENT_MEASUREMENT_CONFLICT"
  | NOT_ACTIVATED => "BUDGET_SETTLEMENT_NOT_ACTIVATED"
  | SEQUENCE_STALE => "BUDGET_SETTLEMENT_SEQUENCE_STALE"
  | STALE_VERSION => "BUDGET_SETTLEMENT_STALE_VERSION"
  | UNCORRELATED_MEASUREMENT => "BUDGET_SETTLEMENT_UNCORRELATED_MEASUREMENT"
  | UNKNOWN_METER => "BUDGET_SETTLEMENT_UNKNOWN_METER"

structure BudgetSettlementIssue where
  code : BudgetSettlementIssueCode
  message : JsString
  deriving DecidableEq

inductive SettlementState where
  | QUARANTINED
  | SETTLED
  | WRITTEN_OFF
  deriving DecidableEq

inductive LineDisposition where
  | EXACT
  | LOWER_BOUND
  | UNKNOWN_HELD
  | CONSERVATIVE_WRITE_OFF
  | NEVER_STARTED_REFUND
  deriving DecidableEq

structure BudgetOverrun where
  meter : JsString
  amount : ℤ
  deriving DecidableEq

structure SettlementLine where
  meter : JsString
  reserved : ℤ
  committed : ℤ
  refunded : ℤ
  quarantined : ℤ
  disposition : LineDisposition
  identity : Option JsString
  sequence : Option ℤ
  deriving DecidableEq

structure SettlementRecord where
  settlementId : JsString
  reservationId : JsString
  accountId : JsString
  attemptRef : JsString
  version : ℤ
  state : SettlementState
  lines : List SettlementLine
  unknownExternalLiability : Bool
  overrun : List BudgetOverrun
  deriving DecidableEq

structure SettleEvidence where
  measurements : List NormalizedMeasurement

structure ReconcileEvidence where
  measurements : Option (List NormalizedMeasurement)
  neverStartedProofRef : Option JsString

structure SettleCommand where
  expectedViewVersion : ℤ
  expectedReservationVersion : ℤ
  prior : Option SettlementRecord

structure SettlementCommand where
  expectedViewVersion : ℤ
  expectedSettlementVersion : ℤ

structure ConservativeCommand extends SettlementCommand where
  acknowledgementRef : JsString
  enforceableUpperBound : Bool

structure CloseCommand where
  expectedVersion : ℤ

inductive BudgetSettlementResult where
  | accept (settlement : Option SettlementRecord) (view : BudgetAvailableView)
  | fail (view : BudgetAvailableView) (settlement : Option SettlementRecord)
      (issues : List BudgetSettlementIssue)
  deriving DecidableEq

section Arithmetic
variable (fl : Rounding 53)

/-! ### Readers (`budget-settlement.ts:61-118`) -/

namespace Settlement

def maxRefLength : ℕ := 512
def maxLines : ℕ := 512

def resolved : List LineDisposition := [.EXACT, .CONSERVATIVE_WRITE_OFF, .NEVER_STARTED_REFUND]

def isRef (value : JsString) : Bool := 0 < value.length && value.length ≤ maxRefLength

def issue (code : BudgetSettlementIssueCode) : BudgetSettlementIssue :=
  ⟨code, restate "BUDGET_SETTLEMENT_" code.text⟩

def fail (view : BudgetAvailableView) (settlement : Option SettlementRecord)
    (code : BudgetSettlementIssueCode) : BudgetSettlementResult :=
  .fail view settlement [issue code]

def bucketOf (view : BudgetAvailableView) (meter : JsString) : Option BudgetMeterBuckets :=
  view.meters.find? fun e => e.meter = meter

def fence (view : BudgetAvailableView) (version expectedView expected : ℤ) :
    List (Bool × BudgetSettlementIssueCode) :=
  [(view.version ≥ maxBudgetVersion, .COUNTER_EXHAUSTED),
    (view.version ≠ expectedView ∨ version ≠ expected, .STALE_VERSION)]

def isBuckets (e : BudgetMeterBuckets) : Bool :=
  isRef e.meter && isSafeCount e.available && isSafeCount e.reserved
    && isSafeCount e.quarantined && isSafeCount e.committed

def isView (value : BudgetAvailableView) : Bool :=
  isRef value.accountId && isSafeCount value.version && 0 < value.meters.length
    && value.meters.length ≤ maxLines && value.meters.all isBuckets

def deriveSettlementId (reservationId : JsString) : JsString :=
  lit "settlement:" ++ decimal reservationId.length ++ lit ":" ++ reservationId

def readHolds (value : List ReservationLine) : Option (OrdMap JsString ℤ) :=
  if value.length = 0 ∨ value.length > maxLines then none
  else if value.all fun item => isRef item.meter && isSafeCount item.quantity then
    some (fl.tally ReservationLine.meter ReservationLine.quantity value)
  else none

def isLine (v : SettlementLine) : Bool :=
  isRef v.meter && isSafeCount v.reserved && isSafeCount v.committed && isSafeCount v.refunded
    && isSafeCount v.quarantined && v.identity.all isRef && v.sequence.all isSafeCount

def readSettlement (item : SettlementRecord) : Option SettlementRecord :=
  if !isRef item.reservationId || !isRef item.accountId || !isRef item.attemptRef
      || !isSafeCount item.version || item.settlementId ≠ deriveSettlementId item.reservationId
      || item.lines.length > maxLines || !item.lines.all isLine
      || hasDuplicates (item.lines.map fun l => l.meter) then none
  else some item

structure Reading where
  meter : JsString
  quantity : ℤ
  complete : Bool
  known : Bool
  run : JsString
  sequence : ℤ
  identity : JsString
  deriving DecidableEq

def readMeasurement (item : NormalizedMeasurement) : Option Reading :=
  let inner := item.measurement
  if !isRef item.identity || !isRef inner.meter || !isRef inner.providerRunRef || !isSafeCount inner.sequence then none
  else
    let known : Bool := inner.coverage ≠ .UNKNOWN
    if (if known then !inner.quantity.any isSafeCount else inner.quantity.isSome) then none
    else some
      { meter := inner.meter, quantity := if known then inner.quantity.getD 0 else 0, known := known
        identity := item.identity, complete := inner.coverage = .COMPLETE
        run := inner.providerRunRef, sequence := inner.sequence }

def readReadings (value : List NormalizedMeasurement) : Option (List Reading) :=
  if value.length > maxLines then none else value.mapM readMeasurement

/-! ### Movements (`budget-settlement.ts:119-143`) -/

structure Movement where
  available : ℤ
  reserved : ℤ
  quarantined : ℤ
  committed : ℤ
  deriving DecidableEq

def stateOf (lines : List SettlementLine) : SettlementState :=
  if lines.all fun l => l.quarantined = 0 ∧ l.disposition ∈ resolved then .SETTLED else .QUARANTINED

def shiftRow (e : BudgetMeterBuckets) : Option Movement → BudgetMeterBuckets
  | none => e
  | some m => ⟨e.meter, fl (e.available + m.available), fl (e.reserved + m.reserved),
      fl (e.quarantined + m.quarantined), fl (e.committed + m.committed)⟩

def shift (view : BudgetAvailableView) (moves : OrdMap JsString Movement) (state : BudgetAccountState) :
    BudgetAvailableView :=
  ⟨view.accountId, state, view.version + 1, view.meters.map fun e => shiftRow fl e (moves.get e.meter)⟩

-- the bucket a hold sits in when it is disposed of
inductive HoldBucket where
  | reserved
  | quarantined
  deriving DecidableEq

structure Disposed where
  line : SettlementLine
  move : Movement
  overrun : ℤ

/-- One meter. `credited` is what the hold already committed, so a receipt
quantity is TOTAL measured use and the committed delta is `quantity - credited`. -/
def dispose (meter : JsString) (hold credited : ℤ) (source : HoldBucket) (reading : Option Reading) : Disposed :=
  let identity := reading.map (·.identity)
  let sequence := reading.map (·.sequence)
  let move : Movement := match source with
    | .reserved => ⟨0, -hold, 0, 0⟩
    | .quarantined => ⟨0, 0, -hold, 0⟩
  match reading.filter (·.known) with
  | none =>
    { line := ⟨meter, hold, credited, 0, hold, .UNKNOWN_HELD, identity, sequence⟩
      move := { move with quarantined := move.quarantined + hold }, overrun := 0 }
  | some r =>
    let delta := r.quantity - credited
    let rest := max 0 (hold - delta)
    if r.complete then
      { line := ⟨meter, hold, r.quantity, rest, 0, .EXACT, identity, sequence⟩
        move := { move with committed := move.committed + delta, available := move.available + rest }
        overrun := max 0 (delta - hold) }
    else
      { line := ⟨meter, hold, r.quantity, 0, rest, .LOWER_BOUND, identity, sequence⟩
        move := { move with committed := move.committed + delta, quarantined := move.quarantined + rest }
        overrun := max 0 (delta - hold) }

-- the three accumulators of the settling loops
structure Progress where
  moves : OrdMap JsString Movement
  lines : List SettlementLine
  overrun : List BudgetOverrun

def Progress.push (p : Progress) (meter : JsString) (one : Disposed) : Progress :=
  { moves := p.moves.set meter one.move
    lines := p.lines ++ [one.line]
    overrun := if one.overrun > 0 then p.overrun ++ [⟨meter, one.overrun⟩] else p.overrun }

end Settlement

/-! ### Settling (`budget-settlement.ts:147-190`) -/

namespace Settlement

def settleHolds (held : List (JsString × ℤ)) (readings : List Reading) (p : Progress) : Progress :=
  held.foldl (fun p h => p.push h.1 (dispose h.1 h.2 0 .reserved (readings.find? fun r => r.meter = h.1))) p

end Settlement

open Settlement in
def settleReservation (view : BudgetAvailableView) (record : ReservationRecord) (evidence : SettleEvidence)
    (cmd : SettleCommand) : BudgetSettlementResult :=
  match readHolds fl record.lines, readReadings evidence.measurements with
  | some held, some readings =>
    if !isView view || !isSafeCount cmd.expectedViewVersion || !isSafeCount cmd.expectedReservationVersion
        || !isRef record.reservationId || !isRef record.accountId || !isRef record.admissionRef
        || !isSafeCount record.version then fail view none .MALFORMED
    else
      match firstOf ([
          (decide (record.accountId ≠ view.accountId
            ∨ record.reservationId ≠ Reservation.deriveReservationId record.accountId record.admissionRef),
            BudgetSettlementIssueCode.IDENTITY_MISMATCH),
          (record.state ≠ .ACTIVATED || !record.attemptRef.any isRef, .NOT_ACTIVATED)]
          ++ fence view record.version cmd.expectedViewVersion cmd.expectedReservationVersion ++ [
          (readings.any fun r => decodeProviderRunRefAttempt r.run ≠ record.attemptRef, .UNCORRELATED_MEASUREMENT),
          (hasDuplicates (readings.map fun r => r.meter), .DUPLICATE_METER),
          (readings.any fun r => !held.has r.meter, .UNKNOWN_METER),
          (held.entries.any fun h => ((bucketOf view h.1).map (·.reserved)).getD (-1) < h.2,
            .INSUFFICIENT_RESERVED)]) with
      | some code => fail view none code
      | none =>
        let p := settleHolds held.entries readings ⟨OrdMap.empty, [], []⟩
        let settlement : SettlementRecord :=
          { settlementId := deriveSettlementId record.reservationId, reservationId := record.reservationId
            accountId := record.accountId, attemptRef := record.attemptRef.getD []
            version := 0, state := stateOf p.lines, lines := p.lines
            unknownExternalLiability := false, overrun := p.overrun }
        match cmd.prior with
        | some given =>
          match readSettlement given with
          | none => fail view none .MALFORMED
          -- `canonical` compares structure, key order apart
          | some prior => if prior = settlement then .accept (some given) view else fail view none .ALREADY_SETTLED
        | none => .accept (some settlement)
            (shift fl view p.moves (if p.overrun.length > 0 then .OVERDRAWN else view.state))
  | _, _ => fail view none .MALFORMED

/-! ### Quarantine exits (`budget-settlement.ts:193-255`) -/

namespace Settlement

def openQuarantine (view : BudgetAvailableView) (settlement : SettlementRecord) (cmd : SettlementCommand)
    (extra : SettlementRecord → List (Bool × BudgetSettlementIssueCode)) :
    Except BudgetSettlementIssueCode SettlementRecord :=
  match readSettlement settlement with
  | none => .error .MALFORMED
  | some record =>
    if !isView view || !isSafeCount cmd.expectedViewVersion || !isSafeCount cmd.expectedSettlementVersion then
      .error .MALFORMED
    else
      match firstOf ([
          (decide (record.accountId ≠ view.accountId
            ∨ ¬ (lit "reservation:" ++ decimal record.accountId.length ++ lit ":" ++ record.accountId ++ lit ":")
                <+: record.reservationId), BudgetSettlementIssueCode.IDENTITY_MISMATCH),
          (record.state ≠ .QUARANTINED, .ALREADY_SETTLED)] ++ extra record
          ++ fence view record.version cmd.expectedViewVersion cmd.expectedSettlementVersion ++ [
          (record.lines.any fun l => ((bucketOf view l.meter).map (·.quarantined)).getD (-1) < l.quarantined,
            .INSUFFICIENT_QUARANTINED)]) with
      | some code => .error code
      | none => .ok record

def lineAt (r : SettlementRecord) (meter : JsString) : Option SettlementLine :=
  r.lines.find? fun l => l.meter = meter

def reconcileChecks (readings : Option (List Reading)) (proof : Option JsString) (r : SettlementRecord) :
    List (Bool × BudgetSettlementIssueCode) :=
  let some' (f : Reading → Bool) : Bool := readings.any fun l => l.any f
  [(readings.isNone = proof.isNone, .EVIDENCE_AMBIGUOUS),
    (some' fun x => decodeProviderRunRefAttempt x.run ≠ some r.attemptRef, .UNCORRELATED_MEASUREMENT),
    (readings.any fun l => hasDuplicates (l.map fun x => x.meter), .DUPLICATE_METER),
    (some' fun x => (lineAt r x.meter).all fun l => l.disposition ∈ resolved, .UNKNOWN_METER),
    (some' fun x => x.sequence ≤ (((lineAt r x.meter).bind (·.sequence)).getD (-1)), .SEQUENCE_STALE),
    ((some' fun x => x.known && x.quantity < ((lineAt r x.meter).map (·.committed)).getD 0)
      || (readings.isNone && r.lines.any fun l => l.committed > 0), .MEASUREMENT_CONFLICT)]

def reconcileLine (readings : Option (List Reading)) (p : Progress) (line : SettlementLine) : Progress :=
  let reading := readings.bind fun list => list.find? fun x => x.meter = line.meter
  if line.disposition ∈ resolved ∨ (readings.isSome ∧ reading.isNone) then { p with lines := p.lines ++ [line] }
  else if readings.isNone then
    { p with
      moves := p.moves.set line.meter ⟨line.quarantined, 0, -line.quarantined, 0⟩
      lines := p.lines ++ [{ line with refunded := fl (line.refunded + line.quarantined), quarantined := 0,
                                       disposition := .NEVER_STARTED_REFUND }] }
  else
    let one := dispose line.meter line.quarantined line.committed .quarantined reading
    p.push line.meter { one with line := { one.line with
      reserved := line.reserved, refunded := fl (line.refunded + one.line.refunded) } }

end Settlement

open Settlement in
def reconcileSettlement (view : BudgetAvailableView) (settlement : SettlementRecord) (evidence : ReconcileEvidence)
    (command : SettlementCommand) : BudgetSettlementResult :=
  let proof := evidence.neverStartedProofRef
  let parsed := evidence.measurements.bind readReadings
  if (evidence.measurements.isSome && parsed.isNone) || proof.any (fun ref => !isRef ref) then
    fail view (some settlement) .MALFORMED
  else
    let readings := parsed.filter fun l => l.length > 0
    match openQuarantine view settlement command (reconcileChecks readings proof) with
    | .error code => fail view (some settlement) code
    | .ok record =>
      let p := record.lines.foldl (reconcileLine fl readings) ⟨OrdMap.empty, [], record.overrun⟩
      .accept (some { record with version := record.version + 1, state := stateOf p.lines,
                                  lines := p.lines, overrun := p.overrun })
        (shift fl view p.moves (if p.overrun.length > record.overrun.length then .OVERDRAWN else view.state))

namespace Settlement

def writeOff (p : Progress) (l : SettlementLine) : Progress :=
  if l.quarantined = 0 then { p with lines := p.lines ++ [l] }
  else
    { p with
      moves := p.moves.set l.meter ⟨0, 0, -l.quarantined, l.quarantined⟩
      lines := p.lines ++ [{ l with committed := fl (l.committed + l.quarantined), quarantined := 0,
                                    disposition := .CONSERVATIVE_WRITE_OFF }] }

end Settlement

open Settlement in
def conservativeSettle (view : BudgetAvailableView) (settlement : SettlementRecord)
    (cmd : ConservativeCommand) : BudgetSettlementResult :=
  match openQuarantine view settlement cmd.toSettlementCommand
      (fun _ => [(!isRef cmd.acknowledgementRef, .ACKNOWLEDGEMENT_MISSING)]) with
  | .error code => fail view (some settlement) code
  | .ok record =>
    let p := record.lines.foldl (writeOff fl) ⟨OrdMap.empty, [], record.overrun⟩
    .accept (some { record with version := record.version + 1, state := .WRITTEN_OFF, lines := p.lines,
                                unknownExternalLiability :=
                                  record.unknownExternalLiability || !cmd.enforceableUpperBound })
      (shift fl view p.moves view.state)

/-! ### Close (`budget-settlement.ts:259-273`) -/

open Settlement in
def closeSettledView (view : BudgetAvailableView) (settlements : List SettlementRecord) (cmd : CloseCommand) :
    BudgetSettlementResult :=
  if !isView view || settlements.length > maxLines || settlements.any (fun r => (readSettlement r).isNone)
      || !isSafeCount cmd.expectedVersion then fail view none .MALFORMED
  else
    match firstOf ([
        (settlements.any fun r => r.accountId ≠ view.accountId, BudgetSettlementIssueCode.IDENTITY_MISMATCH)]
        ++ fence view 0 cmd.expectedVersion 0 ++ [
        (view.state ≠ .OPEN || (view.meters.any fun m => fl (fl (m.available + m.reserved) + m.quarantined) > 0)
          || settlements.any fun r => r.state = .QUARANTINED, .ILLEGAL_CLOSE)]) with
    | some code => fail view none code
    | none => .accept none (shift fl view OrdMap.empty
        (if settlements.any fun r => r.unknownExternalLiability then .CLOSED_WITH_UNKNOWN_LIABILITY else .CLOSED))

end Arithmetic

end MoeNG.Budget
