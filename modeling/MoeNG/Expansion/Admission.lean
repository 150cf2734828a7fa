import MoeNG.Authority.Resource
import MoeNG.Budget.ViewClosure

/-!
# Admission of an expansion proposal (`expansion/expansion-admission.ts`, `expansion/expansion-preparation.ts`)

The checks that hold nothing come first; then the budget is reserved, then the
resources. `pureChecks` stands for the former, with the facts `P` they derive,
and `digestOf` for the digest of the bound facts.
-/

namespace MoeNG.Expansion
open MoeNG.Kernel MoeNG.Lib MoeNG.Budget MoeNG.Authority

/-! ### Vocabulary (`expansion-preparation.ts:40-160`) -/

inductive ExpansionAdmissionOrigin where
  | BUDGET
  | EVIDENCE
  | FAIRNESS
  | GRAPH
  | LINEAGE
  | REQUEST
  | RESOURCE
  deriving DecidableEq

def ExpansionAdmissionOrigin.text : ExpansionAdmissionOrigin → String
  | BUDGET => "BUDGET"
  | EVIDENCE => "EVIDENCE"
  | FAIRNESS => "FAIRNESS"
  | GRAPH => "GRAPH"
  | LINEAGE => "LINEAGE"
  | REQUEST => "REQUEST"
  | RESOURCE => "RESOURCE"

structure ExpansionAdmissionIssue where
  code : String
  layer : String
  origin : ExpansionAdmissionOrigin
  message : JsString
  missingInput : Option JsString
  deriving DecidableEq

inductive Disposition where
  | REFUSED
  | UNKNOWN
  deriving DecidableEq

structure ExpansionRestoredMeter where
  meter : JsString
  available : ℤ
  reserved : ℤ
  deriving DecidableEq

structure ExpansionAdmissionUnwind where
  budgetReservationCancelled : Bool
  restoredMeters : Option (List ExpansionRestoredMeter)
  deriving DecidableEq

def NO_UNWIND : ExpansionAdmissionUnwind := ⟨false, none⟩

structure ExpansionAdmissionRefusal where
  disposition : Disposition
  issues : List ExpansionAdmissionIssue
  unwind : ExpansionAdmissionUnwind
  deriving DecidableEq

structure ExpansionBudgetFacts where
  reservationId : JsString
  accountId : JsString
  admissionRef : JsString
  lines : List ReservationLine
  deriving DecidableEq

structure ExpansionResourceFacts where
  resourceIds : List JsString
  epoch : ℤ
  effectIntentRefs : List JsString
  deriving DecidableEq

/-- `facts` is everything that the pure checks derive. -/
structure ExpansionBoundFacts (P : Type) where
  facts : P
  budgetReservation : ExpansionBudgetFacts
  resourceReservation : ExpansionResourceFacts

structure ExpansionPreparation (P : Type) where
  identity : JsString
  bound : ExpansionBoundFacts P

structure ExpansionAdmissionRequest where
  receipt : Value
  expansionDepth : ℤ
  nodesAddedInExpansion : ℤ
  graph : Value
  rotation : Value
  bypassClaim : Value
  view : BudgetAvailableView
  admission : AdmissionRequest
  gate : AdmissionGate
  resources : Value

/-! ### Refusals (`expansion-admission.ts:66-132`) -/

def localRefusal (code : String) (origin : ExpansionAdmissionOrigin) (message : String) : ExpansionAdmissionRefusal :=
  ⟨.REFUSED, [⟨code, origin.text, origin, lit message, none⟩], NO_UNWIND⟩

def fromFlat (issues : List (String × JsString)) (origin : ExpansionAdmissionOrigin) : ExpansionAdmissionRefusal :=
  ⟨.REFUSED, issues.map fun issue => ⟨issue.1, origin.text, origin, issue.2, none⟩, NO_UNWIND⟩

def budgetIssues (issues : List BudgetReservationIssue) : List (String × JsString) :=
  issues.map fun issue => (issue.code.text, issue.message)

def authorityCode : AuthorityErrorCode → String
  | .AUTHORITY_STALE_LEASE => "AUTHORITY_STALE_LEASE"
  | .AUTHORITY_STALE_EPOCH => "AUTHORITY_STALE_EPOCH"
  | .AUTHORITY_SUPERSEDED_AUTHORITY => "AUTHORITY_SUPERSEDED_AUTHORITY"
  | .AUTHORITY_MALFORMED_INPUT => "AUTHORITY_MALFORMED_INPUT"

def authorityIssues (issues : List AuthorityIssue) : List (String × JsString) :=
  issues.map fun issue => (authorityCode issue.code, lit issue.message)

def restored (view : BudgetAvailableView) : List ExpansionRestoredMeter :=
  view.meters.map fun entry => ⟨entry.meter, entry.available, entry.reserved⟩

/-- Gives back everything this call took, then reports the refusal. -/
def unwound (cause : ExpansionAdmissionRefusal) (reservedView : BudgetAvailableView) (reservation : ReservationRecord)
    (admissionRef : JsString) : ExpansionAdmissionRefusal :=
  match cancelReservation double reservedView reservation ⟨reservation.version, some (lit "never-started:" ++ admissionRef)⟩ with
  | .fail _ _ issues =>
    ⟨cause.disposition, cause.issues ++ (fromFlat (budgetIssues issues) .BUDGET).issues, NO_UNWIND⟩
  | .accept _ view => ⟨cause.disposition, cause.issues, true, some (restored view)⟩

/-! ### The admission (`expansion-admission.ts:254-324`) -/

section Admission
variable {P : Type} (pureChecks : ExpansionAdmissionRequest → Except ExpansionAdmissionRefusal P)
  (digestOf : ExpansionBoundFacts P → JsString)

def prepare (bound : ExpansionBoundFacts P) : ExpansionPreparation P := ⟨digestOf bound, bound⟩

/-- What is bound when both reservations stand. -/
def boundOf (facts : P) (reservation : ReservationRecord) (rows : List ResourceRow) : ExpansionBoundFacts P where
  facts := facts
  budgetReservation := ⟨reservation.reservationId, reservation.accountId, reservation.admissionRef, reservation.lines⟩
  resourceReservation :=
    ⟨rows.map ResourceRow.resourceId, (rows.head?.map ResourceRow.epoch).getD 0, rows.map ResourceRow.effectIntentRef⟩

def admitExpansion (request : ExpansionAdmissionRequest) : Except ExpansionAdmissionRefusal (ExpansionPreparation P) := do
  let facts ← pureChecks request
  match reserveForAdmission double request.view request.admission request.gate with
  | .fail _ _ issues => .error (fromFlat (budgetIssues issues) .BUDGET)
  | .accept reservation view =>
    match reserveAll request.resources with
    | .error rejection =>
      .error (unwound (fromFlat (authorityIssues rejection.issues) .RESOURCE) view reservation reservation.admissionRef)
    | .ok (.waiting _) =>
      .error (unwound (localRefusal "EXPANSION_ADMISSION_RESOURCES_UNAVAILABLE" .RESOURCE
        "the acquisition is waiting on capacity and reserved nothing") view reservation reservation.admissionRef)
    | .ok (.reserved rows) => .ok (prepare digestOf (boundOf facts reservation rows))

end Admission

end MoeNG.Expansion

/-!
## What a refused expansion gives back

An accepted budget reservation can be cancelled exactly when the version has
room for a second change and the reserved buckets hold what was added to them.
-/

namespace MoeNG.Expansion
open MoeNG.Kernel MoeNG.Lib MoeNG.Budget MoeNG.Authority
open MoeNG.Budget.Reservation (readLines isView checkLines unknownMeter totalPerMeter shiftRow shiftView lineSum bucketOf
  deriveReservationId checkTransition)

/-! ### An accepted reservation -/

theorem reserveForAdmission_guards (view view' : BudgetAvailableView) (request : AdmissionRequest) (gate : AdmissionGate)
    (r : ReservationRecord) (h : reserveForAdmission double view request gate = .accept r view') :
    readLines request.amounts = some request.amounts ∧ Kernel.isRef request.admissionRef = true
      ∧ unknownMeter view (totalPerMeter double request.amounts) = false := by
  unfold reserveForAdmission at h
  split at h
  · cases h
  · rename_i lines hlines
    obtain rfl := Reservation.readLines_some _ _ hlines
    split at h
    · cases h
    · rename_i hshape
      simp only [Bool.or_eq_true, not_or, Bool.not_eq_true, Bool.not_eq_false'] at hshape
      split at h
      · cases h
      · dsimp only at h
        split at h
        · cases h
        · rename_i hcode
          simp only [Option.or_eq_none_iff, firstOf_cons_eq_none] at hcode
          obtain ⟨-, ⟨-, -, -, hunknown, -⟩, -⟩ := hcode
          exact ⟨hlines, hshape.1.2, hunknown⟩

/-! ### Cancelling it -/

/-- Room for the cancellation: one more version, and reserved buckets that are counts. -/
structure Restorable (view : BudgetAvailableView) (request : AdmissionRequest) : Prop where
  version : view.version + 1 < maxBudgetVersion
  reserved : ∀ row ∈ view.meters, row.reserved + lineSum request.amounts row.meter ≤ maxSafeInteger

theorem shiftRow_back (lines : List ReservationLine) (row : BudgetMeterBuckets) (hrow : row.Safe)
    (hsum : 0 ≤ lineSum lines row.meter) (hcovered : lineSum lines row.meter ≤ row.available)
    (hroom : row.reserved + lineSum lines row.meter ≤ maxSafeInteger) :
    shiftRow double (totalPerMeter exactly lines) (-1) (shiftRow double (totalPerMeter exactly lines) 1 row) = row := by
  obtain ⟨⟨-, hr, -, -⟩, ha', -⟩ := row.safe_iff.mp hrow
  have havailable : double (row.available - 1 * lineSum lines row.meter) = row.available - lineSum lines row.meter := by
    rw [one_mul]
    exact fl_of_safe double _ ((isSafeCount_iff _).mpr ⟨by omega, by omega⟩)
  have hreserved : double (row.reserved + 1 * lineSum lines row.meter) = row.reserved + lineSum lines row.meter := by
    rw [one_mul]
    exact fl_of_safe double _ ((isSafeCount_iff _).mpr ⟨by omega, hroom⟩)
  have hmeter : (shiftRow double (totalPerMeter exactly lines) 1 row).meter = row.meter := rfl
  rw [Reservation.shiftRow_eq, hmeter, Reservation.shiftRow_eq, havailable, hreserved, neg_one_mul, sub_neg_eq_add,
    sub_add_cancel, add_neg_cancel_right, fl_of_safe double _ hrow.available, fl_of_safe double _ hrow.reserved]

/-- The roundings of a reservation that has room and of its cancellation are all of counts. -/
theorem shiftView_back (view : BudgetAvailableView) (hview : isView view = true) (lines : List ReservationLine)
    (hlines : checkLines lines = none) (hcovered : ∀ row ∈ view.meters, lineSum lines row.meter ≤ row.available)
    (hroom : ∀ row ∈ view.meters, row.reserved + lineSum lines row.meter ≤ maxSafeInteger) :
    (shiftView double (shiftView double view (totalPerMeter exactly lines) 1) (totalPerMeter exactly lines) (-1)).meters
      = view.meters := by
  unfold Reservation.shiftView
  rw [List.map_map]
  exact map_eq_self _ _ fun row hrow => shiftRow_back lines row (Reservation.isView_safe view hview row hrow)
    (Reservation.lineSum_nonneg lines hlines row.meter) (hcovered row hrow) (hroom row hrow)

theorem bucketOf_shift (view : BudgetAvailableView) (totals : OrdMap JsString ℤ) (sign : ℤ) (meter : JsString) :
    bucketOf (shiftView double view totals sign) meter = (bucketOf view meter).map (shiftRow double totals sign) := by
  unfold Reservation.bucketOf Reservation.shiftView
  rw [List.find?_map]
  rfl

theorem unknownMeter_shift (view : BudgetAvailableView) (totals other : OrdMap JsString ℤ) (sign : ℤ) :
    unknownMeter (shiftView double view totals sign) other = unknownMeter view other := by
  unfold Reservation.unknownMeter
  refine congrArg (List.any other.keys) (funext fun meter => ?_)
  rw [bucketOf_shift, Option.isNone_map]

section Cancelled
variable (view view' : BudgetAvailableView) (request : AdmissionRequest) (gate : AdmissionGate) (r : ReservationRecord)
  (h : reserveForAdmission double view request gate = .accept r view')

include h

theorem admits_reserved : isView view' = true ↔ ∀ row ∈ view.meters,
    row.reserved + lineSum request.amounts row.meter ≤ maxSafeInteger := by
  obtain ⟨hview, -⟩ := reserveForAdmission_accept double view view' request gate r h
  exact view_closure_iff .reservation (.reserve request gate) view view' hview (Reservation.isView_nodup view hview) ⟨r, h⟩

/-- Every reserved bucket holds what was added to it. -/
theorem enough_reserved (hfits : isView view' = true) :
    ((totalPerMeter double request.amounts).entries.any fun e => ((bucketOf view' e.1).map (·.reserved)).getD 0 < e.2)
      = false := by
  have hroom := (admits_reserved view view' request gate r h).mp hfits
  obtain ⟨hview, -, hlines, -, -, hexact, rfl⟩ := reserveForAdmission_accept double view view' request gate r h
  obtain ⟨-, -, hknown⟩ := reserveForAdmission_guards view _ request gate r h
  rw [hexact] at hknown ⊢
  refine List.any_eq_false.mpr fun e he => ?_
  rw [decide_eq_true_eq, not_lt, bucketOf_shift]
  have hkey : e.1 ∈ (totalPerMeter exactly request.amounts).keys := List.mem_map_of_mem he
  have hsome := List.any_eq_false.mp hknown e.1 hkey
  cases hbucket : bucketOf view e.1 with
  | none =>
    rw [hbucket] at hsome
    exact absurd rfl hsome
  | some row =>
    have hrow : row ∈ view.meters := List.mem_of_find?_eq_some hbucket
    have hmeter : row.meter = e.1 := by simpa using List.find?_some hbucket
    have hnonneg := (Reservation.isView_nonneg view hview row hrow).reserved
    have hsum : lineSum request.amounts row.meter = e.2 := by
      rw [hmeter]
      exact ((OrdMap.mem_entries_tally _ _ _ _ _).mp he).2.symm
    have hsum0 := Reservation.lineSum_nonneg request.amounts hlines row.meter
    have hreserved := hroom row hrow
    rw [Option.map_some, Option.map_some, Option.getD_some, Reservation.shiftRow_eq]
    dsimp only
    rw [one_mul, fl_of_safe double _ ((isSafeCount_iff _).mpr ⟨by omega, hreserved⟩)]
    omega

theorem checkTransition_reserved (hfits : isView view' = true) : checkTransition view' r r.version = .ok r := by
  obtain ⟨hview, -, hlines, -, rfl, -, rfl⟩ := reserveForAdmission_accept double view view' request gate r h
  obtain ⟨hread, href, -⟩ := reserveForAdmission_guards view _ request gate _ h
  have haccount : Kernel.isRef view.accountId = true := by
    unfold Reservation.isView at hview
    simp only [Bool.and_eq_true] at hview
    exact hview.1.1.1.1.1
  have hid : Kernel.isRef (deriveReservationId view.accountId request.admissionRef) = true := by
    simp [Kernel.isRef, Reservation.deriveReservationId, Kernel.lit_eq]
  unfold Reservation.checkTransition
  rw [hread]
  dsimp only
  rw [if_neg (by rw [hfits, hid, haccount, href]; decide), hlines]
  simp [firstOf, Reservation.shiftView]

theorem cancelReservation_reserved (hroom : Restorable view request) (proof : JsString) (hproof : Kernel.isRef proof = true) :
    cancelReservation double view' r ⟨r.version, some proof⟩
      = .accept { r with state := .CANCELLED, version := r.version + 1, neverStartedProofRef := some proof }
        (shiftView double view' (totalPerMeter exactly request.amounts) (-1)) := by
  obtain ⟨-, -, -, -, hr, hexact, hv⟩ := reserveForAdmission_accept double view view' request gate r h
  have hversion : view'.version = view.version + 1 := by rw [hv]; rfl
  have hadmits := (admits_reserved view view' request gate r h).mpr hroom.reserved
  have hchecked := checkTransition_reserved view view' request gate r h hadmits
  have henough := enough_reserved view view' request gate r h hadmits
  have hknown : unknownMeter view' (totalPerMeter double request.amounts) = false := by
    rw [hv, unknownMeter_shift]
    exact (reserveForAdmission_guards view view' request gate r h).2.2
  have hamounts : r.lines = request.amounts := by rw [hr]
  have hcount : isSafeCount r.version = true := by
    rw [hr]
    exact (isSafeCount_iff 0).mpr (by decide)
  have hlt := hroom.version
  unfold cancelReservation
  rw [if_neg (by rw [hcount]; simpa [Reservation.isRefOrNull] using hproof), hchecked]
  dsimp only
  rw [hamounts, hknown, henough, hexact, decide_eq_false (by omega : ¬ view'.version ≥ maxBudgetVersion)]
  rfl

/-- What the cancellation needs, and what it gives back. -/
theorem cancelReservation_iff (proof : JsString) (hproof : Kernel.isRef proof = true) :
    (∃ r' view'', cancelReservation double view' r ⟨r.version, some proof⟩ = .accept r' view'' ∧ view''.meters = view.meters)
      ↔ Restorable view request := by
  obtain ⟨hview, -, hlines, hcovered, -, -, hv⟩ := reserveForAdmission_accept double view view' request gate r h
  constructor
  · rintro ⟨r', view'', hcancel, -⟩
    obtain ⟨hadmits, hroom, -⟩ := cancelReservation_accept double view' view'' r r' _ hcancel
    have hversion : view'.version = view.version + 1 := by rw [hv]; rfl
    exact ⟨hversion ▸ hroom, (admits_reserved view view' request gate r h).mp hadmits⟩
  · intro hroom
    refine ⟨_, _, cancelReservation_reserved view view' request gate r h hroom proof hproof, ?_⟩
    rw [hv]
    exact shiftView_back view hview request.amounts hlines hcovered hroom.reserved

theorem unwound_iff (cause : ExpansionAdmissionRefusal) (admissionRef : JsString) :
    (unwound cause view' r admissionRef).unwind = ⟨true, some (restored view)⟩ ↔ Restorable view request := by
  have hproof : Kernel.isRef (lit "never-started:" ++ admissionRef) = true := by simp [Kernel.isRef, Kernel.lit_eq]
  obtain ⟨hview, -, hlines, hcovered, -, -, hv⟩ := reserveForAdmission_accept double view view' request gate r h
  constructor
  · intro hunwind
    unfold unwound at hunwind
    split at hunwind
    · cases hunwind
    · rename_i r' view'' hcancel
      obtain ⟨hadmits, hroom, -⟩ := cancelReservation_accept double view' view'' r r' _ hcancel
      have hversion : view'.version = view.version + 1 := by rw [hv]; rfl
      exact ⟨hversion ▸ hroom, (admits_reserved view view' request gate r h).mp hadmits⟩
  · intro hroom
    unfold unwound
    rw [cancelReservation_reserved view view' request gate r h hroom _ hproof]
    show (⟨true, some (restored _)⟩ : ExpansionAdmissionUnwind) = _
    rw [restored, hv, shiftView_back view hview request.amounts hlines hcovered hroom.reserved]
    rfl

end Cancelled

/-! ### Refusals behind the reservation -/

theorem admitExpansion_refused {P : Type} (pureChecks : ExpansionAdmissionRequest → Except ExpansionAdmissionRefusal P)
    (digestOf : ExpansionBoundFacts P → JsString) (request : ExpansionAdmissionRequest) (facts : P)
    (hfacts : pureChecks request = .ok facts) (r : ReservationRecord) (view' : BudgetAvailableView)
    (h : reserveForAdmission double request.view request.admission request.gate = .accept r view')
      (refusal : ExpansionAdmissionRefusal)
    (hrefused : admitExpansion pureChecks digestOf request = .error refusal) :
    ∃ cause, refusal = unwound cause view' r r.admissionRef := by
  unfold admitExpansion at hrefused
  rw [hfacts, h] at hrefused
  change (match reserveAll request.resources with
    | .error rejection => _
    | .ok (.waiting _) => _
    | .ok (.reserved rows) => _) = _ at hrefused
  split at hrefused
  · exact ⟨_, (Except.error.inj hrefused).symm⟩
  · exact ⟨_, (Except.error.inj hrefused).symm⟩
  · cases hrefused

/-- A reservation can be given back, and a refusal behind it says so, exactly when there is room for the cancellation. -/
theorem expansion_unwind_iff (request : ExpansionAdmissionRequest) (r : ReservationRecord) (view' : BudgetAvailableView)
    (h : reserveForAdmission double request.view request.admission request.gate = .accept r view') :
    (∀ proof, Kernel.isRef proof = true →
      ((∃ r' view'', cancelReservation double view' r ⟨r.version, some proof⟩ = .accept r' view''
        ∧ view''.meters = request.view.meters)
        ↔ Restorable request.view request.admission))
      ∧ ∀ (P : Type) (pureChecks : ExpansionAdmissionRequest → Except ExpansionAdmissionRefusal P)
        (digestOf : ExpansionBoundFacts P → JsString) (facts : P), pureChecks request = .ok facts →
        ∀ refusal, admitExpansion pureChecks digestOf request = .error refusal →
          (refusal.unwind = ⟨true, some (restored request.view)⟩ ↔ Restorable request.view request.admission) := by
  refine ⟨cancelReservation_iff request.view view' request.admission request.gate r h, ?_⟩
  intro P pureChecks digestOf facts hfacts refusal hrefused
  obtain ⟨cause, rfl⟩ := admitExpansion_refused pureChecks digestOf request facts hfacts r view' h refusal hrefused
  exact unwound_iff request.view view' request.admission request.gate r h cause r.admissionRef

/-! ### At the bounds -/

def tokenLines : List ReservationLine :=
  [⟨.EXECUTION, lit "tokens", 1⟩, ⟨.VERIFICATION, lit "tokens", 1⟩, ⟨.INDEPENDENT_REVIEW, lit "tokens", 1⟩,
    ⟨.FINAL_ACCEPTANCE, lit "tokens", 1⟩, ⟨.CONTINGENCY, lit "tokens", 1⟩]

/-- A request for five tokens of an account, whose resources no capacity is left for. -/
def tokenRequest (version reserved : ℤ) : ExpansionAdmissionRequest where
  receipt := .null
  expansionDepth := 1
  nodesAddedInExpansion := 1
  graph := .null
  rotation := .null
  bypassClaim := .null
  view := ⟨lit "acct", .OPEN, version, [⟨lit "tokens", 9, reserved, 0, 0⟩]⟩
  admission := ⟨lit "admission", version, tokenLines⟩
  gate := ⟨some ⟨lit "decision", .ALLOW⟩, none⟩
  resources := .null

def tokenReservation : ReservationRecord where
  reservationId := deriveReservationId (lit "acct") (lit "admission")
  accountId := lit "acct"
  admissionRef := lit "admission"
  state := .RESERVED
  version := 0
  lines := tokenLines
  attemptRef := none
  neverStartedProofRef := none

def tokenView (version reserved : ℤ) : BudgetAvailableView :=
  ⟨lit "acct", .OPEN, version + 1, [⟨lit "tokens", 4, reserved + 5, 0, 0⟩]⟩

theorem tokenRequest_unwind :
    (admitExpansion (fun _ => .ok ()) (fun _ => []) (tokenRequest 3 0)).mapError ExpansionAdmissionRefusal.unwind
      = .error ⟨true, some [⟨lit "tokens", 9, 0⟩]⟩ := by
  have hreserve : reserveForAdmission double (tokenRequest 3 0).view (tokenRequest 3 0).admission (tokenRequest 3 0).gate
      = .accept tokenReservation (tokenView 3 0) := by decide +kernel
  have hroom : Restorable (tokenRequest 3 0).view (tokenRequest 3 0).admission :=
    ⟨by decide, List.forall_mem_singleton.mpr (by decide)⟩
  have hiff := (expansion_unwind_iff (tokenRequest 3 0) tokenReservation (tokenView 3 0) hreserve).2 Unit (fun _ => .ok ())
    (fun _ => []) () rfl
  cases hadmitted : admitExpansion (fun _ => .ok ()) (fun _ => []) (tokenRequest 3 0) with
  | error refusal =>
    show Except.error refusal.unwind = _
    rw [(hiff refusal hadmitted).mpr hroom]
    rfl
  | ok preparation =>
    have hrefused : (admitExpansion (fun _ => .ok ()) (fun _ => []) (tokenRequest 3 0)).isOk = false := by decide +kernel
    rw [hadmitted] at hrefused
    cases hrefused

/-- At the last version but one, and beside a full reserved bucket, the reservation stands after the refusal. -/
theorem tokenRequest_stranded :
    (∃ r view', reserveForAdmission double (tokenRequest (maxBudgetVersion - 1) 0).view
      (tokenRequest (maxBudgetVersion - 1) 0).admission
        (tokenRequest (maxBudgetVersion - 1) 0).gate = .accept r view'
      ∧ ¬ ∃ r' view'', cancelReservation double view' r ⟨r.version, some (lit "proof")⟩ = .accept r' view'')
    ∧ (∃ refusal, admitExpansion (fun _ => .ok ()) (fun _ => []) (tokenRequest 3 maxSafeInteger) = .error refusal
      ∧ refusal.unwind = NO_UNWIND) := by
  constructor
  · refine ⟨tokenReservation, tokenView (maxBudgetVersion - 1) 0, by decide +kernel, ?_⟩
    rintro ⟨r', view'', hcancel⟩
    have hfail : ∃ v r issues, cancelReservation double (tokenView (maxBudgetVersion - 1) 0) tokenReservation
        ⟨tokenReservation.version, some (lit "proof")⟩ = .fail v r issues := ⟨_, _, _, rfl⟩
    obtain ⟨_, _, _, hfail⟩ := hfail
    rw [hcancel] at hfail
    cases hfail
  · exact ⟨_, rfl, rfl⟩

end MoeNG.Expansion
