import MoeNG.Kernel.Utf8
import MoeNG.Review.FindingsRun

/-!
# The law of a review lineage
-/

namespace MoeNG.Review
open MoeNG.Kernel MoeNG.Lib

variable (sha256 : List Byte → JsString)

/-! ### Runs -/

structure ReviewCall where
  round : ReviewRoundInput
  continuation : Option ReviewContinuationUse

/-- An accepted outcome's lineage replaces the stored one. -/
def reviewStep (lineage : ReviewLineage) (call : ReviewCall) : ReviewLineage :=
  match recordReviewRound sha256 lineage call.round call.continuation with
  | .ok outcome => outcome.lineage
  | .error _ => lineage

def reviewRun (calls : List ReviewCall) : ReviewLineage := run (reviewStep sha256) (emptyReviewLineage sha256) calls

/-- The numbers of the accepted rounds, in the order of their calls. -/
def acceptedRounds (lineage : ReviewLineage) : List ReviewCall → List ℤ
  | [] => []
  | call :: rest =>
    match recordReviewRound sha256 lineage call.round call.continuation with
    | .ok outcome => outcome.lineage.highestRound :: acceptedRounds outcome.lineage rest
    | .error _ => acceptedRounds lineage rest

def acceptedBlocked (lineage : ReviewLineage) (call : ReviewCall) : Bool :=
  match recordReviewRound sha256 lineage call.round call.continuation with
  | .ok _ => blocked call.round
  | .error _ => false

variable (lineage : ReviewLineage)

theorem reviewStep_cases (call : ReviewCall) :
    (∃ failure, recordReviewRound sha256 lineage call.round call.continuation = .error failure
        ∧ reviewStep sha256 lineage call = lineage)
      ∨ ∃ number outcome, recordReviewRound sha256 lineage call.round call.continuation = .ok outcome
        ∧ reviewStep sha256 lineage call = outcome.lineage
        ∧ Recorded sha256 lineage call.round call.continuation number outcome := by
  unfold reviewStep
  cases hresult : recordReviewRound sha256 lineage call.round call.continuation with
  | error failure => exact .inl ⟨failure, rfl, rfl⟩
  | ok outcome =>
    obtain ⟨number, hrecorded⟩ := recordReviewRound_ok sha256 _ _ _ _ hresult
    exact .inr ⟨number, outcome, rfl, rfl, hrecorded⟩

theorem reviewStep_kept (call : ReviewCall) (h : Kept sha256 lineage) : Kept sha256 (reviewStep sha256 lineage call) := by
  obtain ⟨failure, -, hstep⟩ | ⟨number, outcome, -, hstep, hrecorded⟩ := reviewStep_cases sha256 lineage call
  · rw [hstep]
    exact h
  · rw [hstep]
    exact h.next sha256 hrecorded

theorem reviewRun_kept (calls : List ReviewCall) : Kept sha256 (reviewRun sha256 calls) :=
  run_invariant (reviewStep sha256) (Kept sha256) (reviewStep_kept sha256) _ (empty_kept sha256) calls

theorem run_records_extended (calls : List ReviewCall) :
    lineage.records <+: (run (reviewStep sha256) lineage calls).records := by
  induction calls generalizing lineage with
  | nil => exact List.prefix_refl _
  | cons call rest ih =>
    rw [run_cons]
    refine List.IsPrefix.trans ?_ (ih _)
    obtain ⟨failure, -, hstep⟩ | ⟨number, outcome, -, hstep, hrecorded⟩ := reviewStep_cases sha256 lineage call
    · rw [hstep]
    · rw [hstep, hrecorded.records]
      exact List.prefix_append _ _

/-- The accepted numbers rise from the frontier they start at, and the last one is the new frontier. -/
theorem acceptedRounds_frontier (calls : List ReviewCall) :
    (lineage.highestRound :: acceptedRounds sha256 lineage calls).Pairwise (· < ·)
      ∧ (lineage.highestRound :: acceptedRounds sha256 lineage calls).getLast (List.cons_ne_nil _ _) =
        (run (reviewStep sha256) lineage calls).highestRound := by
  induction calls generalizing lineage with
  | nil => exact ⟨List.pairwise_singleton _ _, rfl⟩
  | cons call rest ih =>
    obtain ⟨failure, hresult, hstep⟩ | ⟨number, outcome, hresult, hstep, hrecorded⟩ := reviewStep_cases sha256 lineage call
    · simp only [acceptedRounds, hresult, run_cons, hstep]
      exact ih lineage
    · simp only [acceptedRounds, hresult, run_cons, hstep]
      obtain ⟨hrising, hlast⟩ := ih outcome.lineage
      have hbeyond : lineage.highestRound < outcome.lineage.highestRound := by
        rw [hrecorded.highest]
        exact hrecorded.beyond
      refine ⟨List.pairwise_cons.mpr ⟨fun z hz => ?_, hrising⟩, ?_⟩
      · obtain rfl | hz := List.mem_cons.mp hz
        · exact hbeyond
        · exact lt_trans hbeyond (List.rel_of_pairwise_cons hrising hz)
      · rw [List.getLast_cons (List.cons_ne_nil _ _)]
        exact hlast

theorem run_unsuccessful (calls : List ReviewCall) : (run (reviewStep sha256) lineage calls).unsuccessfulRounds =
      lineage.unsuccessfulRounds + countAlong (reviewStep sha256) (acceptedBlocked sha256) lineage calls := by
  induction calls generalizing lineage with
  | nil => simp [countAlong]
  | cons call rest ih =>
    rw [run_cons, ih, countAlong]
    obtain ⟨failure, hresult, hstep⟩ | ⟨number, outcome, hresult, hstep, hrecorded⟩ := reviewStep_cases sha256 lineage call
    · have hcount : acceptedBlocked sha256 lineage call = false := by
        simp only [acceptedBlocked, hresult]
      rw [hstep, hcount]
      simp
    · have hcount : acceptedBlocked sha256 lineage call = blocked call.round := by
        simp only [acceptedBlocked, hresult]
      rw [hstep, hrecorded.unsuccessful, hcount]
      push_cast
      cases blocked call.round with
      | false => simp
      | true =>
        simp only [if_true]
        ring

/-! ### Routes -/

theorem routeOf_accept (escalated clean : Bool) (fingerprints : List JsString) :
    routeOf escalated clean fingerprints = .ACCEPT ↔ escalated = false ∧ clean = true := by
  unfold routeOf
  cases escalated <;> cases clean <;> simp
  split <;> simp

theorem routeOf_escalate (escalated clean : Bool) (fingerprints : List JsString) :
    routeOf escalated clean fingerprints = .ESCALATE ↔ escalated = true := by
  unfold routeOf
  cases escalated <;> cases clean <;> simp
  split <;> simp

theorem routeOf_plan (escalated clean : Bool) (fingerprints : List JsString) :
    routeOf escalated clean fingerprints = .REJECT_PLAN ↔ escalated = false ∧ clean = false ∧ fingerprints ≠ [] := by
  unfold routeOf
  cases escalated <;> cases clean <;> cases fingerprints <;> simp

theorem mem_repeats (records added : List ReviewFindingRecord) (fingerprint : JsString) :
    fingerprint ∈ repeats records added ↔
      (∃ new ∈ added, blocks new = true ∧ new.fingerprint = fingerprint)
        ∧ ∃ old ∈ records, owned old = true ∧ old.fingerprint = fingerprint := by
  simp only [repeats, List.mem_insertionSort, List.mem_dedup, List.mem_filter, List.mem_map, List.contains_iff_mem, and_assoc]

/-- A blocking finding repeats an earlier one of the reporter's own. -/
def Repeats (lineage : ReviewLineage) (round : ReviewRoundInput) : Prop :=
  ∃ finding ∈ round.findings, charges finding = true ∧ ∃ record ∈ lineage.records, owned record = true
    ∧ record.finding.ruleId = finding.ruleId ∧ record.finding.subject = finding.subject

theorem repeats_iff (hsha : Function.Injective sha256) (lineage : ReviewLineage) (round : ReviewRoundInput) (number : ℤ)
    (h : Kept sha256 lineage) (hreadable : round.findings.all attributable = true) :
    repeats lineage.records (round.findings.map (recordOf sha256 number)) ≠ [] ↔ Repeats lineage round := by
  have hattributable (finding : Finding Value) (hf : finding ∈ round.findings) : attributable finding = true :=
    List.all_eq_true.mp hreadable finding hf
  constructor
  · intro hne
    obtain ⟨fingerprint, hmem⟩ := List.exists_mem_of_ne_nil _ hne
    obtain ⟨⟨new, hnew, hblocks, hnewPrint⟩, old, hold, howned, holdPrint⟩ := (mem_repeats _ _ _).mp hmem
    obtain ⟨finding, hfinding, rfl⟩ := List.mem_map.mp hnew
    rw [blocks_recordOf sha256 number finding (hattributable finding hfinding)] at hblocks
    have hsame : fingerprintOf sha256 old.finding.ruleId old.finding.subject =
        fingerprintOf sha256 finding.ruleId finding.subject := by
      rw [← h.fingerprints old hold, holdPrint, ← hnewPrint]
      rfl
    obtain ⟨hrule, hsubject⟩ := (fingerprintOf_inj sha256 hsha _ _ _ _).mp hsame
    exact ⟨finding, hfinding, hblocks, old, hold, howned, hrule, hsubject⟩
  · rintro ⟨finding, hfinding, hcharges, old, hold, howned, hrule, hsubject⟩
    refine List.ne_nil_of_mem ((mem_repeats _ _ old.fingerprint).mpr ⟨⟨recordOf sha256 number finding,
      List.mem_map_of_mem hfinding, ?_, ?_⟩, old, hold, howned, rfl⟩)
    · rw [blocks_recordOf sha256 number finding (hattributable finding hfinding)]
      exact hcharges
    · rw [h.fingerprints old hold, hrule, hsubject]
      rfl

theorem Repeats.blocked {lineage : ReviewLineage} {round : ReviewRoundInput} (h : Repeats lineage round) :
    blocked round = true := by
  obtain ⟨finding, hfinding, hcharges, -⟩ := h
  exact List.any_eq_true.mpr ⟨finding, hfinding, hcharges⟩

/-- What the route of an accepted round says. -/
structure Routed (lineage : ReviewLineage) (call : ReviewCall) (outcome : ReviewRoundOutcome) : Prop where
  accept : outcome.routing.route = .ACCEPT ↔
    blocked call.round = false ∧ (outcome.lineage.unsuccessfulRounds < reviewEscalationRoundLimit
      ∨ ∃ use, call.continuation = some use
        ∧ reviewContinuationMatches lineage outcome.lineage.highestRound use = true)
  escalate : outcome.routing.route = .ESCALATE ↔
    reviewEscalationRoundLimit ≤ outcome.lineage.unsuccessfulRounds
      ∧ ¬ (blocked call.round = false ∧ call.continuation.isSome = true)
  plan : outcome.routing.route = .REJECT_PLAN ↔ outcome.routing.route ≠ .ESCALATE ∧ Repeats lineage call.round

theorem routed_of_recorded (hsha : Function.Injective sha256) (lineage : ReviewLineage) (call : ReviewCall) (number : ℤ)
    (outcome : ReviewRoundOutcome) (hkept : Kept sha256 lineage)
    (h : Recorded sha256 lineage call.round call.continuation number outcome) : Routed lineage call outcome := by
  have hrepeats := repeats_iff sha256 hsha lineage call.round number hkept h.readable
  refine ⟨?_, ?_, ?_⟩
  · rw [h.route, routeOf_accept, h.highest]
    cases hcontinuation : call.continuation with
    | none => cases blocked call.round <;> simp
    | some use =>
      have hmatches := h.continued use hcontinuation
      cases blocked call.round <;> simp [hmatches]
  · rw [h.route, routeOf_escalate]
    cases call.continuation <;> cases blocked call.round <;> simp
  · rw [h.route, routeOf_plan, ← hrepeats]
    simp only [ne_eq, routeOf_escalate]
    constructor
    · rintro ⟨hescalated, -, hne⟩
      exact ⟨Bool.eq_false_iff.mp hescalated, hne⟩
    · rintro ⟨hescalated, hne⟩
      have hblocked := (hrepeats.mp hne).blocked
      refine ⟨Bool.eq_false_iff.mpr hescalated, ?_, hne⟩
      rw [hblocked]
      rfl

/-! ### Order and wording of the findings -/

def unworded (finding : Finding Value) : Finding Value := { finding with detail := [] }

/-- The same findings but for their order and their prose. -/
def SameFindings (findings findings' : List (Finding Value)) : Prop := (findings.map unworded).Perm (findings'.map unworded)

theorem all_unworded (p : Finding Value → Bool) (hp : ∀ finding, p (unworded finding) = p finding)
    (findings findings' : List (Finding Value)) (h : SameFindings findings findings') : findings.all p = findings'.all p := by
  have hmap (l : List (Finding Value)) : (l.map unworded).all p = l.all p := by
    rw [List.all_map]
    exact congrArg (l.all ·) (funext hp)
  rw [← hmap findings, ← hmap findings']
  exact h.all_eq

theorem blocked_unworded (findings findings' : List (Finding Value)) (number : JsNumber) (h : SameFindings findings findings') :
    blocked ⟨findings, number⟩ = blocked ⟨findings', number⟩ := by
  have hall := all_unworded (fun finding => !charges finding) (fun _ => rfl) findings findings' h
  simp only [List.all_eq_not_any_not, Bool.not_not] at hall
  exact Bool.not_inj hall

theorem Repeats.unworded {lineage : ReviewLineage} {findings findings' : List (Finding Value)} {number : JsNumber}
    (h : Repeats lineage ⟨findings, number⟩) (hsame : SameFindings findings findings') :
    Repeats lineage ⟨findings', number⟩ := by
  obtain ⟨finding, hfinding, hcharges, old, hold, howned, hrule, hsubject⟩ := h
  have hmem : MoeNG.Review.unworded finding ∈ findings'.map MoeNG.Review.unworded :=
    hsame.mem_iff.mp (List.mem_map_of_mem hfinding)
  obtain ⟨other, hother, heq⟩ := List.mem_map.mp hmem
  obtain ⟨attributedTo, detail, ruleId, severity, subject⟩ := finding
  obtain ⟨attributedTo', detail', ruleId', severity', subject'⟩ := other
  obtain ⟨rfl, -, rfl, rfl, rfl⟩ := Finding.mk.inj heq
  exact ⟨_, hother, hcharges, old, hold, howned, hrule, hsubject⟩

theorem routeOf_congr (escalated clean : Bool) (fingerprints fingerprints' : List JsString)
    (h : fingerprints ≠ [] ↔ fingerprints' ≠ []) :
    routeOf escalated clean fingerprints = routeOf escalated clean fingerprints' := by
  unfold routeOf
  simp only [gt_iff_lt, List.length_pos_iff, h]

theorem route_unworded (hsha : Function.Injective sha256) (lineage : ReviewLineage) (hkept : Kept sha256 lineage)
    (findings findings' : List (Finding Value)) (round : JsNumber) (continuation : Option ReviewContinuationUse)
    (hsame : SameFindings findings findings') (outcome : ReviewRoundOutcome)
    (h : recordReviewRound sha256 lineage ⟨findings, round⟩ continuation = .ok outcome) :
    ∃ outcome', recordReviewRound sha256 lineage ⟨findings', round⟩ continuation = .ok outcome'
      ∧ outcome'.routing.route = outcome.routing.route := by
  obtain ⟨number, hrecorded⟩ := recordReviewRound_ok sha256 _ _ _ _ h
  have hreadable : findings'.all attributable = true := by
    rw [← all_unworded attributable (fun _ => rfl) findings findings' hsame]
    exact hrecorded.readable
  obtain ⟨outcome', h'⟩ := recordReviewRound_intro sha256 lineage ⟨findings', round⟩ continuation number hkept
    hrecorded.admissible hrecorded.beyond hrecorded.continued hreadable
  refine ⟨outcome', h', ?_⟩
  obtain ⟨number', hrecorded'⟩ := recordReviewRound_ok sha256 _ _ _ _ h'
  obtain rfl : number = number' := Option.some.inj (hrecorded.admissible.symm.trans hrecorded'.admissible)
  have hblocked := blocked_unworded findings findings' round hsame
  have hunsuccessful : outcome'.lineage.unsuccessfulRounds = outcome.lineage.unsuccessfulRounds := by
    rw [hrecorded.unsuccessful, hrecorded'.unsuccessful, hblocked]
  rw [hrecorded.route, hrecorded'.route, hunsuccessful, hblocked]
  refine routeOf_congr _ _ _ _ ?_
  rw [repeats_iff sha256 hsha lineage ⟨findings', round⟩ number hkept hreadable,
    repeats_iff sha256 hsha lineage ⟨findings, round⟩ number hkept hrecorded.readable]
  exact ⟨fun h => h.unworded hsame.symm, fun h => h.unworded hsame⟩

/-! ### Forged lineages -/

theorem forged_attested (hsha : Function.Injective sha256) (lineage forged : ReviewLineage)
    (h : lineageAttested sha256 lineage = .ok true) (hdigest : forged.digest = lineage.digest) (hne : forged ≠ lineage) :
    lineageAttested sha256 forged = .ok false ∨ lineageAttested sha256 forged = .error .typeError := by
  cases hforged : lineageAttested sha256 forged with
  | ok attested =>
    cases attested with
    | false => exact .inl rfl
    | true => exact absurd (attested_inj sha256 hsha forged lineage hforged h hdigest) hne
  | error failure =>
    right
    unfold lineageAttested lineageDigest canonicalDigest at hforged
    cases htext : canonicalJson (lineageValue forged.records forged.unsuccessfulRounds forged.highestRound) with
    | none =>
      rw [htext] at hforged
      cases hforged
      rfl
    | some text =>
      rw [htext] at hforged
      cases hforged

theorem safe_attested (h : SafeNumbers lineage) : ∃ b, lineageAttested sha256 lineage = .ok b := by
  obtain ⟨digest, hdigest⟩ := lineageDigest_total sha256 lineage.records lineage.unsuccessfulRounds lineage.highestRound
    h.1 h.2.1 h.2.2
  unfold lineageAttested
  rw [hdigest]
  exact ⟨_, rfl⟩

/-- What a value with the digest of a stored lineage and other content gets. -/
structure Forged (forged : ReviewLineage) : Prop where
  rounds : ∀ round continuation, ∃ failure, recordReviewRound sha256 forged round continuation = .error failure
    ∧ (failure = .refusal .FINDING_LINEAGE_DIGEST_MISMATCH .FINDINGS [] ∨ failure = .typeError ∧ ¬ SafeNumbers forged)
  acceptance : ∀ opaqueCharacter nfc (input : ReviewAcceptanceInput), input.lineage = forged →
    ∃ failure, qualifyReviewAcceptance sha256 opaqueCharacter nfc input = .error failure
      ∧ ∀ eligible, qualifyReviewerForAcceptance sha256 input.reviewer input.calibration = .ok eligible →
        failure = .refusal .FINDING_LINEAGE_DIGEST_MISMATCH .FINDINGS [] ∨ failure = .typeError ∧ ¬ SafeNumbers forged

theorem forged_refused (hsha : Function.Injective sha256) (lineage forged : ReviewLineage)
    (h : lineageAttested sha256 lineage = .ok true) (hdigest : forged.digest = lineage.digest) (hne : forged ≠ lineage) :
    Forged sha256 forged := by
  have hattested := forged_attested sha256 hsha lineage forged h hdigest hne
  have hunsafe (he : lineageAttested sha256 forged = .error .typeError) : ¬ SafeNumbers forged := by
    intro hsafe
    obtain ⟨b, hb⟩ := safe_attested sha256 forged hsafe
    rw [hb] at he
    cases he
  constructor
  · intro round continuation
    unfold recordReviewRound
    obtain hfalse | herror := hattested
    · rw [hfalse]
      exact ⟨_, rfl, .inl rfl⟩
    · rw [herror]
      exact ⟨_, rfl, .inr ⟨rfl, hunsafe herror⟩⟩
  · rintro opaqueCharacter nfc input rfl
    unfold qualifyReviewAcceptance
    cases heligible : qualifyReviewerForAcceptance sha256 input.reviewer input.calibration with
    | error failure => exact ⟨failure, rfl, nofun⟩
    | ok eligible =>
      obtain hfalse | herror := hattested
      · rw [hfalse]
        exact ⟨_, rfl, fun _ _ => .inl rfl⟩
      · rw [herror]
        exact ⟨_, rfl, fun _ _ => .inr ⟨rfl, hunsafe herror⟩⟩

/-! ### The law -/

/-- What holds of the stored lineage after any calls. -/
structure LineageLaw (calls : List ReviewCall) : Prop where
  attested : lineageAttested sha256 (reviewRun sha256 calls) = .ok true
  extended : ∀ first later, calls = first ++ later →
    (reviewRun sha256 first).records <+: (reviewRun sha256 calls).records
  rising : (0 :: acceptedRounds sha256 (emptyReviewLineage sha256) calls).Pairwise (· < ·)
  frontier : (0 :: acceptedRounds sha256 (emptyReviewLineage sha256) calls).getLast (List.cons_ne_nil _ _) =
    (reviewRun sha256 calls).highestRound
  unsuccessful : (reviewRun sha256 calls).unsuccessfulRounds =
    countAlong (reviewStep sha256) (acceptedBlocked sha256) (emptyReviewLineage sha256) calls
  refused : ∀ call failure,
    recordReviewRound sha256 (reviewRun sha256 calls) call.round call.continuation = .error failure →
      reviewRun sha256 (calls ++ [call]) = reviewRun sha256 calls ∧ failure ≠ .typeError
  accepted : ∀ call outcome,
    recordReviewRound sha256 (reviewRun sha256 calls) call.round call.continuation = .ok outcome →
      reviewRun sha256 (calls ++ [call]) = outcome.lineage
        ∧ admissibleRound call.round.round = some outcome.lineage.highestRound
        ∧ Routed (reviewRun sha256 calls) call outcome
  unworded : ∀ findings findings' round continuation outcome, SameFindings findings findings' →
    recordReviewRound sha256 (reviewRun sha256 calls) ⟨findings, round⟩ continuation = .ok outcome →
      ∃ outcome', recordReviewRound sha256 (reviewRun sha256 calls) ⟨findings', round⟩ continuation = .ok outcome'
        ∧ outcome'.routing.route = outcome.routing.route
  forged : ∀ forged : ReviewLineage, forged.digest = (reviewRun sha256 calls).digest →
    forged ≠ reviewRun sha256 calls → Forged sha256 forged

/-- A stored lineage never makes the printer throw. -/
theorem recordReviewRound_error (round : ReviewRoundInput)
    (continuation : Option ReviewContinuationUse) (h : Kept sha256 lineage) (failure : ReviewFailure)
    (herror : recordReviewRound sha256 lineage round continuation = .error failure) : failure ≠ .typeError := by
  rintro rfl
  have herror' := herror
  unfold recordReviewRound at herror'
  rw [h.attested] at herror'
  cases hnumber : admissibleRound round.round with
  | none =>
    rw [hnumber] at herror'
    cases herror'
  | some number =>
    simp only [hnumber, bind, Except.bind, Bool.not_true, Bool.false_eq_true, if_false] at herror'
    split at herror'
    · cases herror'
    rename_i hbeyond
    split at herror'
    · cases herror'
    rename_i hcontinuation
    rw [mapM_addedRecord] at herror'
    cases hreadable : round.findings.all attributable with
    | false =>
      rw [hreadable] at herror'
      cases herror'
    | true =>
      have hcontinued : ∀ use, continuation = some use → reviewContinuationMatches lineage number use = true := by
        intro use huse
        rw [huse] at hcontinuation
        simpa using hcontinuation
      obtain ⟨outcome, houtcome⟩ := recordReviewRound_intro sha256 lineage round continuation number h hnumber
        (not_le.mp hbeyond) hcontinued hreadable
      rw [houtcome] at herror
      cases herror

theorem review_lineage_law (hsha : Function.Injective sha256) (calls : List ReviewCall) : LineageLaw sha256 calls := by
  have hkept := reviewRun_kept sha256 calls
  obtain ⟨hrising, hlast⟩ := acceptedRounds_frontier sha256 (emptyReviewLineage sha256) calls
  refine ⟨hkept.attested, ?_, hrising, hlast, ?_, ?_, ?_, ?_, ?_⟩
  · rintro first later rfl
    unfold reviewRun
    rw [run_append]
    exact run_records_extended sha256 _ later
  · have hcount := run_unsuccessful sha256 (emptyReviewLineage sha256) calls
    rw [show (emptyReviewLineage sha256).unsuccessfulRounds = 0 from rfl, zero_add] at hcount
    exact hcount
  · intro call failure herror
    refine ⟨?_, recordReviewRound_error sha256 _ _ _ hkept failure herror⟩
    unfold reviewRun at herror ⊢
    rw [run_append, run_cons, run_nil, reviewStep, herror]
  · intro call outcome hok
    obtain ⟨number, hrecorded⟩ := recordReviewRound_ok sha256 _ _ _ _ hok
    refine ⟨?_, ?_, routed_of_recorded sha256 hsha _ call number outcome hkept hrecorded⟩
    · unfold reviewRun at hok ⊢
      rw [run_append, run_cons, run_nil, reviewStep, hok]
    · rw [hrecorded.highest]
      exact hrecorded.admissible
  · intro findings findings' round continuation outcome hsame hok
    exact route_unworded sha256 hsha _ hkept findings findings' round continuation hsame outcome hok
  · intro forged hdigest hne
    exact forged_refused sha256 hsha _ forged hkept.attested hdigest hne

/-! ### Two rounds with one finding -/

def sampleFinding : Finding Value :=
  ⟨.undefined, lit "the submitted tree lacks the migration", lit "review.criterion.unmet", .MAJOR,
    ⟨.CRITERION, lit "criterion:1"⟩⟩

def sampleFingerprint : JsString := lit "c1d336300bfa8a784f54bb1ea370e63d33a49a9874145ae496ded9c6a66fa3cf"

def sampleRecord (round : ℤ) : ReviewFindingRecord := ⟨inertFinding sampleFinding none, sampleFingerprint, round⟩

/-- The digests of the two rounds below. -/
def sampleDigests : List (List Byte × JsString) :=
  [(utf8 (canonicalText (lineageValue [] 0 0)), lit "d0d9250dee74b9875410a463fa02a0c46151ea238cfbd33a3ba354b1ae22a95a"),
    (utf8 (canonicalText (fingerprintValue sampleFinding.ruleId sampleFinding.subject)), sampleFingerprint),
    (utf8 (canonicalText (lineageValue [sampleRecord 1] 1 1)),
      lit "8204ba22b1f0052603f64b59cb6f3f119d24e3cd0469d3b1ce4ec3a421d0fdf3"),
    (utf8 (canonicalText (lineageValue [sampleRecord 1, sampleRecord 2] 2 2)),
      lit "5fee0d120fd0367d97d30b06c8da32f444df95304940e04f08763c03d6e334c5")]

def sampleCalls : List ReviewCall :=
  [⟨⟨[sampleFinding], .integer 1⟩, none⟩, ⟨⟨[sampleFinding], .integer 1⟩, none⟩, ⟨⟨[sampleFinding], .integer 2⟩, none⟩]

theorem review_lineage_law_repeated :
    reviewRun (digestTable sampleDigests) sampleCalls =
        ⟨lit "5fee0d120fd0367d97d30b06c8da32f444df95304940e04f08763c03d6e334c5", 2, [sampleRecord 1, sampleRecord 2], 2⟩
      ∧ LineageLaw (digestTable sampleDigests) sampleCalls :=
  ⟨by decide +kernel,
    review_lineage_law (digestTable sampleDigests)
      (digestTable_injective sampleDigests (by decide +kernel) (by decide +kernel)) sampleCalls⟩

end MoeNG.Review
