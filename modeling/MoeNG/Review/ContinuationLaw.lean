import MoeNG.Review.LineageLaw

/-!
# What a continuation buys
-/

namespace MoeNG.Review
open MoeNG.Kernel MoeNG.Lib

variable (sha256 : List Byte → JsString)

/-! ### The records past a lineage -/

theorem acceptedRounds_append (lineage : ReviewLineage) (first second : List ReviewCall) :
    acceptedRounds sha256 lineage (first ++ second) =
      acceptedRounds sha256 lineage first ++ acceptedRounds sha256 (run (reviewStep sha256) lineage first) second := by
  induction first generalizing lineage with
  | nil => rfl
  | cons call rest ih =>
    rw [List.cons_append, run_cons]
    obtain ⟨failure, hresult, hstep⟩ | ⟨number, outcome, hresult, hstep, -⟩ := reviewStep_cases sha256 lineage call
    · simp only [acceptedRounds, hresult, hstep]
      exact ih lineage
    · simp only [acceptedRounds, hresult, hstep, List.cons_append]
      rw [ih]

/-- No record is numbered past the frontier. -/
theorem run_records_reached (calls : List ReviewCall) :
    ∀ record ∈ (reviewRun sha256 calls).records, record.round ≤ (reviewRun sha256 calls).highestRound := by
  refine run_invariant (reviewStep sha256) (fun lineage => ∀ record ∈ lineage.records, record.round ≤ lineage.highestRound)
    (fun lineage call h => ?_) _ (List.forall_mem_nil _) calls
  obtain ⟨failure, -, hstep⟩ | ⟨number, outcome, -, hstep, hrecorded⟩ := reviewStep_cases sha256 lineage call
  · rw [hstep]
    exact h
  · rw [hstep, hrecorded.records, hrecorded.highest]
    intro record hrecord
    obtain hrecord | hrecord := List.mem_append.mp hrecord
    · have hold := h record hrecord
      have hbeyond := hrecorded.beyond
      omega
    · obtain ⟨finding, -, rfl⟩ := List.mem_map.mp hrecord
      exact le_refl _

/-- What a run adds to the lineage it starts from. -/
structure Added (start lineage : ReviewLineage) (count : ℕ) (added : List ReviewFindingRecord) : Prop where
  records : lineage.records = start.records ++ added
  reached : start.highestRound ≤ lineage.highestRound
  later : ∀ record ∈ added, start.highestRound < record.round
  clean : count = 0 → ∀ record ∈ added, blocks record = false
  unsuccessful : lineage.unsuccessfulRounds = start.unsuccessfulRounds + count

theorem Recorded.clean {lineage : ReviewLineage} {round : ReviewRoundInput} {continuation : Option ReviewContinuationUse}
    {number : ℤ} {outcome : ReviewRoundOutcome} (h : Recorded sha256 lineage round continuation number outcome)
    (hclean : blocked round = false) : ∀ record ∈ round.findings.map (recordOf sha256 number), blocks record = false := by
  intro record hrecord
  obtain ⟨finding, hfinding, rfl⟩ := List.mem_map.mp hrecord
  rw [blocks_recordOf sha256 number finding (List.all_eq_true.mp h.readable finding hfinding)]
  exact Bool.eq_false_iff.mpr (List.any_eq_false.mp hclean finding hfinding)

theorem run_added (start : ReviewLineage) (calls : List ReviewCall) :
    ∃ added, Added start (run (reviewStep sha256) start calls)
      (countAlong (reviewStep sha256) (acceptedBlocked sha256) start calls) added := by
  induction calls using List.reverseRecOn with
  | nil => exact ⟨[], (List.append_nil _).symm, le_refl _, nofun, nofun, by simp [countAlong]⟩
  | append_singleton calls call ih =>
    obtain ⟨added, hadded⟩ := ih
    rw [run_append, run_cons, run_nil, countAlong_append, countAlong, countAlong]
    generalize run (reviewStep sha256) start calls = lineage at hadded ⊢
    obtain ⟨failure, hresult, hstep⟩ | ⟨number, outcome, hresult, hstep, hrecorded⟩ := reviewStep_cases sha256 lineage call
    · have hcount : acceptedBlocked sha256 lineage call = false := by
        simp only [acceptedBlocked, hresult]
      rw [hstep, hcount]
      exact ⟨added, hadded⟩
    · have hcount : acceptedBlocked sha256 lineage call = blocked call.round := by
        simp only [acceptedBlocked, hresult]
      have hreached := hadded.reached
      have hbeyond := hrecorded.beyond
      rw [hstep, hcount]
      refine ⟨added ++ call.round.findings.map (recordOf sha256 number), ?_, ?_, ?_, ?_, ?_⟩
      · rw [hrecorded.records, hadded.records, List.append_assoc]
      · rw [hrecorded.highest]
        omega
      · intro record hrecord
        obtain hrecord | hrecord := List.mem_append.mp hrecord
        · exact hadded.later record hrecord
        · obtain ⟨finding, -, rfl⟩ := List.mem_map.mp hrecord
          exact lt_of_le_of_lt hreached hbeyond
      · intro hzero record hrecord
        obtain hrecord | hrecord := List.mem_append.mp hrecord
        · exact hadded.clean (by omega) record hrecord
        · refine hrecorded.clean sha256 ?_ record hrecord
          cases hblocked : blocked call.round with
          | false => rfl
          | true =>
            rw [hblocked] at hzero
            simp at hzero
      · rw [hrecorded.unsuccessful, hadded.unsuccessful]
        cases blocked call.round with
        | false => simp
        | true =>
          push_cast
          simp only [if_true]
          ring

/-! ### The two gates -/

/-- The approval is valid and names the lineage, and the use is of its project and subject. -/
structure Names (lineage : ReviewLineage) (use : ReviewContinuationUse) : Prop where
  valid : validReviewContinuationApproval use.approval = true
  projectId : use.projectId = use.approval.projectId
  subjectRef : use.subjectRef = use.approval.subjectRef
  digest : use.approval.sourceLineageDigest = lineage.digest
  highestRound : use.approval.sourceRound = lineage.highestRound
  unsuccessfulRounds : use.approval.unsuccessfulRounds = lineage.unsuccessfulRounds

instance (lineage : ReviewLineage) (use : ReviewContinuationUse) : Decidable (Names lineage use) :=
  decidable_of_iff
    (validReviewContinuationApproval use.approval = true ∧ use.projectId = use.approval.projectId
      ∧ use.subjectRef = use.approval.subjectRef ∧ use.approval.sourceLineageDigest = lineage.digest
      ∧ use.approval.sourceRound = lineage.highestRound ∧ use.approval.unsuccessfulRounds = lineage.unsuccessfulRounds)
    ⟨fun ⟨a, b, c, d, e, f⟩ => ⟨a, b, c, d, e, f⟩, fun ⟨a, b, c, d, e, f⟩ => ⟨a, b, c, d, e, f⟩⟩

theorem Names.matches_iff {lineage : ReviewLineage} {use : ReviewContinuationUse} (h : Names lineage use) (round : ℤ) :
    reviewContinuationMatches lineage round use = true ↔
      isSafeCount round = true ∧ use.round = round ∧ lineage.highestRound < round := by
  unfold reviewContinuationMatches
  simp [h.valid, h.projectId, h.subjectRef, h.digest, h.highestRound, h.unsuccessfulRounds, and_assoc]

theorem attested_digest (lineage : ReviewLineage) (h : lineageAttested sha256 lineage = .ok true) :
    lineageDigest sha256 lineage.records lineage.unsuccessfulRounds lineage.highestRound = .ok lineage.digest := by
  unfold lineageAttested at h
  obtain ⟨digest, hdigest, hsame⟩ := except_bind_ok _ _ _ h
  rw [hdigest, of_decide_eq_true (Except.ok.inj hsame)]

/-- The source that the acceptance gate rebuilds from the records. -/
theorem Added.source {start lineage : ReviewLineage} {count : ℕ} {added : List ReviewFindingRecord}
    (h : Added start lineage count added) (hstart : ∀ record ∈ start.records, record.round ≤ start.highestRound) :
    (lineage.records.filter fun record => record.round ≤ start.highestRound) = start.records := by
  have hold : (start.records.filter fun record => record.round ≤ start.highestRound) = start.records :=
    List.filter_eq_self.mpr fun record hrecord => decide_eq_true (hstart record hrecord)
  have hnew : (added.filter fun record => record.round ≤ start.highestRound) = [] :=
    List.filter_eq_nil_iff.mpr fun record hrecord => by simpa using h.later record hrecord
  rw [h.records, List.filter_append, hold, hnew, List.append_nil]

theorem Added.unblocked {start lineage : ReviewLineage} {count : ℕ} {added : List ReviewFindingRecord}
    (h : Added start lineage count added) (hstart : ∀ record ∈ start.records, record.round ≤ start.highestRound)
    (hzero : count = 0) : (lineage.records.any fun record => record.round > start.highestRound && blocks record) = false := by
  rw [h.records, List.any_append, Bool.or_eq_false_iff]
  constructor
  · refine List.any_eq_false.mpr fun record hrecord => ?_
    have hreached := hstart record hrecord
    simp only [gt_iff_lt, Bool.and_eq_true, decide_eq_true_eq, not_and]
    intro hpast
    omega
  · refine List.any_eq_false.mpr fun record hrecord => ?_
    rw [h.clean hzero record hrecord]
    simp

theorem accepts_matches {lineage : ReviewLineage} {use : ReviewContinuationUse}
    (h : reviewContinuationAccepts sha256 lineage use = .ok true) :
    lineage.highestRound = use.round ∧ use.approval.sourceRound < use.round
      ∧ lineage.unsuccessfulRounds = use.approval.unsuccessfulRounds := by
  unfold reviewContinuationAccepts at h
  split at h
  · cases h
  rename_i hopen
  obtain ⟨digest, -, h⟩ := except_bind_ok _ _ _ h
  have hmatches := Except.ok.inj h
  simp only [reviewContinuationMatches, Bool.and_eq_true, decide_eq_true_eq] at hmatches
  obtain ⟨⟨⟨⟨-, hpast⟩, -⟩, -⟩, hrounds⟩ := hmatches
  refine ⟨?_, hpast, hrounds⟩
  by_contra hne
  exact hopen (by simp [hne])

/-- The acceptance gate sees the frontier and the count of blocked rounds, and nothing else of what was appended. -/
theorem accepts_iff {start lineage : ReviewLineage} {use : ReviewContinuationUse} {count : ℕ}
    {added : List ReviewFindingRecord} (hnames : Names start use) (hkept : Kept sha256 start)
    (hstart : ∀ record ∈ start.records, record.round ≤ start.highestRound) (hlineage : Kept sha256 lineage)
    (h : Added start lineage count added) :
    reviewContinuationAccepts sha256 lineage use = .ok true ↔
      use.round = lineage.highestRound ∧ start.highestRound < lineage.highestRound ∧ count = 0 := by
  constructor
  · intro haccepts
    obtain ⟨hfrontier, hpast, hrounds⟩ := accepts_matches sha256 haccepts
    have hunsuccessful := h.unsuccessful
    have happroved := hnames.unsuccessfulRounds
    have hsource := hnames.highestRound
    exact ⟨hfrontier.symm, by omega, by omega⟩
  · rintro ⟨hround, hpast, hzero⟩
    have hunsuccessful : lineage.unsuccessfulRounds = start.unsuccessfulRounds := by
      rw [h.unsuccessful, hzero]
      simp
    unfold reviewContinuationAccepts
    rw [hnames.highestRound, h.source hstart, hnames.valid, h.unblocked hstart hzero, hround, hunsuccessful]
    simp only [attested_digest sha256 start hkept.attested, Bool.not_true, ne_eq, not_true, decide_false, Bool.or_false,
      Bool.false_eq_true, if_false]
    have hmatches := (hnames.matches_iff lineage.highestRound).mpr ⟨hlineage.highest, hround, hpast⟩
    exact congrArg Except.ok hmatches

/-! ### One append -/

/-- The round is appended after another, and no round since the lineage blocks. -/
def SecondClean (start : ReviewLineage) (use : ReviewContinuationUse) (lineage : ReviewLineage) (call : ReviewCall) : Prop :=
  start.highestRound < lineage.highestRound ∧ lineage.unsuccessfulRounds = start.unsuccessfulRounds
    ∧ admissibleRound call.round.round = some use.round ∧ lineage.highestRound < use.round
    ∧ (∀ other, call.continuation = some other → reviewContinuationMatches lineage use.round other = true)
    ∧ call.round.findings.all attributable = true ∧ blocked call.round = false

/-- What a use of a continuation that names the lineage of `first` buys while `later` is appended. -/
structure BuysOneAppend (first : List ReviewCall) (use : ReviewContinuationUse) (later : List ReviewCall) : Prop where
  appended : ∀ round outcome, recordReviewRound sha256 (reviewRun sha256 first) round (some use) = .ok outcome →
    outcome.routing.route = .ACCEPT → reviewContinuationAccepts sha256 outcome.lineage use = .ok true
  earlier : ∀ before after, first = before ++ after →
    reviewContinuationAccepts sha256 (reviewRun sha256 before) use ≠ .ok true
  once : ∀ before after, later = before ++ after →
    reviewContinuationAccepts sha256 (reviewRun sha256 (first ++ before)) use = .ok true →
      acceptedRounds sha256 (reviewRun sha256 first) before = [use.round]

theorem reached_of_accepted (lineage : ReviewLineage) (calls : List ReviewCall)
    (h : acceptedRounds sha256 lineage calls ≠ []) :
    lineage.highestRound < (run (reviewStep sha256) lineage calls).highestRound := by
  obtain ⟨hrising, hlast⟩ := acceptedRounds_frontier sha256 lineage calls
  rw [List.getLast_cons h] at hlast
  rw [← hlast]
  exact List.rel_of_pairwise_cons hrising (List.getLast_mem h)

theorem run_accepts_iff (first : List ReviewCall) (use : ReviewContinuationUse) (hnames : Names (reviewRun sha256 first) use)
    (calls : List ReviewCall) :
    reviewContinuationAccepts sha256 (run (reviewStep sha256) (reviewRun sha256 first) calls) use = .ok true ↔
      use.round = (run (reviewStep sha256) (reviewRun sha256 first) calls).highestRound
        ∧ (reviewRun sha256 first).highestRound < (run (reviewStep sha256) (reviewRun sha256 first) calls).highestRound
        ∧ countAlong (reviewStep sha256) (acceptedBlocked sha256) (reviewRun sha256 first) calls = 0 := by
  obtain ⟨added, hadded⟩ := run_added sha256 (reviewRun sha256 first) calls
  have hlater : Kept sha256 (run (reviewStep sha256) (reviewRun sha256 first) calls) :=
    run_invariant (reviewStep sha256) (Kept sha256) (reviewStep_kept sha256) _ (reviewRun_kept sha256 first) calls
  exact accepts_iff sha256 hnames (reviewRun_kept sha256 first) (run_records_reached sha256 first) hlater hadded

theorem append_accepted (first : List ReviewCall) (use : ReviewContinuationUse) (hnames : Names (reviewRun sha256 first) use)
    (round : ReviewRoundInput) (outcome : ReviewRoundOutcome)
    (h : recordReviewRound sha256 (reviewRun sha256 first) round (some use) = .ok outcome)
    (hroute : outcome.routing.route = .ACCEPT) : reviewContinuationAccepts sha256 outcome.lineage use = .ok true := by
  obtain ⟨number, hrecorded⟩ := recordReviewRound_ok sha256 _ _ _ _ h
  have hnumber := (hnames.matches_iff number).mp (hrecorded.continued use rfl)
  rw [hrecorded.route, routeOf_accept, Bool.not_eq_true'] at hroute
  have hrun : run (reviewStep sha256) (reviewRun sha256 first) [⟨round, some use⟩] = outcome.lineage := by
    rw [run_cons, run_nil, reviewStep, h]
  have hcount : countAlong (reviewStep sha256) (acceptedBlocked sha256) (reviewRun sha256 first) [⟨round, some use⟩] = 0 := by
    simp only [countAlong, acceptedBlocked, h, hroute.2]
    rfl
  have haccepts := run_accepts_iff sha256 first use hnames [⟨round, some use⟩]
  rw [hrun, hrecorded.highest] at haccepts
  exact haccepts.mpr ⟨hnumber.2.1, hnumber.2.2, hcount⟩

theorem earlier_refused (before after : List ReviewCall) (use : ReviewContinuationUse)
    (hnames : Names (reviewRun sha256 (before ++ after)) use) :
    reviewContinuationAccepts sha256 (reviewRun sha256 before) use ≠ .ok true := by
  intro haccepts
  obtain ⟨hfrontier, hpast, -⟩ := accepts_matches sha256 haccepts
  obtain ⟨added, hadded⟩ := run_added sha256 (reviewRun sha256 before) after
  have hreached := hadded.reached
  have hsource := hnames.highestRound
  unfold reviewRun at hsource hreached hfrontier
  rw [run_append] at hsource
  omega

/-- A second clean append numbered as the use says passes the acceptance gate too. -/
theorem second_accepted (first : List ReviewCall) (use : ReviewContinuationUse) (hnames : Names (reviewRun sha256 first) use)
    (before : List ReviewCall) (call : ReviewCall)
    (h : SecondClean (reviewRun sha256 first) use (run (reviewStep sha256) (reviewRun sha256 first) before) call) :
    reviewContinuationAccepts sha256 (run (reviewStep sha256) (reviewRun sha256 first) (before ++ [call])) use = .ok true
      ∧ acceptedRounds sha256 (reviewRun sha256 first) (before ++ [call]) ≠ [use.round] := by
  obtain ⟨hpast, hrounds, hnumber, hbeyond, hcontinued, hreadable, hclean⟩ := h
  have hkept : Kept sha256 (run (reviewStep sha256) (reviewRun sha256 first) before) :=
    run_invariant (reviewStep sha256) (Kept sha256) (reviewStep_kept sha256) _ (reviewRun_kept sha256 first) before
  obtain ⟨outcome, houtcome⟩ := recordReviewRound_intro sha256 _ call.round call.continuation use.round hkept hnumber hbeyond
    hcontinued hreadable
  obtain ⟨number, hrecorded⟩ := recordReviewRound_ok sha256 _ _ _ _ houtcome
  obtain rfl : use.round = number := Option.some.inj (hnumber.symm.trans hrecorded.admissible)
  have hrun : run (reviewStep sha256) (reviewRun sha256 first) (before ++ [call]) = outcome.lineage := by
    rw [run_append, run_cons, run_nil, reviewStep, houtcome]
  have hunsuccessful : outcome.lineage.unsuccessfulRounds = (reviewRun sha256 first).unsuccessfulRounds := by
    rw [hrecorded.unsuccessful, hclean, hrounds]
    simp
  have hcount := run_unsuccessful sha256 (reviewRun sha256 first) (before ++ [call])
  rw [hrun, hunsuccessful] at hcount
  constructor
  · refine (run_accepts_iff sha256 first use hnames (before ++ [call])).mpr ⟨?_, ?_, by omega⟩
    · rw [hrun, hrecorded.highest]
    · rw [hrun, hrecorded.highest]
      exact lt_trans hpast hbeyond
  · intro honce
    rw [acceptedRounds_append] at honce
    simp only [acceptedRounds, houtcome, List.append_eq_singleton_iff, List.cons_ne_nil, and_false, or_false] at honce
    obtain ⟨-, hlast⟩ := acceptedRounds_frontier sha256 (reviewRun sha256 first) before
    simp only [honce.1, List.getLast_singleton] at hlast
    omega

theorem accepted_once (first : List ReviewCall) (use : ReviewContinuationUse) (hnames : Names (reviewRun sha256 first) use)
    (calls : List ReviewCall)
    (h : Along (reviewStep sha256) (fun lineage call => ¬ SecondClean (reviewRun sha256 first) use lineage call)
      (reviewRun sha256 first) calls)
    (haccepts : reviewContinuationAccepts sha256 (run (reviewStep sha256) (reviewRun sha256 first) calls) use = .ok true) :
    acceptedRounds sha256 (reviewRun sha256 first) calls = [use.round] := by
  induction calls using List.reverseRecOn with
  | nil =>
    have hpast := ((run_accepts_iff sha256 first use hnames []).mp haccepts).2.1
    exact absurd hpast (lt_irrefl _)
  | append_singleton calls call ih =>
    obtain ⟨hbefore, hcall, -⟩ := (Along.append_iff _ _ _ calls [call]).mp h
    obtain ⟨hround, hpast, hcount⟩ := (run_accepts_iff sha256 first use hnames _).mp haccepts
    rw [acceptedRounds_append]
    obtain ⟨failure, hresult, hstep⟩ | ⟨number, outcome, hresult, hstep, hrecorded⟩ :=
      reviewStep_cases sha256 (run (reviewStep sha256) (reviewRun sha256 first) calls) call
    · rw [run_append, run_cons, run_nil, hstep] at haccepts
      simp only [acceptedRounds, hresult, List.append_nil]
      exact ih hbefore haccepts
    · rw [run_append, run_cons, run_nil, hstep, hrecorded.highest] at hround
      subst hround
      simp only [acceptedRounds, hresult, hrecorded.highest, List.append_left_eq_self]
      by_contra hne
      have hreached := reached_of_accepted sha256 (reviewRun sha256 first) calls hne
      rw [countAlong_append] at hcount
      have hclean : blocked call.round = false := by
        cases hblocked : blocked call.round with
        | false => rfl
        | true => simp [countAlong, acceptedBlocked, hresult, hblocked] at hcount
      have hunsuccessful := run_unsuccessful sha256 (reviewRun sha256 first) calls
      exact hcall ⟨hreached, by omega, hrecorded.admissible, hrecorded.beyond, hrecorded.continued, hrecorded.readable, hclean⟩

/-- A continuation buys one append exactly along the runs that append no second clean round under its number. -/
theorem buysOneAppend_iff (first : List ReviewCall) (use : ReviewContinuationUse) (hnames : Names (reviewRun sha256 first) use)
    (later : List ReviewCall) :
    BuysOneAppend sha256 first use later ↔
      Along (reviewStep sha256) (fun lineage call => ¬ SecondClean (reviewRun sha256 first) use lineage call)
        (reviewRun sha256 first) later := by
  have happend (calls : List ReviewCall) :
      reviewRun sha256 (first ++ calls) = run (reviewStep sha256) (reviewRun sha256 first) calls :=
    run_append (reviewStep sha256) _ first calls
  constructor
  · intro h
    refine (Along.iff_split _ _ _ _).mpr fun before call after hlater hsecond => ?_
    obtain ⟨haccepts, hne⟩ := second_accepted sha256 first use hnames before call hsecond
    rw [← happend] at haccepts
    exact hne (h.once (before ++ [call]) after (by rw [hlater, List.append_assoc]; rfl) haccepts)
  · intro h
    refine ⟨append_accepted sha256 first use hnames, ?_, ?_⟩
    · rintro before after rfl
      exact earlier_refused sha256 before after use hnames
    · rintro before after rfl haccepts
      rw [happend] at haccepts
      exact accepted_once sha256 first use hnames before ((Along.append_iff _ _ _ before after).mp h).1 haccepts

/-! ### An exhausted review -/

def exhaustedDigest : JsString := lit "1ede3c520674e312a082481d530c2a03c10bec93ae5619288cd44864a972c50b"

def exhaustedRecords : List ReviewFindingRecord := [sampleRecord 1, sampleRecord 2, sampleRecord 3]

def exhaustedDigests : List (List Byte × JsString) :=
  sampleDigests ++ [(utf8 (canonicalText (lineageValue exhaustedRecords 3 3)), exhaustedDigest),
    (utf8 (canonicalText (lineageValue exhaustedRecords 3 4)),
      lit "46c815f09776e8b8699d67aa729af5189b1679bf2be62bb711c54f6979ed2073"),
    (utf8 (canonicalText (lineageValue exhaustedRecords 3 5)),
      lit "0605dc6dd6eb553d4ba05613efe54b9150eae3209f15a6c929f8dc9a0e75f0a8")]

/-- Three rounds with the same finding. -/
def exhaustedCalls : List ReviewCall :=
  [⟨⟨[sampleFinding], .integer 1⟩, none⟩, ⟨⟨[sampleFinding], .integer 2⟩, none⟩, ⟨⟨[sampleFinding], .integer 3⟩, none⟩]

def sampleUse (round : ℤ) : ReviewContinuationUse where
  projectId := lit "project-a"
  subjectRef := lit "node-a"
  round := round
  approval := {
    version := lit "moe-review-continuation/1"
    projectId := lit "project-a"
    subjectRef := lit "node-a"
    decisionId := lit "allow-1"
    decisionResultSha256 := lit "aaaaaaaaaaaaaaaaaaaaaaaaaaaaaaaaaaaaaaaaaaaaaaaaaaaaaaaaaaaaaaaa"
    decisionVersion := 4
    sourceDecisionId := lit "round-3"
    sourceResultSha256 := lit "bbbbbbbbbbbbbbbbbbbbbbbbbbbbbbbbbbbbbbbbbbbbbbbbbbbbbbbbbbbbbbbb"
    sourceAggregateVersion := 3
    sourceLineageDigest := exhaustedDigest
    sourceRound := 3
    unsuccessfulRounds := 3 }

def cleanCall (round : ℤ) : ReviewCall := ⟨⟨[], .integer round⟩, none⟩

def exhaustedLineage : ReviewLineage := ⟨exhaustedDigest, 3, exhaustedRecords, 3⟩

theorem exhausted_lineage : reviewRun (digestTable exhaustedDigests) exhaustedCalls = exhaustedLineage := by decide +kernel

theorem exhausted_names (round : ℤ) : Names (reviewRun (digestTable exhaustedDigests) exhaustedCalls) (sampleUse round) := by
  rw [exhausted_lineage]
  exact ⟨show validReviewContinuationApproval (sampleUse 4).approval = true by decide +kernel, rfl, rfl, rfl, rfl, rfl⟩

/-- Two clean rounds after the approved lineage, and the acceptance gate still spends the grant. -/
theorem exhausted_spent_twice :
    Function.Injective (digestTable exhaustedDigests)
      ∧ Names (reviewRun (digestTable exhaustedDigests) exhaustedCalls) (sampleUse 5)
      ∧ acceptedRounds (digestTable exhaustedDigests) (reviewRun (digestTable exhaustedDigests) exhaustedCalls)
          [cleanCall 4, cleanCall 5] = [4, 5]
      ∧ reviewContinuationAccepts (digestTable exhaustedDigests)
          (reviewRun (digestTable exhaustedDigests) (exhaustedCalls ++ [cleanCall 4, cleanCall 5])) (sampleUse 5) = .ok true
      ∧ ¬ BuysOneAppend (digestTable exhaustedDigests) exhaustedCalls (sampleUse 5) [cleanCall 4, cleanCall 5] := by
  have hruns : acceptedRounds (digestTable exhaustedDigests) exhaustedLineage [cleanCall 4, cleanCall 5] = [4, 5]
      ∧ reviewContinuationAccepts (digestTable exhaustedDigests)
          (run (reviewStep (digestTable exhaustedDigests)) exhaustedLineage [cleanCall 4, cleanCall 5]) (sampleUse 5)
            = .ok true := by
    decide +kernel
  have hnames := exhausted_names 5
  obtain ⟨hrounds, haccepts⟩ := hruns
  rw [← exhausted_lineage] at hrounds haccepts
  rw [reviewRun, ← run_append] at haccepts
  refine ⟨digestTable_injective exhaustedDigests (by decide +kernel) (by decide +kernel), hnames, hrounds, haccepts, fun h => ?_⟩
  have honce := h.once [cleanCall 4, cleanCall 5] [] rfl haccepts
  rw [hrounds] at honce
  cases honce

theorem exhausted_buysOneAppend :
    Names (reviewRun (digestTable exhaustedDigests) exhaustedCalls) (sampleUse 4)
      ∧ (BuysOneAppend (digestTable exhaustedDigests) exhaustedCalls (sampleUse 4) [cleanCall 4, cleanCall 5] ↔
          Along (reviewStep (digestTable exhaustedDigests))
            (fun lineage call =>
              ¬ SecondClean (reviewRun (digestTable exhaustedDigests) exhaustedCalls) (sampleUse 4) lineage call)
            (reviewRun (digestTable exhaustedDigests) exhaustedCalls) [cleanCall 4, cleanCall 5]) := by
  exact ⟨exhausted_names 4, buysOneAppend_iff (digestTable exhaustedDigests) exhaustedCalls (sampleUse 4) (exhausted_names 4)
    [cleanCall 4, cleanCall 5]⟩

end MoeNG.Review
