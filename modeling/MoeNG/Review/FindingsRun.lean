import MoeNG.Review.Findings

/-!
# Review lineages over runs

An accepted round is described once, by its record list and its route; the
laws of a lineage follow from it along the run.
-/

namespace MoeNG.Review
open MoeNG.Kernel MoeNG.Lib

variable (sha256 : List Byte → JsString)

/-! ### Fingerprints -/

def fingerprintOf (ruleId : JsString) (subject : ReviewFindingSubject) : JsString :=
  sha256 (utf8 (canonicalText (fingerprintValue ruleId subject)))

theorem printable_subject (subject : ReviewFindingSubject) : printable (subjectValue subject) = true := by
  simp [subjectValue, printable_object]

theorem printable_fingerprint (ruleId : JsString) (subject : ReviewFindingSubject) :
    printable (fingerprintValue ruleId subject) = true := by
  simp [fingerprintValue, printable_object, printable_subject]

theorem findingFingerprint_eq (finding : ReviewFinding) :
    findingFingerprint sha256 finding = .ok (fingerprintOf sha256 finding.ruleId finding.subject) := by
  unfold findingFingerprint canonicalDigest canonicalJson
  rw [if_pos (printable_fingerprint finding.ruleId finding.subject)]
  rfl

theorem subjectText_injective (a b : ReviewFindingSubjectKind) (h : lit a.text = lit b.text) : a = b := by
  revert h
  cases a <;> cases b <;> decide

theorem severityText_injective (a b : ReviewFindingSeverity) (h : lit a.text = lit b.text) : a = b := by
  revert h
  cases a <;> cases b <;> decide

theorem ordered_subject (subject : ReviewFindingSubject) : ordered (subjectValue subject) = subjectValue subject := by
  unfold subjectValue
  rw [ordered_object _ ["kind", "locator"] rfl (by decide)]
  rfl

theorem subjectValue_injective (a b : ReviewFindingSubject) (h : subjectValue a = subjectValue b) : a = b := by
  obtain ⟨kind, locator⟩ := a
  obtain ⟨kind', locator'⟩ := b
  simp only [subjectValue, objectOf, List.map_cons, List.map_nil, Value.record.injEq, List.cons.injEq, Prod.mk.injEq,
    Value.string.injEq, true_and, and_true] at h
  rw [subjectText_injective kind kind' h.1, h.2]

theorem ordered_fingerprint (ruleId : JsString) (subject : ReviewFindingSubject) :
    ordered (fingerprintValue ruleId subject) = fingerprintValue ruleId subject := by
  unfold fingerprintValue
  rw [ordered_object _ ["ruleId", "subject"] rfl (by decide)]
  simp only [List.map_cons, List.map_nil, ordered_subject]
  rfl

theorem fingerprintOf_inj (hsha : Function.Injective sha256) (r r' : JsString) (s s' : ReviewFindingSubject) :
    fingerprintOf sha256 r s = fingerprintOf sha256 r' s' ↔ r = r' ∧ s = s' := by
  constructor
  · intro h
    have hvalue := canonicalJson_bytes_inj _ _ _ _ (if_pos (printable_fingerprint r s))
      (if_pos (printable_fingerprint r' s')) (hsha h)
    rw [ordered_fingerprint, ordered_fingerprint] at hvalue
    simp only [fingerprintValue, objectOf, List.map_cons, List.map_nil, Value.record.injEq, List.cons.injEq,
      Prod.mk.injEq, Value.string.injEq, true_and, and_true] at hvalue
    exact ⟨hvalue.1, subjectValue_injective s s' hvalue.2⟩
  · rintro ⟨rfl, rfl⟩
    rfl

/-! ### Lineage digests -/

theorem ordered_attribution (attribution : ReviewFindingAttribution) :
    ordered (attributionValue attribution) = attributionValue attribution := by
  unfold attributionValue
  rw [ordered_object _ ["criterionIds", "nodeKey"] rfl (by decide)]
  simp only [List.map_cons, List.map_nil, ordered_array, List.map_map]
  rfl

theorem ordered_finding (finding : ReviewFinding) : ordered (findingValue finding) = findingValue finding := by
  obtain ⟨attributedTo, detail, ruleId, severity, subject⟩ := finding
  unfold findingValue
  cases attributedTo with
  | none =>
    rw [ordered_object _ ["detail", "ruleId", "severity", "subject"] rfl (by decide)]
    simp only [Option.toList_none, List.map_nil, List.nil_append, List.map_cons, ordered_subject]
    rfl
  | some attribution =>
    rw [ordered_object _ ["attributedTo", "detail", "ruleId", "severity", "subject"] rfl (by decide)]
    simp only [Option.toList_some, List.map_nil, List.map_cons, List.cons_append, List.nil_append, ordered_subject,
      ordered_attribution]
    rfl

theorem ordered_record (record : ReviewFindingRecord) : ordered (recordValue record) = recordValue record := by
  unfold recordValue
  rw [ordered_object _ ["finding", "fingerprint", "round"] rfl (by decide)]
  simp only [List.map_cons, List.map_nil, ordered_finding]
  rfl

theorem ordered_lineage (records : List ReviewFindingRecord) (u h : ℤ) :
    ordered (lineageValue records u h) = lineageValue records u h := by
  unfold lineageValue
  rw [ordered_object _ ["highestRound", "records", "unsuccessfulRounds"] rfl (by decide)]
  simp only [List.map_cons, List.map_nil, ordered_array, List.map_map, Function.comp_def, ordered_record]
  rfl

theorem attributionValue_injective (a b : ReviewFindingAttribution) (h : attributionValue a = attributionValue b) : a = b := by
  obtain ⟨ids, key⟩ := a
  obtain ⟨ids', key'⟩ := b
  simp only [attributionValue, objectOf, List.map_cons, List.map_nil, Value.record.injEq, List.cons.injEq, Prod.mk.injEq,
    Value.string.injEq, Value.array.injEq, true_and, and_true] at h
  have hids : ids = ids' := List.map_injective_iff.mpr (fun x y hxy => Value.string.inj hxy) h.1
  rw [hids, h.2]

theorem findingValue_injective (a b : ReviewFinding) (h : findingValue a = findingValue b) : a = b := by
  obtain ⟨attributedTo, detail, ruleId, severity, subject⟩ := a
  obtain ⟨attributedTo', detail', ruleId', severity', subject'⟩ := b
  cases attributedTo <;> cases attributedTo' <;>
    simp only [findingValue, objectOf, Option.toList_none, Option.toList_some, List.map_cons, List.map_nil, List.nil_append,
      List.cons_append, Value.record.injEq, List.cons.injEq, Prod.mk.injEq, Value.string.injEq, true_and, and_true] at h
  · rw [h.1, h.2.1, severityText_injective _ _ h.2.2.1, subjectValue_injective _ _ h.2.2.2]
  · exact absurd h.1.1 (by decide)
  · exact absurd h.1.1 (by decide)
  · rw [attributionValue_injective _ _ h.1, h.2.1, h.2.2.1, severityText_injective _ _ h.2.2.2.1,
      subjectValue_injective _ _ h.2.2.2.2]

theorem integer_injective (a b : ℤ) (h : integer a = integer b) : a = b := by
  simpa only [integer, Value.number.injEq, JsNumber.integer.injEq] using h

theorem recordValue_injective (a b : ReviewFindingRecord) (h : recordValue a = recordValue b) : a = b := by
  obtain ⟨finding, fingerprint, round⟩ := a
  obtain ⟨finding', fingerprint', round'⟩ := b
  simp only [recordValue, objectOf, List.map_cons, List.map_nil, Value.record.injEq, List.cons.injEq, Prod.mk.injEq,
    Value.string.injEq, true_and, and_true] at h
  rw [findingValue_injective _ _ h.1, h.2.1, integer_injective _ _ h.2.2]

theorem lineageValue_injective (records records' : List ReviewFindingRecord) (u u' h h' : ℤ)
    (heq : lineageValue records u h = lineageValue records' u' h') : records = records' ∧ u = u' ∧ h = h' := by
  simp only [lineageValue, objectOf, List.map_cons, List.map_nil, Value.record.injEq, List.cons.injEq, Prod.mk.injEq,
    Value.array.injEq, true_and, and_true] at heq
  exact ⟨List.map_injective_iff.mpr (fun x y hxy => recordValue_injective x y hxy) heq.2.1, integer_injective _ _ heq.2.2,
    integer_injective _ _ heq.1⟩

/-- An attested lineage is determined by its digest. -/
theorem attested_inj (hsha : Function.Injective sha256) (a b : ReviewLineage)
    (ha : lineageAttested sha256 a = .ok true) (hb : lineageAttested sha256 b = .ok true) (h : a.digest = b.digest) : a = b := by
  have hdigest (l : ReviewLineage) (hl : lineageAttested sha256 l = .ok true) :
      ∃ text, canonicalJson (lineageValue l.records l.unsuccessfulRounds l.highestRound) = some text
        ∧ l.digest = sha256 (utf8 text) := by
    unfold lineageAttested lineageDigest at hl
    obtain ⟨digest, hd, hl⟩ := except_bind_ok _ _ _ hl
    have hsame : l.digest = digest := of_decide_eq_true (Except.ok.inj hl)
    unfold canonicalDigest at hd
    split at hd
    · rename_i text htext
      exact ⟨text, htext, hsame.trans (Except.ok.inj hd).symm⟩
    · cases hd
  obtain ⟨text, htext, hda⟩ := hdigest a ha
  obtain ⟨text', htext', hdb⟩ := hdigest b hb
  rw [hda, hdb] at h
  have hvalue := canonicalJson_bytes_inj _ _ _ _ htext htext' (hsha h)
  rw [ordered_lineage, ordered_lineage] at hvalue
  obtain ⟨hrecords, hrounds, hhighest⟩ := lineageValue_injective _ _ _ _ _ _ hvalue
  have hd : a.digest = b.digest := by rw [hda, hdb, h]
  obtain ⟨digest, highestRound, records, unsuccessfulRounds⟩ := a
  obtain ⟨digest', highestRound', records', unsuccessfulRounds'⟩ := b
  simp only at hrecords hrounds hhighest hd
  rw [hrecords, hrounds, hhighest, hd]

/-! ### One round -/

def recordOf (number : ℤ) (finding : Finding Value) : ReviewFindingRecord :=
  ⟨inertFinding finding ((inertAttribution finding).getD none), fingerprintOf sha256 finding.ruleId finding.subject, number⟩

def attributable (finding : Finding Value) : Bool := (inertAttribution finding).isSome

theorem addedRecord_eq (number : ℤ) (finding : Finding Value) :
    addedRecord sha256 number finding =
      if attributable finding then .ok (recordOf sha256 number finding) else refuse .FINDING_ATTRIBUTION_INVALID := by
  unfold addedRecord attributable recordOf
  cases hread : inertAttribution finding with
  | none => rfl
  | some attributedTo =>
    simp only [findingFingerprint_eq]
    rfl

/-- Every finding is recorded, or the round is refused. -/
theorem mapM_addedRecord (number : ℤ) (findings : List (Finding Value)) :
    findings.mapM (addedRecord sha256 number) =
      if findings.all attributable then .ok (findings.map (recordOf sha256 number))
      else refuse .FINDING_ATTRIBUTION_INVALID := by
  induction findings with
  | nil => rfl
  | cons finding rest ih =>
    rw [List.mapM_cons, addedRecord_eq, ih, List.all_cons, List.map_cons]
    cases attributable finding with
    | false => rfl
    | true => cases rest.all attributable <;> rfl

def unattributed (finding : Finding Value) : Bool :=
  match finding.attributedTo with
  | .undefined => true
  | _ => false

/-- The finding charges the reporter and blocks the round. -/
def charges (finding : Finding Value) : Bool := unattributed finding && finding.severity ≠ .MINOR

def blocked (round : ReviewRoundInput) : Bool := round.findings.any charges

theorem inertAttribution_own (finding : Finding Value) (h : attributable finding = true) :
    decide ((inertAttribution finding).getD none = none) = unattributed finding := by
  obtain ⟨attributedTo, detail, ruleId, severity, subject⟩ := finding
  cases attributedTo with
  | undefined => rfl
  | record value =>
    have hsome : ∀ a, inertAttribution ⟨.record value, detail, ruleId, severity, subject⟩ = some a → a.isSome = true := by
      intro a ha
      unfold inertAttribution at ha
      dsimp only at ha
      split at ha
      · cases ha
      · obtain ⟨nodeKey, -, ha⟩ := Option.bind_eq_some_iff.mp ha
        split at ha
        · split at ha
          · cases ha
          · obtain ⟨criterionIds, -, ha⟩ := Option.bind_eq_some_iff.mp ha
            split at ha
            · cases ha
            · rw [← Option.some.inj ha]
              rfl
        · cases ha
    obtain ⟨a, ha⟩ := Option.isSome_iff_exists.mp h
    have hisSome := hsome a ha
    rw [ha]
    cases a with
    | none => cases hisSome
    | some attribution => rfl
  | _ => cases h

theorem blocks_recordOf (number : ℤ) (finding : Finding Value) (h : attributable finding = true) :
    blocks (recordOf sha256 number finding) = charges finding := by
  unfold blocks charges owned recordOf inertFinding
  rw [← inertAttribution_own finding h]

/-- What an accepted round stores and answers. -/
structure Recorded (lineage : ReviewLineage) (round : ReviewRoundInput) (continuation : Option ReviewContinuationUse)
    (number : ℤ) (outcome : ReviewRoundOutcome) : Prop where
  attested : lineageAttested sha256 lineage = .ok true
  admissible : admissibleRound round.round = some number
  beyond : lineage.highestRound < number
  continued : ∀ use, continuation = some use → reviewContinuationMatches lineage number use = true
  readable : round.findings.all attributable = true
  highest : outcome.lineage.highestRound = number
  records : outcome.lineage.records = lineage.records ++ round.findings.map (recordOf sha256 number)
  unsuccessful : outcome.lineage.unsuccessfulRounds = lineage.unsuccessfulRounds + if blocked round then 1 else 0
  digest : lineageAttested sha256 outcome.lineage = .ok true
  route : outcome.routing.route =
    routeOf (outcome.lineage.unsuccessfulRounds ≥ reviewEscalationRoundLimit && !(!blocked round && continuation.isSome))
      (!blocked round) (repeats lineage.records (round.findings.map (recordOf sha256 number)))

theorem filter_blocks_length (number : ℤ) (findings : List (Finding Value)) (h : findings.all attributable = true) :
    decide (((findings.map (recordOf sha256 number)).filter blocks).length = 0) = !findings.any charges := by
  induction findings with
  | nil => rfl
  | cons finding rest ih =>
    rw [List.all_cons, Bool.and_eq_true] at h
    rw [List.map_cons, List.filter_cons, blocks_recordOf sha256 number finding h.1, List.any_cons]
    cases charges finding with
    | true => simp
    | false =>
      rw [Bool.false_or]
      exact ih h.2

theorem attested_of_digest (lineage : ReviewLineage)
    (h : lineageDigest sha256 lineage.records lineage.unsuccessfulRounds lineage.highestRound = .ok lineage.digest) :
    lineageAttested sha256 lineage = .ok true := by
  unfold lineageAttested
  rw [h]
  exact congrArg Except.ok (decide_eq_true rfl)

theorem recordReviewRound_ok (lineage : ReviewLineage) (round : ReviewRoundInput)
    (continuation : Option ReviewContinuationUse) (outcome : ReviewRoundOutcome)
    (h : recordReviewRound sha256 lineage round continuation = .ok outcome) :
    ∃ number, Recorded sha256 lineage round continuation number outcome := by
  unfold recordReviewRound at h
  obtain ⟨attested, hattested, h⟩ := except_bind_ok _ _ _ h
  split at h
  · cases h
  rename_i htrue
  split at h
  · cases h
  rename_i number hnumber
  split at h
  · cases h
  rename_i hbeyond
  split at h
  · cases h
  rename_i hcontinuation
  obtain ⟨added, hadded, h⟩ := except_bind_ok _ _ _ h
  obtain ⟨digest, hdigest, h⟩ := except_bind_ok _ _ _ h
  rw [mapM_addedRecord] at hadded
  split at hadded
  · rename_i hall
    obtain rfl := Except.ok.inj hadded
    have hclean : decide (((round.findings.map (recordOf sha256 number)).filter blocks).length = 0) = !blocked round :=
      filter_blocks_length sha256 number round.findings hall
    rw [hclean] at hdigest h
    have houtcome := (Except.ok.inj h).symm
    subst houtcome
    have hcount : (if (!blocked round) = true then 0 else 1 : ℤ) = if blocked round then 1 else 0 := by
      cases blocked round <;> rfl
    refine ⟨number, ?_, hnumber, by omega, ?_, hall, rfl, rfl, ?_, attested_of_digest sha256 _ hdigest, rfl⟩
    · rw [hattested]
      simpa using htrue
    · intro use huse
      rw [huse] at hcontinuation
      simpa using hcontinuation
    · exact congrArg (lineage.unsuccessfulRounds + ·) hcount
  · cases hadded

/-! ### Printable lineages -/

def SafeNumbers (lineage : ReviewLineage) : Prop :=
  isSafeNumber lineage.unsuccessfulRounds = true ∧ isSafeNumber lineage.highestRound = true
    ∧ ∀ record ∈ lineage.records, isSafeNumber record.round = true

theorem printable_integer (z : ℤ) : printable (integer z) = isSafeNumber z := rfl

theorem printable_finding (finding : ReviewFinding) : printable (findingValue finding) = true := by
  obtain ⟨attributedTo, detail, ruleId, severity, subject⟩ := finding
  cases attributedTo with
  | none => simp [findingValue, printable_object, printable_subject]
  | some attribution => simp [findingValue, attributionValue, printable_object, printable_array, printable_subject]

theorem printable_lineage (records : List ReviewFindingRecord) (u h : ℤ) (hu : isSafeNumber u = true)
    (hh : isSafeNumber h = true) (hrecords : ∀ record ∈ records, isSafeNumber record.round = true) :
    printable (lineageValue records u h) = true := by
  simp only [lineageValue, printable_object, List.forall_mem_cons, printable_integer, printable_array, List.forall_mem_map]
  refine ⟨hh, fun record hrecord => ?_, hu, nofun⟩
  simp only [recordValue, printable_object, List.forall_mem_cons, printable_finding, printable_string, printable_integer]
  exact ⟨trivial, trivial, hrecords record hrecord, nofun⟩

theorem lineageDigest_total (records : List ReviewFindingRecord) (u h : ℤ) (hu : isSafeNumber u = true)
    (hh : isSafeNumber h = true) (hrecords : ∀ record ∈ records, isSafeNumber record.round = true) :
    ∃ digest, lineageDigest sha256 records u h = .ok digest := by
  unfold lineageDigest canonicalDigest canonicalJson
  rw [if_pos (printable_lineage records u h hu hh hrecords)]
  exact ⟨_, rfl⟩

theorem isSafeNumber_of_count (z : ℤ) (h : isSafeCount z = true) : isSafeNumber z = true := by
  have hmax : 0 ≤ maxSafeInteger := by decide
  simp only [isSafeCount, isSafeNumber, decide_eq_true_eq] at h ⊢
  omega

theorem admissibleRound_count (round : JsNumber) (number : ℤ) (h : admissibleRound round = some number) :
    isSafeCount number = true := by
  unfold admissibleRound at h
  split at h
  · split at h
    · rename_i hz
      exact Option.some.inj h ▸ hz
    · cases h
  · exact Option.some.inj h ▸ rfl
  · cases h

/-! ### What every stored lineage keeps -/

structure Kept (lineage : ReviewLineage) : Prop where
  attested : lineageAttested sha256 lineage = .ok true
  fingerprints : ∀ record ∈ lineage.records,
    record.fingerprint = fingerprintOf sha256 record.finding.ruleId record.finding.subject
  rounds : ∀ record ∈ lineage.records, isSafeCount record.round = true
  unsuccessful : 0 ≤ lineage.unsuccessfulRounds ∧ lineage.unsuccessfulRounds ≤ lineage.highestRound
  highest : isSafeCount lineage.highestRound = true

theorem empty_kept : Kept sha256 (emptyReviewLineage sha256) := by
  refine ⟨?_, nofun, nofun, ⟨le_refl _, le_refl _⟩, rfl⟩
  refine attested_of_digest sha256 _ ?_
  have hprintable : printable (lineageValue [] 0 0) = true := printable_lineage [] 0 0 (by decide) (by decide) nofun
  show canonicalDigest sha256 (lineageValue [] 0 0) = .ok (sha256 (utf8 (canonicalText (lineageValue [] 0 0))))
  unfold canonicalDigest canonicalJson
  rw [if_pos hprintable]

theorem Kept.next {lineage : ReviewLineage} {round : ReviewRoundInput} {continuation : Option ReviewContinuationUse}
    {number : ℤ} {outcome : ReviewRoundOutcome} (h : Kept sha256 lineage)
    (hnext : Recorded sha256 lineage round continuation number outcome) : Kept sha256 outcome.lineage := by
  have hcount := admissibleRound_count _ _ hnext.admissible
  refine ⟨hnext.digest, ?_, ?_, ?_, ?_⟩
  · rw [hnext.records]
    intro record hrecord
    obtain hrecord | hrecord := List.mem_append.mp hrecord
    · exact h.fingerprints record hrecord
    · obtain ⟨finding, -, rfl⟩ := List.mem_map.mp hrecord
      rfl
  · rw [hnext.records]
    intro record hrecord
    obtain hrecord | hrecord := List.mem_append.mp hrecord
    · exact h.rounds record hrecord
    · obtain ⟨finding, -, rfl⟩ := List.mem_map.mp hrecord
      exact hcount
  · have hbefore := h.unsuccessful
    have hbeyond := hnext.beyond
    rw [hnext.unsuccessful, hnext.highest]
    split <;> omega
  · rw [hnext.highest]
    exact hcount

theorem Kept.safe {lineage : ReviewLineage} (h : Kept sha256 lineage) : SafeNumbers lineage := by
  have hhighest := isSafeNumber_of_count _ h.highest
  refine ⟨?_, hhighest, fun record hrecord => isSafeNumber_of_count _ (h.rounds record hrecord)⟩
  have hu := h.unsuccessful
  simp only [isSafeNumber, decide_eq_true_eq] at hhighest ⊢
  omega

/-- On a stored lineage the checks alone decide whether a round is accepted. -/
theorem recordReviewRound_intro (lineage : ReviewLineage) (round : ReviewRoundInput)
    (continuation : Option ReviewContinuationUse) (number : ℤ) (h : Kept sha256 lineage)
    (hnumber : admissibleRound round.round = some number) (hbeyond : lineage.highestRound < number)
    (hcontinued : ∀ use, continuation = some use → reviewContinuationMatches lineage number use = true)
    (hreadable : round.findings.all attributable = true) :
    ∃ outcome, recordReviewRound sha256 lineage round continuation = .ok outcome := by
  have hcount := admissibleRound_count _ _ hnumber
  have hnumberSafe := isSafeNumber_of_count _ hcount
  have hany : continuation.any (fun use => !reviewContinuationMatches lineage number use) = false := by
    cases continuation with
    | none => rfl
    | some use =>
      rw [Option.any_some, hcontinued use rfl]
      rfl
  have hrounds : ∀ record ∈ lineage.records ++ round.findings.map (recordOf sha256 number),
      isSafeNumber record.round = true := by
    intro record hrecord
    obtain hrecord | hrecord := List.mem_append.mp hrecord
    · exact isSafeNumber_of_count _ (h.rounds record hrecord)
    · obtain ⟨finding, -, rfl⟩ := List.mem_map.mp hrecord
      exact hnumberSafe
  have hsum (clean : Bool) : isSafeNumber (lineage.unsuccessfulRounds + if clean then 0 else 1) = true := by
    have hu := h.unsuccessful
    have hmax : 0 ≤ maxSafeInteger := by decide
    simp only [isSafeNumber, decide_eq_true_eq] at hnumberSafe ⊢
    split <;> omega
  obtain ⟨digest, hdigest⟩ := lineageDigest_total sha256 _ _ number
    (hsum (decide (((round.findings.map (recordOf sha256 number)).filter blocks).length = 0))) hnumberSafe hrounds
  unfold recordReviewRound
  simp only [h.attested, hnumber, mapM_addedRecord, hreadable, hany, if_neg (not_le.mpr hbeyond), if_true, Bool.not_true,
    Bool.false_eq_true, if_false, bind, Except.bind, hdigest]
  exact ⟨_, rfl⟩

end MoeNG.Review
