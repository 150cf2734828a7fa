import MoeNG.Core.ProductContractCodec

/-!
# Admitted contracts are closed

Whatever an admitted revision refers to is declared in it, everything it
declares is covered, and no requirement depends on itself.
-/

namespace MoeNG.Core.ProductContract
open MoeNG.Kernel MoeNG.Lib

/-! ### Closed bodies -/

def requirementIds (body : Draft) : List JsString := (requirementsOf body).map Requirement.requirementId

def criterionIds (body : Draft) : List JsString := body.criteria.map Criterion.criterionId

def DependsOn (body : Draft) (id other : JsString) : Prop :=
  ∃ item ∈ requirementsOf body, item.requirementId = id ∧ other ∈ item.dependsOnRequirementIds

/-- What is superseded is retired, and none of it twice. -/
structure Supersedes (superseded retired : List JsString) : Prop where
  retired : ∀ id ∈ superseded, id ∈ retired
  once : superseded.Nodup

structure Closed (body : Draft) : Prop where
  acyclic : ∀ id, ¬ Relation.TransGen (DependsOn body) id id
  unique : (requirementIds body).Nodup
  dependencies : ∀ item ∈ requirementsOf body, ∀ id ∈ item.dependsOnRequirementIds, id ∈ requirementIds body
  criteria : ∀ item ∈ body.criteria, item.requirementId ∈ requirementIds body
  journeys : ∀ item ∈ body.journeys, item.userJobId ∈ body.userJobs.map UserJob.userJobId
    ∧ ∀ id ∈ item.criterionIds, id ∈ criterionIds body
  assumptions : ∀ item ∈ body.assumptions, item.validationCriterionId ∈ criterionIds body
  metrics : ∀ item ∈ body.successMetrics, ∀ id ∈ item.objectiveIds, id ∈ body.objectives.map Objective.objectiveId
  decisions : ∀ item ∈ body.materialDecisions, ∃ option ∈ item.options, item.selectedOptionId = some option.optionId
  complete : ∀ id, id ∈ body.productCompleteDefinition.criterionIds ↔ id ∈ criterionIds body
  requirementCovered : ∀ id ∈ requirementIds body, ∃ item ∈ body.criteria, item.requirementId = id
  userJobCovered : ∀ job ∈ body.userJobs, ∃ item ∈ body.journeys, item.userJobId = job.userJobId
  objectiveCovered : ∀ objective ∈ body.objectives, ∃ item ∈ body.successMetrics, objective.objectiveId ∈ item.objectiveIds
  requirementRetired : ∀ id ∈ requirementIds body, id ∉ body.retiredRequirementIds
  criterionRetired : ∀ id ∈ criterionIds body, id ∉ body.retiredCriterionIds
  requirementSupersedes : Supersedes ((requirementsOf body).filterMap Requirement.supersedesRequirementId)
    body.retiredRequirementIds
  criterionSupersedes : Supersedes (body.criteria.filterMap Criterion.supersedesCriterionId) body.retiredCriterionIds

/-! ### The loops -/

theorem referencesValid_spec {T : Type} (declared : T → Bool) (supersedes : T → Option JsString)
    (retired superseded : List JsString) (items : List T)
    (h : referencesValid declared supersedes retired superseded items = true) :
    (∀ item ∈ items, declared item = true) ∧ Supersedes (items.filterMap supersedes) retired
      ∧ ∀ id ∈ items.filterMap supersedes, id ∉ superseded := by
  induction items generalizing superseded with
  | nil => exact ⟨nofun, ⟨nofun, List.nodup_nil⟩, nofun⟩
  | cons item rest ih =>
    rw [referencesValid, Bool.and_eq_true] at h
    obtain ⟨hitem, h⟩ := h
    cases hsupersedes : supersedes item with
    | none =>
      rw [hsupersedes] at h
      obtain ⟨hdeclared, hrest, hfresh⟩ := ih superseded h
      rw [List.filterMap_cons_none hsupersedes]
      exact ⟨List.forall_mem_cons.mpr ⟨hitem, hdeclared⟩, hrest, hfresh⟩
    | some id =>
      rw [hsupersedes] at h
      simp only [Bool.and_eq_true, List.contains_iff_mem, Bool.not_eq_true', ← Bool.not_eq_true] at h
      obtain ⟨⟨hretired, hnew⟩, h⟩ := h
      obtain ⟨hdeclared, hrest, hfresh⟩ := ih (id :: superseded) h
      rw [List.filterMap_cons_some hsupersedes]
      refine ⟨List.forall_mem_cons.mpr ⟨hitem, hdeclared⟩, ⟨List.forall_mem_cons.mpr ⟨hretired, hrest.retired⟩, ?_⟩, ?_⟩
      · exact List.nodup_cons.mpr ⟨fun hid => hfresh id hid (List.mem_cons_self ..), hrest.once⟩
      · exact List.forall_mem_cons.mpr ⟨hnew, fun other hother hmem => hfresh other hother (List.mem_cons_of_mem _ hmem)⟩

theorem validateDecisions_spec (decisions : List MaterialDecision) (h : validateDecisions decisions = .ok ()) :
    ∀ item ∈ decisions, ∃ option ∈ item.options, item.selectedOptionId = some option.optionId := by
  induction decisions with
  | nil => exact nofun
  | cons decision rest ih =>
    unfold validateDecisions at h
    split at h
    · cases h
    · rename_i selected hselected
      obtain ⟨hany, hrest⟩ := (ite_error_ok_iff _ _ _ _).mp h
      have hoption : (decision.options.any fun option => option.optionId = selected) = true := by simpa using hany
      obtain ⟨option, hmem, heq⟩ := List.any_eq_true.mp hoption
      exact List.forall_mem_cons.mpr ⟨⟨option, hmem, by rw [hselected, ← of_decide_eq_true heq]⟩, ih hrest⟩

/-! ### Cycles -/

theorem dependenciesOf_nil (requirements : List Requirement) (id : JsString) (h : dependenciesOf requirements id ≠ []) :
    id ∈ requirements.map Requirement.requirementId := by
  unfold dependenciesOf at h
  cases hfind : requirements.reverse.find? fun item => item.requirementId = id with
  | none =>
    rw [hfind] at h
    exact absurd rfl h
  | some item =>
    have hid : item.requirementId = id := by simpa using List.find?_some hfind
    exact hid ▸ List.mem_map_of_mem (List.mem_reverse.mp (List.mem_of_find?_eq_some hfind))

/-- The search finds a cycle exactly when there is one, and its ids are declared. -/
theorem requirementCycle_iff (requirements : List Requirement) :
    requirementCycle requirements = true ↔
      ∃ id ∈ requirements.map Requirement.requirementId, Precedes (dependenciesOf requirements) id id := by
  unfold requirementCycle
  refine (exploreAll_iff _ (dependenciesOf_nil requirements) _ (by rw [List.length_map]; omega)).trans ?_
  constructor
  · rintro ⟨id, hcycle⟩
    obtain ⟨other, hother, -⟩ := Relation.TransGen.head'_iff.mp hcycle
    exact ⟨id, dependenciesOf_nil requirements id (List.ne_nil_of_mem hother), hcycle⟩
  · rintro ⟨id, -, hcycle⟩
    exact ⟨id, hcycle⟩

theorem dependenciesOf_mem (requirements : List Requirement) (hunique : (requirements.map Requirement.requirementId).Nodup)
    (item : Requirement) (hitem : item ∈ requirements) : dependenciesOf requirements item.requirementId
      = item.dependsOnRequirementIds := by
  have hreverse : (requirements.reverse.map Requirement.requirementId).Nodup := by
    rw [List.map_reverse, List.nodup_reverse]
    exact hunique
  unfold dependenciesOf
  rw [find_key_of_mem Requirement.requirementId _ hreverse item (List.mem_reverse.mpr hitem)]
  rfl

/-! ### Admitted bodies -/

theorem not_negated {b : Bool} (h : ¬ (!b) = true) : b = true := by
  cases b with
  | true => rfl
  | false => exact absurd rfl h

theorem not_contained {ids : List JsString} {id : JsString} (h : id ∉ ids) : (!ids.contains id) = true := by
  rw [Bool.not_eq_true', ← Bool.not_eq_true, List.contains_iff_mem]
  exact h

theorem all_contains {T : Type} (items : List T) (of : T → List JsString) (declared : List JsString)
    (h : ¬ (items.any fun item => (of item).any fun id => !declared.contains id) = true) :
    ∀ item ∈ items, ∀ id ∈ of item, id ∈ declared := by
  intro item hitem id hid
  by_contra hnot
  exact h (List.any_eq_true.mpr ⟨item, hitem, List.any_eq_true.mpr ⟨id, hid, not_contained hnot⟩⟩)

theorem all_covered (ids covered : List JsString) (h : ¬ (ids.any fun id => !covered.contains id) = true) :
    ∀ id ∈ ids, id ∈ covered := by
  intro id hid
  by_contra hnot
  exact h (List.any_eq_true.mpr ⟨id, hid, not_contained hnot⟩)

theorem none_retired (retired ids : List JsString) (h : ¬ (retired.any fun id => ids.contains id) = true) :
    ∀ id ∈ ids, id ∉ retired :=
  fun id hid hretired => h (List.any_eq_true.mpr ⟨id, hretired, List.contains_iff_mem.mpr hid⟩)

theorem validateSemantics_closed (body : Draft) (h : validateSemantics body = .ok ()) : Closed body := by
  unfold validateSemantics at h
  simp only [ite_error_ok_iff] at h
  obtain ⟨hduplicates, hretired, hreferences, hcycle, hretiredCriteria, hcriteria, hcovered, hjourneys, huserJobs, hassumptions,
    hmetrics, hobjectives, hlast⟩ := h
  obtain ⟨_, hdecisions, hlast⟩ := except_bind_ok _ _ _ hlast
  obtain ⟨hcomplete, -⟩ := (ite_error_ok_iff _ _ _ _).mp hlast
  have hunique : (requirementIds body).Nodup := (hasDuplicates_eq_false _).mp ((Bool.not_eq_true _).mp hduplicates)
  have hvalid : requirementReferencesValid (requirementIds body) body.retiredRequirementIds (requirementsOf body) = true :=
    not_negated hreferences
  have hvalidCriteria : criterionReferencesValid (requirementIds body) body.retiredCriterionIds body.criteria = true :=
    not_negated hcriteria
  obtain ⟨hdependencies, hsupersedes, -⟩ := referencesValid_spec _ _ _ _ _ hvalid
  obtain ⟨hrequirement, hsupersedesCriteria, -⟩ := referencesValid_spec _ _ _ _ _ hvalidCriteria
  have hjourney : ∀ item ∈ body.journeys, item.userJobId ∈ body.userJobs.map UserJob.userJobId
      ∧ ∀ id ∈ item.criterionIds, id ∈ criterionIds body := by
    intro item hitem
    have hnot := fun hbad => hjourneys (List.any_eq_true.mpr ⟨item, hitem, hbad⟩)
    constructor
    · by_contra hmissing
      exact hnot (by rw [not_contained hmissing, Bool.true_or])
    · intro id hid
      by_contra hmissing
      exact hnot (by rw [Bool.or_eq_true]; exact .inr (List.any_eq_true.mpr ⟨id, hid, not_contained hmissing⟩))
  refine
    { acyclic := fun id hpath => ?_
      unique := hunique
      dependencies := fun item hitem id hid => ?_
      criteria := fun item hitem => List.contains_iff_mem.mp (hrequirement item hitem)
      journeys := hjourney
      assumptions := fun item hitem => ?_
      metrics := all_contains _ _ _ hmetrics
      decisions := validateDecisions_spec _ hdecisions
      complete := fun id => ?_
      requirementCovered := fun id hid => List.mem_map.mp (all_covered _ _ hcovered id hid)
      userJobCovered := fun job hjob => List.mem_map.mp (all_covered _ _ huserJobs _ (List.mem_map_of_mem hjob))
      objectiveCovered := fun objective hobjective =>
        List.mem_flatMap.mp (all_covered _ _ hobjectives _ (List.mem_map_of_mem hobjective))
      requirementRetired := none_retired _ _ hretired
      criterionRetired := none_retired _ _ hretiredCriteria
      requirementSupersedes := hsupersedes
      criterionSupersedes := hsupersedesCriteria }
  · have hedge : DependsOn body ≤ fun a b => b ∈ dependenciesOf (requirementsOf body) a := by
      rintro a b ⟨item, hitem, rfl, hb⟩
      show b ∈ dependenciesOf (requirementsOf body) item.requirementId
      rw [dependenciesOf_mem _ hunique item hitem]
      exact hb
    have hprecedes : Precedes (dependenciesOf (requirementsOf body)) id id := Relation.TransGen.mono hedge id id hpath
    obtain ⟨other, hother, -⟩ := Relation.TransGen.head'_iff.mp hprecedes
    exact hcycle ((requirementCycle_iff _).mpr ⟨id, dependenciesOf_nil _ id (List.ne_nil_of_mem hother), hprecedes⟩)
  · exact List.contains_iff_mem.mp (List.all_eq_true.mp (hdependencies item hitem) id hid)
  · by_contra hmissing
    exact hassumptions (List.any_eq_true.mpr ⟨item, hitem, not_contained hmissing⟩)
  · rw [not_not.mp hcomplete, (List.perm_insertionSort _ _).mem_iff, List.mem_dedup]
    rfl

section Admission
variable (normalize : JsString → JsString)

theorem validBody_semantics (fields : Fields) (body : Draft) (h : validBody normalize fields = .ok body) :
    readBody normalize fields = .ok body ∧ claimsHistory body = false ∧ validateSemantics body = .ok () := by
  unfold validBody at h
  obtain ⟨read, hread, h⟩ := except_bind_ok _ _ _ h
  obtain ⟨hhistory, h⟩ := (ite_error_ok_iff _ _ _ _).mp h
  obtain ⟨_, hsemantics, rfl⟩ := except_map_ok _ _ _ h
  exact ⟨hread, by simpa using hhistory, hsemantics⟩

theorem snapshotOf_ok (value copy : Value) (h : snapshotOf value = .ok copy) : copy = value := by
  unfold snapshotOf at h
  split at h
  · rename_i read hread
    obtain rfl := Except.ok.inj h
    exact ((snapshotDataBounded_ok_iff _ _ _).mp hread).1
  · cases h

theorem fieldsOf_ok (value : Value) (keys : List String) (fields : Fields) (h : fieldsOf value keys = .ok fields) :
    exactRecord value keys = some fields := by
  unfold fieldsOf at h
  split at h
  · rename_i found hfound
    obtain rfl := Except.ok.inj h
    exact hfound
  · cases h

/-- What an admitted revision is read from. -/
theorem admit_spec (value : Value) (revision : Revision) (h : admitProductContractRevisionV2 normalize value = .ok revision) :
    ∃ fields, snapshotOf value = .ok value ∧ exactRecord value FULL_KEYS = some fields ∧ isVersion (fields.field "version") = true
      ∧ isTrue (fields.field "advisoryOnly") = true ∧ validBody normalize fields = .ok revision.toDraft
      ∧ readHex64 (fields.field "revisionDigest") = .ok revision.revisionDigest := by
  unfold admitProductContractRevisionV2 at h
  obtain ⟨copy, hcopy, h⟩ := except_bind_ok _ _ _ h
  obtain ⟨fields, hfields, h⟩ := except_bind_ok _ _ _ h
  obtain ⟨hversion, h⟩ := (ite_error_ok_iff _ _ _ _).mp h
  obtain ⟨hadvisory, h⟩ := (ite_error_ok_iff _ _ _ _).mp h
  obtain ⟨body, hbody, h⟩ := except_bind_ok _ _ _ h
  obtain ⟨digest, hdigest, h⟩ := except_bind_ok _ _ _ h
  obtain rfl := Except.ok.inj h
  obtain rfl := snapshotOf_ok value copy hcopy
  exact ⟨fields, hcopy, fieldsOf_ok _ _ _ hfields, not_negated hversion, not_negated hadvisory, hbody, hdigest⟩

end Admission

theorem admit_closed (normalize : JsString → JsString) (value : Value) (revision : Revision)
    (h : admitProductContractRevisionV2 normalize value = .ok revision) : Closed revision.toDraft := by
  obtain ⟨fields, -, -, -, -, hbody, -⟩ := admit_spec normalize value revision h
  exact validateSemantics_closed _ (validBody_semantics normalize fields _ hbody).2.2

theorem dependsOn_iff (body : Draft) (hunique : (requirementIds body).Nodup) (id other : JsString) :
    DependsOn body id other ↔ other ∈ dependenciesOf (requirementsOf body) id := by
  constructor
  · rintro ⟨item, hitem, rfl, hother⟩
    rw [dependenciesOf_mem _ hunique item hitem]
    exact hother
  · intro hother
    obtain ⟨item, hitem, rfl⟩ := List.mem_map.mp (dependenciesOf_nil _ id (List.ne_nil_of_mem hother))
    rw [dependenciesOf_mem _ hunique item hitem] at hother
    exact ⟨item, hitem, rfl, hother⟩

theorem requirementCycle_dependsOn (body : Draft) (hunique : (requirementIds body).Nodup) :
    requirementCycle (requirementsOf body) = true ↔ ∃ id ∈ requirementIds body, Relation.TransGen (DependsOn body) id id := by
  have hrelation : DependsOn body = fun id other => other ∈ dependenciesOf (requirementsOf body) id :=
    funext fun id => funext fun other => propext (dependsOn_iff body hunique id other)
  rw [requirementCycle_iff, hrelation]
  rfl

/-- An admitted revision is closed, and the search decides whether requirements with ids of their own depend on themselves. -/
theorem admitted_closed (normalize : JsString → JsString) :
    (∀ value revision, admitProductContractRevisionV2 normalize value = .ok revision → Closed revision.toDraft)
      ∧ ∀ body, (requirementIds body).Nodup →
        (requirementCycle (requirementsOf body) = true ↔ ∃ id ∈ requirementIds body, Relation.TransGen (DependsOn body) id id) :=
  ⟨admit_closed normalize, requirementCycle_dependsOn⟩

/-! ### A revision -/

def sampleRequirement (id dependsOn : String) : Requirement :=
  { dependsOnRequirementIds := if dependsOn = "" then [] else [lit dependsOn], priority := .MUST, requirementId := lit id,
    statement := lit "s", supersedesRequirementId := none }

def sampleCriterion (id requirement : String) : Criterion :=
  { criterionId := lit id, requirementId := lit requirement, statement := lit "s", supersedesCriterionId := none,
    verification := lit "v" }

def sampleRevision : Revision where
  assumptions := []
  authorRef := lit "author"
  budgets := [⟨lit "b", .TIME, 60, lit "s"⟩]
  contractId := lit "contract"
  criteria := [sampleCriterion "c1" "r1", sampleCriterion "c2" "r2", sampleCriterion "c3" "r3", sampleCriterion "c4" "r4",
    sampleCriterion "c5" "r5", sampleCriterion "c6" "r6"]
  deploymentRequirements := [{ sampleRequirement "r1" "" with environmentVariableNames := some [lit "PORT"] }]
  functionalRequirements := [sampleRequirement "r2" "r1"]
  journeys := [⟨[lit "c1"], lit "j", lit "s", lit "u"⟩]
  lineage := none
  materialDecisions := []
  negativeScope := [⟨lit "n", lit "s"⟩]
  nonFunctionalRequirements := [sampleRequirement "r3" "r2"]
  objectives := [⟨lit "o", lit "s"⟩]
  productCompleteDefinition := ⟨[lit "c1", lit "c2", lit "c3", lit "c4", lit "c5", lit "c6"], lit "s"⟩
  retiredCriterionIds := []
  retiredRequirementIds := []
  revisionId := lit "revision"
  securityPrivacyRequirements := [sampleRequirement "r4" ""]
  sourceDocumentDigests := [List.replicate 64 97]
  successMetrics := [⟨lit "m", lit "k", [lit "o"], lit "s", lit "t"⟩]
  technologyRequirements := [sampleRequirement "r5" ""]
  userJobs := [⟨lit "job", lit "user", lit "u"⟩]
  uxAccessibilityRequirements := [sampleRequirement "r6" ""]
  revisionDigest := DIGEST_PLACEHOLDER

theorem sampleRevision_closed : Closed sampleRevision.toDraft ∧ (requirementIds sampleRevision.toDraft).Nodup
    ∧ requirementCycle (requirementsOf sampleRevision.toDraft) = false := by
  have hadmitted : admitProductContractRevisionV2 id sampleRevision.toValue = .ok sampleRevision := by decide +kernel
  have hclosed := (admitted_closed id).1 _ _ hadmitted
  refine ⟨hclosed, hclosed.unique, Bool.eq_false_iff.mpr fun hcycle => ?_⟩
  obtain ⟨id, -, hid⟩ := ((admitted_closed id).2 _ hclosed.unique).mp hcycle
  exact hclosed.acyclic id hid

end MoeNG.Core.ProductContract
