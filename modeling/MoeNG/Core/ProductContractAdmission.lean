import MoeNG.Core.ProductContract
import MoeNG.Lib.DepthFirst

/-!
# Admission of product contract revisions (`packages/core/src/product-contract/product-contract-v2-admission.ts:339-598`)

The cross references of a revision, and the admission of drafts and revisions.
-/

namespace MoeNG.Core.ProductContract
open MoeNG.Kernel MoeNG.Lib

/-! ### Dependency cycles (`product-contract-v2-admission.ts:339-351`) -/

/-- `dependencies.get(id) ?? []`, where a later item of an id replaces an earlier one. -/
def dependenciesOf (requirements : List Requirement) (id : JsString) : List JsString :=
  ((requirements.reverse.find? fun item => item.requirementId = id).map Requirement.dependsOnRequirementIds).getD []

/-- The search goes no deeper than there are requirements, and then one. -/
def requirementCycle (requirements : List Requirement) : Bool :=
  ((exploreAll (explore (dependenciesOf requirements) (requirements.length + 1)) ⟨[], []⟩
    (requirements.map Requirement.requirementId)).map Prod.fst).getD true

/-! ### Cross references (`product-contract-v2-admission.ts:353-452`) -/

/-- `requirementsOf` (`product-contract-v2-admission.ts:574-580`). -/
def requirementsOf (body : Draft) : List Requirement :=
  body.deploymentRequirements.map DeploymentRequirement.toRequirement ++ body.functionalRequirements
    ++ body.nonFunctionalRequirements ++ body.securityPrivacyRequirements ++ body.technologyRequirements
    ++ body.uxAccessibilityRequirements

/-- The items in turn: what each refers to is declared, and what it supersedes is retired and superseded by none before it. -/
def referencesValid {T : Type} (declared : T → Bool) (supersedes : T → Option JsString) (retired : List JsString) :
    List JsString → List T → Bool
  | _, [] => true
  | superseded, item :: rest =>
    declared item && match supersedes item with
      | none => referencesValid declared supersedes retired superseded rest
      | some id =>
        retired.contains id && !superseded.contains id && referencesValid declared supersedes retired (id :: superseded) rest

def requirementReferencesValid (requirementIds retired : List JsString) (requirements : List Requirement) : Bool :=
  referencesValid (fun item => item.dependsOnRequirementIds.all fun id => requirementIds.contains id)
    Requirement.supersedesRequirementId retired [] requirements

def criterionReferencesValid (requirementIds retired : List JsString) (criteria : List Criterion) : Bool :=
  referencesValid (fun item => requirementIds.contains item.requirementId) Criterion.supersedesCriterionId retired [] criteria

/-- The decisions in turn (`product-contract-v2-admission.ts:439-446`). -/
def validateDecisions : List MaterialDecision → Except Refusal Unit
  | [] => .ok ()
  | decision :: rest =>
    match decision.selectedOptionId with
    | none => .error (semantic .MATERIAL_DECISION_UNRESOLVED)
    | some selected =>
      if !decision.options.any fun option => option.optionId = selected then .error (semantic .REFERENCE_INVALID)
      else validateDecisions rest

def validateSemantics (body : Draft) : Except Refusal Unit :=
  let requirements := requirementsOf body
  let requirementIds := requirements.map Requirement.requirementId
  let criterionIds := body.criteria.map Criterion.criterionId
  let userJobs := body.userJobs.map UserJob.userJobId
  let objectives := body.objectives.map Objective.objectiveId
  if hasDuplicates requirementIds then .error (semantic .REFERENCE_INVALID)
  else if body.retiredRequirementIds.any fun id => requirementIds.contains id then .error (semantic .REFERENCE_INVALID)
  else if !requirementReferencesValid requirementIds body.retiredRequirementIds requirements then
    .error (semantic .REFERENCE_INVALID)
  else if requirementCycle requirements then .error (semantic .REQUIREMENT_CYCLE)
  else if body.retiredCriterionIds.any fun id => criterionIds.contains id then .error (semantic .REFERENCE_INVALID)
  else if !criterionReferencesValid requirementIds body.retiredCriterionIds body.criteria then
    .error (semantic .REFERENCE_INVALID)
  else if requirementIds.any fun id => !(body.criteria.map Criterion.requirementId).contains id then
    .error (semantic .COVERAGE_INCOMPLETE)
  else if body.journeys.any fun journey =>
      !userJobs.contains journey.userJobId || journey.criterionIds.any fun id => !criterionIds.contains id then
    .error (semantic .REFERENCE_INVALID)
  else if userJobs.any fun id => !(body.journeys.map Journey.userJobId).contains id then .error (semantic .COVERAGE_INCOMPLETE)
  else if body.assumptions.any fun item => !criterionIds.contains item.validationCriterionId then
    .error (semantic .REFERENCE_INVALID)
  else if body.successMetrics.any fun metric => metric.objectiveIds.any fun id => !objectives.contains id then
    .error (semantic .REFERENCE_INVALID)
  else if objectives.any fun id => !(body.successMetrics.flatMap SuccessMetric.objectiveIds).contains id then
    .error (semantic .COVERAGE_INCOMPLETE)
  else (validateDecisions body.materialDecisions).bind fun _ =>
    if body.productCompleteDefinition.criterionIds ≠ criterionIds.dedup.insertionSort (· ≤ ·) then
      .error (semantic .COVERAGE_INCOMPLETE)
    else .ok ()

/-! ### Admission (`product-contract-v2-admission.ts:454-598`) -/

def DRAFT_KEYS : List String :=
  ["assumptions", "authorRef", "budgets", "contractId", "criteria", "deploymentRequirements", "functionalRequirements",
    "journeys", "lineage", "materialDecisions", "negativeScope", "nonFunctionalRequirements", "objectives",
    "productCompleteDefinition", "retiredCriterionIds", "retiredRequirementIds", "revisionId",
    "securityPrivacyRequirements", "sourceDocumentDigests", "successMetrics", "technologyRequirements", "userJobs",
    "uxAccessibilityRequirements"]

def FULL_KEYS : List String := "advisoryOnly" :: DRAFT_KEYS ++ ["revisionDigest", "version"]

def snapshotBounds : SnapshotDataBounds := ⟨maxRetiredIds, maxSnapshotDepth, maxSnapshotNodes⟩

def snapshotOf (value : Value) : Except Refusal Value :=
  match snapshotDataBounded value snapshotBounds with
  | .ok copy => .ok copy
  | .error limitExceeded => .error (if limitExceeded then exceeded else invalid)

section Admission
variable (normalize : JsString → JsString)

def readBody (fields : Fields) : Except Refusal Draft := do
  let authorRef ← readId normalize (fields.field "authorRef")
  let contractId ← readId normalize (fields.field "contractId")
  let revisionId ← readId normalize (fields.field "revisionId")
  let lineage ← readLineage normalize (fields.field "lineage")
  let sourceDocumentDigests ← readSources (fields.field "sourceDocumentDigests")
  let retiredRequirementIds ← readSortedRefs normalize true maxRetiredIds (fields.field "retiredRequirementIds")
  let retiredCriterionIds ← readSortedRefs normalize true maxRetiredIds (fields.field "retiredCriterionIds")
  let objectives ← readSortedItems false maxItemsPerSection (readObjective normalize) Objective.objectiveId
    (fields.field "objectives")
  let userJobs ← readSortedItems false maxItemsPerSection (readUserJob normalize) UserJob.userJobId (fields.field "userJobs")
  let journeys ← readSortedItems false maxItemsPerSection (readJourney normalize) Journey.journeyId (fields.field "journeys")
  let functionalRequirements ← readSortedItems false maxItemsPerSection (readRequirement normalize) Requirement.requirementId
    (fields.field "functionalRequirements")
  let nonFunctionalRequirements ← readSortedItems false maxItemsPerSection (readRequirement normalize) Requirement.requirementId
    (fields.field "nonFunctionalRequirements")
  let uxAccessibilityRequirements ← readSortedItems false maxItemsPerSection (readRequirement normalize) Requirement.requirementId
    (fields.field "uxAccessibilityRequirements")
  let securityPrivacyRequirements ← readSortedItems false maxItemsPerSection (readRequirement normalize) Requirement.requirementId
    (fields.field "securityPrivacyRequirements")
  let technologyRequirements ← readSortedItems false maxItemsPerSection (readRequirement normalize) Requirement.requirementId
    (fields.field "technologyRequirements")
  let deploymentRequirements ← readSortedItems false maxItemsPerSection (readDeploymentRequirement normalize)
    (fun item => item.requirementId) (fields.field "deploymentRequirements")
  let criteria ← readSortedItems false maxCriteria (readCriterion normalize) Criterion.criterionId (fields.field "criteria")
  let negativeScope ← readSortedItems false maxItemsPerSection (readNegativeScope normalize) NegativeScope.scopeId
    (fields.field "negativeScope")
  let assumptions ← readSortedItems true maxItemsPerSection (readAssumption normalize) Assumption.assumptionId
    (fields.field "assumptions")
  let budgets ← readSortedItems false maxBudgets (readBudget normalize) Budget.budgetId (fields.field "budgets")
  let successMetrics ← readSortedItems false maxItemsPerSection (readMetric normalize) SuccessMetric.metricId
    (fields.field "successMetrics")
  let materialDecisions ← readSortedItems true maxDecisions (readDecision normalize) MaterialDecision.decisionId
    (fields.field "materialDecisions")
  let productCompleteDefinition ← readComplete normalize (fields.field "productCompleteDefinition")
  .ok { assumptions, authorRef, budgets, contractId, criteria, deploymentRequirements, functionalRequirements, journeys,
        lineage, materialDecisions, negativeScope, nonFunctionalRequirements, objectives, productCompleteDefinition,
        retiredCriterionIds, retiredRequirementIds, revisionId, securityPrivacyRequirements, sourceDocumentDigests,
        successMetrics, technologyRequirements, userJobs, uxAccessibilityRequirements }

/-- A first revision retires and supersedes nothing. -/
def claimsHistory (body : Draft) : Bool :=
  body.lineage = none && (0 < body.retiredCriterionIds.length || 0 < body.retiredRequirementIds.length
    || (body.criteria.any fun item => item.supersedesCriterionId ≠ none)
    || (requirementsOf body).any fun item => item.supersedesRequirementId ≠ none)

/-- The body of the record, once it is read and its references hold. -/
def validBody (fields : Fields) : Except Refusal Draft := do
  let body ← readBody normalize fields
  if claimsHistory body then .error invalid
  else (validateSemantics body).map fun _ => body

def isVersion : Value → Bool
  | .string s => s = lit PRODUCT_CONTRACT_V2_VERSION
  | _ => false

def isTrue : Value → Bool
  | .bool b => b
  | _ => false

def admitProductContractRevisionV2 (value : Value) : Except Refusal Revision := do
  let copy ← snapshotOf value
  let fields ← fieldsOf copy FULL_KEYS
  if !isVersion (fields.field "version") then .error ⟨.VERSION_UNSUPPORTED, .PROVENANCE⟩
  else if !isTrue (fields.field "advisoryOnly") then .error invalid
  else
    let body ← validBody normalize fields
    let revisionDigest ← readHex64 (fields.field "revisionDigest")
    .ok { body with revisionDigest }

end Admission

end MoeNG.Core.ProductContract
