import MoeNG.Core.ProductContractAdmission

/-!
# The codec of product contract revisions (`packages/core/src/product-contract/product-contract-v2-codec.ts`)

A revision as the record that its canonical text is printed from. `normalize` is
Unicode normalization to NFC and `sha256` the hexadecimal digest of some bytes.
-/

namespace MoeNG.Core.ProductContract
open MoeNG.Kernel MoeNG.Lib MoeNG.Contracts

/-! ### Records -/

def textList (items : List JsString) : Value := .array (items.map .string)

def nullableText : Option JsString → Value
  | none => .null
  | some s => .string s

def word (s : String) : Value := .string (lit s)

def Lineage.toValue (lineage : Lineage) : Value := recordOf
  [("parentRevisionDigest", .string lineage.parentRevisionDigest), ("parentRevisionId", .string lineage.parentRevisionId)]

def lineageValue : Option Lineage → Value
  | none => .null
  | some lineage => lineage.toValue

def Objective.toValue (item : Objective) : Value := recordOf
  [("objectiveId", .string item.objectiveId), ("statement", .string item.statement)]

def UserJob.toValue (item : UserJob) : Value := recordOf
  [("job", .string item.job), ("user", .string item.user), ("userJobId", .string item.userJobId)]

def Journey.toValue (item : Journey) : Value := recordOf
  [("criterionIds", textList item.criterionIds), ("journeyId", .string item.journeyId), ("statement", .string item.statement),
    ("userJobId", .string item.userJobId)]

def Requirement.fields (item : Requirement) : Fields :=
  [("dependsOnRequirementIds", textList item.dependsOnRequirementIds), ("priority", word item.priority.text),
    ("requirementId", .string item.requirementId), ("statement", .string item.statement),
    ("supersedesRequirementId", nullableText item.supersedesRequirementId)]

def Requirement.toValue (item : Requirement) : Value := recordOf item.fields

def DeploymentRequirement.toValue (item : DeploymentRequirement) : Value :=
  match item.environmentVariableNames with
  | none => item.toRequirement.toValue
  | some names => recordOf (item.toRequirement.fields ++ [("environmentVariableNames", textList names)])

def Criterion.toValue (item : Criterion) : Value := recordOf
  [("criterionId", .string item.criterionId), ("requirementId", .string item.requirementId),
    ("statement", .string item.statement), ("supersedesCriterionId", nullableText item.supersedesCriterionId),
    ("verification", .string item.verification)]

def NegativeScope.toValue (item : NegativeScope) : Value := recordOf
  [("scopeId", .string item.scopeId), ("statement", .string item.statement)]

def Assumption.toValue (item : Assumption) : Value := recordOf
  [("assumptionId", .string item.assumptionId), ("statement", .string item.statement),
    ("validationCriterionId", .string item.validationCriterionId)]

def Budget.toValue (item : Budget) : Value := recordOf
  [("budgetId", .string item.budgetId), ("kind", word item.kind.text), ("limit", .number (.integer item.limit)),
    ("unit", .string item.unit)]

def SuccessMetric.toValue (item : SuccessMetric) : Value := recordOf
  [("measurement", .string item.measurement), ("metricId", .string item.metricId), ("objectiveIds", textList item.objectiveIds),
    ("statement", .string item.statement), ("target", .string item.target)]

def DecisionOption.toValue (item : DecisionOption) : Value := recordOf
  [("optionId", .string item.optionId), ("statement", .string item.statement)]

def MaterialDecision.toValue (item : MaterialDecision) : Value := recordOf
  [("decisionId", .string item.decisionId), ("options", .array (item.options.map DecisionOption.toValue)),
    ("question", .string item.question), ("selectedOptionId", nullableText item.selectedOptionId)]

def ProductCompleteDefinition.toValue (item : ProductCompleteDefinition) : Value := recordOf
  [("criterionIds", textList item.criterionIds), ("statement", .string item.statement)]

def requirementValues (items : List Requirement) : Value := .array (items.map Requirement.toValue)

def Draft.fields (body : Draft) : Fields :=
  [("assumptions", .array (body.assumptions.map Assumption.toValue)),
    ("authorRef", .string body.authorRef),
    ("budgets", .array (body.budgets.map Budget.toValue)),
    ("contractId", .string body.contractId),
    ("criteria", .array (body.criteria.map Criterion.toValue)),
    ("deploymentRequirements", .array (body.deploymentRequirements.map DeploymentRequirement.toValue)),
    ("functionalRequirements", requirementValues body.functionalRequirements),
    ("journeys", .array (body.journeys.map Journey.toValue)),
    ("lineage", lineageValue body.lineage),
    ("materialDecisions", .array (body.materialDecisions.map MaterialDecision.toValue)),
    ("negativeScope", .array (body.negativeScope.map NegativeScope.toValue)),
    ("nonFunctionalRequirements", requirementValues body.nonFunctionalRequirements),
    ("objectives", .array (body.objectives.map Objective.toValue)),
    ("productCompleteDefinition", body.productCompleteDefinition.toValue),
    ("retiredCriterionIds", textList body.retiredCriterionIds),
    ("retiredRequirementIds", textList body.retiredRequirementIds),
    ("revisionId", .string body.revisionId),
    ("securityPrivacyRequirements", requirementValues body.securityPrivacyRequirements),
    ("sourceDocumentDigests", textList body.sourceDocumentDigests),
    ("successMetrics", .array (body.successMetrics.map SuccessMetric.toValue)),
    ("technologyRequirements", requirementValues body.technologyRequirements),
    ("userJobs", .array (body.userJobs.map UserJob.toValue)),
    ("uxAccessibilityRequirements", requirementValues body.uxAccessibilityRequirements)]

def Revision.fields (revision : Revision) : Fields :=
  ("advisoryOnly", .bool true) :: revision.toDraft.fields
    ++ [("revisionDigest", .string revision.revisionDigest), ("version", word PRODUCT_CONTRACT_V2_VERSION)]

def Revision.toValue (revision : Revision) : Value := recordOf revision.fields

/-! ### Digests (`product-contract-v2-codec.ts:63-92`) -/

def PRODUCT_CONTRACT_V2_DIGEST_DOMAIN : String := "moe-product-contract-revision-digest/2"

def DIGEST_PLACEHOLDER : JsString := List.replicate 64 48

/-- The revision without its digest. -/
def digestSource (revision : Revision) : Value := recordOf
  (("advisoryOnly", .bool true) :: revision.toDraft.fields ++ [("version", word PRODUCT_CONTRACT_V2_VERSION)])

section Codec
variable (normalize : JsString → JsString) (sha256 : List Byte → JsString)

def digestOf (revision : Revision) : JsString :=
  sha256 (utf8 (lit PRODUCT_CONTRACT_V2_DIGEST_DOMAIN) ++ [0] ++ utf8 (canonicalText (digestSource revision)))

def refuse (code : Code) : Refusal := ⟨code, .PROVENANCE⟩

def canonicalBytes (revision : Revision) : Except Refusal (List Byte) :=
  if maxBytes < (utf8 (canonicalText revision.toValue)).length then .error (refuse .LIMIT_EXCEEDED)
  else .ok (utf8 (canonicalText revision.toValue))

/-! ### The codec (`product-contract-v2-codec.ts:103-155`) -/

def encodeProductContractRevisionV2 (value : Value) : Except Refusal (List Byte) := do
  let revision ← admitProductContractRevisionV2 normalize value
  let bytes ← canonicalBytes revision
  if digestOf sha256 revision = revision.revisionDigest then .ok bytes else .error (refuse .DIGEST_MISMATCH)

end Codec

end MoeNG.Core.ProductContract
