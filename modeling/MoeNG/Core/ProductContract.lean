import MoeNG.Contracts.BoundedJson
import MoeNG.Core.BoundedSnapshot
import MoeNG.Core.Snapshot

/-!
# Product contract revisions (`packages/core/src/product-contract/product-contract-v2-contract.ts`,
`product-contract-v2-admission.ts:33-337`)

The sections of a revision and their readers. `normalize` is Unicode
normalization to NFC.
-/

namespace MoeNG.Core.ProductContract
open MoeNG.Kernel MoeNG.Lib

/-! ### Vocabulary (`product-contract-v2-contract.ts:3-65`) -/

def PRODUCT_CONTRACT_V2_VERSION : String := "moe-product-contract-revision/2"

inductive Priority where
  | MUST
  | SHOULD
  | COULD
  deriving DecidableEq

def Priority.text : Priority → String
  | MUST => "MUST"
  | SHOULD => "SHOULD"
  | COULD => "COULD"

inductive BudgetKind where
  | MONEY
  | TIME
  | TOKEN
  | COMPUTE
  deriving DecidableEq

def BudgetKind.text : BudgetKind → String
  | MONEY => "MONEY"
  | TIME => "TIME"
  | TOKEN => "TOKEN"
  | COMPUTE => "COMPUTE"

inductive Code where
  | PROVENANCE_INVALID
  | PROVENANCE_VACUOUS
  | LIMIT_EXCEEDED
  | VERSION_UNSUPPORTED
  | BYTES_INVALID
  | DUPLICATE_KEY
  | NONCANONICAL
  | DIGEST_MISMATCH
  | REFERENCE_INVALID
  | REQUIREMENT_CYCLE
  | COVERAGE_INCOMPLETE
  | MATERIAL_DECISION_UNRESOLVED
  deriving DecidableEq

inductive Layer where
  | PROVENANCE
  | SEMANTICS
  deriving DecidableEq

structure Refusal where
  code : Code
  layer : Layer
  deriving DecidableEq

def maxBudgets : ℕ := 64
def maxBytes : ℕ := Contracts.maxJsonBodyBytes
def maxCriteria : ℕ := 1024
def maxDecisions : ℕ := 256
def maxEnvironmentVariableNameBytes : ℕ := 128
def maxEnvironmentVariableNames : ℕ := 256
def maxIdBytes : ℕ := 512
def maxItemsPerSection : ℕ := 512
def maxOptionsPerDecision : ℕ := 64
def maxRetiredIds : ℕ := 8192
def maxSnapshotDepth : ℕ := 8
def maxSnapshotNodes : ℕ := 100000
def maxStatementBytes : ℕ := 32768
def maxSourceDocuments : ℕ := 64

/-! ### Sections (`product-contract-v2-contract.ts:71-190`) -/

structure Lineage where
  parentRevisionDigest : JsString
  parentRevisionId : JsString
  deriving DecidableEq

structure Objective where
  objectiveId : JsString
  statement : JsString
  deriving DecidableEq

structure UserJob where
  job : JsString
  user : JsString
  userJobId : JsString
  deriving DecidableEq

structure Journey where
  criterionIds : List JsString
  journeyId : JsString
  statement : JsString
  userJobId : JsString
  deriving DecidableEq

structure Requirement where
  dependsOnRequirementIds : List JsString
  priority : Priority
  requirementId : JsString
  statement : JsString
  supersedesRequirementId : Option JsString
  deriving DecidableEq

/-- The names are absent in a requirement that carries none. -/
structure DeploymentRequirement extends Requirement where
  environmentVariableNames : Option (List JsString)
  deriving DecidableEq

structure Criterion where
  criterionId : JsString
  requirementId : JsString
  statement : JsString
  supersedesCriterionId : Option JsString
  verification : JsString
  deriving DecidableEq

structure NegativeScope where
  scopeId : JsString
  statement : JsString
  deriving DecidableEq

structure Assumption where
  assumptionId : JsString
  statement : JsString
  validationCriterionId : JsString
  deriving DecidableEq

structure Budget where
  budgetId : JsString
  kind : BudgetKind
  limit : ℤ
  unit : JsString
  deriving DecidableEq

structure SuccessMetric where
  measurement : JsString
  metricId : JsString
  objectiveIds : List JsString
  statement : JsString
  target : JsString
  deriving DecidableEq

structure DecisionOption where
  optionId : JsString
  statement : JsString
  deriving DecidableEq

structure MaterialDecision where
  decisionId : JsString
  options : List DecisionOption
  question : JsString
  selectedOptionId : Option JsString
  deriving DecidableEq

structure ProductCompleteDefinition where
  criterionIds : List JsString
  statement : JsString
  deriving DecidableEq

structure Draft where
  assumptions : List Assumption
  authorRef : JsString
  budgets : List Budget
  contractId : JsString
  criteria : List Criterion
  deploymentRequirements : List DeploymentRequirement
  functionalRequirements : List Requirement
  journeys : List Journey
  lineage : Option Lineage
  materialDecisions : List MaterialDecision
  negativeScope : List NegativeScope
  nonFunctionalRequirements : List Requirement
  objectives : List Objective
  productCompleteDefinition : ProductCompleteDefinition
  retiredCriterionIds : List JsString
  retiredRequirementIds : List JsString
  revisionId : JsString
  securityPrivacyRequirements : List Requirement
  sourceDocumentDigests : List JsString
  successMetrics : List SuccessMetric
  technologyRequirements : List Requirement
  userJobs : List UserJob
  uxAccessibilityRequirements : List Requirement
  deriving DecidableEq

/-- Its `advisoryOnly` is `true` and its `version` is the one above. -/
structure Revision extends Draft where
  revisionDigest : JsString
  deriving DecidableEq

/-! ### Texts (`product-contract-v2-admission.ts:70-97`) -/

def invalid : Refusal := ⟨.PROVENANCE_INVALID, .PROVENANCE⟩
def vacuous : Refusal := ⟨.PROVENANCE_VACUOUS, .PROVENANCE⟩
def exceeded : Refusal := ⟨.LIMIT_EXCEEDED, .PROVENANCE⟩
def semantic (code : Code) : Refusal := ⟨code, .SEMANTICS⟩

/-- White space and line terminators, which `trim` takes off. -/
def isWhiteSpace (c : CodeUnit) : Bool :=
  (9 ≤ c.val ∧ c.val ≤ 13) || c = 32 || c = 160 || c = 0x1680 || (0x2000 ≤ c.val ∧ c.val ≤ 0x200A) || c = 0x2028 || c = 0x2029
    || c = 0x202F || c = 0x205F || c = 0x3000 || c = 0xFEFF

def trim (s : JsString) : JsString := ((s.dropWhile isWhiteSpace).reverse.dropWhile isWhiteSpace).reverse

section Readers
variable (normalize : JsString → JsString)

def readText (maximum : ℕ) : Value → Except Refusal JsString
  | .string s =>
    if !validRef s || s.contains 0 || !wellFormed s || normalize s ≠ s then .error invalid
    else if (trim s).length = 0 then .error vacuous
    else if trim s ≠ s then .error invalid
    else if maximum < s.length then .error exceeded
    else if (utf8 s).length ≤ maximum then .ok s else .error exceeded
  | _ => .error invalid

def readId : Value → Except Refusal JsString := readText normalize maxIdBytes

def readStatement : Value → Except Refusal JsString := readText normalize maxStatementBytes

def readNullableRef : Value → Except Refusal (Option JsString)
  | .null => .ok none
  | value => (readId normalize value).map some

def readHex64 : Value → Except Refusal JsString
  | .string s => if validHex64 s then .ok s else .error invalid
  | _ => .error invalid

/-! ### Lists (`product-contract-v2-admission.ts:99-150`) -/

/-- The items behind one with the id `last`, each after the one before it. -/
def readAscending {T : Type} (read : Value → Except Refusal T) (idOf : T → JsString) :
    Option JsString → List Value → Except Refusal (List T)
  | _, [] => .ok []
  | last, candidate :: rest => do
    let item ← read candidate
    if last.any fun id => ¬ id < idOf item then .error invalid
    else
      let items ← readAscending read idOf (some (idOf item)) rest
      .ok (item :: items)

def readSortedItems {T : Type} (allowEmpty : Bool) (maximum : ℕ) (read : Value → Except Refusal T) (idOf : T → JsString) :
    Value → Except Refusal (List T)
  | .array items =>
    if !allowEmpty && items.length = 0 then .error vacuous
    else if maximum < items.length then .error exceeded
    else readAscending read idOf none items
  | _ => .error invalid

def readSortedRefs (allowEmpty : Bool) (maximum : ℕ) : Value → Except Refusal (List JsString) :=
  readSortedItems allowEmpty maximum (readId normalize) id

def readSources : Value → Except Refusal (List JsString) := readSortedItems false maxSourceDocuments readHex64 id

/-- `ENVIRONMENT_VARIABLE_NAME` (`product-contract-v2-admission.ts:57`). -/
def isEnvironmentVariableName : JsString → Bool
  | [] => false
  | c :: rest =>
    let leading (c : CodeUnit) : Bool := (65 ≤ c.val ∧ c.val ≤ 90) || c = 95
    leading c && rest.all fun c => leading c || (48 ≤ c.val ∧ c.val ≤ 57)

def readEnvironmentVariableName (value : Value) : Except Refusal JsString := do
  let name ← readText normalize maxEnvironmentVariableNameBytes value
  if !isEnvironmentVariableName name then .error invalid else .ok name

def readEnvironmentVariableNames : Value → Except Refusal (List JsString) :=
  readSortedItems true maxEnvironmentVariableNames (readEnvironmentVariableName normalize) id

/-! ### Records (`product-contract-v2-admission.ts:152-337`) -/

def fieldsOf (value : Value) (keys : List String) : Except Refusal Fields :=
  match exactRecord value keys with
  | some fields => .ok fields
  | none => .error invalid

def oneOfOr {T : Type} (text : T → String) (values : List T) (value : Value) : Except Refusal T :=
  match oneOf text values value with
  | some found => .ok found
  | none => .error invalid

def readLineage : Value → Except Refusal (Option Lineage)
  | .null => .ok none
  | value => do
    let fields ← fieldsOf value ["parentRevisionDigest", "parentRevisionId"]
    let parentRevisionDigest ← readHex64 (fields.field "parentRevisionDigest")
    let parentRevisionId ← readId normalize (fields.field "parentRevisionId")
    .ok (some { parentRevisionDigest, parentRevisionId })

def readObjective (value : Value) : Except Refusal Objective := do
  let fields ← fieldsOf value ["objectiveId", "statement"]
  let objectiveId ← readId normalize (fields.field "objectiveId")
  let statement ← readStatement normalize (fields.field "statement")
  .ok { objectiveId, statement }

def readUserJob (value : Value) : Except Refusal UserJob := do
  let fields ← fieldsOf value ["job", "user", "userJobId"]
  let userJobId ← readId normalize (fields.field "userJobId")
  let user ← readStatement normalize (fields.field "user")
  let job ← readStatement normalize (fields.field "job")
  .ok { job, user, userJobId }

def readJourney (value : Value) : Except Refusal Journey := do
  let fields ← fieldsOf value ["criterionIds", "journeyId", "statement", "userJobId"]
  let journeyId ← readId normalize (fields.field "journeyId")
  let userJobId ← readId normalize (fields.field "userJobId")
  let statement ← readStatement normalize (fields.field "statement")
  let criterionIds ← readSortedRefs normalize false maxCriteria (fields.field "criterionIds")
  .ok { criterionIds, journeyId, statement, userJobId }

def readRequirement (value : Value) : Except Refusal Requirement := do
  let fields ← fieldsOf value
    ["dependsOnRequirementIds", "priority", "requirementId", "statement", "supersedesRequirementId"]
  let requirementId ← readId normalize (fields.field "requirementId")
  let statement ← readStatement normalize (fields.field "statement")
  let supersedesRequirementId ← readNullableRef normalize (fields.field "supersedesRequirementId")
  let dependsOnRequirementIds ← readSortedRefs normalize true maxItemsPerSection (fields.field "dependsOnRequirementIds")
  let priority ← oneOfOr Priority.text [.MUST, .SHOULD, .COULD] (fields.field "priority")
  if supersedesRequirementId = some requirementId || dependsOnRequirementIds.contains requirementId then .error invalid
  else .ok { dependsOnRequirementIds, priority, requirementId, statement, supersedesRequirementId }

/-- `const { [key]: _, ...rest } = value`. -/
def without (key : String) : Value → Value
  | .record properties => .record (properties.filter fun p => p.1 ≠ lit key)
  | value => value

def readDeploymentRequirement (value : Value) : Except Refusal DeploymentRequirement :=
  match exactRecord value ["dependsOnRequirementIds", "environmentVariableNames", "priority", "requirementId", "statement",
      "supersedesRequirementId"] with
  | none => (readRequirement normalize value).map fun requirement => { requirement with environmentVariableNames := none }
  | some fields => do
    let requirement ← readRequirement normalize (without "environmentVariableNames" value)
    let names ← readEnvironmentVariableNames normalize (fields.field "environmentVariableNames")
    .ok { requirement with environmentVariableNames := some names }

def readCriterion (value : Value) : Except Refusal Criterion := do
  let fields ← fieldsOf value ["criterionId", "requirementId", "statement", "supersedesCriterionId", "verification"]
  let criterionId ← readId normalize (fields.field "criterionId")
  let requirementId ← readId normalize (fields.field "requirementId")
  let statement ← readStatement normalize (fields.field "statement")
  let verification ← readStatement normalize (fields.field "verification")
  let supersedesCriterionId ← readNullableRef normalize (fields.field "supersedesCriterionId")
  if supersedesCriterionId = some criterionId then .error invalid
  else .ok { criterionId, requirementId, statement, supersedesCriterionId, verification }

def readNegativeScope (value : Value) : Except Refusal NegativeScope := do
  let fields ← fieldsOf value ["scopeId", "statement"]
  let scopeId ← readId normalize (fields.field "scopeId")
  let statement ← readStatement normalize (fields.field "statement")
  .ok { scopeId, statement }

def readAssumption (value : Value) : Except Refusal Assumption := do
  let fields ← fieldsOf value ["assumptionId", "statement", "validationCriterionId"]
  let assumptionId ← readId normalize (fields.field "assumptionId")
  let validationCriterionId ← readId normalize (fields.field "validationCriterionId")
  let statement ← readStatement normalize (fields.field "statement")
  .ok { assumptionId, statement, validationCriterionId }

def readLimit : Value → Except Refusal ℤ
  | .number (.integer z) => if isSafeNumber z && 0 < z then .ok z else .error invalid
  | _ => .error invalid

def readBudget (value : Value) : Except Refusal Budget := do
  let fields ← fieldsOf value ["budgetId", "kind", "limit", "unit"]
  let budgetId ← readId normalize (fields.field "budgetId")
  let unit ← readId normalize (fields.field "unit")
  let kind ← oneOfOr BudgetKind.text [.MONEY, .TIME, .TOKEN, .COMPUTE] (fields.field "kind")
  let limit ← readLimit (fields.field "limit")
  .ok { budgetId, kind, limit, unit }

def readMetric (value : Value) : Except Refusal SuccessMetric := do
  let fields ← fieldsOf value ["measurement", "metricId", "objectiveIds", "statement", "target"]
  let metricId ← readId normalize (fields.field "metricId")
  let objectiveIds ← readSortedRefs normalize false maxItemsPerSection (fields.field "objectiveIds")
  let statement ← readStatement normalize (fields.field "statement")
  let measurement ← readStatement normalize (fields.field "measurement")
  let target ← readStatement normalize (fields.field "target")
  .ok { measurement, metricId, objectiveIds, statement, target }

def readOption (value : Value) : Except Refusal DecisionOption := do
  let fields ← fieldsOf value ["optionId", "statement"]
  let optionId ← readId normalize (fields.field "optionId")
  let statement ← readStatement normalize (fields.field "statement")
  .ok { optionId, statement }

def readDecision (value : Value) : Except Refusal MaterialDecision := do
  let fields ← fieldsOf value ["decisionId", "options", "question", "selectedOptionId"]
  let decisionId ← readId normalize (fields.field "decisionId")
  let question ← readStatement normalize (fields.field "question")
  let selectedOptionId ← readNullableRef normalize (fields.field "selectedOptionId")
  let options ← readSortedItems false maxOptionsPerDecision (readOption normalize) DecisionOption.optionId
    (fields.field "options")
  if options.length < 2 then .error vacuous else .ok { decisionId, options, question, selectedOptionId }

def readComplete (value : Value) : Except Refusal ProductCompleteDefinition := do
  let fields ← fieldsOf value ["criterionIds", "statement"]
  let criterionIds ← readSortedRefs normalize false maxCriteria (fields.field "criterionIds")
  let statement ← readStatement normalize (fields.field "statement")
  .ok { criterionIds, statement }

end Readers

end MoeNG.Core.ProductContract
