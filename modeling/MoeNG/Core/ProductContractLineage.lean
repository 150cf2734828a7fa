import MoeNG.Core.ProductContractClosure
import MoeNG.Lib.Registry

/-!
# Amendments of product contracts (`packages/core/src/product-contract/product-contract-v2-lineage.ts`)

A candidate is compared with the revision that is current. What it keeps, it
keeps in meaning; what it drops, it retires.
-/

namespace MoeNG.Core.ProductContract
open MoeNG.Kernel MoeNG.Lib

inductive LineageCode where
  | PARENT_NOT_CURRENT
  | CONTRACT_MISMATCH
  | ID_REUSED
  | ID_UNSTABLE
  | CHANGE_UNDECLARED
  deriving DecidableEq

/-- The refusal of a revision, or that of its lineage. -/
inductive AmendmentRefusal where
  | revision (refusal : Refusal)
  | lineage (code : LineageCode)
  deriving DecidableEq

inductive RequirementSection where
  | DEPLOYMENT
  | FUNCTIONAL
  | NON_FUNCTIONAL
  | SECURITY_PRIVACY
  | TECHNOLOGY
  | UX_ACCESSIBILITY
  deriving DecidableEq

/-! ### The changes of a section (`product-contract-v2-lineage.ts:118-232`) -/

section Changes
variable {E : Type} (idOf : E → JsString) (supersedes : E → Option JsString)

def byId (entries : List E) (id : JsString) : Option E := entries.find? fun item => idOf item = id

/-- `sameCarried` and `sameMeaning` take the earlier item first. -/
structure Comparison (E : Type) where
  sameCarried : E → E → Bool
  sameMeaning : E → E → Bool

def historicalChange (candidate : List E) (retired : List JsString) : List JsString → Option LineageCode
  | [] => none
  | historicalId :: rest =>
    if (byId idOf candidate historicalId).isSome then some .ID_REUSED
    else if !retired.contains historicalId then some .CHANGE_UNDECLARED
    else historicalChange candidate retired rest

def candidateChange (same : Comparison E) (current candidate : List E) (retired : List JsString) :
    List JsString → List E → Option LineageCode
  | _, [] => none
  | superseded, next :: rest =>
    match byId idOf current (idOf next) with
    | some carried =>
      if !same.sameCarried carried next then some .ID_REUSED
      else if retired.contains (idOf next) then some .CHANGE_UNDECLARED
      else candidateChange same current candidate retired superseded rest
    | none =>
      match supersedes next with
      | none =>
        if current.any fun prior => same.sameMeaning prior next &&
          (byId idOf candidate (idOf prior)).isNone then some .ID_UNSTABLE
        else candidateChange same current candidate retired superseded rest
      | some replacedId =>
        match byId idOf current replacedId with
        | none => some .CHANGE_UNDECLARED
        | some prior =>
          if (byId idOf candidate replacedId).isSome || !retired.contains replacedId || superseded.contains replacedId then
            some .CHANGE_UNDECLARED
          else if same.sameMeaning prior next then some .ID_UNSTABLE
          else candidateChange same current candidate retired (replacedId :: superseded) rest

def validChanges (same : Comparison E) (current candidate : List E) (historical retired : List JsString) : Option LineageCode :=
  match historicalChange idOf candidate retired historical with
  | some code => some code
  | none =>
    match candidateChange idOf supersedes same current candidate retired [] candidate with
    | some code => some code
    | none =>
      if retired.any fun id => ((byId idOf current id).isNone && !historical.contains id) || (byId idOf candidate id).isSome then
        some .CHANGE_UNDECLARED
      else if current.all fun prior => (byId idOf candidate (idOf prior)).isSome || retired.contains (idOf prior) then none
      else some .CHANGE_UNDECLARED

end Changes

/-! ### Requirements (`product-contract-v2-lineage.ts:47-175`) -/

def requirementEntries (revision : Draft) : List (Requirement × RequirementSection) :=
  (revision.deploymentRequirements.map fun item => (item.toRequirement, .DEPLOYMENT))
    ++ (revision.functionalRequirements.map fun item => (item, .FUNCTIONAL))
    ++ (revision.nonFunctionalRequirements.map fun item => (item, .NON_FUNCTIONAL))
    ++ (revision.securityPrivacyRequirements.map fun item => (item, .SECURITY_PRIVACY))
    ++ (revision.technologyRequirements.map fun item => (item, .TECHNOLOGY))
    ++ (revision.uxAccessibilityRequirements.map fun item => (item, .UX_ACCESSIBILITY))

def entryId (entry : Requirement × RequirementSection) : JsString := entry.1.requirementId

def requirementById (revision : Draft) (id : JsString) : Option (Requirement × RequirementSection) :=
  byId entryId (requirementEntries revision) id

def sameRequirementMeaning (left right : Requirement × RequirementSection) : Bool :=
  left.2 = right.2 && left.1.statement = right.1.statement && left.1.priority = right.1.priority
    && left.1.dependsOnRequirementIds = right.1.dependsOnRequirementIds

def sameCarriedRequirement (left right : Requirement × RequirementSection) : Bool :=
  sameRequirementMeaning left right && left.1.supersedesRequirementId = right.1.supersedesRequirementId

/-- The deployment requirements' variables are not compared. -/
def requirementComparison : Comparison (Requirement × RequirementSection) := ⟨sameCarriedRequirement, sameRequirementMeaning⟩

def validRequirementChanges (current candidate : Draft) : Option LineageCode :=
  validChanges entryId (fun entry => entry.1.supersedesRequirementId) requirementComparison (requirementEntries current)
    (requirementEntries candidate) current.retiredRequirementIds candidate.retiredRequirementIds

/-! ### Criteria (`product-contract-v2-lineage.ts:91-112`, `177-232`) -/

def requirementContinues (currentRequirementId candidateRequirementId : JsString) (candidate : Draft) : Bool :=
  currentRequirementId = candidateRequirementId
    || ((requirementById candidate candidateRequirementId).bind fun entry => entry.1.supersedesRequirementId)
      = some currentRequirementId

def requirementMeaningContinues (current candidate : Draft) (currentRequirementId candidateRequirementId : JsString) : Bool :=
  requirementContinues currentRequirementId candidateRequirementId candidate
    || match requirementById current currentRequirementId, requirementById candidate candidateRequirementId with
      | some prior, some next => sameRequirementMeaning prior next
      | _, _ => false

def sameCriterionMeaning (current candidate : Draft) (left right : Criterion) : Bool :=
  left.statement = right.statement && left.verification = right.verification
    && requirementMeaningContinues current candidate left.requirementId right.requirementId

def sameCarriedCriterion (carried next : Criterion) : Bool :=
  carried.statement = next.statement && carried.verification = next.verification
    && carried.supersedesCriterionId = next.supersedesCriterionId && carried.requirementId = next.requirementId

def criterionComparison (current candidate : Draft) : Comparison Criterion :=
  ⟨sameCarriedCriterion, sameCriterionMeaning current candidate⟩

def validCriterionChanges (current candidate : Draft) : Option LineageCode :=
  validChanges Criterion.criterionId Criterion.supersedesCriterionId (criterionComparison current candidate) current.criteria
    candidate.criteria current.retiredCriterionIds candidate.retiredCriterionIds

/-! ### Amendments (`product-contract-v2-lineage.ts:41-45`, `234-264`) -/

structure Amendment where
  parentRevisionDigest : JsString
  revisionDigest : JsString
  deriving DecidableEq

section Amendment
variable (normalize : JsString → JsString) (sha256 : List Byte → JsString)

def validRevision (value : Value) : Except Refusal Revision := do
  let _ ← encodeProductContractRevisionV2 normalize sha256 value
  admitProductContractRevisionV2 normalize value

def validateProductContractV2Amendment (currentValue candidateValue : Value) : Except AmendmentRefusal Amendment := do
  let current ← (validRevision normalize sha256 currentValue).mapError .revision
  let candidate ← (validRevision normalize sha256 candidateValue).mapError .revision
  if current.contractId ≠ candidate.contractId then .error (.lineage .CONTRACT_MISMATCH)
  else if candidate.revisionId = current.revisionId
      || candidate.lineage ≠ some { parentRevisionDigest := current.revisionDigest, parentRevisionId := current.revisionId } then
    .error (.lineage .PARENT_NOT_CURRENT)
  else match validRequirementChanges current.toDraft candidate.toDraft with
    | some code => .error (.lineage code)
    | none =>
      match validCriterionChanges current.toDraft candidate.toDraft with
      | some code => .error (.lineage code)
      | none => .ok { parentRevisionDigest := current.revisionDigest, revisionDigest := candidate.revisionDigest }

end Amendment

end MoeNG.Core.ProductContract
