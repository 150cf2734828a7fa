import MoeNG.Core.Snapshot
import MoeNG.Kernel.Utf8
import MoeNG.Lib.OrdMap

/-!
# Policy evaluation (`packages/core/src/policy/policy-contract.ts`, `policy-validation.ts`,
`policy-composition.ts`, `policy-evaluation.ts`)

The Unicode tables of the runtime are parameters: `opaqueCharacter` is the
match of `/\p{C}/u` and `nfc` is `normalize("NFC")`.
-/

namespace MoeNG.Core.Policy
open MoeNG.Kernel MoeNG.Lib

/-! ### Contract (`policy-contract.ts:16-220`) -/

inductive PolicyOutcome where
  | ALLOW
  | REQUIRE_HUMAN_APPROVAL
  | HOLD_UNKNOWN
  | DENY
  deriving DecidableEq

inductive PolicyRiskTier where
  | R0
  | R1
  | R2
  | R3
  deriving DecidableEq

inductive PolicyObligationKind where
  | HARD
  | SOFT
  deriving DecidableEq

inductive PolicyRuleEffect where
  | ALLOW
  | REQUIRE_HUMAN_APPROVAL
  | DENY
  deriving DecidableEq

inductive PolicyReasonCode where
  | ALLOWED_BY_POLICY
  | AUTO_APPROVAL_NOT_OPTED_IN
  | DENIED_BY_RULE
  | FACT_TRUTH_UNKNOWN
  | HUMAN_ONLY_TIER
  | REQUIRED_FACT_MISSING
  | REQUIRE_HUMAN_APPROVAL_BY_RULE
  | RISK_TIER_UNCLASSIFIABLE
  | SLICE_RELAXATION_DETECTED
  | WAIVER_INVALID
  deriving DecidableEq

/-- `POLICY_REASON_CODES`, in the order `sort` puts their texts. -/
def policyReasonCodes : List PolicyReasonCode :=
  [.ALLOWED_BY_POLICY, .AUTO_APPROVAL_NOT_OPTED_IN, .DENIED_BY_RULE, .FACT_TRUTH_UNKNOWN, .HUMAN_ONLY_TIER,
    .REQUIRED_FACT_MISSING, .REQUIRE_HUMAN_APPROVAL_BY_RULE, .RISK_TIER_UNCLASSIFIABLE, .SLICE_RELAXATION_DETECTED,
    .WAIVER_INVALID]

structure PolicyObligation where
  kind : PolicyObligationKind
  obligationId : JsString
  deriving DecidableEq

structure PolicyFactInput where
  factId : JsString
  tier : Option PolicyRiskTier
  truthClass : RuntimeTruthClass
  deriving DecidableEq

structure PolicyRecordedFact where
  factId : JsString
  truthClass : RuntimeTruthClass
  deriving DecidableEq

structure PolicyRule where
  effect : PolicyRuleEffect
  obligations : List PolicyObligation
  requiredFactIds : List JsString
  ruleId : JsString
  deriving DecidableEq

structure PolicyAutoApprovalOptIn where
  action : JsString
  tier : PolicyRiskTier
  deriving DecidableEq

structure PolicyRiskClassification where
  factId : JsString
  tier : PolicyRiskTier
  deriving DecidableEq

structure PolicySlice where
  autoApprovalOptIns : List PolicyAutoApprovalOptIn
  riskClassifications : Option (List PolicyRiskClassification)
  rules : List PolicyRule
  sliceRef : JsString
  deriving DecidableEq

structure PolicyWaiver where
  expiresAtEpochMs : ℤ
  humanApprovalRef : JsString
  namedObligationId : JsString
  scope : List JsString
  waiverRef : JsString
  deriving DecidableEq

structure PolicyEvaluationInput where
  action : JsString
  actor : JsString
  callerRiskHint : Option PolicyRiskTier
  decisionDigest : JsString
  evaluatedAtEpochMs : ℤ
  evaluatorVersion : JsString
  facts : List PolicyFactInput
  graphNodeRevisionRefs : List JsString
  policyRevisionRef : JsString
  requiredFactIds : List JsString
  scope : List JsString
  sliceChain : List PolicySlice
  waivers : List PolicyWaiver
  deriving DecidableEq

structure PolicyRiskAssessment where
  callerRiskHint : Option PolicyRiskTier
  computedTier : Option PolicyRiskTier
  effectiveTier : Option PolicyRiskTier
  usedFactIds : List JsString
  deriving DecidableEq

structure PolicyDecisionRecord where
  action : JsString
  actor : JsString
  decision : PolicyOutcome
  decisionDigest : JsString
  evaluatorVersion : JsString
  graphNodeRevisionRefs : List JsString
  inputFacts : List PolicyRecordedFact
  matchedRuleIds : List JsString
  obligations : List PolicyObligation
  policyRevisionRef : JsString
  reasonCodes : List PolicyReasonCode
  riskAssessment : PolicyRiskAssessment
  deriving DecidableEq

/-! ### Tiers (`policy-validation.ts:105-121`) -/

def validEpochMs (value : ℤ) : Bool := isSafeInteger value && 0 ≤ value

def tierRank : PolicyRiskTier → ℕ
  | .R0 => 0
  | .R1 => 1
  | .R2 => 2
  | .R3 => 3

def maxTier (left right : Option PolicyRiskTier) : Option PolicyRiskTier :=
  match left, right with
  | none, right => right
  | left, none => left
  | some l, some r => if tierRank l ≥ tierRank r then some l else some r

/-! ### Validation (`policy-validation.ts:122-257`) -/

def classificationEntries : ℕ := 512
def classificationFactIdBytes : ℕ := 512

def validObligation (value : PolicyObligation) : Bool := validRef value.obligationId

def validFact (value : PolicyFactInput) : Bool := validRef value.factId

def validRule (value : PolicyRule) : Bool :=
  validRef value.ruleId && value.obligations.all validObligation && value.requiredFactIds.all validRef

def validOptIn (value : PolicyAutoApprovalOptIn) : Bool := validRef value.action && (value.tier = .R0 || value.tier = .R1)

def validWaiver (value : PolicyWaiver) : Bool :=
  validRef value.waiverRef && validRef value.namedObligationId && validRef value.humanApprovalRef
    && value.scope.all validRef && validEpochMs value.expiresAtEpochMs

section Validation
variable (opaqueCharacter : JsString → Bool) (nfc : JsString → JsString)

def validClassification (entry : PolicyRiskClassification) : Bool :=
  validRef entry.factId && !opaqueCharacter entry.factId && nfc entry.factId = entry.factId
    && (utf8 entry.factId).length ≤ classificationFactIdBytes

def validClassifications (value : List PolicyRiskClassification) : Bool :=
  value.length ≤ classificationEntries && value.all (validClassification opaqueCharacter nfc)
    && !hasDuplicates (value.map PolicyRiskClassification.factId)

def validSlice (value : PolicySlice) : Bool :=
  validRef value.sliceRef && value.rules.all validRule && value.autoApprovalOptIns.all validOptIn
    && value.riskClassifications.all (validClassifications opaqueCharacter nfc)

def validateEvaluationInput (input : PolicyEvaluationInput) : Bool :=
  validRef input.action && validRef input.actor && validRef input.evaluatorVersion && validHex64 input.decisionDigest
    && validHex64 input.policyRevisionRef && validEpochMs input.evaluatedAtEpochMs
    && input.graphNodeRevisionRefs.all validRef && input.scope.all validRef && input.requiredFactIds.all validRef
    && !hasDuplicates input.requiredFactIds && input.facts.all validFact
    && !hasDuplicates (input.facts.map PolicyFactInput.factId) && input.sliceChain.length ≠ 0
    && input.sliceChain.all (validSlice opaqueCharacter nfc) && input.waivers.all validWaiver
    && !hasDuplicates (input.waivers.map PolicyWaiver.waiverRef)

end Validation

/-! ### Composition (`policy-composition.ts:22-171`) -/

def outcomeRank : PolicyOutcome → ℕ
  | .ALLOW => 0
  | .REQUIRE_HUMAN_APPROVAL => 1
  | .HOLD_UNKNOWN => 2
  | .DENY => 3

def dominant (left right : PolicyOutcome) : PolicyOutcome := if outcomeRank left ≥ outcomeRank right then left else right

def effectRank : PolicyRuleEffect → ℕ
  | .ALLOW => 0
  | .REQUIRE_HUMAN_APPROVAL => 1
  | .DENY => 2

def PolicyRuleEffect.outcome : PolicyRuleEffect → PolicyOutcome
  | .ALLOW => .ALLOW
  | .REQUIRE_HUMAN_APPROVAL => .REQUIRE_HUMAN_APPROVAL
  | .DENY => .DENY

def kindRank : PolicyObligationKind → ℕ
  | .HARD => 1
  | .SOFT => 0

structure SliceFold where
  classifications : List PolicyRiskClassification
  optIns : List PolicyAutoApprovalOptIn
  relaxed : Bool
  rules : List PolicyRule
  waiverInvalid : Bool
  deriving DecidableEq

def waiverCovers (waiver : PolicyWaiver) (obligationId : JsString) (input : PolicyEvaluationInput) : Bool :=
  waiver.namedObligationId = obligationId && waiver.expiresAtEpochMs > input.evaluatedAtEpochMs
    && waiver.scope.length > 0 && waiver.scope.all fun ref => ref ∈ input.scope

structure Verdict where
  relaxed : Bool
  waiverInvalid : Bool
  deriving DecidableEq

-- `new Map(child.obligations.map(...))`: the last declaration of an obligation counts
def childKind (child : PolicyRule) (obligationId : JsString) : Option PolicyObligationKind :=
  (child.obligations.reverse.find? fun entry => entry.obligationId = obligationId).map PolicyObligation.kind

def obligationRelaxation (child : PolicyRule) (input : PolicyEvaluationInput) (verdict : Verdict)
    (obligation : PolicyObligation) : Verdict :=
  if (childKind child obligation.obligationId).any fun kind => kindRank kind ≥ kindRank obligation.kind then verdict
  else if obligation.kind = .HARD then { verdict with relaxed := true }
  else
    let offered := input.waivers.filter fun entry => entry.namedObligationId = obligation.obligationId
    if offered.length = 0 then { verdict with relaxed := true }
    else if !offered.any fun entry => waiverCovers entry obligation.obligationId input then ⟨true, true⟩
    else verdict

def ruleRelaxation (ancestor child : PolicyRule) (input : PolicyEvaluationInput) : Verdict :=
  let relaxed := effectRank child.effect < effectRank ancestor.effect
    || ancestor.requiredFactIds.any fun factId => factId ∉ child.requiredFactIds
  ancestor.obligations.foldl (obligationRelaxation child input) ⟨relaxed, false⟩

def optInCovered (child : PolicyAutoApprovalOptIn) (ancestors : List PolicyAutoApprovalOptIn) : Bool :=
  ancestors.any fun entry => entry.action = child.action && tierRank entry.tier ≥ tierRank child.tier

structure Folding where
  rules : OrdMap JsString PolicyRule
  declared : OrdMap JsString PolicyRiskTier
  seenOptIns : List PolicyAutoApprovalOptIn
  relaxed : Bool
  waiverInvalid : Bool
  index : ℕ

def foldRule (input : PolicyEvaluationInput) (f : Folding) (rule : PolicyRule) : Folding :=
  let verdict : Verdict :=
    match f.rules.get rule.ruleId with
    | none => ⟨false, false⟩
    | some ancestor => ruleRelaxation ancestor rule input
  { f with
    rules := f.rules.set rule.ruleId rule, relaxed := f.relaxed || verdict.relaxed,
    waiverInvalid := f.waiverInvalid || verdict.waiverInvalid }

def foldClassification (f : Folding) (entry : PolicyRiskClassification) : Folding :=
  if (f.declared.get entry.factId).any fun ancestor => tierRank entry.tier < tierRank ancestor then
    { f with relaxed := true }
  else { f with declared := f.declared.set entry.factId entry.tier }

def foldOptIns (f : Folding) (optIns : List PolicyAutoApprovalOptIn) : Folding :=
  { f with
    relaxed := f.relaxed || optIns.any fun optIn => 0 < f.index && !optInCovered optIn f.seenOptIns,
    seenOptIns := f.seenOptIns ++ optIns }

def foldSlice (input : PolicyEvaluationInput) (f : Folding) (slice : PolicySlice) : Folding :=
  let f := foldOptIns f slice.autoApprovalOptIns
  let f := slice.rules.foldl (foldRule input) f
  let f := (slice.riskClassifications.getD []).foldl foldClassification f
  { f with index := f.index + 1 }

def emptyFolding : Folding := ⟨OrdMap.empty, OrdMap.empty, [], false, false, 0⟩

def folding (input : PolicyEvaluationInput) : Folding := input.sliceChain.foldl (foldSlice input) emptyFolding

def foldSlices (input : PolicyEvaluationInput) : SliceFold :=
  let f := folding input
  { classifications := (f.declared.entries.map fun e => ⟨e.1, e.2⟩).mergeSort fun left right => left.factId ≤ right.factId
    optIns := (input.sliceChain.getLast?.map PolicySlice.autoApprovalOptIns).getD []
    relaxed := f.relaxed
    rules := f.rules.entries.map Prod.snd
    waiverInvalid := f.waiverInvalid }

/-! ### Layers (`policy-evaluation.ts:48-174`) -/

def factOf (input : PolicyEvaluationInput) (id : JsString) : Option PolicyFactInput :=
  input.facts.find? fun fact => fact.factId = id

def declaredTier (fold : SliceFold) (factId : JsString) : Option PolicyRiskTier :=
  (fold.classifications.find? fun entry => entry.factId = factId).map PolicyRiskClassification.tier

structure Risk where
  computedTier : Option PolicyRiskTier
  usedFactIds : List JsString

def assessFact (fold : SliceFold) (risk : Risk) (fact : PolicyFactInput) : Risk :=
  if !strongTruth fact.truthClass then risk
  else match maxTier fact.tier (declaredTier fold fact.factId) with
    | none => risk
    | some tier => ⟨maxTier risk.computedTier (some tier), risk.usedFactIds ++ [fact.factId]⟩

def assessRisk (input : PolicyEvaluationInput) (fold : SliceFold) : PolicyRiskAssessment :=
  let risk := input.facts.foldl (assessFact fold) ⟨none, []⟩
  { callerRiskHint := input.callerRiskHint
    computedTier := risk.computedTier
    effectiveTier := if risk.computedTier.isNone then none else maxTier risk.computedTier input.callerRiskHint
    usedFactIds := risk.usedFactIds.mergeSort fun left right => left ≤ right }

def unclassifiable (risk : PolicyRiskAssessment) : Bool := risk.computedTier.isNone

/-- The ids of `required`; its order and repeats decide nothing. -/
def requiredIds (input : PolicyEvaluationInput) : List JsString :=
  input.requiredFactIds ++ input.sliceChain.flatMap fun slice => slice.rules.flatMap PolicyRule.requiredFactIds

def evidenceFault (input : PolicyEvaluationInput) (id : JsString) : Option PolicyReasonCode :=
  match factOf input id with
  | none => some .REQUIRED_FACT_MISSING
  | some fact =>
    if fact.truthClass = .UNKNOWN || (fact.tier.isSome && !strongTruth fact.truthClass) then some .FACT_TRUTH_UNKNOWN
    else none

def assessEvidence (input : PolicyEvaluationInput) : PolicyOutcome × List PolicyReasonCode :=
  let faults := (requiredIds input).filterMap (evidenceFault input)
  (if faults.length = 0 then .ALLOW else .HOLD_UNKNOWN, faults)

def ruleMatches (input : PolicyEvaluationInput) (rule : PolicyRule) : Bool :=
  rule.requiredFactIds.all fun id => (factOf input id).isSome

structure RuleAssessment where
  matchedRuleIds : List JsString
  obligations : List PolicyObligation
  outcome : PolicyOutcome
  codes : List PolicyReasonCode
  deriving DecidableEq

def effectCodes : PolicyRuleEffect → List PolicyReasonCode
  | .ALLOW => []
  | .REQUIRE_HUMAN_APPROVAL => [.REQUIRE_HUMAN_APPROVAL_BY_RULE]
  | .DENY => [.DENIED_BY_RULE]

def collectObligations (rules : List PolicyRule) : OrdMap JsString PolicyObligation :=
  (rules.flatMap PolicyRule.obligations).foldl (fun m obligation => m.set obligation.obligationId obligation) OrdMap.empty

def assessRules (input : PolicyEvaluationInput) (rules : List PolicyRule) : RuleAssessment :=
  let matched := rules.filter (ruleMatches input)
  { matchedRuleIds := (matched.map PolicyRule.ruleId).mergeSort fun left right => left ≤ right
    obligations := ((collectObligations matched).entries.map Prod.snd).mergeSort fun left right =>
      left.obligationId ≤ right.obligationId
    outcome := matched.foldl (fun outcome rule => dominant outcome rule.effect.outcome) .ALLOW
    codes := matched.flatMap fun rule => effectCodes rule.effect }

def optedIn (optIns : List PolicyAutoApprovalOptIn) (action : JsString) (tier : PolicyRiskTier) : Bool :=
  optIns.any fun entry => entry.action = action && tierRank entry.tier ≥ tierRank tier

def assessTier (tier : Option PolicyRiskTier) (fold : SliceFold) (action : JsString) :
    PolicyOutcome × List PolicyReasonCode :=
  match tier with
  | none => (.ALLOW, [])
  | some t =>
    if t = .R2 || t = .R3 then (.REQUIRE_HUMAN_APPROVAL, [.HUMAN_ONLY_TIER])
    else if optedIn fold.optIns action t then (.ALLOW, [])
    else (.REQUIRE_HUMAN_APPROVAL, [.AUTO_APPROVAL_NOT_OPTED_IN])

def coreObligations (tier : Option PolicyRiskTier) : List PolicyObligation :=
  if tier ≠ some .R3 then []
  else [⟨.HARD, lit "core.decision_reason_required"⟩, ⟨.HARD, lit "core.step_up_authentication_required"⟩]

/-! ### Evaluation (`policy-evaluation.ts:176-213`) -/

def decided (input : PolicyEvaluationInput) : PolicyOutcome × List PolicyReasonCode :=
  let fold := foldSlices input
  let risk := assessRisk input fold
  let rules := assessRules input fold.rules
  let evidence := assessEvidence input
  let tier := assessTier risk.effectiveTier fold input.action
  let decision := dominant evidence.1 rules.outcome
  let decision := dominant decision (if unclassifiable risk then .HOLD_UNKNOWN else .ALLOW)
  let decision := dominant decision (if fold.relaxed then .DENY else .ALLOW)
  let decision := dominant decision tier.1
  (decision,
    (if unclassifiable risk then [.RISK_TIER_UNCLASSIFIABLE] else [])
      ++ (if fold.relaxed then [.SLICE_RELAXATION_DETECTED] else [])
      ++ (if fold.waiverInvalid then [.WAIVER_INVALID] else []) ++ rules.codes ++ evidence.2 ++ tier.2)

def record (input : PolicyEvaluationInput) : PolicyDecisionRecord :=
  let fold := foldSlices input
  let risk := assessRisk input fold
  let rules := assessRules input fold.rules
  { action := input.action
    actor := input.actor
    decision := (decided input).1
    decisionDigest := input.decisionDigest
    evaluatorVersion := input.evaluatorVersion
    graphNodeRevisionRefs := input.graphNodeRevisionRefs
    inputFacts := (input.facts.map fun fact => ⟨fact.factId, fact.truthClass⟩).mergeSort fun left right =>
      left.factId ≤ right.factId
    matchedRuleIds := rules.matchedRuleIds
    obligations := coreObligations risk.effectiveTier ++ rules.obligations
    policyRevisionRef := input.policyRevisionRef
    reasonCodes :=
      if (decided input).1 = .ALLOW then [.ALLOWED_BY_POLICY]
      else policyReasonCodes.filter fun code => code ∈ (decided input).2
    riskAssessment := risk }

/-- `none` is the refusal `INPUT_INVALID`. -/
def evaluatePolicy (opaqueCharacter : JsString → Bool) (nfc : JsString → JsString) (input : PolicyEvaluationInput) :
    Option PolicyDecisionRecord :=
  if validateEvaluationInput opaqueCharacter nfc input then some (record input) else none

end MoeNG.Core.Policy
