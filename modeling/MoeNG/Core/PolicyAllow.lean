import MoeNG.Core.PolicyChain
import MoeNG.Core.PolicyRelaxation

/-!
# What an allowance says

An allowance is described by the declarations and the facts alone. The record
does not depend on the order of the facts, waivers, scope entries and required
ids, and a higher risk hint never loosens the decision.
-/

namespace MoeNG.Core.Policy
open MoeNG.Kernel MoeNG.Lib

/-- A strongly attested fact bears a tier: its own, or one at which the chain classifies it. -/
def Bears (input : PolicyEvaluationInput) (tier : PolicyRiskTier) : Prop :=
  ∃ fact ∈ input.facts, strongTruth fact.truthClass = true
    ∧ (fact.tier = some tier ∨ ⟨fact.factId, tier⟩ ∈ chainClassifications input.sliceChain)

def Weighs (input : PolicyEvaluationInput) (tier : PolicyRiskTier) : Prop :=
  Bears input tier ∨ input.callerRiskHint = some tier

structure Allowed (input : PolicyEvaluationInput) : Prop where
  unrelaxed : Unrelaxed input input.sliceChain
  evidence : ∀ id, (id ∈ input.requiredFactIds ∨ ∃ slice ∈ input.sliceChain, ∃ rule ∈ slice.rules, id ∈ rule.requiredFactIds) →
    ∃ fact ∈ input.facts, fact.factId = id ∧ fact.truthClass ≠ .UNKNOWN
      ∧ (fact.tier ≠ none → strongTruth fact.truthClass = true)
  classified : ∃ tier, Bears input tier
  tier : ∃ top, Weighs input top ∧ (∀ tier, Weighs input tier → tierRank tier ≤ tierRank top)
    ∧ tierRank top ≤ tierRank .R1
    ∧ ∃ last, input.sliceChain.getLast? = some last
      ∧ ∃ optIn ∈ last.autoApprovalOptIns, optIn.action = input.action ∧ tierRank top ≤ tierRank optIn.tier
  rules : ∀ rule ∈ (foldSlices input).rules, rule.effect = .ALLOW

/-! ### Tiers (`policy-evaluation.ts:59-92`) -/

section Tiers
variable {input : PolicyEvaluationInput} (hunrelaxed : Unrelaxed input input.sliceChain)
include hunrelaxed

theorem declared_le_iff (factId : JsString) (n : ℕ) : level (declaredTier (foldSlices input) factId) ≤ n ↔
    ∀ tier, ⟨factId, tier⟩ ∈ chainClassifications input.sliceChain → tierRank tier + 1 ≤ n := by
  rw [declaredTier_eq, folding_declared input hunrelaxed]
  constructor
  · intro hle tier htier
    obtain ⟨kept, hget, hkept⟩ := declarations_keep _ PolicyRiskClassification.tier (fun s t => tierRank s ≤ tierRank t)
      hunrelaxed.classifications ⟨factId, tier⟩ htier
    have hrank : tierRank tier ≤ tierRank kept := hkept.elim (fun heq => heq ▸ le_refl _) id
    rw [show (declarations PolicyRiskClassification.factId PolicyRiskClassification.tier
      (chainClassifications input.sliceChain)).get factId = some kept from hget, level] at hle
    omega
  · intro hall
    cases hget : (declarations PolicyRiskClassification.factId PolicyRiskClassification.tier
      (chainClassifications input.sliceChain)).get factId with
    | none => exact Nat.zero_le n
    | some tier =>
      obtain ⟨entry, hentry, rfl, rfl⟩ := declarations_sourced _ _ _ _ _ hget
      exact hall entry.tier hentry

theorem computed_le_iff (n : ℕ) : level (assessRisk input (foldSlices input)).computedTier ≤ n ↔
    ∀ tier, Bears input tier → tierRank tier + 1 ≤ n := by
  have hfact (fact : PolicyFactInput) : factLevel (foldSlices input) fact ≤ n ↔ (strongTruth fact.truthClass = true →
      ∀ tier, fact.tier = some tier ∨ ⟨fact.factId, tier⟩ ∈ chainClassifications input.sliceChain →
        tierRank tier + 1 ≤ n) := by
    have hown : level fact.tier ≤ n ↔ ∀ tier, fact.tier = some tier → tierRank tier + 1 ≤ n := by
      cases fact.tier <;> simp [level]
    unfold factLevel
    split
    · rename_i hstrong
      rw [level_maxTier, max_le_iff, hown, declared_le_iff hunrelaxed]
      simp only [hstrong, true_imp_iff, or_imp, forall_and]
    · rename_i hweak
      simp [hweak]
  rw [computed_le]
  constructor
  · rintro hall tier ⟨fact, hmem, hstrong, htier⟩
    exact (hfact fact).mp (hall fact hmem) hstrong tier htier
  · exact fun hall fact hmem => (hfact fact).mpr fun hstrong tier htier => hall tier ⟨fact, hmem, hstrong, htier⟩

theorem classified_iff : (assessRisk input (foldSlices input)).computedTier ≠ none ↔ ∃ tier, Bears input tier := by
  rw [ne_eq, ← level_eq_zero, ← Nat.le_zero, computed_le_iff hunrelaxed]
  simp

theorem effective_iff (hclassified : ∃ tier, Bears input tier) (top : PolicyRiskTier) :
    (assessRisk input (foldSlices input)).effectiveTier = some top ↔
      Weighs input top ∧ ∀ tier, Weighs input tier → tierRank tier ≤ tierRank top := by
  have hbound (n : ℕ) : level (assessRisk input (foldSlices input)).effectiveTier ≤ n ↔
      ∀ tier, Weighs input tier → tierRank tier + 1 ≤ n := by
    have hhint : level input.callerRiskHint ≤ n ↔ ∀ tier, input.callerRiskHint = some tier → tierRank tier + 1 ≤ n := by
      cases input.callerRiskHint <;> simp [level]
    rw [level_effective input _ ((classified_iff hunrelaxed).mpr hclassified), max_le_iff, computed_le_iff hunrelaxed, hhint]
    simp only [Weighs, or_imp, forall_and]
  constructor
  · intro heff
    have hall := (hbound (tierRank top + 1)).mp (by rw [heff]; exact le_refl _)
    have hmost (tier : PolicyRiskTier) (h : Weighs input tier) : tierRank tier ≤ tierRank top := by
      have hle := hall tier h
      omega
    refine ⟨?_, hmost⟩
    by_contra hnot
    -- without `top` itself every tier that weighs would lie strictly below it
    have hless := (hbound (tierRank top)).mpr fun tier h => by
      have hle := hmost tier h
      have hne : tierRank tier ≠ tierRank top := fun heq => by
        obtain rfl := Option.some.inj (level_inj (some tier) (some top) (congrArg (· + 1) heq))
        exact hnot h
      omega
    rw [heff, level] at hless
    omega
  · rintro ⟨htop, hmost⟩
    refine level_inj _ _ (le_antisymm ?_ ?_)
    · exact (hbound _).mpr fun tier h => Nat.succ_le_succ (hmost tier h)
    · exact (hbound _).mp (le_refl _) top htop

end Tiers

variable (input : PolicyEvaluationInput)

theorem evidence_iff (hnodup : (input.facts.map PolicyFactInput.factId).Nodup) (id : JsString) :
    evidenceFault input id = none ↔ ∃ fact ∈ input.facts, fact.factId = id ∧ fact.truthClass ≠ .UNKNOWN
      ∧ (fact.tier ≠ none → strongTruth fact.truthClass = true) := by
  unfold evidenceFault
  constructor
  · intro h
    cases hfact : factOf input id with
    | none => simp [hfact] at h
    | some fact =>
      refine ⟨fact, List.mem_of_find?_eq_some hfact, factOf_factId input id fact hfact, ?_⟩
      simpa [hfact, Option.ne_none_iff_isSome] using h
  · rintro ⟨fact, hmem, rfl, hknown, hstrong⟩
    rw [factOf_mem input fact hnodup hmem]
    simp only [Option.ne_none_iff_isSome] at hstrong
    simpa [hknown] using hstrong

theorem mem_requiredIds (id : JsString) : id ∈ requiredIds input ↔
    id ∈ input.requiredFactIds ∨ ∃ slice ∈ input.sliceChain, ∃ rule ∈ slice.rules, id ∈ rule.requiredFactIds := by
  simp only [requiredIds, List.mem_append, List.mem_flatMap]

theorem passes_iff_allowed (hnodup : (input.facts.map PolicyFactInput.factId).Nodup) : Passes input ↔ Allowed input := by
  have hevidence : (∀ id ∈ requiredIds input, evidenceFault input id = none) ↔
      ∀ id, (id ∈ input.requiredFactIds ∨ ∃ slice ∈ input.sliceChain, ∃ rule ∈ slice.rules, id ∈ rule.requiredFactIds) →
        ∃ fact ∈ input.facts, fact.factId = id ∧ fact.truthClass ≠ .UNKNOWN
          ∧ (fact.tier ≠ none → strongTruth fact.truthClass = true) :=
    forall_congr' fun id => imp_congr (mem_requiredIds input id) (evidence_iff input hnodup id)
  have hoptedIn (top : PolicyRiskTier) : optedIn (foldSlices input).optIns input.action top = true ↔
      ∃ last, input.sliceChain.getLast? = some last
        ∧ ∃ optIn ∈ last.autoApprovalOptIns, optIn.action = input.action ∧ tierRank top ≤ tierRank optIn.tier := by
    show (((input.sliceChain.getLast?.map PolicySlice.autoApprovalOptIns).getD []).any _) = true ↔ _
    cases input.sliceChain.getLast? <;> simp
  constructor
  · intro h
    have hunrelaxed := (relaxed_eq_false_iff input).mp h.relaxed
    have hclassified := (classified_iff hunrelaxed).mp h.classified
    have htier := h.tier
    cases heff : (assessRisk input (foldSlices input)).effectiveTier with
    | none =>
      have hlevel := level_effective input (foldSlices input) h.classified
      have hpositive := (level_eq_zero _).not.mpr h.classified
      rw [heff, level] at hlevel
      omega
    | some top =>
      rw [heff, automatic, Bool.and_eq_true, decide_eq_true_eq, hoptedIn] at htier
      obtain ⟨htop, hmost⟩ := (effective_iff hunrelaxed hclassified top).mp heff
      exact ⟨hunrelaxed, hevidence.mp h.evidence, hclassified, ⟨top, htop, hmost, htier⟩,
        fun rule hrule => h.rules rule hrule (ruleMatches_complete input rule hrule h.evidence)⟩
  · intro h
    obtain ⟨top, htop, hmost, htier⟩ := h.tier
    have heff := (effective_iff h.unrelaxed h.classified top).mpr ⟨htop, hmost⟩
    refine ⟨hevidence.mpr h.evidence, fun rule hrule _ => h.rules rule hrule, (classified_iff h.unrelaxed).mpr h.classified,
      (relaxed_eq_false_iff input).mpr h.unrelaxed, ?_⟩
    rw [heff, automatic, Bool.and_eq_true, decide_eq_true_eq, hoptedIn]
    exact htier

/-! ### The order of the input -/

structure Shuffled (input shuffled : PolicyEvaluationInput) : Prop where
  facts : shuffled.facts.Perm input.facts
  waivers : shuffled.waivers.Perm input.waivers
  scope : shuffled.scope.Perm input.scope
  requiredFactIds : shuffled.requiredFactIds.Perm input.requiredFactIds
  rest : shuffled = { input with
    facts := shuffled.facts, waivers := shuffled.waivers, scope := shuffled.scope,
    requiredFactIds := shuffled.requiredFactIds }

theorem assessFacts_used (fold : SliceFold) (facts : List PolicyFactInput) (risk : Risk) :
    (facts.foldl (assessFact fold) risk).usedFactIds =
      risk.usedFactIds ++ facts.flatMap fun fact => if factLevel fold fact = 0 then [] else [fact.factId] := by
  have hone (risk : Risk) (fact : PolicyFactInput) : (assessFact fold risk fact).usedFactIds =
      risk.usedFactIds ++ if factLevel fold fact = 0 then [] else [fact.factId] := by
    unfold assessFact factLevel
    cases strongTruth fact.truthClass with
    | false => simp
    | true =>
      cases maxTier fact.tier (declaredTier fold fact.factId) <;> simp [level]
  induction facts generalizing risk with
  | nil => simp
  | cons fact rest ih => rw [List.foldl_cons, ih, hone, List.flatMap_cons, List.append_assoc]

section Shuffled
variable {input shuffled : PolicyEvaluationInput} (h : Shuffled input shuffled)
include h

theorem Shuffled.validated (opaqueCharacter : JsString → Bool) (nfc : JsString → JsString) :
    validateEvaluationInput opaqueCharacter nfc shuffled = validateEvaluationInput opaqueCharacter nfc input := by
  rw [h.rest]
  simp only [validateEvaluationInput, h.facts.all_eq, h.waivers.all_eq, h.scope.all_eq, h.requiredFactIds.all_eq,
    hasDuplicates_perm h.requiredFactIds, hasDuplicates_perm (h.facts.map _),
    hasDuplicates_perm (h.waivers.map _)]

theorem Shuffled.waiverCovers (waiver : PolicyWaiver) (obligationId : JsString) :
    waiverCovers waiver obligationId shuffled = waiverCovers waiver obligationId input := by
  rw [h.rest]
  simp only [Policy.waiverCovers, h.scope.mem_iff]

theorem Shuffled.obligationRelaxation (child : PolicyRule) (verdict : Verdict) (obligation : PolicyObligation) :
    obligationRelaxation child shuffled verdict obligation = obligationRelaxation child input verdict obligation := by
  have hoffered := h.waivers.filter fun entry => decide (entry.namedObligationId = obligation.obligationId)
  simp only [Policy.obligationRelaxation, hoffered.length_eq, hoffered.any_eq, h.waiverCovers]

theorem Shuffled.foldSlices : foldSlices shuffled = foldSlices input := by
  have hrule : foldRule shuffled = foldRule input := by
    funext f rule
    simp only [foldRule, ruleRelaxation, funext₂ (h.obligationRelaxation rule)]
  have hslice : foldSlice shuffled = foldSlice input := by
    funext f slice
    simp only [foldSlice, hrule]
  have hchain : shuffled.sliceChain = input.sliceChain := by rw [h.rest]
  simp only [Policy.foldSlices, folding, hslice, hchain]

theorem Shuffled.assessRisk (fold : SliceFold) : assessRisk shuffled fold = assessRisk input fold := by
  have hhint : shuffled.callerRiskHint = input.callerRiskHint := by rw [h.rest]
  have hcomputed : (Policy.assessRisk shuffled fold).computedTier = (Policy.assessRisk input fold).computedTier := by
    refine level_inj _ _ (eq_of_forall_ge_iff fun n => ?_)
    rw [computed_le, computed_le]
    exact forall_congr' fun fact => imp_congr_left h.facts.mem_iff
  have hused : (Policy.assessRisk shuffled fold).usedFactIds = (Policy.assessRisk input fold).usedFactIds := by
    simp only [Policy.assessRisk, assessFacts_used, List.nil_append]
    exact mergeSort_key_perm id (h.facts.flatMap_right _) fun a _ b _ heq => heq
  have heffective := effective_eq shuffled fold
  rw [hcomputed, hhint, ← effective_eq] at heffective
  exact PolicyRiskAssessment.mk.injEq .. |>.mpr ⟨hhint, hcomputed, heffective, hused⟩

theorem Shuffled.factOf (hnodup : (input.facts.map PolicyFactInput.factId).Nodup) (id : JsString) :
    factOf shuffled id = factOf input id := find_key_perm PolicyFactInput.factId h.facts hnodup id

theorem Shuffled.mem_requiredIds (id : JsString) : id ∈ requiredIds shuffled ↔ id ∈ requiredIds input := by
  have hchain : shuffled.sliceChain = input.sliceChain := by rw [h.rest]
  rw [Policy.mem_requiredIds, Policy.mem_requiredIds, h.requiredFactIds.mem_iff, hchain]

variable (hnodup : (input.facts.map PolicyFactInput.factId).Nodup)
include hnodup

theorem Shuffled.assessRules (rules : List PolicyRule) : assessRules shuffled rules = assessRules input rules := by
  have hmatches : ruleMatches shuffled = ruleMatches input := by
    funext rule
    simp only [ruleMatches, h.factOf hnodup]
  simp only [Policy.assessRules, hmatches]

theorem Shuffled.faults (code : PolicyReasonCode) : code ∈ (assessEvidence shuffled).2 ↔ code ∈ (assessEvidence input).2 := by
  have hfault (id : JsString) : evidenceFault shuffled id = evidenceFault input id := by
    rw [evidenceFault, evidenceFault, h.factOf hnodup]
  simp only [assessEvidence, List.mem_filterMap, hfault, h.mem_requiredIds]

theorem Shuffled.assessEvidence : (assessEvidence shuffled).1 = (assessEvidence input).1 := by
  have hnone (i : PolicyEvaluationInput) : (Policy.assessEvidence i).2.length = 0 ↔ ∀ code,
    code ∉ (Policy.assessEvidence i).2 := by
    rw [List.length_eq_zero_iff, List.eq_nil_iff_forall_not_mem]
  have hempty : (Policy.assessEvidence shuffled).2.length = 0 ↔ (Policy.assessEvidence input).2.length = 0 := by
    simp only [hnone, h.faults hnodup]
  show (if (Policy.assessEvidence shuffled).2.length = 0 then _ else _) =
    if (Policy.assessEvidence input).2.length = 0 then _ else _
  simp only [hempty]

theorem Shuffled.record : record shuffled = record input := by
  have haction : shuffled.action = input.action := by rw [h.rest]
  have hdecision : (decided shuffled).1 = (decided input).1 := by
    simp only [decided, h.foldSlices, h.assessRisk, h.assessRules hnodup, h.assessEvidence hnodup, haction]
  have hcodes (code : PolicyReasonCode) : code ∈ (decided shuffled).2 ↔ code ∈ (decided input).2 := by
    simp only [decided, h.foldSlices, h.assessRisk, h.assessRules hnodup, haction, List.mem_append, h.faults hnodup]
  have hfacts : ((shuffled.facts.map fun fact => (⟨fact.factId, fact.truthClass⟩ : PolicyRecordedFact)).mergeSort
      fun left right => left.factId ≤ right.factId) =
      (input.facts.map fun fact => ⟨fact.factId, fact.truthClass⟩).mergeSort fun left right => left.factId ≤ right.factId := by
    refine mergeSort_key_perm PolicyRecordedFact.factId (h.facts.map _) fun a ha b hb => ?_
    refine List.inj_on_of_nodup_map ?_ ha hb
    rw [List.map_map]
    exact hnodup
  simp only [Policy.record, hdecision, hcodes, hfacts, h.foldSlices, h.assessRisk, h.assessRules hnodup]
  rw [h.rest]

end Shuffled

/-! ### The caller's hint -/

def hinted (input : PolicyEvaluationInput) (hint : Option PolicyRiskTier) : PolicyEvaluationInput :=
  { input with callerRiskHint := hint }

theorem effective_hinted (hint : Option PolicyRiskTier) (fold : SliceFold)
    (hraised : level input.callerRiskHint ≤ level hint) :
    level (assessRisk input fold).effectiveTier ≤ level (assessRisk (hinted input hint) fold).effectiveTier := by
  have hcomputed : (assessRisk (hinted input hint) fold).computedTier = (assessRisk input fold).computedTier := rfl
  cases hnone : (assessRisk input fold).computedTier with
  | none => simp [effective_eq, hcomputed, hnone]
  | some tier =>
    have hclassified : (assessRisk input fold).computedTier ≠ none := by simp [hnone]
    rw [level_effective input fold hclassified, level_effective (hinted input hint) fold hclassified, hcomputed]
    exact max_le_max (le_refl _) hraised

theorem decided_hinted (hint : Option PolicyRiskTier) (hraised : level input.callerRiskHint ≤ level hint) :
    outcomeRank (decided input).1 ≤ outcomeRank (decided (hinted input hint)).1 := by
  have hzero (tier : Option PolicyRiskTier) : outcomeRank (assessTier tier (foldSlices input) input.action).1 = 0 ↔
      automatic (foldSlices input).optIns input.action tier = true := by
    rw [← assessTier_allow]
    cases (assessTier tier (foldSlices input) input.action).1 <;> decide
  have htier : outcomeRank (assessTier (assessRisk input (foldSlices input)).effectiveTier (foldSlices input) input.action).1 ≤
      outcomeRank (assessTier (assessRisk (hinted input hint) (foldSlices input)).effectiveTier (foldSlices input)
        input.action).1 := by
    have hone := assessTier_le_one (assessRisk input (foldSlices input)).effectiveTier (foldSlices input) input.action
    by_contra hless
    have hauto := (hzero (assessRisk (hinted input hint) (foldSlices input)).effectiveTier).mp (by omega)
    have hauto' := (hzero _).mpr (automatic_mono _ _ _ _ (effective_hinted input hint (foldSlices input) hraised) hauto)
    omega
  have h := (decided_le_iff (hinted input hint) _).mp (le_refl _)
  exact (decided_le_iff input _).mpr ⟨h.1, h.2.1, h.2.2.1, h.2.2.2.1, htier.trans h.2.2.2.2⟩

/-- Every admitted input gets a record: it allows exactly as `Allowed` says, it is the record of every shuffled input, and
a higher hint gives no looser one. -/
theorem policy_allow_exact (opaqueCharacter : JsString → Bool) (nfc : JsString → JsString) (input : PolicyEvaluationInput)
    (hadmitted : validateEvaluationInput opaqueCharacter nfc input = true) :
    ∃ result, evaluatePolicy opaqueCharacter nfc input = some result
      ∧ (result.decision = .ALLOW ↔ Allowed input)
      ∧ (∀ shuffled, Shuffled input shuffled → evaluatePolicy opaqueCharacter nfc shuffled = some result)
      ∧ ∀ hint, level input.callerRiskHint ≤ level hint →
        ∃ raised, evaluatePolicy opaqueCharacter nfc (hinted input hint) = some raised
          ∧ outcomeRank result.decision ≤ outcomeRank raised.decision := by
  have hnodup := (admitted_facts opaqueCharacter nfc input hadmitted).2
  refine ⟨record input, if_pos hadmitted, ?_, fun shuffled h => ?_, fun hint hraised => ?_⟩
  · exact (decided_allow_iff input).trans (passes_iff_allowed input hnodup)
  · rw [evaluatePolicy, if_pos (by rw [h.validated]; exact hadmitted), h.record hnodup]
  · exact ⟨record (hinted input hint), if_pos hadmitted, decided_hinted input hint hraised⟩

theorem policy_allow_apply :
    ∃ result, evaluatePolicy (fun _ => false) id (applyInput .OBSERVED [rootSlice]) = some result
      ∧ (result.decision = .ALLOW ↔ Allowed (applyInput .OBSERVED [rootSlice]))
      ∧ (∀ shuffled, Shuffled (applyInput .OBSERVED [rootSlice]) shuffled →
        evaluatePolicy (fun _ => false) id shuffled = some result)
      ∧ ∀ hint, level (applyInput .OBSERVED [rootSlice]).callerRiskHint ≤ level hint →
        ∃ raised, evaluatePolicy (fun _ => false) id (hinted (applyInput .OBSERVED [rootSlice]) hint) = some raised
          ∧ outcomeRank result.decision ≤ outcomeRank raised.decision :=
  policy_allow_exact (fun _ => false) id (applyInput .OBSERVED [rootSlice]) (by decide +kernel)

end MoeNG.Core.Policy
