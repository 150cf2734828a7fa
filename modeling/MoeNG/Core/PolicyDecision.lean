import MoeNG.Core.Policy

/-!
# Laws of policy decisions

An allowance is taken apart into the layers that all have to allow. Two runs
are then compared layer by layer: over weaker evidence, and over a longer
chain of slices.
-/

namespace MoeNG.Core.Policy
open MoeNG.Kernel MoeNG.Lib

/-! ### Tiers as levels -/

def level : Option PolicyRiskTier → ℕ
  | none => 0
  | some t => tierRank t + 1

theorem level_maxTier (a b : Option PolicyRiskTier) : level (maxTier a b) = max (level a) (level b) := by
  cases a with
  | none =>
    show level b = max 0 (level b)
    omega
  | some s =>
    cases b with
    | none =>
      show level (some s) = max (level (some s)) 0
      omega
    | some t =>
      show level (if tierRank s ≥ tierRank t then some s else some t) = max (tierRank s + 1) (tierRank t + 1)
      split <;> simp only [level] <;> omega

theorem level_inj (a b : Option PolicyRiskTier) (h : level a = level b) : a = b := by
  cases a with
  | none =>
    cases b with
    | none => rfl
    | some t => simp only [level] at h; omega
  | some s =>
    cases b with
    | none => simp only [level] at h; omega
    | some t => cases s <;> cases t <;> simp_all [level, tierRank]

theorem level_eq_zero (a : Option PolicyRiskTier) : level a = 0 ↔ a = none := by
  cases a <;> simp [level]

/-- What one fact contributes to the computed tier. -/
def factLevel (fold : SliceFold) (fact : PolicyFactInput) : ℕ :=
  if strongTruth fact.truthClass then level (maxTier fact.tier (declaredTier fold fact.factId)) else 0

theorem level_assessFact (fold : SliceFold) (risk : Risk) (fact : PolicyFactInput) :
    level (assessFact fold risk fact).computedTier = max (level risk.computedTier) (factLevel fold fact) := by
  unfold assessFact factLevel
  cases strongTruth fact.truthClass with
  | false => simp
  | true =>
    cases hm : maxTier fact.tier (declaredTier fold fact.factId) with
    | none => simp [level]
    | some tier => simp [level_maxTier]

theorem level_computed_le (fold : SliceFold) (facts : List PolicyFactInput) (risk : Risk) (n : ℕ) :
    level (facts.foldl (assessFact fold) risk).computedTier ≤ n ↔
      level risk.computedTier ≤ n ∧ ∀ fact ∈ facts, factLevel fold fact ≤ n := by
  induction facts generalizing risk with
  | nil => simp
  | cons fact rest ih =>
    rw [List.foldl_cons, ih, level_assessFact]
    simp only [max_le_iff, List.forall_mem_cons, and_assoc]

variable (input : PolicyEvaluationInput)

theorem computed_le (fold : SliceFold) (n : ℕ) :
    level (assessRisk input fold).computedTier ≤ n ↔ ∀ fact ∈ input.facts, factLevel fold fact ≤ n := by
  have h := level_computed_le fold input.facts ⟨none, []⟩ n
  simpa [assessRisk, level] using h

theorem effective_eq (fold : SliceFold) : (assessRisk input fold).effectiveTier =
      if (assessRisk input fold).computedTier.isNone then none
      else maxTier (assessRisk input fold).computedTier input.callerRiskHint := rfl

theorem level_effective (fold : SliceFold) (h : (assessRisk input fold).computedTier ≠ none) :
    level (assessRisk input fold).effectiveTier =
      max (level (assessRisk input fold).computedTier) (level input.callerRiskHint) := by
  rw [effective_eq, if_neg (by simpa using h), level_maxTier]

/-! ### The layers of an allowance -/

theorem dominant_allow (a b : PolicyOutcome) : dominant a b = .ALLOW ↔ a = .ALLOW ∧ b = .ALLOW := by
  cases a <;> cases b <;> decide

theorem foldl_dominant_allow (rules : List PolicyRule) (o : PolicyOutcome) :
    rules.foldl (fun outcome rule => dominant outcome rule.effect.outcome) o = .ALLOW ↔
      o = .ALLOW ∧ ∀ rule ∈ rules, rule.effect = .ALLOW := by
  induction rules generalizing o with
  | nil => simp
  | cons rule rest ih =>
    have heffect : rule.effect.outcome = .ALLOW ↔ rule.effect = .ALLOW := by cases rule.effect <;> decide
    rw [List.foldl_cons, ih, dominant_allow, heffect, List.forall_mem_cons, and_assoc]

/-- A tier at which the action may be approved automatically. -/
def automatic (optIns : List PolicyAutoApprovalOptIn) (action : JsString) : Option PolicyRiskTier → Bool
  | none => true
  | some t => tierRank t ≤ 1 && optedIn optIns action t

theorem assessTier_allow (tier : Option PolicyRiskTier) (fold : SliceFold) (action : JsString) :
    (assessTier tier fold action).1 = .ALLOW ↔ automatic fold.optIns action tier = true := by
  cases tier with
  | none => exact ⟨fun _ => rfl, fun _ => rfl⟩
  | some t =>
    cases hopt : optedIn fold.optIns action t <;> cases t <;> simp [assessTier, automatic, hopt, tierRank]

theorem optedIn_mono (optIns : List PolicyAutoApprovalOptIn) (action : JsString) (s t : PolicyRiskTier)
    (hle : tierRank s ≤ tierRank t) (h : optedIn optIns action t = true) : optedIn optIns action s = true := by
  simp only [optedIn, List.any_eq_true, Bool.and_eq_true, decide_eq_true_eq] at h ⊢
  obtain ⟨entry, hmem, haction, hrank⟩ := h
  exact ⟨entry, hmem, haction, by omega⟩

theorem automatic_mono (optIns : List PolicyAutoApprovalOptIn) (action : JsString) (a b : Option PolicyRiskTier)
    (hle : level a ≤ level b) (h : automatic optIns action b = true) : automatic optIns action a = true := by
  cases a with
  | none => rfl
  | some s =>
    cases b with
    | none => simp only [level] at hle; omega
    | some t =>
      simp only [level] at hle
      simp only [automatic, Bool.and_eq_true, decide_eq_true_eq] at h ⊢
      exact ⟨by omega, optedIn_mono optIns action s t (by omega) h.2⟩

/-- Every layer allows. -/
structure Passes (input : PolicyEvaluationInput) : Prop where
  evidence : ∀ id ∈ requiredIds input, evidenceFault input id = none
  rules : ∀ rule ∈ (foldSlices input).rules, ruleMatches input rule = true → rule.effect = .ALLOW
  classified : (assessRisk input (foldSlices input)).computedTier ≠ none
  relaxed : (foldSlices input).relaxed = false
  tier : automatic (foldSlices input).optIns input.action (assessRisk input (foldSlices input)).effectiveTier = true

theorem decided_allow_iff : (decided input).1 = .ALLOW ↔ Passes input := by
  have hevidence : (assessEvidence input).1 = .ALLOW ↔ ∀ id ∈ requiredIds input, evidenceFault input id = none := by
    simp only [assessEvidence, List.length_eq_zero_iff, List.filterMap_eq_nil_iff]
    split <;> simp_all
  have hrules : (assessRules input (foldSlices input).rules).outcome = .ALLOW ↔
      ∀ rule ∈ (foldSlices input).rules, ruleMatches input rule = true → rule.effect = .ALLOW := by
    simp only [assessRules, foldl_dominant_allow, true_and, List.mem_filter, and_imp]
  simp only [decided, dominant_allow, assessTier_allow, hevidence, hrules]
  constructor
  · rintro ⟨⟨⟨⟨h1, h2⟩, h3⟩, h4⟩, h5⟩
    refine ⟨h1, h2, ?_, ?_, h5⟩
    · intro hnone
      simp [unclassifiable, hnone] at h3
    · by_contra hrelaxed
      simp [hrelaxed] at h4
  · rintro ⟨h1, h2, h3, h4, h5⟩
    refine ⟨⟨⟨⟨h1, h2⟩, ?_⟩, ?_⟩, h5⟩
    · simp [unclassifiable, h3]
    · simp [h4]

/-! ### Weaker evidence -/

inductive Weakening where
  | removed
  | reclassed (truthClass : RuntimeTruthClass)
  deriving DecidableEq

def Weakening.weak : Weakening → Bool
  | .removed => true
  | .reclassed truthClass => !strongTruth truthClass

def without (input : PolicyEvaluationInput) (id : JsString) : PolicyEvaluationInput :=
  { input with facts := input.facts.filter fun fact => fact.factId ≠ id }

def reclass (id : JsString) (truthClass : RuntimeTruthClass) (fact : PolicyFactInput) : PolicyFactInput :=
  if fact.factId = id then { fact with truthClass := truthClass } else fact

def weakened (input : PolicyEvaluationInput) (id : JsString) : Weakening → PolicyEvaluationInput
  | .removed => without input id
  | .reclassed truthClass => { input with facts := input.facts.map (reclass id truthClass) }

theorem reclass_factId (id : JsString) (truthClass : RuntimeTruthClass) (fact : PolicyFactInput) :
    (reclass id truthClass fact).factId = fact.factId := by
  unfold reclass
  split <;> rfl

theorem validateEvaluationInput_facts (opaqueCharacter : JsString → Bool) (nfc : JsString → JsString)
    (input : PolicyEvaluationInput) (facts : List PolicyFactInput) (hvalid : facts.all validFact = true)
    (hnodup : (facts.map PolicyFactInput.factId).Nodup) (h : validateEvaluationInput opaqueCharacter nfc input = true) :
    validateEvaluationInput opaqueCharacter nfc { input with facts := facts } = true := by
  have hdup := (hasDuplicates_eq_false _).mpr hnodup
  simp only [validateEvaluationInput, Bool.and_eq_true] at h ⊢
  obtain ⟨⟨⟨⟨⟨⟨h1, -⟩, -⟩, h2⟩, h3⟩, h4⟩, h5⟩ := h
  exact ⟨⟨⟨⟨⟨⟨h1, hvalid⟩, by rw [hdup]; rfl⟩, h2⟩, h3⟩, h4⟩, h5⟩

theorem admitted_facts (opaqueCharacter : JsString → Bool) (nfc : JsString → JsString) (input : PolicyEvaluationInput)
    (h : validateEvaluationInput opaqueCharacter nfc input = true) :
    input.facts.all validFact = true ∧ (input.facts.map PolicyFactInput.factId).Nodup := by
  simp only [validateEvaluationInput, Bool.and_eq_true, Bool.not_eq_true', hasDuplicates_eq_false] at h
  obtain ⟨⟨⟨⟨⟨⟨-, hvalid⟩, hnodup⟩, -⟩, -⟩, -⟩, -⟩ := h
  exact ⟨hvalid, hnodup⟩

theorem weakened_admitted (opaqueCharacter : JsString → Bool) (nfc : JsString → JsString) (input : PolicyEvaluationInput)
    (id : JsString) (w : Weakening) (h : validateEvaluationInput opaqueCharacter nfc input = true) :
    validateEvaluationInput opaqueCharacter nfc (weakened input id w) = true := by
  obtain ⟨hvalid, hnodup⟩ := admitted_facts opaqueCharacter nfc input h
  rw [List.all_eq_true] at hvalid
  cases w with
  | removed =>
    refine validateEvaluationInput_facts opaqueCharacter nfc input _ ?_ ?_ h
    · rw [List.all_eq_true]
      exact fun fact hfact => hvalid fact (List.mem_of_mem_filter hfact)
    · exact (List.filter_sublist.map PolicyFactInput.factId).nodup hnodup
  | reclassed truthClass =>
    refine validateEvaluationInput_facts opaqueCharacter nfc input _ ?_ ?_ h
    · rw [List.all_eq_true]
      intro fact hfact
      obtain ⟨g, hg, rfl⟩ := List.mem_map.mp hfact
      rw [validFact, reclass_factId]
      exact hvalid g hg
    · rw [List.map_map]
      have hsame : PolicyFactInput.factId ∘ reclass id truthClass = PolicyFactInput.factId :=
        funext fun fact => reclass_factId id truthClass fact
      rw [hsame]
      exact hnodup

theorem factOf_reclassed (id i : JsString) (truthClass : RuntimeTruthClass) :
    factOf (weakened input id (.reclassed truthClass)) i = (factOf input i).map (reclass id truthClass) := by
  show (input.facts.map (reclass id truthClass)).find? _ = _
  rw [List.find?_map]
  congr 2
  funext fact
  simp only [Function.comp_apply, reclass_factId]

theorem factOf_factId (i : JsString) (fact : PolicyFactInput) (h : factOf input i = some fact) : fact.factId = i := by
  simpa using List.find?_some h

theorem evidenceFault_other (id i : JsString) (truthClass : RuntimeTruthClass)
    (hne : i ≠ id) : evidenceFault (weakened input id (.reclassed truthClass)) i = evidenceFault input i := by
  unfold evidenceFault
  rw [factOf_reclassed]
  cases hfact : factOf input i with
  | none => rfl
  | some fact =>
    have hid : fact.factId ≠ id := factOf_factId input i fact hfact ▸ hne
    rw [Option.map_some, reclass, if_neg hid]

theorem ruleMatches_reclassed (id : JsString) (truthClass : RuntimeTruthClass)
    (rule : PolicyRule) : ruleMatches (weakened input id (.reclassed truthClass)) rule = ruleMatches input rule := by
  unfold ruleMatches
  simp only [factOf_reclassed, Option.isSome_map]

section Weakened
variable (input : PolicyEvaluationInput) (fact : PolicyFactInput) (hnodup : (input.facts.map PolicyFactInput.factId).Nodup)
  (hfact : fact ∈ input.facts)
include hnodup hfact

theorem factOf_mem : factOf input fact.factId = some fact := find_key_of_mem PolicyFactInput.factId input.facts hnodup fact hfact

theorem mem_facts_iff (P : PolicyFactInput → Prop) :
    (∀ g ∈ input.facts, P g) ↔ P fact ∧ ∀ g ∈ (without input fact.factId).facts, P g := by
  have hsame (g : PolicyFactInput) (hg : g ∈ input.facts) (hid : g.factId = fact.factId) : g = fact :=
    List.inj_on_of_nodup_map hnodup hg hfact hid
  constructor
  · exact fun h => ⟨h fact hfact, fun g hg => h g (List.mem_of_mem_filter hg)⟩
  · rintro ⟨hp, hrest⟩ g hg
    by_cases hid : g.factId = fact.factId
    · rw [hsame g hg hid]
      exact hp
    · exact hrest g (List.mem_filter.mpr ⟨hg, by simpa using hid⟩)

theorem computed_split (fold : SliceFold) :
    level (assessRisk input fold).computedTier =
      max (factLevel fold fact) (level (assessRisk (without input fact.factId) fold).computedTier) := by
  refine eq_of_forall_ge_iff fun n => ?_
  rw [max_le_iff, computed_le, computed_le, mem_facts_iff input fact hnodup hfact fun g => factLevel fold g ≤ n]

theorem computed_reclassed (fold : SliceFold) (truthClass : RuntimeTruthClass) (hweak : strongTruth truthClass = false) :
    (assessRisk (weakened input fact.factId (.reclassed truthClass)) fold).computedTier
      = (assessRisk (without input fact.factId) fold).computedTier := by
  refine level_inj _ _ (eq_of_forall_ge_iff fun n => ?_)
  rw [computed_le, computed_le]
  have hmap : (∀ g ∈ (weakened input fact.factId (.reclassed truthClass)).facts, factLevel fold g ≤ n) ↔
      ∀ g ∈ input.facts, factLevel fold (reclass fact.factId truthClass g) ≤ n := List.forall_mem_map
  rw [hmap, mem_facts_iff input fact hnodup hfact fun g => factLevel fold (reclass fact.factId truthClass g) ≤ n]
  have hzero : factLevel fold (reclass fact.factId truthClass fact) = 0 := by simp [factLevel, reclass, hweak]
  constructor
  · rintro ⟨-, h⟩ g hg
    have hid : g.factId ≠ fact.factId := by simpa using (List.mem_filter.mp hg).2
    have := h g hg
    rwa [reclass, if_neg hid] at this
  · intro h
    refine ⟨by omega, fun g hg => ?_⟩
    have hid : g.factId ≠ fact.factId := by simpa using (List.mem_filter.mp hg).2
    rw [reclass, if_neg hid]
    exact h g hg

end Weakened

/-- Everything but the one fact allows. -/
structure PassesWithout (input : PolicyEvaluationInput) (fact : PolicyFactInput) : Prop where
  evidence : ∀ id ∈ requiredIds input, id ≠ fact.factId → evidenceFault input id = none
  rules : ∀ rule ∈ (foldSlices input).rules, ruleMatches input rule = true → rule.effect = .ALLOW
  classified : (assessRisk (without input fact.factId) (foldSlices input)).computedTier ≠ none
  relaxed : (foldSlices input).relaxed = false
  tier : automatic (foldSlices input).optIns input.action
    (assessRisk (without input fact.factId) (foldSlices input)).effectiveTier = true

/-- A required fact without a tier of its own stops counting when it is no longer strong: it was unknown before, or
the chain classifies it at a tier that is not approved automatically. -/
structure Loosens (input : PolicyEvaluationInput) (fact : PolicyFactInput) (truthClass : RuntimeTruthClass) : Prop where
  untiered : fact.tier = none
  known : truthClass ≠ .UNKNOWN
  others : PassesWithout input fact
  before : fact.truthClass = .UNKNOWN ∨ (strongTruth fact.truthClass = true ∧
    automatic (foldSlices input).optIns input.action
      (maxTier (assessRisk (without input fact.factId) (foldSlices input)).effectiveTier
        (declaredTier (foldSlices input) fact.factId)) = false)

section Loosening
variable (input : PolicyEvaluationInput) (fact : PolicyFactInput) (hnodup : (input.facts.map PolicyFactInput.factId).Nodup)
  (hfact : fact ∈ input.facts) (hrequired : fact.factId ∈ requiredIds input)
include hnodup hfact hrequired

omit hnodup hfact in
theorem passes_removed : ¬ Passes (weakened input fact.factId .removed) := by
  intro h
  have hmissing : factOf (without input fact.factId) fact.factId = none := by
    refine List.find?_eq_none.mpr fun g hg => ?_
    simpa using (List.mem_filter.mp hg).2
  have hfault := h.evidence fact.factId hrequired
  rw [evidenceFault] at hfault
  rw [show factOf (weakened input fact.factId .removed) fact.factId = none from hmissing] at hfault
  cases hfault

theorem passes_reclassed_iff (truthClass : RuntimeTruthClass) (hweak : strongTruth truthClass = false) :
    Passes (weakened input fact.factId (.reclassed truthClass)) ↔
      fact.tier = none ∧ truthClass ≠ .UNKNOWN ∧ PassesWithout input fact := by
  have hfold : foldSlices (weakened input fact.factId (.reclassed truthClass)) = foldSlices input := rfl
  have hrisk := computed_reclassed input fact hnodup hfact (foldSlices input) truthClass hweak
  have heffective : (assessRisk (weakened input fact.factId (.reclassed truthClass)) (foldSlices input)).effectiveTier
      = (assessRisk (without input fact.factId) (foldSlices input)).effectiveTier := by
    rw [effective_eq, effective_eq, hrisk]
    rfl
  have hself : evidenceFault (weakened input fact.factId (.reclassed truthClass)) fact.factId = none ↔
      fact.tier = none ∧ truthClass ≠ .UNKNOWN := by
    rw [evidenceFault, factOf_reclassed, factOf_mem input fact hnodup hfact, Option.map_some, reclass, if_pos rfl]
    cases htier : fact.tier <;> by_cases hu : truthClass = .UNKNOWN <;> simp [hweak, hu]
  constructor
  · intro h
    obtain ⟨htier, hknown⟩ := hself.mp (h.evidence fact.factId hrequired)
    refine ⟨htier, hknown, fun id hid hne => ?_, fun rule hrule hmatch => ?_, ?_, ?_, ?_⟩
    · rw [← evidenceFault_other input fact.factId id truthClass hne]
      exact h.evidence id hid
    · exact h.rules rule hrule (by rwa [ruleMatches_reclassed])
    · have hclassified := h.classified
      rwa [hfold, hrisk] at hclassified
    · exact h.relaxed
    · have htier := h.tier
      rwa [hfold, heffective] at htier
  · rintro ⟨htier, hknown, h⟩
    refine ⟨fun id hid => ?_, fun rule hrule hmatch => ?_, ?_, h.relaxed, ?_⟩
    · by_cases hne : id = fact.factId
      · rw [hne]
        exact hself.mpr ⟨htier, hknown⟩
      · rw [evidenceFault_other input fact.factId id truthClass hne]
        exact h.evidence id hid hne
    · exact h.rules rule hrule (by rwa [ruleMatches_reclassed] at hmatch)
    · rw [hfold, hrisk]
      exact h.classified
    · rw [hfold, heffective]
      exact h.tier

omit hrequired in
theorem effective_split (h : PassesWithout input fact) :
    (assessRisk input (foldSlices input)).computedTier ≠ none
      ∧ level (assessRisk input (foldSlices input)).effectiveTier =
        max (level (assessRisk (without input fact.factId) (foldSlices input)).effectiveTier)
          (factLevel (foldSlices input) fact) := by
  have hsplit := computed_split input fact hnodup hfact (foldSlices input)
  have hwithout := level_effective (without input fact.factId) (foldSlices input) h.classified
  have hpositive := (level_eq_zero _).not.mpr h.classified
  have hclassified : (assessRisk input (foldSlices input)).computedTier ≠ none := by
    rw [ne_eq, ← level_eq_zero, hsplit]
    omega
  refine ⟨hclassified, ?_⟩
  rw [level_effective input (foldSlices input) hclassified, hwithout, hsplit]
  show max (max _ _) (level input.callerRiskHint) = max (max _ (level input.callerRiskHint)) _
  omega

theorem passes_iff_untiered (htier : fact.tier = none) (h : PassesWithout input fact) :
    Passes input ↔ fact.truthClass ≠ .UNKNOWN ∧ (strongTruth fact.truthClass = true →
      automatic (foldSlices input).optIns input.action
        (maxTier (assessRisk (without input fact.factId) (foldSlices input)).effectiveTier
          (declaredTier (foldSlices input) fact.factId)) = true) := by
  obtain ⟨hclassified, hlevel⟩ := effective_split input fact hnodup hfact h
  have hself : evidenceFault input fact.factId = none ↔ fact.truthClass ≠ .UNKNOWN := by
    rw [evidenceFault, factOf_mem input fact hnodup hfact]
    by_cases hu : fact.truthClass = .UNKNOWN <;> simp [hu, htier]
  have hstrong (hs : strongTruth fact.truthClass = true) : (assessRisk input (foldSlices input)).effectiveTier =
      maxTier (assessRisk (without input fact.factId) (foldSlices input)).effectiveTier
        (declaredTier (foldSlices input) fact.factId) := by
    refine level_inj _ _ ?_
    rw [hlevel, level_maxTier, factLevel, if_pos hs, htier]
    rfl
  have hweak (hs : strongTruth fact.truthClass = false) : (assessRisk input (foldSlices input)).effectiveTier =
      (assessRisk (without input fact.factId) (foldSlices input)).effectiveTier := by
    refine level_inj _ _ ?_
    rw [hlevel, factLevel, hs]
    simp
  constructor
  · intro hp
    refine ⟨hself.mp (hp.evidence fact.factId hrequired), fun hs => ?_⟩
    rw [← hstrong hs]
    exact hp.tier
  · rintro ⟨hknown, hauto⟩
    refine ⟨fun id hid => ?_, h.rules, hclassified, h.relaxed, ?_⟩
    · by_cases hne : id = fact.factId
      · rw [hne]
        exact hself.mpr hknown
      · exact h.evidence id hid hne
    · cases hs : strongTruth fact.truthClass with
      | true =>
        rw [hstrong hs]
        exact hauto hs
      | false =>
        rw [hweak hs]
        exact h.tier

end Loosening

/-- Weaker evidence for a required fact loosens a decision exactly when `Loosens` describes it. -/
theorem weakened_decision_iff (opaqueCharacter : JsString → Bool) (nfc : JsString → JsString)
    (input : PolicyEvaluationInput) (fact : PolicyFactInput) (w : Weakening)
    (hadmitted : validateEvaluationInput opaqueCharacter nfc input = true) (hfact : fact ∈ input.facts)
    (hrequired : fact.factId ∈ requiredIds input) (hweak : w.weak = true) :
    ∃ before after, evaluatePolicy opaqueCharacter nfc input = some before
      ∧ evaluatePolicy opaqueCharacter nfc (weakened input fact.factId w) = some after
      ∧ ((before.decision ≠ .ALLOW → after.decision ≠ .ALLOW) ↔
        ¬ ∃ truthClass, w = .reclassed truthClass ∧ Loosens input fact truthClass) := by
  have hnodup := (admitted_facts opaqueCharacter nfc input hadmitted).2
  refine ⟨record input, record (weakened input fact.factId w), if_pos hadmitted,
    if_pos (weakened_admitted opaqueCharacter nfc input fact.factId w hadmitted), ?_⟩
  show ((decided input).1 ≠ .ALLOW → (decided (weakened input fact.factId w)).1 ≠ .ALLOW) ↔ _
  rw [ne_eq, ne_eq, decided_allow_iff, decided_allow_iff]
  cases w with
  | removed =>
    have hnone := passes_removed input fact hrequired
    refine ⟨fun _ => ?_, fun _ _ => hnone⟩
    rintro ⟨truthClass, h, -⟩
    cases h
  | reclassed truthClass =>
    have hweak : strongTruth truthClass = false := by simpa [Weakening.weak] using hweak
    have hafter := passes_reclassed_iff input fact hnodup hfact hrequired truthClass hweak
    constructor
    · rintro himp ⟨tc, htc, hl⟩
      cases htc
      refine himp ?_ (hafter.mpr ⟨hl.untiered, hl.known, hl.others⟩)
      intro hpasses
      obtain ⟨hu, hs⟩ := (passes_iff_untiered input fact hnodup hfact hrequired hl.untiered hl.others).mp hpasses
      rcases hl.before with hunknown | ⟨hstrong, hmanual⟩
      · exact hu hunknown
      · rw [hs hstrong] at hmanual
        cases hmanual
    · intro hnot hbefore hpasses
      obtain ⟨htier, hknown, hothers⟩ := hafter.mp hpasses
      refine hnot ⟨truthClass, rfl, htier, hknown, hothers, ?_⟩
      by_contra hcontra
      rw [not_or, not_and] at hcontra
      refine hbefore ((passes_iff_untiered input fact hnodup hfact hrequired htier hothers).mpr ⟨hcontra.1, fun hstrong => ?_⟩)
      simpa using hcontra.2 hstrong

def wipeFact (truthClass : RuntimeTruthClass) : PolicyFactInput := ⟨lit "fact.wipes_data", none, truthClass⟩

def optIn : PolicyAutoApprovalOptIn := ⟨lit "repo.apply", .R0⟩

def rootSlice : PolicySlice :=
  ⟨[optIn], some [⟨lit "fact.wipes_data", .R3⟩], [⟨.ALLOW, [], [lit "fact.wipes_data"], lit "rule.apply"⟩], lit "slice.root"⟩

def digest (c : Char) : JsString := List.replicate 64 (Fin.ofNat 65536 c.toNat)

def applyInput (truthClass : RuntimeTruthClass) (chain : List PolicySlice) : PolicyEvaluationInput :=
  { action := lit "repo.apply", actor := lit "agent.1", callerRiskHint := none, decisionDigest := digest 'a',
    evaluatedAtEpochMs := 1000, evaluatorVersion := lit "v1",
    facts := [wipeFact truthClass, ⟨lit "fact.read_only", some .R0, .DAEMON_VERIFIED⟩], graphNodeRevisionRefs := [],
    policyRevisionRef := digest 'b', requiredFactIds := [], scope := [], sliceChain := chain, waivers := [] }

def WipeWeakened (weakening : Weakening) : Prop :=
  ∃ before after, evaluatePolicy (fun _ => false) id (applyInput .DAEMON_VERIFIED [rootSlice]) = some before
    ∧ evaluatePolicy (fun _ => false) id (weakened (applyInput .DAEMON_VERIFIED [rootSlice]) (lit "fact.wipes_data")
      weakening) = some after
    ∧ ((before.decision ≠ .ALLOW → after.decision ≠ .ALLOW) ↔
      ¬ ∃ truthClass, weakening = .reclassed truthClass
        ∧ Loosens (applyInput .DAEMON_VERIFIED [rootSlice]) (wipeFact .DAEMON_VERIFIED) truthClass)

theorem weakened_decision_wipe : WipeWeakened .removed ∧ WipeWeakened (.reclassed .OBSERVED) :=
  ⟨weakened_decision_iff (fun _ => false) id (applyInput .DAEMON_VERIFIED [rootSlice]) (wipeFact .DAEMON_VERIFIED) .removed
      (by decide +kernel) (by decide +kernel) (by decide +kernel) rfl,
    weakened_decision_iff (fun _ => false) id (applyInput .DAEMON_VERIFIED [rootSlice]) (wipeFact .DAEMON_VERIFIED)
      (.reclassed .OBSERVED) (by decide +kernel) (by decide +kernel) (by decide +kernel) rfl⟩

/-- The destructive fact loses its attestation, and with it the tier that kept the action from being approved. -/
theorem observed_wipe_allowed :
    wipeFact .DAEMON_VERIFIED ∈ (applyInput .DAEMON_VERIFIED [rootSlice]).facts
      ∧ (wipeFact .DAEMON_VERIFIED).factId ∈ requiredIds (applyInput .DAEMON_VERIFIED [rootSlice])
      ∧ strongTruth .OBSERVED = false
      ∧ (evaluatePolicy (fun _ => false) id (applyInput .DAEMON_VERIFIED [rootSlice])).map PolicyDecisionRecord.decision
        = some .REQUIRE_HUMAN_APPROVAL
      ∧ (evaluatePolicy (fun _ => false) id (weakened (applyInput .DAEMON_VERIFIED [rootSlice])
        (wipeFact .DAEMON_VERIFIED).factId (.reclassed .OBSERVED))).map PolicyDecisionRecord.decision = some .ALLOW := by
  decide +kernel

end MoeNG.Core.Policy
