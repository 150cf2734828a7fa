import MoeNG.Core.PolicyDecision
import MoeNG.Lib.Run

/-!
# Longer chains of slices

What the fold of a chain holds can only grow while no relaxation is reported:
rules keep their effect or get a stronger one, and a classified fact keeps its
tier or gets a higher one.
-/

namespace MoeNG.Core.Policy
open MoeNG.Kernel MoeNG.Lib

/-! ### One slice (`policy-composition.ts:89-171`) -/

structure Grows (f g : Folding) : Prop where
  rules : ∀ id rule, f.rules.get id = some rule →
    ∃ rule', g.rules.get id = some rule' ∧ effectRank rule.effect ≤ effectRank rule'.effect
  declared : ∀ id, level (f.declared.get id) ≤ level (g.declared.get id)

def Keeps (f g : Folding) : Prop := g.relaxed = false → f.relaxed = false ∧ Grows f g

theorem Keeps.refl (f : Folding) : Keeps f f :=
  fun h => ⟨h, fun _ rule hrule => ⟨rule, hrule, le_refl _⟩, fun _ => le_refl _⟩

theorem Keeps.trans {f g k : Folding} (hfg : Keeps f g) (hgk : Keeps g k) : Keeps f k := by
  intro h
  obtain ⟨hg, grules, gdeclared⟩ := hgk h
  obtain ⟨hf, frules, fdeclared⟩ := hfg hg
  refine ⟨hf, fun id rule hrule => ?_, fun id => (fdeclared id).trans (gdeclared id)⟩
  obtain ⟨rule₁, hrule₁, hle₁⟩ := frules id rule hrule
  obtain ⟨rule₂, hrule₂, hle₂⟩ := grules id rule₁ hrule₁
  exact ⟨rule₂, hrule₂, hle₁.trans hle₂⟩

theorem Keeps.foldl {A : Type} (step : Folding → A → Folding) (hstep : ∀ f a, Keeps f (step f a)) (l : List A)
    (f : Folding) : Keeps f (l.foldl step f) :=
  run_invariant step (Keeps f) (fun s a h => h.trans (hstep s a)) f (Keeps.refl f) l

theorem obligationRelaxation_sticky (child : PolicyRule) (input : PolicyEvaluationInput) (verdict : Verdict)
    (obligation : PolicyObligation) (h : verdict.relaxed = true) :
    (obligationRelaxation child input verdict obligation).relaxed = true := by
  unfold obligationRelaxation
  dsimp only
  split
  · exact h
  · split
    · rfl
    · split
      · rfl
      · split
        · rfl
        · exact h

theorem ruleRelaxation_effect (ancestor child : PolicyRule) (input : PolicyEvaluationInput)
    (h : (ruleRelaxation ancestor child input).relaxed = false) : effectRank ancestor.effect ≤ effectRank child.effect := by
  by_contra hlt
  have hsticky := run_invariant (obligationRelaxation child input) (fun v => v.relaxed = true)
    (fun v o hv => obligationRelaxation_sticky child input v o hv)
    ⟨effectRank child.effect < effectRank ancestor.effect
      || ancestor.requiredFactIds.any fun factId => factId ∉ child.requiredFactIds, false⟩
    (by simp [not_le.mp hlt]) ancestor.obligations
  have htrue : (ruleRelaxation ancestor child input).relaxed = true := hsticky
  rw [h] at htrue
  cases htrue

variable (input : PolicyEvaluationInput)

theorem foldRule_keeps (f : Folding) (rule : PolicyRule) : Keeps f (foldRule input f rule) := by
  intro h
  simp only [foldRule, Bool.or_eq_false_iff] at h
  refine ⟨h.1, fun id old hold => ?_, fun id => le_refl _⟩
  by_cases hid : id = rule.ruleId
  · refine ⟨rule, by simp [foldRule, hid], ?_⟩
    have hverdict := h.2
    rw [← hid, hold] at hverdict
    exact ruleRelaxation_effect old rule input hverdict
  · refine ⟨old, ?_, le_refl _⟩
    simpa [foldRule, hid] using hold

theorem foldClassification_keeps (f : Folding) (entry : PolicyRiskClassification) : Keeps f (foldClassification f entry) := by
  intro h
  unfold foldClassification at h ⊢
  split at h
  · cases h
  · rename_i hweaker
    rw [if_neg hweaker]
    refine ⟨h, fun id rule hrule => ⟨rule, hrule, le_refl _⟩, fun id => ?_⟩
    show level (f.declared.get id) ≤ level ((f.declared.set entry.factId entry.tier).get id)
    rw [OrdMap.get_set]
    split
    · rename_i hid
      rw [hid]
      cases hget : f.declared.get entry.factId with
      | none => exact Nat.zero_le _
      | some ancestor =>
        simp only [hget, Option.any_some, decide_eq_true_eq] at hweaker
        simp only [level]
        omega
    · exact le_refl _

theorem foldOptIns_keeps (f : Folding) (optIns : List PolicyAutoApprovalOptIn) : Keeps f (foldOptIns f optIns) := by
  intro h
  simp only [foldOptIns, Bool.or_eq_false_iff] at h
  exact ⟨h.1, fun _ rule hrule => ⟨rule, hrule, le_refl _⟩, fun _ => le_refl _⟩

theorem foldSlice_keeps (f : Folding) (slice : PolicySlice) : Keeps f (foldSlice input f slice) := by
  have hrules := Keeps.foldl (foldRule input) (foldRule_keeps input) slice.rules (foldOptIns f slice.autoApprovalOptIns)
  have hdeclared := Keeps.foldl foldClassification foldClassification_keeps (slice.riskClassifications.getD [])
    (slice.rules.foldl (foldRule input) (foldOptIns f slice.autoApprovalOptIns))
  have hchain := (foldOptIns_keeps f slice.autoApprovalOptIns).trans (hrules.trans hdeclared)
  exact fun h => ⟨(hchain h).1, (hchain h).2.rules, (hchain h).2.declared⟩

/-! ### Where the folded rules and tiers come from -/

def Sourced (pool : List PolicyRule) (f : Folding) : Prop := ∀ id rule, f.rules.get id = some rule → rule ∈ pool

theorem foldRule_sourced (pool : List PolicyRule) (f : Folding) (rule : PolicyRule)
    (hrule : rule ∈ pool) (h : Sourced pool f) : Sourced pool (foldRule input f rule) := by
  intro id old hold
  simp only [foldRule, OrdMap.get_set] at hold
  split at hold
  · cases hold
    exact hrule
  · exact h id old hold

theorem foldRules_sourced (pool rules : List PolicyRule) (f : Folding)
    (hrules : ∀ rule ∈ rules, rule ∈ pool) (h : Sourced pool f) : Sourced pool (rules.foldl (foldRule input) f) := by
  induction rules generalizing f with
  | nil => exact h
  | cons rule rest ih =>
    rw [List.forall_mem_cons] at hrules
    exact ih (foldRule input f rule) hrules.2 (foldRule_sourced input pool f rule hrules.1 h)

theorem foldClassification_rules (f : Folding) (entry : PolicyRiskClassification) :
    (foldClassification f entry).rules = f.rules := by
  unfold foldClassification
  split <;> rfl

theorem foldSlice_sourced (pool : List PolicyRule) (f : Folding) (slice : PolicySlice)
    (hslice : ∀ rule ∈ slice.rules, rule ∈ pool) (h : Sourced pool f) : Sourced pool (foldSlice input f slice) := by
  have hrules := foldRules_sourced input pool slice.rules (foldOptIns f slice.autoApprovalOptIns) hslice h
  exact run_invariant foldClassification (Sourced pool)
    (fun f entry hf => by
      intro id rule hrule
      rw [foldClassification_rules] at hrule
      exact hf id rule hrule)
    _ hrules (slice.riskClassifications.getD [])

theorem folding_sourced : Sourced (input.sliceChain.flatMap PolicySlice.rules) (folding input) := by
  have hgen (pool : List PolicyRule) (chain : List PolicySlice) (f : Folding)
      (hchain : ∀ slice ∈ chain, ∀ rule ∈ slice.rules, rule ∈ pool) (h : Sourced pool f) :
      Sourced pool (chain.foldl (foldSlice input) f) := by
    induction chain generalizing f with
    | nil => exact h
    | cons slice rest ih =>
      rw [List.forall_mem_cons] at hchain
      exact ih (foldSlice input f slice) hchain.2 (foldSlice_sourced input pool f slice hchain.1 h)
  refine hgen _ input.sliceChain emptyFolding (fun slice hslice rule hrule => ?_) (fun id rule hrule => ?_)
  · exact List.mem_flatMap.mpr ⟨slice, hslice, hrule⟩
  · cases hrule

theorem mem_foldSlices_rules (rule : PolicyRule) :
    rule ∈ (foldSlices input).rules ↔ ∃ id, (folding input).rules.get id = some rule := by
  show rule ∈ (folding input).rules.entries.map Prod.snd ↔ _
  simp only [List.mem_map, Prod.exists, exists_eq_right, OrdMap.mem_entries_iff]

theorem declaredTier_eq (factId : JsString) :
    declaredTier (foldSlices input) factId = (folding input).declared.get factId := by
  have hperm : (foldSlices input).classifications.Perm ((folding input).declared.entries.map fun e => ⟨e.1, e.2⟩) :=
    List.mergeSort_perm _ _
  have hnodup : ((foldSlices input).classifications.map PolicyRiskClassification.factId).Nodup := by
    rw [(hperm.map _).nodup_iff, List.map_map]
    exact (folding input).declared.nodup
  have hmem (entry : PolicyRiskClassification) :
      entry ∈ (foldSlices input).classifications ↔ (folding input).declared.get entry.factId = some entry.tier := by
    rw [hperm.mem_iff, ← OrdMap.mem_entries_iff, List.mem_map]
    constructor
    · rintro ⟨e, he, rfl⟩
      exact he
    · exact fun he => ⟨(entry.factId, entry.tier), he, rfl⟩
  cases hget : (folding input).declared.get factId with
  | none =>
    rw [declaredTier, Option.map_eq_none_iff, List.find?_eq_none]
    intro entry hentry hid
    rw [decide_eq_true_eq] at hid
    rw [hmem, hid, hget] at hentry
    cases hentry
  | some tier =>
    have hfind := find_key_of_mem PolicyRiskClassification.factId _ hnodup ⟨factId, tier⟩ ((hmem ⟨factId, tier⟩).mpr hget)
    rw [declaredTier]
    exact congrArg (Option.map PolicyRiskClassification.tier) hfind

/-! ### A longer chain -/

def extended (input : PolicyEvaluationInput) (suffix : List PolicySlice) : PolicyEvaluationInput :=
  { input with sliceChain := input.sliceChain ++ suffix }

section Extended
variable (input : PolicyEvaluationInput) (suffix : List PolicySlice)

theorem extended_keeps : Keeps (folding input) (folding (extended input suffix)) := by
  have hfold : folding (extended input suffix) = suffix.foldl (foldSlice input) (folding input) :=
    List.foldl_append
  rw [hfold]
  exact Keeps.foldl (foldSlice input) (foldSlice_keeps input) suffix (folding input)

theorem requiredIds_extended (id : JsString) (h : id ∈ requiredIds input) : id ∈ requiredIds (extended input suffix) := by
  simp only [requiredIds, extended, List.flatMap_append, List.mem_append] at h ⊢
  tauto

theorem ruleMatches_complete (rule : PolicyRule) (hrule : rule ∈ (foldSlices input).rules)
    (h : ∀ id ∈ requiredIds input, evidenceFault input id = none) : ruleMatches input rule = true := by
  obtain ⟨id, hget⟩ := (mem_foldSlices_rules input rule).mp hrule
  obtain ⟨slice, hslice, hmem⟩ := List.mem_flatMap.mp (folding_sourced input id rule hget)
  refine List.all_eq_true.mpr fun factId hfactId => ?_
  have hrequired : factId ∈ requiredIds input :=
    List.mem_append_right _ (List.mem_flatMap.mpr ⟨slice, hslice, List.mem_flatMap.mpr ⟨rule, hmem, hfactId⟩⟩)
  have hfault := h factId hrequired
  rw [evidenceFault] at hfault
  cases hfact : factOf input factId with
  | none =>
    rw [hfact] at hfault
    cases hfault
  | some fact => rfl

variable (hrelaxed : (foldSlices (extended input suffix)).relaxed = false)
include hrelaxed

theorem extended_relaxed : (foldSlices input).relaxed = false := (extended_keeps input suffix hrelaxed).1

theorem extended_rule (rule : PolicyRule) (hrule : rule ∈ (foldSlices input).rules) :
    ∃ rule' ∈ (foldSlices (extended input suffix)).rules, effectRank rule.effect ≤ effectRank rule'.effect := by
  obtain ⟨id, hget⟩ := (mem_foldSlices_rules input rule).mp hrule
  obtain ⟨rule', hget', hle⟩ := (extended_keeps input suffix hrelaxed).2.rules id rule hget
  exact ⟨rule', (mem_foldSlices_rules _ rule').mpr ⟨id, hget'⟩, hle⟩

theorem extended_computed : level (assessRisk input (foldSlices input)).computedTier ≤
    level (assessRisk (extended input suffix) (foldSlices (extended input suffix))).computedTier := by
  refine (computed_le input (foldSlices input) _).mpr fun fact hfact => ?_
  have hself := (computed_le (extended input suffix) (foldSlices (extended input suffix)) _).mp (le_refl _) fact hfact
  refine le_trans ?_ hself
  have hgrow := (extended_keeps input suffix hrelaxed).2.declared fact.factId
  rw [← declaredTier_eq, ← declaredTier_eq] at hgrow
  unfold factLevel
  split
  · rw [level_maxTier, level_maxTier]
    omega
  · exact le_refl _

end Extended

/-! ### The order of decisions -/

theorem outcomeRank_dominant (a b : PolicyOutcome) : outcomeRank (dominant a b) = max (outcomeRank a) (outcomeRank b) := by
  cases a <;> cases b <;> decide

theorem foldl_dominant_le (rules : List PolicyRule) (o : PolicyOutcome) (n : ℕ) :
    outcomeRank (rules.foldl (fun outcome rule => dominant outcome rule.effect.outcome) o) ≤ n ↔
      outcomeRank o ≤ n ∧ ∀ rule ∈ rules, outcomeRank rule.effect.outcome ≤ n := by
  induction rules generalizing o with
  | nil => simp
  | cons rule rest ih => rw [List.foldl_cons, ih, outcomeRank_dominant, max_le_iff, List.forall_mem_cons, and_assoc]

/-- No matched rule denies and no relaxation is reported. -/
structure Undenied (input : PolicyEvaluationInput) : Prop where
  rules : ∀ rule ∈ (foldSlices input).rules, ruleMatches input rule = true → rule.effect ≠ .DENY
  relaxed : (foldSlices input).relaxed = false

/-- Nothing is denied and nothing is unknown. -/
structure Settled (input : PolicyEvaluationInput) : Prop extends Undenied input where
  evidence : ∀ id ∈ requiredIds input, evidenceFault input id = none
  classified : (assessRisk input (foldSlices input)).computedTier ≠ none

section Order
variable (input : PolicyEvaluationInput)

theorem decided_le_iff (n : ℕ) :
    outcomeRank (decided input).1 ≤ n ↔ outcomeRank (assessEvidence input).1 ≤ n
      ∧ (∀ rule ∈ (foldSlices input).rules, ruleMatches input rule = true → outcomeRank rule.effect.outcome ≤ n)
      ∧ (if unclassifiable (assessRisk input (foldSlices input)) then 2 else 0) ≤ n
      ∧ (if (foldSlices input).relaxed then 3 else 0) ≤ n
      ∧ outcomeRank (assessTier (assessRisk input (foldSlices input)).effectiveTier (foldSlices input) input.action).1 ≤ n := by
  have hunclassified : outcomeRank (if unclassifiable (assessRisk input (foldSlices input)) then .HOLD_UNKNOWN else .ALLOW)
      = if unclassifiable (assessRisk input (foldSlices input)) then 2 else 0 := by
    split <;> rfl
  have hrelaxed : outcomeRank (if (foldSlices input).relaxed then .DENY else .ALLOW)
      = if (foldSlices input).relaxed then 3 else 0 := by
    split <;> rfl
  have hrules : outcomeRank (assessRules input (foldSlices input).rules).outcome ≤ n ↔
      ∀ rule ∈ (foldSlices input).rules, ruleMatches input rule = true → outcomeRank rule.effect.outcome ≤ n := by
    simp only [assessRules, foldl_dominant_le, List.mem_filter, and_imp]
    exact ⟨fun h => h.2, fun h => ⟨Nat.zero_le n, h⟩⟩
  simp only [decided, outcomeRank_dominant, max_le_iff, hrules, hunclassified, hrelaxed]
  tauto

theorem assessEvidence_le_one : outcomeRank (assessEvidence input).1 ≤ 1 ↔
    ∀ id ∈ requiredIds input, evidenceFault input id = none := by
  simp only [assessEvidence, List.length_eq_zero_iff, List.filterMap_eq_nil_iff]
  split <;> simp_all [outcomeRank]

theorem assessEvidence_le_two : outcomeRank (assessEvidence input).1 ≤ 2 := by
  simp only [assessEvidence]
  split <;> decide

theorem assessTier_le_one (tier : Option PolicyRiskTier) (fold : SliceFold) (action : JsString) :
    outcomeRank (assessTier tier fold action).1 ≤ 1 := by
  unfold assessTier
  split
  · decide
  · split
    · decide
    · split <;> decide

theorem effect_le (effect : PolicyRuleEffect) (n : ℕ) (hone : 1 ≤ n) (htwo : n ≤ 2) :
    outcomeRank effect.outcome ≤ n ↔ effect ≠ .DENY := by
  cases effect with
  | ALLOW => exact ⟨fun _ => nofun, fun _ => Nat.zero_le n⟩
  | REQUIRE_HUMAN_APPROVAL => exact ⟨fun _ => nofun, fun _ => hone⟩
  | DENY =>
    simp only [PolicyRuleEffect.outcome, outcomeRank, ne_eq, not_true, iff_false]
    omega

theorem decided_le_one : outcomeRank (decided input).1 ≤ 1 ↔ Settled input := by
  rw [decided_le_iff, assessEvidence_le_one]
  simp only [effect_le _ 1 (le_refl _) (by decide), assessTier_le_one, and_true]
  constructor
  · rintro ⟨hevidence, hrules, hclassified, hrelaxed⟩
    refine ⟨⟨hrules, ?_⟩, hevidence, fun hnone => ?_⟩
    · by_contra h
      rw [if_pos (by simpa using h)] at hrelaxed
      omega
    · simp [unclassifiable, hnone] at hclassified
  · intro h
    refine ⟨h.evidence, h.rules, ?_, ?_⟩
    · simp [unclassifiable, h.classified]
    · simp [h.relaxed]

theorem decided_le_two : outcomeRank (decided input).1 ≤ 2 ↔ Undenied input := by
  rw [decided_le_iff]
  simp only [effect_le _ 2 (by decide) (le_refl _), (assessTier_le_one _ _ _).trans (by decide : 1 ≤ 2),
    assessEvidence_le_two, and_true, true_and]
  constructor
  · rintro ⟨hrules, -, hrelaxed⟩
    refine ⟨hrules, ?_⟩
    by_contra h
    rw [if_pos (by simpa using h)] at hrelaxed
    omega
  · intro h
    refine ⟨h.rules, ?_, ?_⟩
    · split <;> decide
    · simp [h.relaxed]

theorem decided_le_zero : outcomeRank (decided input).1 ≤ 0 ↔ Passes input := by
  rw [← decided_allow_iff]
  cases (decided input).1 <;> decide

theorem decided_le_three : outcomeRank (decided input).1 ≤ 3 := by
  cases (decided input).1 <;> decide

end Order

/-! ### What a suffix does to the decision -/

/-- The whole chain allows, but the prefix does not approve its tier automatically: a later slice opted the action in
again after the prefix had dropped the opt-in. -/
structure Reopens (input : PolicyEvaluationInput) (suffix : List PolicySlice) : Prop where
  evidence : ∀ id ∈ requiredIds (extended input suffix), evidenceFault input id = none
  rules : ∀ rule ∈ (foldSlices (extended input suffix)).rules, rule.effect = .ALLOW
  relaxed : (foldSlices (extended input suffix)).relaxed = false
  automatic : automatic (foldSlices (extended input suffix)).optIns input.action
    (assessRisk input (foldSlices (extended input suffix))).effectiveTier = true
  manual : Policy.automatic (foldSlices input).optIns input.action (assessRisk input (foldSlices input)).effectiveTier = false

/-- A denying rule of the prefix matches, and the suffix has it require facts that the input lacks. -/
structure Unmatches (input : PolicyEvaluationInput) (suffix : List PolicySlice) : Prop where
  relaxed : (foldSlices (extended input suffix)).relaxed = false
  denied : ∃ rule ∈ (foldSlices input).rules, ruleMatches input rule = true ∧ rule.effect = .DENY
  undenied : ∀ rule ∈ (foldSlices (extended input suffix)).rules, ruleMatches input rule = true → rule.effect ≠ .DENY

section Suffix
variable (input : PolicyEvaluationInput) (suffix : List PolicySlice)
  (hclassified : (assessRisk input (foldSlices input)).computedTier ≠ none)
include hclassified

theorem reopens_iff : Reopens input suffix ↔ Passes (extended input suffix) ∧ ¬ Passes input := by
  constructor
  · intro h
    refine ⟨⟨h.evidence, fun rule hrule _ => h.rules rule hrule, fun hnone => ?_, h.relaxed, h.automatic⟩, fun hp => ?_⟩
    · have hle := extended_computed input suffix h.relaxed
      rw [hnone] at hle
      exact hclassified ((level_eq_zero _).mp (Nat.le_zero.mp hle))
    · have htier := hp.tier
      rw [h.manual] at htier
      cases htier
  · rintro ⟨h, hnot⟩
    have hall (rule : PolicyRule) (hrule : rule ∈ (foldSlices (extended input suffix)).rules) : rule.effect = .ALLOW :=
      h.rules rule hrule (ruleMatches_complete (extended input suffix) rule hrule h.evidence)
    refine ⟨h.evidence, hall, h.relaxed, h.tier, ?_⟩
    by_contra hauto
    refine hnot ⟨fun id hid => h.evidence id (requiredIds_extended input suffix id hid), fun rule hrule _ => ?_,
      hclassified, extended_relaxed input suffix h.relaxed, by simpa using hauto⟩
    obtain ⟨rule', hrule', hle⟩ := extended_rule input suffix h.relaxed rule hrule
    rw [hall rule' hrule'] at hle
    cases heffect : rule.effect with
    | ALLOW => rfl
    | REQUIRE_HUMAN_APPROVAL => simp [heffect, effectRank] at hle
    | DENY => simp [heffect, effectRank] at hle

theorem settled_prefix (h : Settled (extended input suffix)) : Settled input := by
  refine ⟨⟨fun rule hrule _ hdeny => ?_, extended_relaxed input suffix h.relaxed⟩,
    fun id hid => h.evidence id (requiredIds_extended input suffix id hid), hclassified⟩
  obtain ⟨rule', hrule', hle⟩ := extended_rule input suffix h.relaxed rule hrule
  have hundenied := h.rules rule' hrule' (ruleMatches_complete (extended input suffix) rule' hrule' h.evidence)
  rw [hdeny] at hle
  cases heffect : rule'.effect with
  | ALLOW => simp [heffect, effectRank] at hle
  | REQUIRE_HUMAN_APPROVAL => simp [heffect, effectRank] at hle
  | DENY => exact hundenied heffect

omit hclassified in
theorem unmatches_iff : Unmatches input suffix ↔ Undenied (extended input suffix) ∧ ¬ Undenied input := by
  constructor
  · intro h
    obtain ⟨rule, hrule, hmatch, hdeny⟩ := h.denied
    exact ⟨⟨h.undenied, h.relaxed⟩, fun hu => hu.rules rule hrule hmatch hdeny⟩
  · rintro ⟨h, hnot⟩
    refine ⟨h.relaxed, ?_, h.rules⟩
    by_contra hnone
    refine hnot ⟨fun rule hrule hmatch hdeny => hnone ⟨rule, hrule, hmatch, hdeny⟩, extended_relaxed input suffix h.relaxed⟩

theorem decided_suffix_iff : outcomeRank (decided input).1 ≤ outcomeRank (decided (extended input suffix)).1 ↔
    ¬ Reopens input suffix ∧ ¬ Unmatches input suffix := by
  rw [reopens_iff input suffix hclassified, unmatches_iff, ← decided_le_zero, ← decided_le_zero, ← decided_le_two,
    ← decided_le_two]
  have hone : outcomeRank (decided (extended input suffix)).1 ≤ 1 → outcomeRank (decided input).1 ≤ 1 := by
    rw [decided_le_one, decided_le_one]
    exact settled_prefix input suffix hclassified
  have hthree := decided_le_three input
  omega

end Suffix

theorem classified_of_strong (fact : PolicyFactInput) (hfact : fact ∈ input.facts)
    (hstrong : strongTruth fact.truthClass = true)
    (htier : maxTier fact.tier (declaredTier (foldSlices input) fact.factId) ≠ none) :
    (assessRisk input (foldSlices input)).computedTier ≠ none := by
  intro hnone
  have hle := (computed_le input (foldSlices input) 0).mp (by rw [hnone]; rfl) fact hfact
  rw [factLevel, if_pos hstrong, Nat.le_zero, level_eq_zero] at hle
  exact htier hle

theorem admitted_initial (opaqueCharacter : JsString → Bool) (nfc : JsString → JsString) (input : PolicyEvaluationInput)
    (suffix : List PolicySlice) (hchain : input.sliceChain ≠ [])
    (h : validateEvaluationInput opaqueCharacter nfc (extended input suffix) = true) :
    validateEvaluationInput opaqueCharacter nfc input = true := by
  simp only [validateEvaluationInput, extended, Bool.and_eq_true, List.all_append] at h ⊢
  have hlength : input.sliceChain.length ≠ 0 := fun h0 => hchain (List.length_eq_zero_iff.mp h0)
  simp only [decide_eq_true_eq] at h ⊢
  tauto

/-- A suffix of the chain loosens the decision exactly when it reopens an opt-in or unmatches a denying rule. -/
theorem suffix_decision_iff (opaqueCharacter : JsString → Bool) (nfc : JsString → JsString) (input : PolicyEvaluationInput)
    (suffix : List PolicySlice) (fact : PolicyFactInput)
    (hadmitted : validateEvaluationInput opaqueCharacter nfc (extended input suffix) = true)
    (hchain : input.sliceChain ≠ []) (hfact : fact ∈ input.facts) (hstrong : strongTruth fact.truthClass = true)
    (htier : maxTier fact.tier (declaredTier (foldSlices input) fact.factId) ≠ none) :
    ∃ before after, evaluatePolicy opaqueCharacter nfc input = some before
      ∧ evaluatePolicy opaqueCharacter nfc (extended input suffix) = some after
      ∧ ((after.decision = .ALLOW → before.decision = .ALLOW) ↔ ¬ Reopens input suffix)
      ∧ (outcomeRank before.decision ≤ outcomeRank after.decision ↔ ¬ Reopens input suffix ∧ ¬ Unmatches input suffix) := by
  have hclassified := classified_of_strong input fact hfact hstrong htier
  refine ⟨record input, record (extended input suffix), if_pos (admitted_initial opaqueCharacter nfc input suffix hchain
    hadmitted), if_pos hadmitted, ?_, decided_suffix_iff input suffix hclassified⟩
  show ((decided (extended input suffix)).1 = .ALLOW → (decided input).1 = .ALLOW) ↔ _
  rw [decided_allow_iff, decided_allow_iff, reopens_iff input suffix hclassified, not_and, not_not]

def optInSlice (name : String) (optIns : List PolicyAutoApprovalOptIn) : PolicySlice := ⟨optIns, none, [], lit name⟩

def droppedChain : List PolicySlice := [optInSlice "slice.root" [optIn], optInSlice "slice.middle" []]

theorem suffix_decision_dropped :
    ∃ before after, evaluatePolicy (fun _ => false) id (applyInput .DAEMON_VERIFIED droppedChain) = some before
      ∧ evaluatePolicy (fun _ => false) id (extended (applyInput .DAEMON_VERIFIED droppedChain)
        [optInSlice "slice.child" []]) = some after
      ∧ ((after.decision = .ALLOW → before.decision = .ALLOW) ↔
        ¬ Reopens (applyInput .DAEMON_VERIFIED droppedChain) [optInSlice "slice.child" []])
      ∧ (outcomeRank before.decision ≤ outcomeRank after.decision ↔
        ¬ Reopens (applyInput .DAEMON_VERIFIED droppedChain) [optInSlice "slice.child" []]
          ∧ ¬ Unmatches (applyInput .DAEMON_VERIFIED droppedChain) [optInSlice "slice.child" []]) :=
  suffix_decision_iff (fun _ => false) id (applyInput .DAEMON_VERIFIED droppedChain) [optInSlice "slice.child" []]
    ⟨lit "fact.read_only", some .R0, .DAEMON_VERIFIED⟩ (by decide +kernel) (by decide +kernel) (by decide +kernel) rfl
    (by decide +kernel)

/-- The root opts the action in, the middle slice drops the opt-in, and the child takes it up again. -/
theorem redeclared_optIn_allowed :
    (applyInput .DAEMON_VERIFIED droppedChain).waivers = []
      ∧ (⟨lit "fact.read_only", some .R0, .DAEMON_VERIFIED⟩ : PolicyFactInput) ∈ (applyInput .DAEMON_VERIFIED droppedChain).facts
      ∧ strongTruth .DAEMON_VERIFIED = true
      ∧ (evaluatePolicy (fun _ => false) id (applyInput .DAEMON_VERIFIED droppedChain)).map PolicyDecisionRecord.decision
        = some .REQUIRE_HUMAN_APPROVAL
      ∧ (evaluatePolicy (fun _ => false) id (extended (applyInput .DAEMON_VERIFIED droppedChain)
        [optInSlice "slice.child" [optIn]])).map PolicyDecisionRecord.decision = some .ALLOW := by
  decide +kernel

end MoeNG.Core.Policy
