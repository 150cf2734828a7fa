import MoeNG.Core.PolicyAllow

/-!
# Hard obligations

A chain that relaxes nothing keeps every hard obligation in the last version
of the rule that declared it. The record then loses it only where a later
declaration of the same id is soft.
-/

namespace MoeNG.Core.Policy
open MoeNG.Kernel MoeNG.Lib

def DeclaredHard (input : PolicyEvaluationInput) (obligationId : JsString) : Prop :=
  ∃ slice ∈ input.sliceChain, ∃ rule ∈ slice.rules, ⟨.HARD, obligationId⟩ ∈ rule.obligations

/-- The last version of each rule, in the order in which their ids are first declared. -/
def lastVersions (chain : List PolicySlice) : List PolicyRule :=
  (declarations PolicyRule.ruleId id (chainRules chain)).entries.map Prod.snd

/-- Among the last versions of the rules, the last declaration of the id is soft. -/
def Softened (input : PolicyEvaluationInput) (obligationId : JsString) : Prop :=
  ∃ front back, (lastVersions input.sliceChain).flatMap PolicyRule.obligations = front ++ ⟨.SOFT, obligationId⟩ :: back
    ∧ ∀ obligation ∈ back, obligation.obligationId ≠ obligationId

/-- The two obligations that come with the highest tier. -/
def CoreHard (input : PolicyEvaluationInput) (obligationId : JsString) : Prop :=
  (obligationId = lit "core.decision_reason_required" ∨ obligationId = lit "core.step_up_authentication_required")
    ∧ Weighs input .R3

section Obligations
variable {input : PolicyEvaluationInput}

theorem hard_kept (hunrelaxed : Unrelaxed input input.sliceChain) (obligationId : JsString)
    (h : DeclaredHard input obligationId) :
    ⟨.HARD, obligationId⟩ ∈ (lastVersions input.sliceChain).flatMap PolicyRule.obligations := by
  obtain ⟨slice, hslice, rule, hrule, hhard⟩ := h
  obtain ⟨kept, hget, hkept⟩ := declarations_keep PolicyRule.ruleId id (Tightens input) hunrelaxed.rules rule
    (List.mem_flatMap.mpr ⟨slice, hslice, hrule⟩)
  have hmem : kept ∈ lastVersions input.sliceChain :=
    List.mem_map_of_mem (f := Prod.snd) (OrdMap.mem_entries_of_get _ _ _ hget)
  refine List.mem_flatMap.mpr ⟨kept, hmem, ?_⟩
  rcases hkept with rfl | htightens
  · exact hhard
  · rcases htightens.obligations _ hhard with ⟨kind, hkind, hle⟩ | ⟨hsoft, -⟩
    · obtain rfl : kind = .HARD := by
        cases kind with
        | HARD => rfl
        | SOFT => exact absurd hle (show ¬ kindRank .HARD ≤ kindRank .SOFT by decide)
      exact childKind_mem kept obligationId .HARD hkind
    · cases hsoft

theorem mem_coreObligations (tier : Option PolicyRiskTier) (obligationId : JsString) :
    ⟨.HARD, obligationId⟩ ∈ coreObligations tier ↔ tier = some .R3
      ∧ (obligationId = lit "core.decision_reason_required" ∨ obligationId = lit "core.step_up_authentication_required") := by
  unfold coreObligations
  split
  · rename_i h
    simp [h]
  · rename_i h
    simp [not_not.mp h]

theorem coreHard_iff (hsettled : Settled input) (obligationId : JsString) :
    ⟨.HARD, obligationId⟩ ∈ coreObligations (assessRisk input (foldSlices input)).effectiveTier ↔
      CoreHard input obligationId := by
  have hunrelaxed := (relaxed_eq_false_iff input).mp hsettled.relaxed
  have hclassified := (classified_iff hunrelaxed).mp hsettled.classified
  have hmost (tier : PolicyRiskTier) : tierRank tier ≤ tierRank .R3 := by cases tier <;> decide
  rw [mem_coreObligations, effective_iff hunrelaxed hclassified, and_comm]
  simp only [hmost, implies_true, and_true, CoreHard]

theorem mem_rule_obligations (hsettled : Settled input) (obligation : PolicyObligation) :
    obligation ∈ (assessRules input (foldSlices input).rules).obligations ↔
      (declarations PolicyObligation.obligationId id
        ((lastVersions input.sliceChain).flatMap PolicyRule.obligations)).get obligation.obligationId = some obligation := by
  have hmatched : (foldSlices input).rules.filter (ruleMatches input) = lastVersions input.sliceChain := by
    rw [List.filter_eq_self.mpr fun rule hrule => ruleMatches_complete input rule hrule hsettled.evidence]
    exact foldSlices_rules input
  rw [assessRules, hmatched, (List.mergeSort_perm _ _).mem_iff]
  show obligation ∈ (declarations PolicyObligation.obligationId id _).entries.map Prod.snd ↔ _
  rw [← OrdMap.mem_entries_iff, List.mem_map]
  constructor
  · rintro ⟨⟨k, v⟩, hmem, rfl⟩
    obtain ⟨a, -, rfl, rfl⟩ := declarations_sourced _ _ _ _ _ (OrdMap.get_of_mem_entries _ _ _ hmem)
    exact hmem
  · exact fun hmem => ⟨_, hmem, rfl⟩

theorem not_softened_iff (hunrelaxed : Unrelaxed input input.sliceChain) (obligationId : JsString)
    (h : DeclaredHard input obligationId) :
    (declarations PolicyObligation.obligationId id
      ((lastVersions input.sliceChain).flatMap PolicyRule.obligations)).get obligationId = some ⟨.HARD, obligationId⟩ ↔
      ¬ Softened input obligationId := by
  have hsoft : Softened input obligationId ↔ (declarations PolicyObligation.obligationId id
      ((lastVersions input.sliceChain).flatMap PolicyRule.obligations)).get obligationId = some ⟨.SOFT, obligationId⟩ := by
    rw [declarations_get_iff]
    constructor
    · rintro ⟨front, back, hsplit, hback⟩
      exact ⟨front, _, back, hsplit, rfl, rfl, hback⟩
    · rintro ⟨front, obligation, back, hsplit, -, rfl, hback⟩
      exact ⟨front, back, hsplit, hback⟩
  rw [hsoft]
  obtain ⟨last, hget, -⟩ := declarations_keep PolicyObligation.obligationId id (fun _ _ => True)
    (List.pairwise_of_forall fun _ _ _ => trivial) ⟨.HARD, obligationId⟩ (hard_kept hunrelaxed obligationId h)
  obtain ⟨found, -, hid, hfound⟩ := declarations_sourced _ _ _ _ _ hget
  obtain rfl : found = last := hfound
  obtain ⟨kind, _⟩ := found
  obtain rfl : _ = obligationId := hid
  rw [show (declarations PolicyObligation.obligationId id _).get _ = _ from hget]
  cases kind with
  | HARD => exact iff_of_true rfl (by simp)
  | SOFT => exact iff_of_false (by simp) (by simp)

end Obligations

/-- A hard obligation is lost exactly where the last declaration of its id is soft. -/
theorem hard_obligations_iff (opaqueCharacter : JsString → Bool) (nfc : JsString → JsString) (input : PolicyEvaluationInput)
    (result : PolicyDecisionRecord) (hresult : evaluatePolicy opaqueCharacter nfc input = some result)
    (hdecision : result.decision = .ALLOW ∨ result.decision = .REQUIRE_HUMAN_APPROVAL) :
    (∀ obligationId, DeclaredHard input obligationId → ⟨.HARD, obligationId⟩ ∈ result.obligations) ↔
      ∀ obligationId, DeclaredHard input obligationId → Softened input obligationId → CoreHard input obligationId := by
  obtain ⟨-, hrecord⟩ := Option.ite_none_right_eq_some.mp hresult
  obtain rfl := Option.some.inj hrecord
  have hsettled : Settled input := by
    refine (decided_le_one input).mp ?_
    rcases hdecision with h | h
    · rw [show (decided input).1 = .ALLOW from h]
      decide
    · rw [show (decided input).1 = .REQUIRE_HUMAN_APPROVAL from h]
      decide
  have hunrelaxed := (relaxed_eq_false_iff input).mp hsettled.relaxed
  refine forall_congr' fun obligationId => imp_congr_right fun hdeclared => ?_
  show ⟨.HARD, obligationId⟩ ∈ coreObligations _ ++ (assessRules input (foldSlices input).rules).obligations ↔ _
  rw [List.mem_append, coreHard_iff hsettled, mem_rule_obligations hsettled, not_softened_iff hunrelaxed obligationId hdeclared]
  tauto

def hardRule : PolicyRule := ⟨.ALLOW, [⟨.HARD, lit "two.person.review"⟩], [], lit "rule.review"⟩

def softRule : PolicyRule := ⟨.ALLOW, [⟨.SOFT, lit "two.person.review"⟩], [], lit "rule.release"⟩

def softenedInput : PolicyEvaluationInput := applyInput .OBSERVED [⟨[optIn], none, [hardRule, softRule], lit "slice.root"⟩]

theorem hard_obligations_softened :
    (∀ obligationId, DeclaredHard softenedInput obligationId → ⟨.HARD, obligationId⟩ ∈ (record softenedInput).obligations) ↔
      ∀ obligationId, DeclaredHard softenedInput obligationId → Softened softenedInput obligationId →
        CoreHard softenedInput obligationId :=
  hard_obligations_iff (fun _ => false) id softenedInput (record softenedInput) (if_pos (by decide +kernel))
    (Or.inl (by decide +kernel))

/-- A second rule declares the obligation soft, and the action is allowed without the hard one. -/
theorem hard_obligation_lost :
    softenedInput.waivers = []
      ∧ DeclaredHard softenedInput (lit "two.person.review")
      ∧ evaluatePolicy (fun _ => false) id softenedInput = some (record softenedInput)
      ∧ (record softenedInput).decision = .ALLOW
      ∧ (record softenedInput).obligations = [⟨.SOFT, lit "two.person.review"⟩]
      ∧ ⟨.HARD, lit "two.person.review"⟩ ∉ (record softenedInput).obligations := by
  have hobligations : (record softenedInput).obligations = [⟨.SOFT, lit "two.person.review"⟩] := by decide +kernel
  refine ⟨rfl, ⟨_, List.mem_singleton_self _, hardRule, List.mem_cons_self .., List.mem_singleton_self _⟩,
    if_pos (by decide +kernel), by decide +kernel, hobligations, ?_⟩
  rw [hobligations]
  decide

end MoeNG.Core.Policy
