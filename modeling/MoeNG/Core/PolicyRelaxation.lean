import MoeNG.Core.PolicyDecision
import MoeNG.Lib.MapWrites

/-!
# Chains that relax nothing

The fold of a chain reports no relaxation exactly when every later declaration
of a rule or of a tier is at least as strict as each earlier one, and every
opt-in below the root is covered further up.
-/

namespace MoeNG.Core.Policy
open MoeNG.Kernel MoeNG.Lib

/-! ### One redeclaration (`policy-composition.ts:77-126`) -/

/-- An ancestor's obligation is kept at its strength, or it is soft and waived. -/
def KeepsObligation (input : PolicyEvaluationInput) (child : PolicyRule) (obligation : PolicyObligation) : Prop :=
  (∃ kind, childKind child obligation.obligationId = some kind ∧ kindRank obligation.kind ≤ kindRank kind)
    ∨ (obligation.kind = .SOFT ∧ ∃ waiver ∈ input.waivers, waiverCovers waiver obligation.obligationId input = true)

structure Tightens (input : PolicyEvaluationInput) (ancestor child : PolicyRule) : Prop where
  effect : effectRank ancestor.effect ≤ effectRank child.effect
  facts : ∀ factId ∈ ancestor.requiredFactIds, factId ∈ child.requiredFactIds
  obligations : ∀ obligation ∈ ancestor.obligations, KeepsObligation input child obligation

theorem childKind_mem (child : PolicyRule) (obligationId : JsString) (kind : PolicyObligationKind)
    (h : childKind child obligationId = some kind) : ⟨kind, obligationId⟩ ∈ child.obligations := by
  obtain ⟨entry, hentry, rfl⟩ := Option.map_eq_some_iff.mp h
  have hid : entry.obligationId = obligationId := by simpa using List.find?_some hentry
  rw [← hid]
  exact List.mem_reverse.mp (List.mem_of_find?_eq_some hentry)

theorem kindRank_le_soft (kind : PolicyObligationKind) (h : kindRank kind ≤ kindRank .SOFT) : kind = .SOFT := by
  cases kind with
  | HARD => exact absurd h (by decide)
  | SOFT => rfl

theorem Tightens.trans {input : PolicyEvaluationInput} {a b c : PolicyRule} (hab : Tightens input a b)
    (hbc : Tightens input b c) : Tightens input a c := by
  refine ⟨hab.effect.trans hbc.effect, fun factId h => hbc.facts factId (hab.facts factId h), fun obligation h => ?_⟩
  rcases hab.obligations obligation h with ⟨kind, hkind, hle⟩ | hwaived
  · rcases hbc.obligations _ (childKind_mem b obligation.obligationId kind hkind) with ⟨kind', hkind', hle'⟩ | ⟨hsoft, hwaiver⟩
    · exact Or.inl ⟨kind', hkind', hle.trans hle'⟩
    · obtain rfl : kind = .SOFT := hsoft
      exact Or.inr ⟨kindRank_le_soft _ hle, hwaiver⟩
  · exact Or.inr hwaived

theorem offered_covers_iff (input : PolicyEvaluationInput) (obligationId : JsString) :
    ((input.waivers.filter fun entry => entry.namedObligationId = obligationId).any fun entry =>
      waiverCovers entry obligationId input) = true ↔ ∃ waiver ∈ input.waivers,
        waiverCovers waiver obligationId input = true := by
  simp only [List.any_eq_true, List.mem_filter, decide_eq_true_eq]
  constructor
  · rintro ⟨waiver, ⟨hmem, -⟩, hcovers⟩
    exact ⟨waiver, hmem, hcovers⟩
  · rintro ⟨waiver, hmem, hcovers⟩
    have hnamed : waiver.namedObligationId = obligationId := by
      simp only [waiverCovers, Bool.and_eq_true, decide_eq_true_eq] at hcovers
      exact hcovers.1.1.1
    exact ⟨waiver, ⟨hmem, hnamed⟩, hcovers⟩

theorem obligationRelaxation_relaxed (child : PolicyRule) (input : PolicyEvaluationInput) (verdict : Verdict)
    (obligation : PolicyObligation) :
    (obligationRelaxation child input verdict obligation).relaxed = false ↔
      verdict.relaxed = false ∧ KeepsObligation input child obligation := by
  have hkept : ((childKind child obligation.obligationId).any fun kind => kindRank kind ≥ kindRank obligation.kind) = true ↔
      ∃ kind, childKind child obligation.obligationId = some kind ∧ kindRank obligation.kind ≤ kindRank kind := by
    cases childKind child obligation.obligationId <;> simp
  unfold obligationRelaxation KeepsObligation
  dsimp only
  split
  · rename_i h
    exact (and_iff_left (Or.inl (hkept.mp h))).symm
  · rename_i h
    rw [hkept] at h
    rw [or_iff_right h]
    split
    · rename_i hhard
      simp [hhard]
    · rename_i hhard
      have hsoft : obligation.kind = .SOFT := by
        cases hkind : obligation.kind with
        | HARD => exact absurd hkind hhard
        | SOFT => rfl
      rw [← offered_covers_iff]
      split
      · rename_i hnone
        rw [List.length_eq_zero_iff.mp hnone]
        simp
      · split
        · rename_i hcovers
          simp only [Bool.true_eq_false, false_iff, not_and]
          intro _ _ hcontra
          simp [hcontra] at hcovers
        · rename_i hcovers
          rw [Bool.not_eq_true', Bool.not_eq_false] at hcovers
          simp [hsoft, hcovers]

theorem ruleRelaxation_relaxed (ancestor child : PolicyRule) (input : PolicyEvaluationInput) :
    (ruleRelaxation ancestor child input).relaxed = false ↔ Tightens input ancestor child := by
  have hfold (l : List PolicyObligation) (verdict : Verdict) :
      (l.foldl (obligationRelaxation child input) verdict).relaxed = false ↔
        verdict.relaxed = false ∧ ∀ obligation ∈ l, KeepsObligation input child obligation := by
    induction l generalizing verdict with
    | nil => simp
    | cons obligation rest ih =>
      rw [List.foldl_cons, ih, obligationRelaxation_relaxed, List.forall_mem_cons, and_assoc]
  unfold ruleRelaxation
  dsimp only
  rw [hfold]
  simp only [Bool.or_eq_false_iff, decide_eq_false_iff_not, not_lt, List.any_eq_false, decide_eq_true_eq, not_not]
  exact ⟨fun ⟨⟨h1, h2⟩, h3⟩ => ⟨h1, h2, h3⟩, fun h => ⟨⟨h.effect, h.facts⟩, h.obligations⟩⟩

/-! ### The chain (`policy-composition.ts:128-171`) -/

def chainRules (chain : List PolicySlice) : List PolicyRule := chain.flatMap PolicySlice.rules

def chainClassifications (chain : List PolicySlice) : List PolicyRiskClassification :=
  chain.flatMap fun slice => slice.riskClassifications.getD []

def chainOptIns (chain : List PolicySlice) : List PolicyAutoApprovalOptIn := chain.flatMap PolicySlice.autoApprovalOptIns

def Covered (ancestors : List PolicyAutoApprovalOptIn) (optIns : List PolicyAutoApprovalOptIn) : Prop :=
  ∀ optIn ∈ optIns, ∃ entry ∈ ancestors, entry.action = optIn.action ∧ tierRank optIn.tier ≤ tierRank entry.tier

/-- Nothing in the chain is weaker than what stands before it. -/
structure Unrelaxed (input : PolicyEvaluationInput) (chain : List PolicySlice) : Prop where
  rules : (chainRules chain).Pairwise fun a b => a.ruleId = b.ruleId → Tightens input a b
  classifications : (chainClassifications chain).Pairwise fun a b => a.factId = b.factId → tierRank a.tier ≤ tierRank b.tier
  optIns : ∀ front slice back, chain = front ++ slice :: back → front ≠ [] →
    Covered (chainOptIns front) slice.autoApprovalOptIns

section Folding
variable (input : PolicyEvaluationInput)

theorem foldRules_spec (rules : List PolicyRule) (f : Folding) :
    let g := rules.foldl (foldRule input) f
    g.rules = run (writeItem PolicyRule.ruleId id) f.rules rules
      ∧ (g.declared = f.declared ∧ g.seenOptIns = f.seenOptIns ∧ g.index = f.index)
      ∧ (g.relaxed = false ↔ f.relaxed = false
        ∧ Along (writeItem PolicyRule.ruleId id) (Redeclares PolicyRule.ruleId id (Tightens input)) f.rules rules) := by
  induction rules generalizing f with
  | nil => simp [Along]
  | cons rule rest ih =>
    obtain ⟨hrules, hsame, hrelaxed⟩ := ih (foldRule input f rule)
    refine ⟨hrules, hsame, hrelaxed.trans ?_⟩
    have hone : (foldRule input f rule).relaxed = false ↔
        f.relaxed = false ∧ Redeclares PolicyRule.ruleId id (Tightens input) f.rules rule := by
      simp only [foldRule, Bool.or_eq_false_iff, Redeclares]
      cases f.rules.get rule.ruleId with
      | none => simp
      | some ancestor => simp [ruleRelaxation_relaxed]
    rw [hone, and_assoc]
    rfl

theorem foldClassification_spec (f : Folding) (entry : PolicyRiskClassification) :
    ((foldClassification f entry).relaxed = false ↔ f.relaxed = false
      ∧ Redeclares PolicyRiskClassification.factId PolicyRiskClassification.tier (fun s t => tierRank s ≤ tierRank t)
        f.declared entry)
      ∧ ((foldClassification f entry).relaxed = false → (foldClassification f entry).declared
        = writeItem PolicyRiskClassification.factId PolicyRiskClassification.tier f.declared entry) := by
  unfold foldClassification Redeclares
  split
  · rename_i hweak
    refine ⟨iff_of_false (by simp) ?_, fun h => by simp at h⟩
    rintro ⟨-, h⟩
    cases hget : f.declared.get entry.factId with
    | none => simp [hget] at hweak
    | some ancestor =>
      simp only [hget, Option.any_some, decide_eq_true_eq] at hweak
      have hle := h ancestor hget
      omega
  · rename_i hstrong
    refine ⟨(and_iff_left fun ancestor hget => ?_).symm, fun _ => rfl⟩
    simpa [hget] using hstrong

theorem foldClassifications_spec (entries : List PolicyRiskClassification) (f : Folding) :
    let g := entries.foldl foldClassification f
    (g.rules = f.rules ∧ g.seenOptIns = f.seenOptIns ∧ g.index = f.index)
      ∧ (g.relaxed = false ↔ f.relaxed = false
        ∧ Along (writeItem PolicyRiskClassification.factId PolicyRiskClassification.tier)
          (Redeclares PolicyRiskClassification.factId PolicyRiskClassification.tier fun s t => tierRank s ≤ tierRank t)
          f.declared entries)
      ∧ (g.relaxed = false →
        g.declared = run (writeItem PolicyRiskClassification.factId PolicyRiskClassification.tier) f.declared entries) := by
  induction entries generalizing f with
  | nil => simp [Along]
  | cons entry rest ih =>
    obtain ⟨⟨hrules, hseen, hindex⟩, hrelaxed, hdeclared⟩ := ih (foldClassification f entry)
    obtain ⟨hone, hwrite⟩ := foldClassification_spec f entry
    have hsame : (foldClassification f entry).rules = f.rules ∧ (foldClassification f entry).seenOptIns = f.seenOptIns
        ∧ (foldClassification f entry).index = f.index := by
      unfold foldClassification
      split <;> exact ⟨rfl, rfl, rfl⟩
    refine ⟨⟨hrules.trans hsame.1, hseen.trans hsame.2.1, hindex.trans hsame.2.2⟩, hrelaxed.trans ?_, fun h => ?_⟩
    · rw [Along, hone, and_assoc]
      refine and_congr_right fun hf => and_congr_right fun hentry => ?_
      rw [hwrite (hone.mpr ⟨hf, hentry⟩)]
    · have hmid := (hrelaxed.mp h).1
      rw [hwrite hmid] at hdeclared
      exact hdeclared h

/-- What one slice adds to a fold that it leaves unrelaxed. -/
theorem foldSlice_spec (f : Folding) (slice : PolicySlice) :
    let g := foldSlice input f slice
    (g.rules = run (writeItem PolicyRule.ruleId id) f.rules slice.rules
      ∧ g.seenOptIns = f.seenOptIns ++ slice.autoApprovalOptIns ∧ g.index = f.index + 1)
      ∧ (g.relaxed = false ↔ f.relaxed = false
        ∧ (0 < f.index → Covered f.seenOptIns slice.autoApprovalOptIns)
        ∧ Along (writeItem PolicyRule.ruleId id) (Redeclares PolicyRule.ruleId id (Tightens input)) f.rules slice.rules
        ∧ Along (writeItem PolicyRiskClassification.factId PolicyRiskClassification.tier)
          (Redeclares PolicyRiskClassification.factId PolicyRiskClassification.tier fun s t => tierRank s ≤ tierRank t)
          f.declared (slice.riskClassifications.getD []))
      ∧ (g.relaxed = false → g.declared = run
        (writeItem PolicyRiskClassification.factId PolicyRiskClassification.tier) f.declared
          (slice.riskClassifications.getD [])) := by
  obtain ⟨hrules, ⟨hdeclared, hseen, hindex⟩, hrelaxed⟩ :=
    foldRules_spec input slice.rules (foldOptIns f slice.autoApprovalOptIns)
  obtain ⟨⟨hrules', hseen', hindex'⟩, hrelaxed', hdeclared'⟩ := foldClassifications_spec
    (slice.riskClassifications.getD []) (slice.rules.foldl (foldRule input) (foldOptIns f slice.autoApprovalOptIns))
  have hoptIns : (foldOptIns f slice.autoApprovalOptIns).relaxed = false ↔
      f.relaxed = false ∧ (0 < f.index → Covered f.seenOptIns slice.autoApprovalOptIns) := by
    have hcovered (optIn : PolicyAutoApprovalOptIn) : (!optInCovered optIn f.seenOptIns) = false ↔
        ∃ entry ∈ f.seenOptIns, entry.action = optIn.action ∧ tierRank optIn.tier ≤ tierRank entry.tier := by
      simp [optInCovered]
    simp only [foldOptIns, Bool.or_eq_false_iff, List.any_eq_false, Bool.and_eq_true, decide_eq_true_eq, not_and,
      Bool.not_eq_true, hcovered]
    refine and_congr_right fun _ => ?_
    exact ⟨fun h hi optIn ho => h optIn ho hi, fun h optIn ho hi => h hi optIn ho⟩
  refine ⟨⟨hrules'.trans hrules, hseen'.trans hseen, ?_⟩, ?_, ?_⟩
  · show _ + 1 = f.index + 1
    rw [hindex', hindex]
    rfl
  · rw [hrelaxed, hoptIns, hdeclared, and_assoc, and_assoc] at hrelaxed'
    exact hrelaxed'
  · rw [hdeclared] at hdeclared'
    exact hdeclared'

theorem foldChain_spec (chain : List PolicySlice) (f : Folding) :
    let g := chain.foldl (foldSlice input) f
    g.rules = run (writeItem PolicyRule.ruleId id) f.rules (chainRules chain)
      ∧ (g.relaxed = false ↔ f.relaxed = false
        ∧ (∀ front slice back, chain = front ++ slice :: back → 0 < f.index + front.length →
          Covered (f.seenOptIns ++ chainOptIns front) slice.autoApprovalOptIns)
        ∧ Along (writeItem PolicyRule.ruleId id) (Redeclares PolicyRule.ruleId id (Tightens input)) f.rules (chainRules chain)
        ∧ Along (writeItem PolicyRiskClassification.factId PolicyRiskClassification.tier)
          (Redeclares PolicyRiskClassification.factId PolicyRiskClassification.tier fun s t => tierRank s ≤ tierRank t)
          f.declared (chainClassifications chain))
      ∧ (g.relaxed = false → g.declared = run
        (writeItem PolicyRiskClassification.factId PolicyRiskClassification.tier) f.declared (chainClassifications chain)) := by
  induction chain generalizing f with
  | nil => simp [Along, chainRules, chainClassifications]
  | cons slice rest ih =>
    obtain ⟨⟨hrules, hseen, hindex⟩, hrelaxed, hdeclared⟩ := foldSlice_spec input f slice
    obtain ⟨hrules', hrelaxed', hdeclared'⟩ := ih (foldSlice input f slice)
    have hoptIns : (∀ front s back, slice :: rest = front ++ s :: back → 0 < f.index + front.length →
          Covered (f.seenOptIns ++ chainOptIns front) s.autoApprovalOptIns) ↔
        (0 < f.index → Covered f.seenOptIns slice.autoApprovalOptIns)
          ∧ ∀ front s back, rest = front ++ s :: back → 0 < f.index + 1 + front.length →
            Covered (f.seenOptIns ++ slice.autoApprovalOptIns ++ chainOptIns front) s.autoApprovalOptIns := by
      constructor
      · intro h
        refine ⟨fun hi => by simpa [chainOptIns] using h [] slice rest rfl hi, fun front s back hsplit _ => ?_⟩
        have hone := h (slice :: front) s back (by rw [hsplit]; rfl) (by simp)
        simpa [chainOptIns] using hone
      · rintro ⟨hfirst, hrest⟩ front s back hsplit hi
        cases front with
        | nil =>
          obtain ⟨rfl, rfl⟩ := List.cons.inj hsplit
          simpa [chainOptIns] using hfirst hi
        | cons s' front =>
          obtain ⟨rfl, htail⟩ := List.cons.inj hsplit
          have hone := hrest front s back htail (by omega)
          simpa [chainOptIns] using hone
    have hchainRules : chainRules (slice :: rest) = slice.rules ++ chainRules rest := List.flatMap_cons
    have hchainClassifications : chainClassifications (slice :: rest)
        = slice.riskClassifications.getD [] ++ chainClassifications rest := List.flatMap_cons
    rw [List.foldl_cons, hoptIns, hchainRules, hchainClassifications, run_append, run_append, Along.append_iff,
      Along.append_iff]
    refine ⟨hrules'.trans (by rw [hrules]), hrelaxed'.trans ?_, fun h => ?_⟩
    · rw [hrules, hseen, hindex]
      constructor
      · rintro ⟨hone, hcovered, halong, htiers⟩
        obtain ⟨hf, hfirst, hsliceRules, hsliceTiers⟩ := hrelaxed.mp hone
        rw [hdeclared hone] at htiers
        exact ⟨hf, ⟨hfirst, hcovered⟩, ⟨hsliceRules, halong⟩, hsliceTiers, htiers⟩
      · rintro ⟨hf, ⟨hfirst, hcovered⟩, ⟨hsliceRules, halong⟩, hsliceTiers, htiers⟩
        have hone := hrelaxed.mpr ⟨hf, hfirst, hsliceRules, hsliceTiers⟩
        rw [← hdeclared hone] at htiers
        exact ⟨hone, hcovered, halong, htiers⟩
    · rw [hdeclared' h, hdeclared (hrelaxed'.mp h).1]

end Folding

variable (input : PolicyEvaluationInput)

theorem relaxed_eq_false_iff : (foldSlices input).relaxed = false ↔ Unrelaxed input input.sliceChain := by
  have h := (foldChain_spec input input.sliceChain emptyFolding).2.1
  refine h.trans ?_
  have hrules := redeclares_iff_pairwise PolicyRule.ruleId id (Tightens input)
    (fun _ _ _ => Tightens.trans) (chainRules input.sliceChain)
  have htiers := redeclares_iff_pairwise PolicyRiskClassification.factId PolicyRiskClassification.tier
    (fun s t => tierRank s ≤ tierRank t) (fun _ _ _ => le_trans) (chainClassifications input.sliceChain)
  constructor
  · rintro ⟨-, hoptIns, halong, halong'⟩
    refine ⟨hrules.mp halong, htiers.mp halong', fun front slice back hsplit hne => ?_⟩
    have hlength := List.length_pos_of_ne_nil hne
    exact hoptIns front slice back hsplit (by omega)
  · rintro ⟨hpairwise, hpairwise', hoptIns⟩
    refine ⟨rfl, fun front slice back hsplit hlength => ?_, hrules.mpr hpairwise, htiers.mpr hpairwise'⟩
    refine hoptIns front slice back hsplit fun hnil => ?_
    simp [hnil, emptyFolding] at hlength

/-- The rules of the fold are the last versions, in the order in which their ids are first declared. -/
theorem foldSlices_rules : (foldSlices input).rules =
    (declarations PolicyRule.ruleId id (chainRules input.sliceChain)).entries.map Prod.snd :=
  congrArg (fun m => m.entries.map Prod.snd) (foldChain_spec input input.sliceChain emptyFolding).1

theorem folding_declared (h : Unrelaxed input input.sliceChain) : (folding input).declared =
    declarations PolicyRiskClassification.factId PolicyRiskClassification.tier (chainClassifications input.sliceChain) :=
  (foldChain_spec input input.sliceChain emptyFolding).2.2 ((relaxed_eq_false_iff input).mpr h)

end MoeNG.Core.Policy
