import MoeNG.Core.Approval

/-!
# Runs over a set of approvals

The stored records are replaced by every accepted result. A decision and a loss
of validity are final, and the two never touch the other fields.
-/

namespace MoeNG.Core.Approval
open MoeNG.Kernel MoeNG.Lib MoeNG.Core MoeNG.Core.Policy

inductive ApprovalCall where
  | command (index : ℕ) (command : ApprovalCommand)
  | invalidation (impactSet : ApprovalImpactSet) (successorLinks : List ApprovalSuccessorLink)
    (supportedCanonicalizerVersions : List JsString)
  deriving DecidableEq

def approvalStep (records : List ApprovalDecisionRecord) : ApprovalCall → List ApprovalDecisionRecord
  | .command index command =>
    match records[index]? with
    | none => records
    | some record =>
      match applyApprovalCommand record command with
      | .error _ => records
      | .ok next => records.set index next
  | .invalidation impactSet successorLinks supportedCanonicalizerVersions =>
    match applyApprovalInvalidation ⟨records, impactSet, successorLinks, supportedCanonicalizerVersions⟩ with
    | .error _ => records
    | .ok next => next

/-! ### What one call does to one record -/

/-- The ways a call can change the record at an index. -/
inductive Moved (index : ℕ) (before : ApprovalDecisionRecord) : ApprovalCall → ApprovalDecisionRecord → Prop
  | same (call : ApprovalCall) : Moved index before call before
  | withdrawn (hcurrent : before.validity = .CURRENT) (hpending : before.lifecycle = .PENDING) :
    Moved index before (.command index .withdraw) { before with lifecycle := .WITHDRAWN }
  | decided (decision : ApprovalDecision) (decisionReason stepUpAuthRef : Option JsString)
    (hcurrent : before.validity = .CURRENT) (hpending : before.lifecycle = .PENDING)
    (hreason : optionalRef decisionReason = true) (hstep : steppedUp before stepUpAuthRef = true)
    (htier : before.riskTier = .R3 → decisionReason.any validRef = true) :
    Moved index before (.command index (.decide decision decisionReason stepUpAuthRef))
      { before with
        decision := some decision, decisionReason := decisionReason, lifecycle := .DECIDED,
        stepUpAuthRef := stepUpAuthRef }
  | stale (impactSet : ApprovalImpactSet) (links : List ApprovalSuccessorLink) (supported : List JsString) :
    Moved index before (.invalidation impactSet links supported) (invalidated impactSet links before)

theorem applyApprovalCommand_moved (index : ℕ) (record next : ApprovalDecisionRecord) (command : ApprovalCommand)
    (h : applyApprovalCommand record command = .ok next) : Moved index record (.command index command) next := by
  unfold applyApprovalCommand at h
  split at h
  · cases h
  split at h
  · cases h
  rename_i hcommand
  split at h
  · cases h
  rename_i hcurrent
  split at h
  · cases h
  rename_i hpending
  rw [not_not] at hcurrent hpending
  cases command with
  | withdraw =>
    obtain rfl := Except.ok.inj h
    exact .withdrawn hcurrent hpending
  | decide decision decisionReason stepUpAuthRef =>
    dsimp only at h
    split at h
    · cases h
    rename_i hstep
    split at h
    · cases h
    rename_i htier
    obtain rfl := Except.ok.inj h
    refine .decided decision decisionReason stepUpAuthRef hcurrent hpending ?_ (by simpa using hstep) fun hr3 => ?_
    · simp only [validateApprovalCommand, Bool.not_eq_true', Bool.not_eq_false, Bool.and_eq_true] at hcommand
      exact hcommand.1
    · simpa [hr3] using htier

variable (records : List ApprovalDecisionRecord)

theorem approvalStep_moved (call : ApprovalCall) (i : ℕ) (record : ApprovalDecisionRecord) (h : records[i]? = some record) :
    ∃ next, (approvalStep records call)[i]? = some next ∧ Moved i record call next := by
  cases call with
  | command index command =>
    unfold approvalStep
    dsimp only
    split
    · exact ⟨record, h, .same _⟩
    rename_i target htarget
    split
    · exact ⟨record, h, .same _⟩
    rename_i next hnext
    by_cases hi : index = i
    · subst hi
      rw [h] at htarget
      obtain rfl := Option.some.inj htarget
      refine ⟨next, ?_, applyApprovalCommand_moved index record next command hnext⟩
      rw [List.getElem?_set_self (List.getElem?_eq_some_iff.mp h).1]
    · exact ⟨record, by rw [List.getElem?_set_ne hi, h], .same _⟩
  | invalidation impactSet links supported =>
    unfold approvalStep applyApprovalInvalidation
    dsimp only
    split
    · exact ⟨record, h, .same _⟩
    rename_i next hnext
    split at hnext
    · obtain rfl := Except.ok.inj hnext
      exact ⟨_, by rw [List.getElem?_map, h]; rfl, .stale impactSet links supported⟩
    · cases hnext

theorem approvalStep_length (call : ApprovalCall) : (approvalStep records call).length = records.length := by
  unfold approvalStep applyApprovalInvalidation
  cases call with
  | command index command =>
    dsimp only
    split
    · rfl
    · split
      · rfl
      · rw [List.length_set]
  | invalidation impactSet links supported =>
    dsimp only
    split
    · rfl
    · rename_i next hnext
      split at hnext
      · rw [← Except.ok.inj hnext, List.length_map]
      · cases hnext

/-! ### What every call keeps -/

theorem invalidated_valid (impactSet : ApprovalImpactSet) (links : List ApprovalSuccessorLink)
    (record : ApprovalDecisionRecord) :
    validateApprovalRecord (invalidated impactSet links record) = validateApprovalRecord record := rfl

theorem Moved.valid {index : ℕ} {before after : ApprovalDecisionRecord} {call : ApprovalCall}
    (h : Moved index before call after) (hb : validateApprovalRecord before = true) :
    validateApprovalRecord after = true := by
  cases h with
  | same => exact hb
  | stale impactSet links supported => rw [invalidated_valid, hb]
  | withdrawn hcurrent hpending =>
    simp only [validateApprovalRecord, Bool.and_eq_true] at hb ⊢
    obtain ⟨⟨hfields, hlifecycle⟩, hauthority⟩ := hb
    refine ⟨⟨hfields, ?_⟩, hauthority⟩
    simpa [validLifecycleFields, hpending] using hlifecycle
  | decided decision decisionReason stepUpAuthRef hcurrent hpending hreason hstep htier =>
    simp only [validateApprovalRecord, Bool.and_eq_true] at hb ⊢
    obtain ⟨⟨⟨⟨⟨hfields, -⟩, -⟩, hpolicy⟩, -⟩, hauthority⟩ := hb
    have hstepRef : optionalRef stepUpAuthRef = true := by
      cases stepUpAuthRef with
      | none => rfl
      | some ref =>
        simp only [steppedUp, Option.any_some, reduceCtorEq, decide_false, Bool.and_false, Bool.or_false,
          Bool.and_eq_true] at hstep
        exact hstep.2
    refine ⟨⟨⟨⟨⟨hfields, hreason⟩, hstepRef⟩, hpolicy⟩, by simp [validLifecycleFields]⟩, ?_⟩
    unfold validActorAuthority at hauthority ⊢
    unfold steppedUp at hstep
    dsimp only
    cases hkind : before.actorKind with
    | HUMAN => simp_all
    | SYSTEM_POLICY => simp_all

/-! ### What a run keeps -/

/-- What becomes of a record between two moments of a run. -/
structure Evolved (before after : ApprovalDecisionRecord) : Prop where
  fixed : after = { before with
    lifecycle := after.lifecycle, decision := after.decision, decisionReason := after.decisionReason,
    stepUpAuthRef := after.stepUpAuthRef, validity := after.validity }
  decided : ∀ decision, before.decision = some decision → after.decision = some decision
  settled : before.validity ≠ .CURRENT → after = before

theorem Moved.evolved {index : ℕ} {before after : ApprovalDecisionRecord} {call : ApprovalCall}
    (h : Moved index before call after) (hb : validateApprovalRecord before = true) : Evolved before after := by
  have hundecided (hpending : before.lifecycle = .PENDING) : before.decision = none := by
    simp only [validateApprovalRecord, Bool.and_eq_true] at hb
    simpa [validLifecycleFields, hpending] using hb.1.2
  cases h with
  | same => exact ⟨rfl, fun _ hd => hd, fun _ => rfl⟩
  | withdrawn hcurrent hpending => exact ⟨rfl, fun _ hd => hd, fun hstale => absurd hcurrent hstale⟩
  | decided decision decisionReason stepUpAuthRef hcurrent hpending =>
    refine ⟨rfl, fun d hd => ?_, fun hstale => absurd hcurrent hstale⟩
    rw [hundecided hpending] at hd
    cases hd
  | stale impactSet links supported =>
    refine ⟨rfl, fun _ hd => hd, fun hstale => ?_⟩
    unfold invalidated nextValidity
    rw [if_pos hstale]

theorem Evolved.trans {a b c : ApprovalDecisionRecord} (hab : Evolved a b) (hbc : Evolved b c) : Evolved a c := by
  refine ⟨?_, fun decision hd => hbc.decided decision (hab.decided decision hd), fun hstale => ?_⟩
  · rw [hbc.fixed, hab.fixed]
  · have hsame := hab.settled hstale
    rw [hbc.settled (by rw [hsame]; exact hstale), hsame]

theorem approvalStep_moved_back (call : ApprovalCall) (i : ℕ)
    (next : ApprovalDecisionRecord) (h : (approvalStep records call)[i]? = some next) :
    ∃ record, records[i]? = some record ∧ Moved i record call next := by
  have hlt := (List.getElem?_eq_some_iff.mp h).1
  rw [approvalStep_length] at hlt
  obtain ⟨after, hafter, hmoved⟩ := approvalStep_moved records call i records[i] (List.getElem?_eq_getElem hlt)
  rw [h] at hafter
  obtain rfl := Option.some.inj hafter
  exact ⟨records[i], List.getElem?_eq_getElem hlt, hmoved⟩

theorem approvalStep_valid (call : ApprovalCall) (hvalid : ∀ record ∈ records, validateApprovalRecord record = true) :
    ∀ record ∈ approvalStep records call, validateApprovalRecord record = true := by
  intro next hnext
  obtain ⟨i, hi⟩ := List.mem_iff_getElem?.mp hnext
  obtain ⟨record, hrecord, hmoved⟩ := approvalStep_moved_back records call i next hi
  exact hmoved.valid (hvalid record (List.mem_of_getElem? hrecord))

theorem run_valid (calls : List ApprovalCall) (records : List ApprovalDecisionRecord)
    (hvalid : ∀ record ∈ records, validateApprovalRecord record = true) :
    ∀ record ∈ run approvalStep records calls, validateApprovalRecord record = true :=
  run_invariant approvalStep (fun records => ∀ record ∈ records, validateApprovalRecord record = true)
    (fun records call h => approvalStep_valid records call h) records hvalid calls

theorem run_evolved (calls : List ApprovalCall) (records : List ApprovalDecisionRecord)
    (hvalid : ∀ record ∈ records, validateApprovalRecord record = true) (i : ℕ) (before : ApprovalDecisionRecord)
    (h : records[i]? = some before) : ∃ after, (run approvalStep records calls)[i]? = some after ∧ Evolved before after := by
  induction calls generalizing records before with
  | nil => exact ⟨before, h, rfl, fun _ hd => hd, fun _ => rfl⟩
  | cons call rest ih =>
    obtain ⟨next, hnext, hmoved⟩ := approvalStep_moved records call i before h
    obtain ⟨after, hafter, hevolved⟩ := ih _ (approvalStep_valid records call hvalid) next hnext
    exact ⟨after, hafter, (hmoved.evolved (hvalid before (List.mem_of_getElem? h))).trans hevolved⟩

/-- The command of the run that took the decision, and what it was taken with. -/
structure DecidedBy (records : List ApprovalDecisionRecord) (calls : List ApprovalCall) (i : ℕ)
    (after : ApprovalDecisionRecord) (decision : ApprovalDecision) : Prop where
  command : ∃ first later before, calls = first ++ .command i (.decide decision after.decisionReason after.stepUpAuthRef) :: later
    ∧ (run approvalStep records first)[i]? = some before ∧ before.validity = .CURRENT ∧ before.lifecycle = .PENDING
  reason : after.riskTier = .R3 → after.decisionReason.any validRef = true
  stepUp : after.actorKind = .HUMAN → after.stepUpAuthRef.any validRef = true

theorem run_decided (calls : List ApprovalCall) (records : List ApprovalDecisionRecord) (i : ℕ)
    (before after : ApprovalDecisionRecord)
    (decision : ApprovalDecision) (hbefore : records[i]? = some before) (hundecided : before.decision = none)
    (hafter : (run approvalStep records calls)[i]? = some after) (hdecided : after.decision = some decision) :
    DecidedBy records calls i after decision := by
  induction calls using List.reverseRecOn generalizing after with
  | nil =>
    rw [run_nil, hbefore] at hafter
    obtain rfl := Option.some.inj hafter
    rw [hundecided] at hdecided
    cases hdecided
  | append_singleton calls call ih =>
    rw [run_append, run_cons, run_nil] at hafter
    obtain ⟨middle, hmiddle, hmoved⟩ := approvalStep_moved_back _ call i after hafter
    -- a call that leaves the decision alone passes it on, and the other one takes it
    have hpass (hd : middle.decision = some decision) (hr : after.decisionReason = middle.decisionReason)
        (hs : after.stepUpAuthRef = middle.stepUpAuthRef) (ht : after.riskTier = middle.riskTier)
        (hk : after.actorKind = middle.actorKind) : DecidedBy records (calls ++ [call]) i after decision := by
      obtain ⟨⟨first, later, at', hcalls, hat, hcurrent, hpending⟩, hreason, hstepUp⟩ := ih middle hmiddle hd
      refine ⟨⟨first, later ++ [call], at', ?_, hat, hcurrent, hpending⟩, ?_, ?_⟩
      · rw [hcalls, hr, hs, List.append_assoc, List.cons_append]
      · rw [ht, hr]
        exact hreason
      · rw [hk, hs]
        exact hstepUp
    cases hmoved with
    | same => exact hpass hdecided rfl rfl rfl rfl
    | withdrawn => exact hpass hdecided rfl rfl rfl rfl
    | stale => exact hpass hdecided rfl rfl rfl rfl
    | decided taken decisionReason stepUpAuthRef hcurrent hpending hreason hstep htier =>
      obtain rfl := Option.some.inj hdecided
      refine ⟨⟨calls, [], middle, rfl, hmiddle, hcurrent, hpending⟩, htier, fun hhuman => ?_⟩
      simp only [steppedUp] at hstep
      rw [show middle.actorKind = .HUMAN from hhuman] at hstep
      simpa using hstep

/-! ### Invalidations -/

theorem applyApprovalInvalidation_ok (input : ApprovalInvalidationInput) (next : List ApprovalDecisionRecord)
    (h : applyApprovalInvalidation input = .ok next) :
    validateInvalidationInput input = true ∧ next = input.approvals.map (invalidated input.impactSet input.successorLinks) := by
  unfold applyApprovalInvalidation at h
  split at h
  · rename_i hvalid
    exact ⟨hvalid, (Except.ok.inj h).symm⟩
  · cases h

/-- Records that an invalidation already changed are accepted by every invalidation of its kind. -/
theorem applyApprovalInvalidation_again (first second : ApprovalImpactSet)
    (links links' : List ApprovalSuccessorLink) (supported : List JsString)
    (h : validateInvalidationInput ⟨records, second, links', supported⟩ = true) :
    applyApprovalInvalidation ⟨records.map (invalidated first links), second, links', supported⟩ =
      .ok ((records.map (invalidated first links)).map (invalidated second links')) := by
  unfold applyApprovalInvalidation
  rw [if_pos]
  unfold validateInvalidationInput at h ⊢
  dsimp only at h ⊢
  rw [List.all_map]
  exact h

/-- Of the current records, the named ones are superseded and of the others the impacted ones are invalidated. -/
theorem invalidated_eq (impactSet : ApprovalImpactSet) (links : List ApprovalSuccessorLink)
    (record : ApprovalDecisionRecord) :
    invalidated impactSet links record =
      if record.validity = .CURRENT ∧ named record links = true then { record with validity := .SUPERSEDED }
      else if record.validity = .CURRENT ∧ intersects record impactSet = true then { record with validity := .INVALIDATED }
      else record := by
  obtain hstale | hcurrent := ne_or_eq record.validity .CURRENT
  · simp [invalidated, nextValidity, hstale]
  · cases hnamed : named record links <;> cases hmeets : intersects record impactSet <;>
      simp [invalidated, nextValidity, hcurrent, hnamed, hmeets]
    rw [← hcurrent]

theorem invalidated_idem (impactSet : ApprovalImpactSet) (links : List ApprovalSuccessorLink)
    (record : ApprovalDecisionRecord) :
    invalidated impactSet links (invalidated impactSet links record) = invalidated impactSet links record := by
  obtain hstale | hcurrent := ne_or_eq record.validity .CURRENT
  · simp [invalidated, nextValidity, hstale]
  · have hnamed : named (invalidated impactSet links record) links = named record links := rfl
    have hmeets : intersects (invalidated impactSet links record) impactSet = intersects record impactSet := rfl
    cases hn : named record links <;> cases hm : intersects record impactSet <;>
      simp_all [invalidated_eq]

theorem invalidated_comm (first second : ApprovalImpactSet) (record : ApprovalDecisionRecord) :
    invalidated second [] (invalidated first [] record) = invalidated first [] (invalidated second [] record) := by
  have hnamed (r : ApprovalDecisionRecord) : named r [] = false := rfl
  have hmeets (s t : ApprovalImpactSet) : intersects (invalidated s [] record) t = intersects record t := rfl
  obtain hstale | hcurrent := ne_or_eq record.validity .CURRENT
  · simp [invalidated, nextValidity, hstale]
  · cases hf : intersects record first <;> cases hs : intersects record second <;>
      simp_all [invalidated_eq]

/-- What holds of a set of approvals after a run, and of what an invalidation does to it next. -/
structure ApprovalLaw (records : List ApprovalDecisionRecord) (calls : List ApprovalCall) : Prop where
  length : (run approvalStep records calls).length = records.length
  valid : ∀ record ∈ run approvalStep records calls, validateApprovalRecord record = true
  evolved : ∀ first later, calls = first ++ later → ∀ (i : ℕ) (before after : ApprovalDecisionRecord),
    (run approvalStep records first)[i]? = some before → (run approvalStep records calls)[i]? = some after →
      Evolved before after
  decided : ∀ (i : ℕ) (before after : ApprovalDecisionRecord) (decision : ApprovalDecision), records[i]? = some before →
    before.decision = none → (run approvalStep records calls)[i]? = some after → after.decision = some decision →
      DecidedBy records calls i after decision
  marked : ∀ impactSet links supported next,
    applyApprovalInvalidation ⟨run approvalStep records calls, impactSet, links, supported⟩ = .ok next →
      next = (run approvalStep records calls).map fun record =>
        if record.validity = .CURRENT ∧ named record links = true then { record with validity := .SUPERSEDED }
        else if record.validity = .CURRENT ∧ intersects record impactSet = true then
          { record with validity := .INVALIDATED }
        else record
  again : ∀ impactSet links supported next,
    applyApprovalInvalidation ⟨run approvalStep records calls, impactSet, links, supported⟩ = .ok next →
      applyApprovalInvalidation ⟨next, impactSet, links, supported⟩ = .ok next
  commute : ∀ first second supported supported' afterFirst afterSecond,
    applyApprovalInvalidation ⟨run approvalStep records calls, first, [], supported⟩ = .ok afterFirst →
    applyApprovalInvalidation ⟨run approvalStep records calls, second, [], supported'⟩ = .ok afterSecond →
      ∃ both, applyApprovalInvalidation ⟨afterFirst, second, [], supported'⟩ = .ok both
        ∧ applyApprovalInvalidation ⟨afterSecond, first, [], supported⟩ = .ok both

theorem approval_record_invariant
    (hvalid : ∀ record ∈ records, validateApprovalRecord record = true) (calls : List ApprovalCall) :
    ApprovalLaw records calls := by
  refine ⟨?_, run_valid calls records hvalid, ?_, fun i before after decision => run_decided calls records i before after
    decision, ?_, ?_, ?_⟩
  · exact run_invariant approvalStep (fun s => s.length = records.length)
      (fun s call h => (approvalStep_length s call).trans h) records rfl calls
  · rintro first later rfl i before after hbefore hafter
    obtain ⟨reached, hreached, hevolved⟩ := run_evolved later _ (run_valid first records hvalid) i before hbefore
    rw [run_append, hreached] at hafter
    obtain rfl := Option.some.inj hafter
    exact hevolved
  · intro impactSet links supported next h
    obtain ⟨-, rfl⟩ := applyApprovalInvalidation_ok _ next h
    exact List.map_congr_left fun record _ => invalidated_eq impactSet links record
  · intro impactSet links supported next h
    obtain ⟨haccepted, rfl⟩ := applyApprovalInvalidation_ok _ next h
    rw [applyApprovalInvalidation_again _ _ _ _ _ _ haccepted, List.map_map]
    exact congrArg Except.ok (List.map_congr_left fun record _ => invalidated_idem impactSet links record)
  · intro first second supported supported' afterFirst afterSecond hfirst hsecond
    obtain ⟨hacceptedFirst, rfl⟩ := applyApprovalInvalidation_ok _ afterFirst hfirst
    obtain ⟨hacceptedSecond, rfl⟩ := applyApprovalInvalidation_ok _ afterSecond hsecond
    refine ⟨_, applyApprovalInvalidation_again _ _ _ _ _ _ hacceptedSecond, ?_⟩
    rw [applyApprovalInvalidation_again _ _ _ _ _ _ hacceptedFirst, List.map_map, List.map_map]
    exact congrArg Except.ok (List.map_congr_left fun record _ => (invalidated_comm first second record).symm)

def sampleHash (digit : String) : JsString := (List.replicate 64 (lit digit)).flatten

def sampleApproval : ApprovalDecisionRecord where
  actor := lit "human:root"
  actorKind := .HUMAN
  applicablePolicyRef := sampleHash "3"
  approvalRef := lit "approval:1"
  approvedNodeScope := [lit "node:alpha"]
  budgetRef := sampleHash "4"
  criteriaRef := sampleHash "5"
  decision := none
  decisionReason := none
  dependencyChanges := ⟨[], [], []⟩
  exactRevisionHash := sampleHash "1"
  lifecycle := .PENDING
  planQualityAssessmentRef := sampleHash "6"
  policyDecisionRef := none
  riskTier := .R3
  stepUpAuthRef := some (lit "stepup:1")
  truthClass := .HUMAN_APPROVED
  validity := .CURRENT

def sampleCalls : List ApprovalCall :=
  [.command 0 (.decide .APPROVE none (some (lit "stepup:2"))),
    .command 0 (.decide .APPROVE (some (lit "reviewed")) (some (lit "stepup:2"))),
    .invalidation ⟨lit "moe-canonical/1", [lit "node:alpha"], []⟩ [] [lit "moe-canonical/1"],
    .command 0 .withdraw]

theorem approval_record_invariant_decided :
    run approvalStep [sampleApproval] sampleCalls =
        [{ sampleApproval with
          decision := some .APPROVE, decisionReason := some (lit "reviewed"), lifecycle := .DECIDED,
          stepUpAuthRef := some (lit "stepup:2"), validity := .INVALIDATED }]
      ∧ ApprovalLaw [sampleApproval] sampleCalls :=
  ⟨by decide +kernel, approval_record_invariant [sampleApproval] (by decide +kernel) sampleCalls⟩

end MoeNG.Core.Approval
