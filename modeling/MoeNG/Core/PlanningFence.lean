import MoeNG.Core.PlanningRunInvariant

/-!
# The fence around a sealed submission

A run whose submission is recorded is fenced when only its finalization, its
repetition and a cancellation can still move it. The draining lifecycle fences
the run; a proof that the planner has ended leaves it in `PLANNING`, where the
attempt can be released and claimed once more.
-/

namespace MoeNG.Core.PlanningRun
open MoeNG.Kernel MoeNG.Lib MoeNG.Core

/-! ### Reachable runs -/

section Reachable
variable {Authority : Type} (admitPlanAuthoritySubmission : Authority → JsString → Option PlanAuthorityIdentity)

/-- The runs that accepted commands lead to, every one of which met `P` in the state it was made in. -/
inductive Reachable (P : Option PlanningRunState → PlanningRunCommand Authority → Prop) : PlanningRunState → Prop where
  | created (c : PlanningRunCommand Authority) (r : PlanningRunAccepted) (hP : P none c)
      (h : reducePlanningRun admitPlanAuthoritySubmission none c = .ok r) : Reachable P r.state
  | moved (s : PlanningRunState) (c : PlanningRunCommand Authority) (r : PlanningRunAccepted) (hs : Reachable P s)
      (hP : P (some s) c) (h : reducePlanningRun admitPlanAuthoritySubmission (some s) c = .ok r) : Reachable P r.state
  | minted (s : PlanningRunState) (c : PlanningRunCommand Authority) (r : PlanningRunAccepted) (t : PlanningRunState)
      (hs : Reachable P s) (hP : P (some s) c) (h : reducePlanningRun admitPlanAuthoritySubmission (some s) c = .ok r)
      (ht : r.successor = some t) : Reachable P t

variable {admitPlanAuthoritySubmission} {P : Option PlanningRunState → PlanningRunCommand Authority → Prop}

theorem Reachable.recorded (s : PlanningRunState) (h : Reachable admitPlanAuthoritySubmission P s) : Recorded s := by
  induction h with
  | created c r _ h => exact (reducePlanningRun_created admitPlanAuthoritySubmission c r h).1
  | moved s c r _ _ h ih => exact (reducePlanningRun_effect admitPlanAuthoritySubmission s c r ih h).recorded
  | minted s c r t _ _ h ht ih => exact (reducePlanningRun_effect admitPlanAuthoritySubmission s c r ih h).successor t ht

end Reachable

/-! ### How a run stays in planning -/

/-- Who works on the run after a command that left it in `PLANNING`. -/
inductive Planned {Authority : Type} (s t : PlanningRunState) : PlanningRunRequest Authority → Prop where
  | claimed (resumeProof : Option PlanningResumeProof) (w : PlanningClaimWitness)
      (hsource : s.lifecycle = .READY ∨ s.lifecycle = .PLANNING) (howned : t.facets.owned = true)
      (hlive : t.facets.livePlannerEffect = true) (hhash : t.submissionHash = s.submissionHash) :
      Planned s t (.claim resumeProof w)
  | resumable (request : PlanningRunRequest Authority) (hsource : s.lifecycle = .PLANNING)
      (howned : t.facets.owned = false) (hresumable : t.facets.resumable = true)
      (hhash : t.submissionHash = s.submissionHash) : Planned s t request
  | repeated (p : PlanProposal Authority) (hsame : t = s) : Planned s t (.propose p)
  | proven (p : PlanProposal Authority) (hfirst : s.submissionHash = none) (howned : s.facets.owned = true)
      (howned' : t.facets.owned = true) (hhash : t.submissionHash = some p.submissionHash)
      (hproof : s.facets.livePlannerEffect = true → p.effectTerminalProof.any validEffectTerminal = true) :
      Planned s t (.propose p)

section Planned
variable {Authority : Type} (admitPlanAuthoritySubmission : Authority → JsString → Option PlanAuthorityIdentity)
  (s : PlanningRunState) (commandId : JsString) (r : PlanningRunAccepted)

theorem resumableState_planned (request : PlanningRunRequest Authority) (hsource : s.lifecycle = .PLANNING) :
    Planned s (resumableState s) request := .resumable request hsource rfl rfl rfl

theorem repropose_planned (p : PlanProposal Authority) (sealedHash : JsString)
    (h : repropose s sealedHash p.submissionHash = .ok r) : Planned s r.state (.propose p) := by
  unfold repropose at h
  split at h
  · obtain rfl := Except.ok.inj h
    exact .repeated p rfl
  · cases h

theorem sealPlan_planned (p : PlanProposal Authority) (carrier : Option ExpansionCarrier) (plan : SealPlan)
    (hfirst : s.submissionHash = none) (hplanning : plan.next.lifecycle = .PLANNING) (h : sealPlan s p carrier = some plan) :
    Planned s plan.next (.propose p) := by
  unfold sealPlan at h
  split at h
  · cases h
  rename_i hguard
  simp only [Bool.or_eq_true, Bool.not_eq_true', not_or, Bool.not_eq_false] at hguard
  obtain rfl := Option.some.inj h
  refine .proven p hfirst hguard.1 hguard.1 rfl fun hlive => ?_
  dsimp only at hplanning
  rw [hlive, Bool.true_and] at hplanning
  cases hproof : p.effectTerminalProof with
  | none =>
    rw [hproof] at hplanning
    cases hplanning
  | some proof =>
    have hvalid := hguard.2
    rw [hproof] at hvalid
    exact hvalid

theorem propose_planned (expectedVersion : ℤ) (p : PlanProposal Authority) (hplanning : r.state.lifecycle = .PLANNING)
    (h : propose admitPlanAuthoritySubmission s commandId expectedVersion p = .ok r) : Planned s r.state (.propose p) := by
  unfold propose at h
  split at h
  · cases h
  split at h
  · cases h
  split at h
  · unfold proposeExpansion at h
    split at h
    swap
    · cases h
    split at h
    · cases h
    split at h
    · exact repropose_planned s r p _ h
    rename_i hfirst
    split at h
    · cases h
    rename_i plan hplan
    obtain rfl := Except.ok.inj h
    exact sealPlan_planned s p _ plan hfirst hplanning hplan
  split at h
  · cases h
  split at h
  · exact repropose_planned s r p _ h
  rename_i hfirst
  split at h
  · cases h
  rename_i plan hplan
  obtain rfl := Except.ok.inj h
  exact sealPlan_planned s p _ plan hfirst hplanning hplan

theorem rejectRun_lifecycle (findingsRef successorRunId : JsString)
    (h : rejectRun s commandId findingsRef successorRunId = .ok r) : r.state.lifecycle = .REJECTED := by
  obtain rfl := Except.ok.inj h
  rfl

/-- A command that ends in `PLANNING` claims, gives back, repeats or seals with a proof. -/
theorem applyRequest_planned (expectedVersion : ℤ) (request : PlanningRunRequest Authority)
    (hallowed : s.lifecycle ∈ planningRunTransitions request.kind) (hplanning : r.state.lifecycle = .PLANNING)
    (h : applyRequest admitPlanAuthoritySubmission s commandId expectedVersion request = .ok r) :
    Planned s r.state request := by
  cases request with
  | createDraft => cases h
  | planningCancel => cases h
  | propose p => exact propose_planned admitPlanAuthoritySubmission s commandId r expectedVersion p hplanning h
  | ready w =>
    unfold applyRequest ready at h
    dsimp only at h
    split at h
    · cases h
    obtain rfl := Except.ok.inj h
    cases hplanning
  | claim resumeProof w =>
    unfold applyRequest claim at h
    dsimp only at h
    split at h
    · cases h
    obtain rfl := Except.ok.inj h
    exact .claimed resumeProof w (by simpa [planningRunTransitions, PlanningRunRequest.kind] using hallowed) rfl rfl rfl
  | release w =>
    unfold applyRequest release at h
    dsimp only at h
    split at h
    · cases h
    obtain rfl := Except.ok.inj h
    exact resumableState_planned s _ hplanning
  | recoverAbsent w =>
    unfold applyRequest recoverAbsent at h
    dsimp only at h
    split at h
    · cases h
    obtain rfl := Except.ok.inj h
    exact resumableState_planned s _ hplanning
  | finalizeSubmission refusal revision w =>
    unfold applyRequest finalize at h
    dsimp only at h
    split at h
    · cases h
    split at h
    · unfold finalizeRefusal at h
      split at h
      · cases h
      cases hplanning.symm.trans (rejectRun_lifecycle s commandId r _ _ h)
    · unfold finalizeRevision at h
      split at h
      · cases h
      obtain rfl := Except.ok.inj h
      cases hplanning
    · cases h
  | planApprove w =>
    have hsource : s.lifecycle = .PLAN_REVIEW ∨ s.lifecycle = .APPROVED := by
      simpa [planningRunTransitions, PlanningRunRequest.kind] using hallowed
    unfold applyRequest approvePlan at h
    dsimp only at h
    split at h
    · cases h
    split at h
    · split at h
      · obtain rfl := Except.ok.inj h
        obtain hsource | hsource := hsource <;> cases hplanning.symm.trans hsource
      · cases h
    split at h
    · cases h
    obtain rfl := Except.ok.inj h
    cases hplanning
  | planRevise w =>
    unfold applyRequest revisePlan at h
    dsimp only at h
    split at h
    · cases h
    cases hplanning.symm.trans (rejectRun_lifecycle s commandId r _ _ h)
  | graphApprove planApproval w =>
    unfold applyRequest activate at h
    dsimp only at h
    split at h
    · cases h
    split at h
    · cases h
    split at h
    · unfold activateReviewed at h
      split at h
      · cases h
      split at h
      · cases h
      obtain rfl := Except.ok.inj h
      cases hplanning
    · unfold activateApproved at h
      split at h
      · split at h
        · cases h
        obtain rfl := Except.ok.inj h
        cases hplanning
      · cases h
  | goalCancel w =>
    unfold applyRequest cancel at h
    dsimp only at h
    split at h
    · cases h
    obtain rfl := Except.ok.inj h
    cases hplanning

end Planned

/-! ### The planner of a run -/

/-- A run in `PLANNING` is worked on or can be claimed, and a first planner is live. -/
structure Worked (s : PlanningRunState) : Prop where
  worked : s.lifecycle = .PLANNING → s.facets.owned = true ∨ (s.facets.owned = false ∧ s.facets.resumable = true)
  live : s.lifecycle = .PLANNING → s.submissionHash = none → s.facets.owned = true → s.facets.livePlannerEffect = true

theorem Planned.worked {Authority : Type} {s t : PlanningRunState} {request : PlanningRunRequest Authority}
    (h : Planned s t request) (hs : Worked s) : Worked t := by
  cases h with
  | claimed _ _ _ howned hlive _ => exact ⟨fun _ => .inl howned, fun _ _ _ => hlive⟩
  | resumable _ _ howned hresumable _ => exact ⟨fun _ => .inr ⟨howned, hresumable⟩, fun _ _ h => by rw [howned] at h; cases h⟩
  | repeated _ hsame => exact hsame ▸ hs
  | proven _ _ _ howned hhash _ => exact ⟨fun _ => .inl howned, fun _ h => by rw [hhash] at h; cases h⟩

/-- No submission is on record in `PLANNING`. -/
def Unsubmitted (s : PlanningRunState) : Prop := s.lifecycle = .PLANNING → s.submissionHash = none

section Invariants
variable {Authority : Type} {admitPlanAuthoritySubmission : Authority → JsString → Option PlanAuthorityIdentity}
  {P : Option PlanningRunState → PlanningRunCommand Authority → Prop}

theorem worked_of_ne (s : PlanningRunState) (h : s.lifecycle ≠ .PLANNING) : Worked s :=
  ⟨fun hl => absurd hl h, fun hl => absurd hl h⟩

theorem moved_planned (s : PlanningRunState) (c : PlanningRunCommand Authority) (r : PlanningRunAccepted) (hs : Recorded s)
    (h : reducePlanningRun admitPlanAuthoritySubmission (some s) c = .ok r) (hplanning : r.state.lifecycle = .PLANNING) :
    Planned s r.state c.request := by
  obtain ⟨hgate, h⟩ := (reducePlanningRun_ok_iff admitPlanAuthoritySubmission s c r hs).mp h
  exact applyRequest_planned admitPlanAuthoritySubmission s c.commandId r c.expectedVersion c.request hgate.allowed hplanning h

theorem accepted_successor (s : PlanningRunState) (events : List PlanningRunEvent) (r : PlanningRunAccepted)
    (h : accepted s events = .ok r) : r.successor = none := by
  obtain rfl := Except.ok.inj h
  rfl

theorem rejectRun_successor (s : PlanningRunState) (commandId findingsRef successorRunId : JsString) (r : PlanningRunAccepted)
    (t : PlanningRunState) (h : rejectRun s commandId findingsRef successorRunId = .ok r) (ht : r.successor = some t) :
    t.lifecycle = .DRAFT := by
  obtain rfl := Except.ok.inj h
  obtain rfl := Option.some.inj ht
  rfl

theorem propose_successor (s : PlanningRunState) (commandId : JsString) (expectedVersion : ℤ) (p : PlanProposal Authority)
    (r : PlanningRunAccepted) (h : propose admitPlanAuthoritySubmission s commandId expectedVersion p = .ok r) :
    r.successor = none := by
  have hrepeat (sealedHash submissionHash : JsString) (h : repropose s sealedHash submissionHash = .ok r) :
      r.successor = none := by
    unfold repropose at h
    split at h
    · exact accepted_successor _ _ r h
    · cases h
  unfold propose at h
  split at h
  · cases h
  split at h
  · cases h
  split at h
  · unfold proposeExpansion at h
    split at h
    swap
    · cases h
    split at h
    · cases h
    split at h
    · exact hrepeat _ _ h
    split at h
    · cases h
    exact accepted_successor _ _ r h
  split at h
  · cases h
  split at h
  · exact hrepeat _ _ h
  split at h
  · cases h
  exact accepted_successor _ _ r h

theorem activate_successor (s : PlanningRunState) (commandId : JsString) (planApproval : Option PlanApprovalWitness)
    (w : PlanningActivationWitness) (r : PlanningRunAccepted) (h : activate s commandId planApproval w = .ok r) :
    r.successor = none := by
  unfold activate at h
  split at h
  · cases h
  split at h
  · cases h
  split at h
  · unfold activateReviewed at h
    split at h
    · cases h
    split at h
    · cases h
    exact accepted_successor _ _ r h
  · unfold activateApproved at h
    split at h
    · split at h
      · cases h
      exact accepted_successor _ _ r h
    · cases h

theorem approvePlan_successor (s : PlanningRunState) (commandId : JsString) (w : PlanApprovalWitness) (r : PlanningRunAccepted)
    (h : approvePlan s commandId w = .ok r) : r.successor = none := by
  unfold approvePlan at h
  split at h
  · cases h
  split at h
  · split at h
    · exact accepted_successor _ _ r h
    · cases h
  split at h
  · cases h
  exact accepted_successor _ _ r h

/-- Only a rejection mints a run, and that run is a draft. -/
theorem applyRequest_successor (s : PlanningRunState) (commandId : JsString) (expectedVersion : ℤ)
    (request : PlanningRunRequest Authority) (r : PlanningRunAccepted) (t : PlanningRunState)
    (h : applyRequest admitPlanAuthoritySubmission s commandId expectedVersion request = .ok r) (ht : r.successor = some t) :
    t.lifecycle = .DRAFT := by
  have hnone (hr : r.successor = none) : t.lifecycle = .DRAFT := by
    rw [hr] at ht
    cases ht
  cases request with
  | createDraft => cases h
  | planningCancel => cases h
  | propose p => exact hnone (propose_successor s commandId expectedVersion p r h)
  | planApprove w => exact hnone (approvePlan_successor s commandId w r h)
  | graphApprove planApproval w => exact hnone (activate_successor s commandId planApproval w r h)
  | ready w => exact hnone (accepted_successor _ _ r ((ite_error_ok_iff _ _ _ _).mp h).2)
  | claim resumeProof w => exact hnone (accepted_successor _ _ r ((ite_error_ok_iff _ _ _ _).mp h).2)
  | release w => exact hnone (accepted_successor _ _ r ((ite_error_ok_iff _ _ _ _).mp h).2)
  | recoverAbsent w => exact hnone (accepted_successor _ _ r ((ite_error_ok_iff _ _ _ _).mp h).2)
  | goalCancel w => exact hnone (accepted_successor _ _ r ((ite_error_ok_iff _ _ _ _).mp h).2)
  | planRevise w => exact rejectRun_successor s commandId _ _ r t ((ite_error_ok_iff _ _ _ _).mp h).2 ht
  | finalizeSubmission refusal revision w =>
    have h := ((ite_error_ok_iff _ _ _ _).mp h).2
    split at h
    · exact rejectRun_successor s commandId _ _ r t ((ite_error_ok_iff _ _ _ _).mp h).2 ht
    · exact hnone (accepted_successor _ _ r ((ite_error_ok_iff _ _ _ _).mp h).2)
    · cases h

theorem minted_draft (s : PlanningRunState) (c : PlanningRunCommand Authority) (r : PlanningRunAccepted) (t : PlanningRunState)
    (hs : Recorded s) (h : reducePlanningRun admitPlanAuthoritySubmission (some s) c = .ok r) (ht : r.successor = some t) :
    t.lifecycle = .DRAFT :=
  applyRequest_successor s c.commandId c.expectedVersion c.request r t
    ((reducePlanningRun_ok_iff admitPlanAuthoritySubmission s c r hs).mp h).2 ht

theorem Reachable.worked (s : PlanningRunState) (h : Reachable admitPlanAuthoritySubmission P s) : Worked s := by
  induction h with
  | created c r _ h =>
    have hdraft := (reducePlanningRun_created admitPlanAuthoritySubmission c r h).2.2.2.2
    exact worked_of_ne _ (by rw [hdraft]; nofun)
  | moved s c r hs _ h ih =>
    by_cases hplanning : r.state.lifecycle = .PLANNING
    · exact (moved_planned s c r hs.recorded h hplanning).worked ih
    · exact worked_of_ne _ hplanning
  | minted s c r t hs _ h ht _ =>
    have hdraft := minted_draft s c r t hs.recorded h ht
    exact worked_of_ne _ (by rw [hdraft]; nofun)

/-- No proposal that is recorded proves the end of its planner. -/
def KeepsPlanner (before : Option PlanningRunState) (c : PlanningRunCommand Authority) : Prop :=
  ∀ s p, before = some s → c.request = .propose p → s.submissionHash = none →
    p.effectTerminalProof.any validEffectTerminal = false

theorem Recorded.unsubmitted_ready (s : PlanningRunState) (hs : Recorded s) (h : s.lifecycle = .READY) :
    s.submissionHash = none := by
  have hplacement := hs.valid.placement
  simp only [validContentPlacement, h, decide_true, Bool.or_true, if_true, Bool.and_eq_true, decide_eq_true_eq] at hplacement
  exact hplacement.1.1.1

theorem Reachable.unsubmitted (s : PlanningRunState) (h : Reachable admitPlanAuthoritySubmission KeepsPlanner s) :
    Unsubmitted s := by
  induction h with
  | created c r _ h =>
    have hdraft := (reducePlanningRun_created admitPlanAuthoritySubmission c r h).2.2.2.2
    exact fun hplanning => absurd (hdraft.symm.trans hplanning) nofun
  | minted s c r t hs _ h ht _ =>
    exact fun hplanning => absurd ((minted_draft s c r t hs.recorded h ht).symm.trans hplanning) nofun
  | moved s c r hs hP h ih =>
    intro hplanning
    have hplanned := moved_planned s c r hs.recorded h hplanning
    generalize hrequest : c.request = request at hplanned
    cases hplanned with
    | claimed _ _ hsource _ _ hhash =>
      rw [hhash]
      obtain hready | hsource := hsource
      · exact hs.recorded.unsubmitted_ready s hready
      · exact ih hsource
    | resumable _ hsource _ _ hhash => rw [hhash, ih hsource]
    | repeated _ hsame => rw [hsame] at hplanning ⊢; exact ih hplanning
    | proven p hfirst howned _ _ hproof =>
      obtain ⟨hgate, -⟩ := (reducePlanningRun_ok_iff admitPlanAuthoritySubmission s c r hs.recorded).mp h
      have hsource : s.lifecycle = .PLANNING ∨ s.lifecycle = .SUBMISSION_DRAINING := by
        have hallowed := hgate.allowed
        rw [hrequest] at hallowed
        simpa [planningRunTransitions, PlanningRunRequest.kind] using hallowed
      have hlive : s.facets.livePlannerEffect = true := by
        obtain hsource | hsource := hsource
        · exact hs.worked.live hsource hfirst howned
        · exact (hs.recorded.draining hsource).2
      cases (hP s p rfl hrequest hfirst).symm.trans (hproof hlive)

end Invariants

/-! ### The fence -/

/-- The submission is on record and not yet finalized. -/
def Submitted (s : PlanningRunState) : Prop :=
  s.submissionHash ≠ none ∧ (s.lifecycle = .PLANNING ∨ s.lifecycle = .SUBMISSION_DRAINING)

/-- Finalizing the submission, proposing it once more, cancelling the run. -/
def Finishes {Authority : Type} (s : PlanningRunState) : PlanningRunRequest Authority → Prop
  | .finalizeSubmission .. => True
  | .propose p => s.submissionHash = some p.submissionHash
  | .goalCancel _ => True
  | .planningCancel _ => True
  | _ => False

section Fence
variable {Authority : Type} (admitPlanAuthoritySubmission : Authority → JsString → Option PlanAuthorityIdentity)

def Fenced (s : PlanningRunState) : Prop :=
  ∀ c : PlanningRunCommand Authority, ¬ Finishes s c.request →
    ∃ refusal, reducePlanningRun admitPlanAuthoritySubmission (some s) c = .error refusal

theorem fenced_iff (s : PlanningRunState) : Fenced admitPlanAuthoritySubmission s ↔
    ∀ c r, reducePlanningRun admitPlanAuthoritySubmission (some s) c = .ok r → Finishes s c.request := by
  constructor
  · intro h c r hr
    by_contra hc
    obtain ⟨refusal, he⟩ := h c hc
    cases he.symm.trans hr
  · intro h c hc
    cases hr : reducePlanningRun admitPlanAuthoritySubmission (some s) c with
    | error refusal => exact ⟨refusal, rfl⟩
    | ok r => exact absurd (h c r hr) hc

theorem propose_finishes (s : PlanningRunState) (commandId : JsString) (expectedVersion : ℤ) (p : PlanProposal Authority)
    (r : PlanningRunAccepted) (hsubmitted : s.submissionHash ≠ none)
    (h : propose admitPlanAuthoritySubmission s commandId expectedVersion p = .ok r) :
    s.submissionHash = some p.submissionHash := by
  obtain ⟨sealedHash, hhash⟩ := Option.ne_none_iff_exists'.mp hsubmitted
  have hrepeat (h : repropose s sealedHash p.submissionHash = .ok r) : some sealedHash = some p.submissionHash := by
    unfold repropose at h
    split at h
    · rename_i heq
      exact congrArg some heq
    · cases h
  rw [hhash]
  unfold propose at h
  split at h
  · cases h
  split at h
  · cases h
  split at h
  · unfold proposeExpansion at h
    split at h
    swap
    · cases h
    split at h
    · cases h
    rw [hhash] at h
    exact hrepeat h
  split at h
  · cases h
  rw [hhash] at h
  exact hrepeat h

theorem fenced_of_draining (s : PlanningRunState) (hs : Recorded s) (hsubmitted : s.submissionHash ≠ none)
    (hdraining : s.lifecycle = .SUBMISSION_DRAINING) : Fenced admitPlanAuthoritySubmission s := by
  refine (fenced_iff admitPlanAuthoritySubmission s).mpr fun c r hr => ?_
  obtain ⟨hgate, h⟩ := (reducePlanningRun_ok_iff admitPlanAuthoritySubmission s c r hs).mp hr
  have hallowed := hgate.allowed
  rw [hdraining] at hallowed
  generalize c.request = request at hallowed h
  cases request with
  | finalizeSubmission refusal revision w => trivial
  | goalCancel w => trivial
  | planningCancel w => trivial
  | propose p => exact propose_finishes admitPlanAuthoritySubmission s _ _ p r hsubmitted h
  | createDraft _ _ _ _ => exact absurd hallowed (show _ ∉ planningRunTransitions .createDraft by decide)
  | ready _ => exact absurd hallowed (show _ ∉ planningRunTransitions .ready by decide)
  | claim _ _ => exact absurd hallowed (show _ ∉ planningRunTransitions .claim by decide)
  | release _ => exact absurd hallowed (show _ ∉ planningRunTransitions .release by decide)
  | recoverAbsent _ => exact absurd hallowed (show _ ∉ planningRunTransitions .recoverAbsent by decide)
  | planApprove _ => exact absurd hallowed (show _ ∉ planningRunTransitions .planApprove by decide)
  | planRevise _ => exact absurd hallowed (show _ ∉ planningRunTransitions .planRevise by decide)
  | graphApprove _ _ => exact absurd hallowed (show _ ∉ planningRunTransitions .graphApprove by decide)

theorem fenced_of_version (s : PlanningRunState) (hs : Recorded s) (hversion : s.version = maxSafeInteger) :
    Fenced admitPlanAuthoritySubmission s := by
  refine (fenced_iff admitPlanAuthoritySubmission s).mpr fun c r hr => ?_
  have hsafe := ((reducePlanningRun_ok_iff admitPlanAuthoritySubmission s c r hs).mp hr).1.safe
  simp only [safeToApply, decide_eq_true_eq] at hsafe
  split at hsafe <;> omega

/-- A command by which another attempt gets at the run. -/
def reopening (s : PlanningRunState) : PlanningRunCommand Authority :=
  ⟨lit "command", s.version,
    if s.facets.owned then .release ⟨lit "terminal", lit "handoff", .DAEMON_VERIFIED⟩
    else .claim (some ⟨.SAFE_RELEASE_HANDOFF, lit "handoff", lit "terminal", .DAEMON_VERIFIED⟩)
      ⟨lit "attempt", lit "context", lit "lease", lit "slot", .DAEMON_VERIFIED⟩⟩

theorem reopening_allowed (s : PlanningRunState) (hs : Recorded s) (hplanning : s.lifecycle = .PLANNING)
    (hversion : s.version ≠ maxSafeInteger) : Gate s (reopening s : PlanningRunCommand Authority) := by
  have hbound := hs.valid.version.2
  have hkind : (reopening s : PlanningRunCommand Authority).request.kind = if s.facets.owned then .release else .claim := by
    unfold reopening
    dsimp only
    split <;> rfl
  refine ⟨rfl, rfl, ?_, ?_⟩
  · rw [hkind, hplanning]
    split <;> decide
  · unfold safeToApply
    rw [hkind, hplanning, decide_eq_true_eq, if_neg (by rintro ⟨-, h⟩; cases h)]
    omega

theorem reopening_accepted (s : PlanningRunState) (hs : Recorded s) (hworked : Worked s) (hplanning : s.lifecycle = .PLANNING)
    (hversion : s.version ≠ maxSafeInteger) :
    ∃ r, reducePlanningRun admitPlanAuthoritySubmission (some s) (reopening s) = .ok r := by
  have hgate : Gate s (reopening s : PlanningRunCommand Authority) := reopening_allowed s hs hplanning hversion
  suffices h : ∃ r, applyRequest admitPlanAuthoritySubmission s (reopening s : PlanningRunCommand Authority).commandId
      (reopening s : PlanningRunCommand Authority).expectedVersion (reopening s).request = .ok r by
    obtain ⟨r, hr⟩ := h
    exact ⟨r, (reducePlanningRun_ok_iff admitPlanAuthoritySubmission s _ r hs).mpr ⟨hgate, hr⟩⟩
  obtain howned | ⟨howned, hresumable⟩ := hworked.worked hplanning
  · have hrequest : (reopening s : PlanningRunCommand Authority).request
        = .release ⟨lit "terminal", lit "handoff", .DAEMON_VERIFIED⟩ := if_pos howned
    have hwitness : validRelease ⟨lit "terminal", lit "handoff", .DAEMON_VERIFIED⟩ = true := by decide
    rw [hrequest]
    exact ⟨_, if_neg (by rw [hwitness, howned]; decide)⟩
  · have hrequest : (reopening s : PlanningRunCommand Authority).request
        = .claim (some ⟨.SAFE_RELEASE_HANDOFF, lit "handoff", lit "terminal", .DAEMON_VERIFIED⟩)
          ⟨lit "attempt", lit "context", lit "lease", lit "slot", .DAEMON_VERIFIED⟩ :=
      if_neg (by rw [howned]; decide)
    have hwitness : validClaim ⟨lit "attempt", lit "context", lit "lease", lit "slot", .DAEMON_VERIFIED⟩ = true := by decide
    have hproof : claimProofOk s (some ⟨.SAFE_RELEASE_HANDOFF, lit "handoff", lit "terminal", .DAEMON_VERIFIED⟩) = true := by
      unfold claimProofOk
      rw [if_pos hplanning, howned, hresumable]
      decide
    rw [hrequest]
    exact ⟨_, if_neg (by rw [hwitness, hproof]; decide)⟩

theorem reopening_finishes (s : PlanningRunState) : ¬ Finishes s (reopening s : PlanningRunCommand Authority).request := by
  unfold reopening
  dsimp only
  split
  · exact fun h => h
  · exact fun h => h

/-- A recorded submission fences its run exactly while it drains (or when the
version can no longer grow); as long as no proposal proves the end of its
planner, every recorded submission drains. -/
theorem planning_submission_fence :
    (∀ s, Reachable admitPlanAuthoritySubmission (fun _ _ => True) s → Submitted s →
      (Fenced admitPlanAuthoritySubmission s ↔ s.lifecycle = .SUBMISSION_DRAINING ∨ s.version = maxSafeInteger))
    ∧ ∀ s, Reachable admitPlanAuthoritySubmission KeepsPlanner s → Submitted s → Fenced admitPlanAuthoritySubmission s := by
  refine ⟨fun s hs hsubmitted => ⟨fun hfenced => ?_, ?_⟩, fun s hs hsubmitted => ?_⟩
  · by_contra hopen
    rw [not_or] at hopen
    have hplanning := hsubmitted.2.resolve_right hopen.1
    obtain ⟨r, hr⟩ := reopening_accepted admitPlanAuthoritySubmission s hs.recorded hs.worked hplanning hopen.2
    exact reopening_finishes s ((fenced_iff admitPlanAuthoritySubmission s).mp hfenced _ r hr)
  · rintro (hdraining | hversion)
    · exact fenced_of_draining admitPlanAuthoritySubmission s hs.recorded hsubmitted.1 hdraining
    · exact fenced_of_version admitPlanAuthoritySubmission s hs.recorded hversion
  · obtain hplanning | hdraining := hsubmitted.2
    · exact absurd (hs.unsubmitted s hplanning) hsubmitted.1
    · exact fenced_of_draining admitPlanAuthoritySubmission s hs.recorded hsubmitted.1 hdraining

theorem reachable_of_run (commands : List (PlanningRunCommand Authority)) (s : PlanningRunState)
    (h : (run (planningStep admitPlanAuthoritySubmission) .empty commands).state = some s) :
    Reachable admitPlanAuthoritySubmission (fun _ _ => True) s := by
  refine run_invariant (planningStep admitPlanAuthoritySubmission)
    (fun log => ∀ s, log.state = some s → Reachable admitPlanAuthoritySubmission (fun _ _ => True) s) ?_ .empty
    (fun t ht => by cases ht) commands s h
  intro log c ih s hs
  unfold planningStep at hs
  cases hr : reducePlanningRun admitPlanAuthoritySubmission log.state c with
  | error e =>
    rw [hr] at hs
    exact ih s hs
  | ok r =>
    rw [hr] at hs
    obtain rfl := Option.some.inj hs
    cases hstate : log.state with
    | none => exact .created c r trivial (hstate ▸ hr)
    | some t => exact .moved t c r (ih t hstate) trivial (hstate ▸ hr)

end Fence

-- the planner proves its end together with the proposal, and its attempt is then released
def provenCommands : List (PlanningRunCommand Empty) :=
  sampleCommands.take 3 ++ [⟨lit "cmd-4", 3, .propose ⟨.INITIAL, sampleHashes.planHash,
    ⟨lit "attempt-1", lit "submission-1", .DAEMON_VERIFIED⟩, some ⟨lit "effect-1", lit "resources-1", .DAEMON_VERIFIED⟩,
    none, none, none⟩⟩]

theorem planning_submission_reopened :
    ¬ ∀ s, Reachable (fun (authority : Empty) _ => authority.elim) (fun _ _ => True) s → Submitted s →
      Fenced (fun (authority : Empty) _ => authority.elim) s := by
  intro h
  obtain ⟨s, hs⟩ := Option.isSome_iff_exists.mp
    (show (run (planningStep fun (authority : Empty) _ => authority.elim) .empty provenCommands).state.isSome = true by
      decide +kernel)
  have hfacts : (run (planningStep fun (authority : Empty) _ => authority.elim) .empty provenCommands).state.map
      (fun s => (s.lifecycle, s.version, s.submissionHash)) = some (.PLANNING, 4, some sampleHashes.planHash) := by
    decide +kernel
  rw [hs] at hfacts
  obtain ⟨hplanning, hversion, hhash⟩ : s.lifecycle = .PLANNING ∧ s.version = 4
    ∧ s.submissionHash = some sampleHashes.planHash := by
    simpa using hfacts
  have hreachable := reachable_of_run _ provenCommands s hs
  have hsubmitted : Submitted s := ⟨by rw [hhash]; nofun, .inl hplanning⟩
  obtain ⟨r, hr⟩ := reopening_accepted (fun (authority : Empty) _ => authority.elim) s hreachable.recorded hreachable.worked
    hplanning (by rw [hversion]; decide)
  exact reopening_finishes s ((fenced_iff _ s).mp (h s hreachable hsubmitted) _ r hr)

end MoeNG.Core.PlanningRun
