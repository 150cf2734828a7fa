import MoeNG.Core.PlanningRun
import MoeNG.Lib.Run

/-!
# Runs of planning commands

One planning run from its creation on, any sequence of commands. An accepted
result replaces the stored state, a refusal keeps it.
-/

namespace MoeNG.Core.PlanningRun
open MoeNG.Kernel MoeNG.Lib MoeNG.Core

/-! ### What the contract snapshot promises -/

def validCarrier (s : PlanningRunState) : Bool :=
  if s.runKind = .EXPANSION then
    s.carrier.any fun carrier =>
      validExpansionHoldBinding carrier.expansion && sealedPlacement carrier.sealedProposal s.submissionHash
  else s.carrier.isNone

/-- The digests and the revision a run has recorded. -/
structure ValidContent (s : PlanningRunState) : Prop where
  submissionHash : s.submissionHash.all validHex64 = true
  sealedHashes : s.sealedHashes.all validHashes = true
  approvedHashes : s.approvedHashes.all validHashes = true
  graphRevisionRef : s.graphRevisionRef.all validRef = true

structure ValidRun (s : PlanningRunState) : Prop where
  facets : validFacetPlacement s.facets s.lifecycle = true
  runId : validRef s.runId = true
  goalRef : validRef s.goalRef = true
  version : 1 ≤ s.version ∧ s.version ≤ maxSafeInteger
  owned : s.facets.owned = true → s.attemptRef.any validRef = true ∧ s.leaseRef.any validRef = true
  unowned : s.facets.owned = false → s.attemptRef = none ∧ s.leaseRef = none
  content : ValidContent s
  placement : validContentPlacement s = true
  carrier : validCarrier s = true

theorem validPlanningRunContractState_eq (s : PlanningRunState) :
    validPlanningRunContractState s = (validPlanningRunState s && validCarrier s) := by
  unfold validPlanningRunContractState validExpansionContractState validCarrier
  by_cases hkind : s.runKind = .EXPANSION
  · simp [hkind]
  · simp [hkind, Bool.and_comm]

theorem validPlanningRunContractState_iff (s : PlanningRunState) :
    validPlanningRunContractState s = true ↔ ValidRun s := by
  have hmax : 0 ≤ maxSafeInteger := by decide
  rw [validPlanningRunContractState_eq]
  simp only [validPlanningRunState, Bool.and_eq_true, isSafeInteger_iff, decide_eq_true_eq]
  constructor
  · rintro ⟨⟨⟨⟨⟨⟨⟨⟨⟨⟨⟨h1, h2⟩, h3⟩, h4⟩, h5⟩, h6⟩, h7⟩, h8⟩, h9⟩, h10⟩, h11⟩, h12⟩
    refine ⟨h1, h2, h3, ⟨h5, h4.2⟩, fun ho => ?_, fun ho => ?_, ⟨h7, h8, h9, h10⟩, h11, h12⟩
    · simpa [ho] using h6
    · simpa [ho] using h6
  · intro h
    obtain ⟨hv1, hv2⟩ := h.version
    refine ⟨⟨⟨⟨⟨⟨⟨⟨⟨⟨⟨h.facets, h.runId⟩, h.goalRef⟩, by omega, hv2⟩, hv1⟩, ?_⟩, h.content.submissionHash⟩,
      h.content.sealedHashes⟩, h.content.approvedHashes⟩, h.content.graphRevisionRef⟩, h.placement⟩, h.carrier⟩
    cases ho : s.facets.owned with
    | true => simpa using h.owned ho
    | false => simpa using h.unowned ho

theorem snapshot_eq_some_iff (s t : PlanningRunState) :
    snapshotPlanningRunContractState s = some t ↔ ValidRun s ∧ s = t := by
  unfold snapshotPlanningRunContractState
  rw [← validPlanningRunContractState_iff]
  split <;> simp_all

theorem ValidRun.snapshot {s : PlanningRunState} (h : ValidRun s) : snapshotPlanningRunContractState s = some s :=
  (snapshot_eq_some_iff s s).mpr ⟨h, rfl⟩

/-! ### The invariant

The snapshot alone does not say that hashes are recorded once: an approval
repeats the sealed hashes, nothing is sealed before review, a draining run is
owned by a live planner, and no command makes the lease suspect.
-/

def beforeReview (lifecycle : PlanningRunLifecycle) : Bool :=
  lifecycle = .DRAFT || lifecycle = .READY || lifecycle = .PLANNING || lifecycle = .SUBMISSION_DRAINING

structure Recorded (s : PlanningRunState) : Prop where
  valid : ValidRun s
  unsealed : beforeReview s.lifecycle = true → s.sealedHashes = none
  approved : ∀ h, s.approvedHashes = some h → s.sealedHashes = some h
  draining : s.lifecycle = .SUBMISSION_DRAINING → s.facets.owned = true ∧ s.facets.livePlannerEffect = true
  leaseSuspect : s.facets.leaseSuspect = false

/-- What was recorded stays as it was. -/
def Keeps {α : Type} (before after : Option α) : Prop := ∀ a, before = some a → after = some a

theorem Keeps.refl {α : Type} (o : Option α) : Keeps o o := fun _ h => h

theorem Keeps.trans {α : Type} {a b c : Option α} (hab : Keeps a b) (hbc : Keeps b c) : Keeps a c :=
  fun x h => hbc x (hab x h)

theorem Keeps.of_none {α : Type} {a b : Option α} (h : a = none) : Keeps a b := fun x hx => by rw [h] at hx; cases hx

structure KeepsHashes (s t : PlanningRunState) : Prop where
  submissionHash : Keeps s.submissionHash t.submissionHash
  sealedHashes : Keeps s.sealedHashes t.sealedHashes
  approvedHashes : Keeps s.approvedHashes t.approvedHashes

theorem KeepsHashes.refl (s : PlanningRunState) : KeepsHashes s s := ⟨.refl _, .refl _, .refl _⟩

theorem KeepsHashes.trans {s t u : PlanningRunState} (hst : KeepsHashes s t) (htu : KeepsHashes t u) : KeepsHashes s u :=
  ⟨hst.submissionHash.trans htu.submissionHash, hst.sealedHashes.trans htu.sealedHashes,
    hst.approvedHashes.trans htu.approvedHashes⟩

/-- The hashes an activation witness names are the sealed ones. -/
def ActivatesSealed {Authority : Type} (s : PlanningRunState) (request : PlanningRunRequest Authority) : Prop :=
  ∃ planApproval witness hashes, request = .graphApprove planApproval witness ∧ s.sealedHashes = some hashes
    ∧ witness.graphHash = hashes.graphContentHash ∧ witness.qualityHash = hashes.qualityHash

structure Effect {Authority : Type} (s : PlanningRunState) (request : PlanningRunRequest Authority)
    (r : PlanningRunAccepted) : Prop where
  recorded : Recorded r.state
  successor : ∀ t, r.successor = some t → Recorded t
  version : r.state.version = s.version + r.events.length
  keeps : KeepsHashes s r.state
  activated : r.state.lifecycle = .ACTIVATED → ActivatesSealed s request

/-! ### Moves that record nothing -/

/-- A move changes who works on the run, not what it has recorded. -/
structure SameRecord (s t : PlanningRunState) : Prop where
  runId : t.runId = s.runId
  goalRef : t.goalRef = s.goalRef
  runKind : t.runKind = s.runKind
  carrier : t.carrier = s.carrier
  submissionHash : t.submissionHash = s.submissionHash
  sealedHashes : t.sealedHashes = s.sealedHashes
  approvedHashes : t.approvedHashes = s.approvedHashes
  graphRevisionRef : t.graphRevisionRef = s.graphRevisionRef

theorem SameRecord.keeps {s t : PlanningRunState} (h : SameRecord s t) : KeepsHashes s t where
  submissionHash := by rw [h.submissionHash]; exact .refl _
  sealedHashes := by rw [h.sealedHashes]; exact .refl _
  approvedHashes := by rw [h.approvedHashes]; exact .refl _

theorem Recorded.moved {s t : PlanningRunState} (hs : Recorded s) (hsame : SameRecord s t)
    (hfacets : validFacetPlacement t.facets t.lifecycle = true)
    (hversion : s.version ≤ t.version ∧ t.version ≤ maxSafeInteger)
    (howned : t.facets.owned = true → t.attemptRef.any validRef = true ∧ t.leaseRef.any validRef = true)
    (hunowned : t.facets.owned = false → t.attemptRef = none ∧ t.leaseRef = none)
    (hplacement : validContentPlacement t = true) (hunsealed : beforeReview t.lifecycle = true → s.sealedHashes = none)
    (hdraining : t.lifecycle ≠ .SUBMISSION_DRAINING) (hsuspect : t.facets.leaseSuspect = false) : Recorded t where
  valid := {
    facets := hfacets
    runId := by rw [hsame.runId]; exact hs.valid.runId
    goalRef := by rw [hsame.goalRef]; exact hs.valid.goalRef
    version := ⟨hs.valid.version.1.trans hversion.1, hversion.2⟩
    owned := howned
    unowned := hunowned
    content := {
      submissionHash := by rw [hsame.submissionHash]; exact hs.valid.content.submissionHash
      sealedHashes := by rw [hsame.sealedHashes]; exact hs.valid.content.sealedHashes
      approvedHashes := by rw [hsame.approvedHashes]; exact hs.valid.content.approvedHashes
      graphRevisionRef := by rw [hsame.graphRevisionRef]; exact hs.valid.content.graphRevisionRef }
    placement := hplacement
    carrier := by
      have h := hs.valid.carrier
      unfold validCarrier at h ⊢
      rw [hsame.runKind, hsame.carrier, hsame.submissionHash]
      exact h }
  unsealed := fun h => by rw [hsame.sealedHashes]; exact hunsealed h
  approved := fun h he => by
    rw [hsame.approvedHashes] at he
    rw [hsame.sealedHashes]
    exact hs.approved h he
  draining := fun h => absurd h hdraining
  leaseSuspect := hsuspect

/-- A move of one event that leaves the run where nothing more is recorded. -/
theorem Effect.of_move {Authority : Type} {s t : PlanningRunState} (request : PlanningRunRequest Authority)
    (event : PlanningRunEvent) (ht : Recorded t) (hsame : SameRecord s t) (hversion : t.version = s.version + 1)
    (hactivated : t.lifecycle ≠ .ACTIVATED) : Effect s request ⟨[event], t, none⟩ :=
  { recorded := ht
    successor := fun _ h => by cases h
    version := by rw [List.length_singleton, hversion, Nat.cast_one]
    keeps := hsame.keeps
    activated := fun h => absurd h hactivated }

section Handlers
variable {Authority : Type} (s : PlanningRunState) (commandId : JsString) (r : PlanningRunAccepted)

theorem ready_effect (w : PlanningReadinessWitness) (hs : Recorded s) (hlifecycle : s.lifecycle = .DRAFT)
    (hversion : s.version ≤ maxSafeInteger - 1) (h : ready s commandId w = .ok r) :
    Effect s (.ready w : PlanningRunRequest Authority) r := by
  unfold ready at h
  split at h
  · cases h
  obtain rfl := Except.ok.inj h
  have hsame : SameRecord s { s with lifecycle := .READY, version := s.version + 1 } :=
    ⟨rfl, rfl, rfl, rfl, rfl, rfl, rfl, rfl⟩
  have hfacets := hs.valid.facets
  have hplacement := hs.valid.placement
  refine .of_move _ _ (hs.moved hsame ?_ ⟨by dsimp only; omega, by dsimp only; omega⟩ hs.valid.owned hs.valid.unowned ?_
    (fun _ => hs.unsealed (by simp [beforeReview, hlifecycle])) nofun hs.leaseSuspect) hsame rfl nofun
  · simpa [validFacetPlacement, hlifecycle] using hfacets
  · simpa [validContentPlacement, hlifecycle] using hplacement

theorem claim_effect (resumeProof : Option PlanningResumeProof) (w : PlanningClaimWitness) (hs : Recorded s)
    (hlifecycle : s.lifecycle = .READY ∨ s.lifecycle = .PLANNING) (hversion : s.version ≤ maxSafeInteger - 1)
    (h : claim s commandId resumeProof w = .ok r) : Effect s (.claim resumeProof w : PlanningRunRequest Authority) r := by
  unfold claim at h
  split at h
  · cases h
  rename_i hw
  obtain rfl := Except.ok.inj h
  simp only [Bool.or_eq_true, Bool.not_eq_true', not_or, Bool.not_eq_false, validClaim, Bool.and_eq_true] at hw
  have hunsealed : s.sealedHashes = none := hs.unsealed (by rcases hlifecycle with hl | hl <;> simp [beforeReview, hl])
  have hsame : SameRecord s { s with
      attemptRef := some w.attemptRef
      facets := { leaseSuspect := false, livePlannerEffect := true, owned := true, resumable := false }
      leaseRef := some w.leaseRef, lifecycle := .PLANNING, version := s.version + 1 } :=
    ⟨rfl, rfl, rfl, rfl, rfl, rfl, rfl, rfl⟩
  exact .of_move _ _ (hs.moved hsame rfl ⟨by dsimp only; omega, by dsimp only; omega⟩
    (fun _ => ⟨hw.1.1.1.1.1, hw.1.1.1.2⟩) nofun rfl (fun _ => hunsealed) nofun rfl) hsame rfl nofun

theorem resumable_effect (request : PlanningRunRequest Authority) (event : PlanningRunEvent) (hs : Recorded s)
    (hlifecycle : s.lifecycle = .PLANNING) (hversion : s.version ≤ maxSafeInteger - 1) :
    Effect s request ⟨[event], resumableState s, none⟩ := by
  have hsame : SameRecord s (resumableState s) := ⟨rfl, rfl, rfl, rfl, rfl, rfl, rfl, rfl⟩
  have hplanning : (resumableState s).lifecycle = .PLANNING := hlifecycle
  refine .of_move _ _ (hs.moved hsame ?_ ⟨by dsimp only [resumableState]; omega, by dsimp only [resumableState]; omega⟩
    nofun (fun _ => ⟨rfl, rfl⟩) ?_ (fun _ => hs.unsealed (by simp [beforeReview, hlifecycle]))
    (by rw [hplanning]; nofun) rfl) hsame rfl (by rw [hplanning]; nofun)
  · simp [validFacetPlacement, resumableState, idle, hlifecycle]
  · simp [validContentPlacement, hplanning]

theorem release_effect (w : PlanningReleaseWitness) (hs : Recorded s) (hlifecycle : s.lifecycle = .PLANNING)
    (hversion : s.version ≤ maxSafeInteger - 1) (h : release s commandId w = .ok r) :
    Effect s (.release w : PlanningRunRequest Authority) r := by
  unfold release at h
  split at h
  · cases h
  obtain rfl := Except.ok.inj h
  exact resumable_effect s _ _ hs hlifecycle hversion

theorem recoverAbsent_effect (w : PlanningAbsenceRecoveryWitness) (hs : Recorded s) (hlifecycle : s.lifecycle = .PLANNING)
    (hversion : s.version ≤ maxSafeInteger - 1) (h : recoverAbsent s commandId w = .ok r) :
    Effect s (.recoverAbsent w : PlanningRunRequest Authority) r := by
  unfold recoverAbsent at h
  split at h
  · cases h
  obtain rfl := Except.ok.inj h
  exact resumable_effect s _ _ hs hlifecycle hversion

theorem cancel_effect (request : PlanningRunRequest Authority) (w : PlanningCancellationWitness) (hs : Recorded s)
    (hversion : s.version ≤ maxSafeInteger - 1) (h : cancel s commandId w = .ok r) : Effect s request r := by
  unfold cancel at h
  split at h
  · cases h
  obtain rfl := Except.ok.inj h
  have hsame : SameRecord s { s with
      attemptRef := none, facets := idle, leaseRef := none, lifecycle := .CANCELLED, version := s.version + 1 } :=
    ⟨rfl, rfl, rfl, rfl, rfl, rfl, rfl, rfl⟩
  exact .of_move _ _ (hs.moved hsame rfl ⟨by dsimp only; omega, by dsimp only; omega⟩ nofun (fun _ => ⟨rfl, rfl⟩) rfl
    nofun nofun rfl) hsame rfl nofun

/-! ### A rejection and its successor -/

theorem draft_recorded (runId goalRef : JsString) (runKind : PlanningRunKind) (carrier : Option ExpansionCarrier)
    (hrun : validRef runId = true) (hgoal : validRef goalRef = true)
    (hcarrier : validCarrier (draft runId goalRef runKind carrier) = true) :
    Recorded (draft runId goalRef runKind carrier) where
  valid := {
    facets := rfl
    runId := hrun
    goalRef := hgoal
    version := by
      have hmax : (1 : ℤ) ≤ maxSafeInteger := by decide
      exact ⟨le_refl _, hmax⟩
    owned := nofun
    unowned := fun _ => ⟨rfl, rfl⟩
    content := ⟨rfl, rfl, rfl, rfl⟩
    placement := rfl
    carrier := hcarrier }
  unsealed := fun _ => rfl
  approved := nofun
  draining := nofun
  leaseSuspect := rfl

theorem carriedBinding_eq (b : PlanningExpansionHoldBinding) (h : validExpansionHoldBinding b = true) :
    carriedBinding b = b := by
  simp only [validExpansionHoldBinding, Bool.and_eq_true, decide_eq_true_eq] at h
  obtain ⟨⟨⟨⟨⟨⟨⟨⟨⟨⟨-, -⟩, -⟩, -⟩, hlifecycle⟩, -⟩, -⟩, -⟩, -⟩, htruth⟩, -⟩ := h
  unfold carriedBinding
  rw [← hlifecycle, ← htruth]

/-- The successor of an expansion run carries its hold and seals nothing. -/
theorem successorData_carrier (runId : JsString) (hs : Recorded s) : validCarrier (successorData s runId) = true := by
  have h := hs.valid.carrier
  unfold validCarrier at h ⊢
  by_cases hkind : s.runKind = .EXPANSION
  · cases hcarrier : s.carrier with
    | none => simp [hkind, hcarrier] at h
    | some carrier =>
      rw [if_pos hkind, hcarrier, Option.any_some, Bool.and_eq_true] at h
      simp [successorData, successorCarrier, draft, sealedPlacement, hkind, hcarrier, h.1, carriedBinding_eq _ h.1]
  · rw [if_neg hkind, Option.isNone_iff_eq_none] at h
    simp [successorData, successorCarrier, draft, hkind, h]

theorem rejectRun_effect (request : PlanningRunRequest Authority) (findingsRef successorRunId : JsString)
    (hs : Recorded s) (hsuccessor : validRef successorRunId = true) (hversion : s.version ≤ maxSafeInteger - 1)
    (h : rejectRun s commandId findingsRef successorRunId = .ok r) : Effect s request r := by
  obtain rfl := Except.ok.inj h
  have hsame : SameRecord s { s with
      attemptRef := none, facets := idle, leaseRef := none, lifecycle := .REJECTED, version := s.version + 1 } :=
    ⟨rfl, rfl, rfl, rfl, rfl, rfl, rfl, rfl⟩
  refine ⟨hs.moved hsame rfl ⟨by dsimp only; omega, by dsimp only; omega⟩ nofun (fun _ => ⟨rfl, rfl⟩) rfl nofun nofun
    rfl,
    fun t ht => ?_, rfl, hsame.keeps, nofun⟩
  obtain rfl := Option.some.inj ht
  exact draft_recorded _ _ _ _ hsuccessor hs.valid.goalRef (successorData_carrier s successorRunId hs)

theorem revisePlan_effect (request : PlanningRunRequest Authority) (w : PlanningRefusalWitness) (hs : Recorded s)
    (hversion : s.version ≤ maxSafeInteger - 1) (h : revisePlan s commandId w = .ok r) : Effect s request r := by
  unfold revisePlan at h
  split at h
  · cases h
  rename_i hw
  simp only [Bool.or_eq_true, Bool.not_eq_true', not_or, Bool.not_eq_false, validHumanRefusal, validRefusal,
    Bool.and_eq_true] at hw
  exact rejectRun_effect s commandId r request _ _ hs hw.1.1.1.2 hversion h

/-! ### The sealed revision -/

theorem finalizeRevision_effect (request : PlanningRunRequest Authority) (revision : PlanRevisionSeal)
    (w : SubmissionFinalizeWitness) (hs : Recorded s) (hunsealed : s.sealedHashes = none)
    (hsubmission : s.submissionHash ≠ none) (hversion : s.version ≤ maxSafeInteger - 1)
    (h : finalizeRevision s commandId revision w = .ok r) : Effect s request r := by
  unfold finalizeRevision at h
  split at h
  · cases h
  rename_i hseal
  obtain rfl := Except.ok.inj h
  simp only [Bool.or_eq_true, Bool.not_eq_true', not_or, Bool.not_eq_false, validSeal, Bool.and_eq_true] at hseal
  obtain ⟨⟨hhashes, hrevision⟩, -⟩ := hseal
  obtain ⟨hash, hhash⟩ := Option.ne_none_iff_exists'.mp hsubmission
  have hvalid := hs.valid.content.submissionHash
  have hunapproved : s.approvedHashes = none := by
    cases happroved : s.approvedHashes with
    | none => rfl
    | some hashes =>
      have hsealed := hs.approved hashes happroved
      rw [hunsealed] at hsealed
      cases hsealed
  refine ⟨⟨?_, nofun, ?_, nofun, rfl⟩, (fun _ ht => by cases ht), rfl, ⟨.refl _, .of_none hunsealed, .refl _⟩, nofun⟩
  · refine ⟨rfl, hs.valid.runId, hs.valid.goalRef, ?_, nofun, fun _ => ⟨rfl, rfl⟩,
      ⟨hvalid, hhashes, hs.valid.content.approvedHashes, hrevision⟩, ?_, hs.valid.carrier⟩
    · have hone := hs.valid.version.1
      exact ⟨by dsimp only; omega, by dsimp only; omega⟩
    · rw [hhash, Option.all_some] at hvalid
      simp [validContentPlacement, hhash, hvalid, hhashes, hrevision, hunapproved]
  · intro hashes happroved
    rw [hunapproved] at happroved
    cases happroved

theorem finalize_effect (refusal : Option PlanningRefusalWitness) (revision : Option PlanRevisionSeal)
    (w : SubmissionFinalizeWitness) (hs : Recorded s) (hunsealed : s.sealedHashes = none)
    (hversion : s.version ≤ maxSafeInteger - 1) (h : finalize s commandId refusal revision w = .ok r) :
    Effect s (.finalizeSubmission refusal revision w : PlanningRunRequest Authority) r := by
  unfold finalize at h
  split at h
  · cases h
  rename_i hguard
  simp only [Bool.or_eq_true, Bool.not_eq_true', decide_eq_true_eq, not_or] at hguard
  split at h
  · rename_i refusal
    unfold finalizeRefusal at h
    split at h
    · cases h
    rename_i hw
    simp only [Bool.or_eq_true, Bool.not_eq_true', not_or, Bool.not_eq_false, validRefusal, Bool.and_eq_true] at hw
    exact rejectRun_effect s commandId r _ _ _ hs hw.1.1.2 hversion h
  · exact finalizeRevision_effect s commandId r _ _ w hs hunsealed hguard.2 hversion h
  · cases h

/-! ### Approval and activation -/

theorem Effect.repeated (request : PlanningRunRequest Authority) (hs : Recorded s) (hlifecycle : s.lifecycle ≠ .ACTIVATED) :
    Effect s request ⟨[], s, none⟩ where
  recorded := hs
  successor := fun _ h => by cases h
  version := by rw [List.length_nil, Nat.cast_zero, add_zero]
  keeps := .refl s
  activated := fun h => absurd h hlifecycle

/-- A reviewed run that takes its sealed hashes over. -/
theorem Recorded.approve {s : PlanningRunState} (hs : Recorded s) (hashes : PlanRevisionHashes)
    (lifecycle : PlanningRunLifecycle) (version : ℤ) (hsealed : s.sealedHashes = some hashes)
    (hsource : s.lifecycle = .PLAN_REVIEW ∨ s.lifecycle = .APPROVED)
    (htarget : lifecycle = .APPROVED ∨ lifecycle = .ACTIVATED)
    (hversion : s.version ≤ version ∧ version ≤ maxSafeInteger) :
    Recorded { s with approvedHashes := some hashes, lifecycle := lifecycle, version := version } := by
  have hfacets := hs.valid.facets
  have hplacement := hs.valid.placement
  have hvalid := hs.valid.content.sealedHashes
  rw [hsealed, Option.all_some] at hvalid
  refine ⟨⟨?_, hs.valid.runId, hs.valid.goalRef, ⟨hs.valid.version.1.trans hversion.1, hversion.2⟩, hs.valid.owned,
    hs.valid.unowned, ⟨hs.valid.content.submissionHash, hs.valid.content.sealedHashes, hvalid,
      hs.valid.content.graphRevisionRef⟩, ?_, hs.valid.carrier⟩, ?_, ?_, ?_, hs.leaseSuspect⟩
  · rcases hsource with hl | hl <;> rcases htarget with rfl | rfl <;> simpa [validFacetPlacement, hl] using hfacets
  · rcases hsource with hl | hl <;> rcases htarget with rfl | rfl <;>
      simp_all [validContentPlacement]
  · rcases htarget with rfl | rfl <;> nofun
  · intro h he
    rw [← Option.some.inj he]
    exact hsealed
  · rcases htarget with rfl | rfl <;> nofun

theorem approvedHashes_none (hs : Recorded s) (hlifecycle : s.lifecycle = .PLAN_REVIEW) : s.approvedHashes = none := by
  have h := hs.valid.placement
  simp [validContentPlacement, hlifecycle] at h
  exact h.2

theorem approvePlan_effect (w : PlanApprovalWitness) (hs : Recorded s)
    (hlifecycle : s.lifecycle = .PLAN_REVIEW ∨ s.lifecycle = .APPROVED) (hversion : s.version ≤ maxSafeInteger - 1)
    (h : approvePlan s commandId w = .ok r) : Effect s (.planApprove w : PlanningRunRequest Authority) r := by
  unfold approvePlan at h
  split at h
  · cases h
  split at h
  · rename_i happroved
    split at h
    · obtain rfl := Except.ok.inj h
      exact .repeated s _ hs (by rw [happroved]; nofun)
    · cases h
  rename_i hreview
  split at h
  · cases h
  rename_i hsealed
  obtain rfl := Except.ok.inj h
  have hnone := approvedHashes_none s hs (hlifecycle.resolve_right hreview)
  exact ⟨hs.approve _ _ _ (not_not.mp hsealed) hlifecycle (.inl rfl) ⟨by omega, by omega⟩, (fun _ ht => by cases ht), rfl,
    ⟨.refl _, .refl _, .of_none hnone⟩, nofun⟩

theorem activate_effect (planApproval : Option PlanApprovalWitness) (w : PlanningActivationWitness) (hs : Recorded s)
    (hlifecycle : s.lifecycle = .PLAN_REVIEW ∨ s.lifecycle = .APPROVED)
    (hversion : s.version ≤ maxSafeInteger - if s.lifecycle = .PLAN_REVIEW then 2 else 1)
    (h : activate s commandId planApproval w = .ok r) :
    Effect s (.graphApprove planApproval w : PlanningRunRequest Authority) r := by
  unfold activate at h
  split at h
  · cases h
  rename_i hashes hsealed
  split at h
  · cases h
  rename_i hw
  simp only [Bool.or_eq_true, decide_eq_true_eq, not_or, not_not] at hw
  have hactivates : ActivatesSealed s (.graphApprove planApproval w : PlanningRunRequest Authority) :=
    ⟨planApproval, w, hashes, rfl, hsealed, hw.1.2, hw.2⟩
  split at h
  · rename_i hreview
    rw [if_pos hreview] at hversion
    unfold activateReviewed at h
    split at h
    · cases h
    rename_i approval
    split at h
    · cases h
    rename_i happroval
    simp only [Bool.or_eq_true, decide_eq_true_eq, not_or, not_not] at happroval
    obtain rfl := Except.ok.inj h
    rw [happroval.2] at hsealed
    refine ⟨hs.approve _ _ _ hsealed hlifecycle (.inr rfl) ⟨by omega, by omega⟩, (fun _ ht => by cases ht), ?_,
      ⟨.refl _, .refl _, .of_none (approvedHashes_none s hs hreview)⟩, fun _ => hactivates⟩
    show s.version + 1 + 1 = s.version + (2 : ℕ)
    omega
  · rename_i hreview
    rw [if_neg hreview] at hversion
    unfold activateApproved at h
    split at h
    · rename_i approved happroved
      split at h
      · cases h
      rename_i hsame
      rw [not_not] at hsame
      obtain rfl := Except.ok.inj h
      rw [← hsame] at hsealed
      exact ⟨hs.approve _ _ _ hsealed hlifecycle (.inr rfl) ⟨by omega, by omega⟩, (fun _ ht => by cases ht), rfl,
        ⟨.refl _, .refl _, by rw [happroved]; exact .refl _⟩, fun _ => hactivates⟩
    · cases h

/-! ### The sealed submission -/

/-- The hash a claimed run seals stays while it drains; a carried hold names the proposal it belongs to. -/
theorem sealPlan_recorded {s : PlanningRunState} (p : PlanProposal Authority) (carrier : Option ExpansionCarrier)
    (plan : SealPlan) (hs : Recorded s) (hlifecycle : s.lifecycle = .PLANNING ∨ s.lifecycle = .SUBMISSION_DRAINING)
    (hversion : s.version ≤ maxSafeInteger - 1) (hhash : validHex64 p.submissionHash = true)
    (hcarrier : validCarrier { s with carrier := carrier, submissionHash := some p.submissionHash } = true)
    (h : sealPlan s p carrier = some plan) :
    Recorded plan.next ∧ plan.next.version = s.version + 1 ∧ plan.next.submissionHash = some p.submissionHash
      ∧ plan.next.sealedHashes = s.sealedHashes ∧ plan.next.approvedHashes = s.approvedHashes
      ∧ plan.next.lifecycle ≠ .ACTIVATED := by
  unfold sealPlan at h
  split at h
  · cases h
  rename_i howned
  simp only [Bool.or_eq_true, Bool.not_eq_true', not_or, Bool.not_eq_false] at howned
  obtain rfl := Option.some.inj h
  have hfacets := hs.valid.facets
  have hsuspect := hs.leaseSuspect
  have hone := hs.valid.version.1
  have hunsealed : s.sealedHashes = none := hs.unsealed (by rcases hlifecycle with hl | hl <;> simp [beforeReview, hl])
  generalize hdraining : (s.facets.livePlannerEffect && p.effectTerminalProof.isNone) = draining
  refine ⟨⟨⟨?_, hs.valid.runId, hs.valid.goalRef, ⟨by dsimp only; omega, by dsimp only; omega⟩, hs.valid.owned,
    hs.valid.unowned, ⟨?_, hs.valid.content.sealedHashes, hs.valid.content.approvedHashes,
      hs.valid.content.graphRevisionRef⟩, ?_, hcarrier⟩, fun _ => hunsealed, hs.approved, ?_, hsuspect⟩, rfl, rfl, rfl, rfl,
    ?_⟩
  · have hresumable : s.facets.resumable = false := by
      simp only [validFacetPlacement, Bool.and_eq_true] at hfacets
      simpa [howned.1] using hfacets.1.2
    cases draining <;> simp [validFacetPlacement, hresumable, hsuspect]
  · simpa using hhash
  · cases draining <;> simp [validContentPlacement, hhash]
  · intro hl
    cases draining with
    | false => cases hl
    | true => exact ⟨howned.1, rfl⟩
  · cases draining <;> nofun

theorem sealed_effect (request : PlanningRunRequest Authority) (p : PlanProposal Authority)
    (carrier : Option ExpansionCarrier) (plan : SealPlan) (event : PlanningRunEvent) (hs : Recorded s)
    (hlifecycle : s.lifecycle = .PLANNING ∨ s.lifecycle = .SUBMISSION_DRAINING)
    (hversion : s.version ≤ maxSafeInteger - 1) (hfirst : s.submissionHash = none)
    (hhash : validHex64 p.submissionHash = true)
    (hcarrier : validCarrier { s with carrier := carrier, submissionHash := some p.submissionHash } = true)
    (h : sealPlan s p carrier = some plan) : Effect s request ⟨[event], plan.next, none⟩ := by
  obtain ⟨hrecorded, hnext, hsubmission, hsealed, happroved, hactivated⟩ :=
    sealPlan_recorded p carrier plan hs hlifecycle hversion hhash hcarrier h
  refine ⟨hrecorded, (fun _ ht => by cases ht), ?_, ⟨.of_none hfirst, ?_, ?_⟩, fun ha => absurd ha hactivated⟩
  · rw [List.length_singleton, hnext, Nat.cast_one]
  · rw [hsealed]
    exact .refl _
  · rw [happroved]
    exact .refl _

theorem repropose_effect (request : PlanningRunRequest Authority) (sealedHash submissionHash : JsString) (hs : Recorded s)
    (hlifecycle : s.lifecycle = .PLANNING ∨ s.lifecycle = .SUBMISSION_DRAINING)
    (h : repropose s sealedHash submissionHash = .ok r) : Effect s request r := by
  unfold repropose at h
  split at h
  · obtain rfl := Except.ok.inj h
    exact .repeated s _ hs (by rcases hlifecycle with hl | hl <;> rw [hl] <;> nofun)
  · cases h

theorem proposeExpansion_effect (expectedVersion : ℤ) (p : PlanProposal Authority) (hs : Recorded s)
    (hlifecycle : s.lifecycle = .PLANNING ∨ s.lifecycle = .SUBMISSION_DRAINING)
    (hversion : s.version ≤ maxSafeInteger - 1) (h : proposeExpansion s commandId expectedVersion p = .ok r) :
    Effect s (.propose p) r := by
  unfold proposeExpansion at h
  split at h
  swap
  · cases h
  rename_i carrier expansion sealedProposal hcarrier hexpansion hproposal
  split at h
  · cases h
  rename_i hguard
  simp only [Bool.or_eq_true, Bool.not_eq_true', not_or, Bool.not_eq_false] at hguard
  obtain ⟨⟨hcommand, hhold⟩, -⟩ := hguard
  split at h
  · exact repropose_effect s r _ _ _ hs hlifecycle h
  rename_i hfirst
  split at h
  · cases h
  rename_i plan hplan
  obtain rfl := Except.ok.inj h
  simp only [validExpansionProposeCommand, Bool.and_eq_true, hproposal, Option.any_some, decide_eq_true_eq] at hcommand
  obtain ⟨⟨⟨⟨-, hhash⟩, -⟩, -⟩, ⟨hidentity, hsame⟩, -⟩ := hcommand
  refine sealed_effect s _ p _ plan _ hs hlifecycle hversion hfirst hhash ?_ hplan
  have hkind : s.runKind = .EXPANSION := by
    by_contra hkind
    have hnone := hs.valid.carrier
    simp [validCarrier, hkind, hcarrier] at hnone
  simp [validCarrier, hkind, hhold, sealedPlacement, hidentity, hsame]

theorem propose_effect (admitPlanAuthoritySubmission : Authority → JsString → Option PlanAuthorityIdentity)
    (expectedVersion : ℤ) (p : PlanProposal Authority) (hs : Recorded s)
    (hlifecycle : s.lifecycle = .PLANNING ∨ s.lifecycle = .SUBMISSION_DRAINING)
    (hversion : s.version ≤ maxSafeInteger - 1)
    (h : propose admitPlanAuthoritySubmission s commandId expectedVersion p = .ok r) : Effect s (.propose p) r := by
  unfold propose at h
  split at h
  · cases h
  split at h
  · cases h
  rename_i hguard
  simp only [Bool.or_eq_true, Bool.not_eq_true', not_or, Bool.not_eq_false] at hguard
  split at h
  · exact proposeExpansion_effect s commandId r expectedVersion p hs hlifecycle hversion h
  rename_i hexpansion
  split at h
  · cases h
  rename_i hkind
  rw [not_not] at hkind
  split at h
  · exact repropose_effect s r _ _ _ hs hlifecycle h
  rename_i hfirst
  split at h
  · cases h
  rename_i plan hplan
  obtain rfl := Except.ok.inj h
  refine sealed_effect s _ p _ plan _ hs hlifecycle hversion hfirst hguard.2 ?_ hplan
  have hcarrier := hs.valid.carrier
  rw [← hkind] at hexpansion
  unfold validCarrier at hcarrier ⊢
  rw [if_neg hexpansion] at hcarrier ⊢
  exact hcarrier

end Handlers

/-! ### One accepted command -/

section Runs
variable {Authority : Type} (admitPlanAuthoritySubmission : Authority → JsString → Option PlanAuthorityIdentity)

theorem applyRequest_effect (s : PlanningRunState) (commandId : JsString) (expectedVersion : ℤ)
    (request : PlanningRunRequest Authority) (r : PlanningRunAccepted) (hs : Recorded s)
    (hallowed : s.lifecycle ∈ planningRunTransitions request.kind) (hsafe : safeToApply s request.kind = true)
    (h : applyRequest admitPlanAuthoritySubmission s commandId expectedVersion request = .ok r) : Effect s request r := by
  have hversion : s.version ≤ maxSafeInteger - 1 := by
    simp only [safeToApply, decide_eq_true_eq] at hsafe
    split at hsafe <;> omega
  -- the table admits no lifecycle for a second creation or a cancellation of the planning
  cases request <;>
    simp only [PlanningRunRequest.kind, planningRunTransitions, List.mem_cons, List.not_mem_nil, or_false] at hallowed
  case ready w => exact ready_effect s commandId r w hs hallowed hversion h
  case claim resumeProof w => exact claim_effect s commandId r resumeProof w hs hallowed hversion h
  case release w => exact release_effect s commandId r w hs hallowed hversion h
  case recoverAbsent w => exact recoverAbsent_effect s commandId r w hs hallowed hversion h
  case propose p => exact propose_effect s commandId r admitPlanAuthoritySubmission expectedVersion p hs hallowed hversion h
  case finalizeSubmission refusal revision w =>
    have hunsealed := hs.unsealed (by rcases hallowed with hl | hl <;> simp [beforeReview, hl])
    exact finalize_effect s commandId r refusal revision w hs hunsealed hversion h
  case planApprove w => exact approvePlan_effect s commandId r w hs hallowed hversion h
  case planRevise w => exact revisePlan_effect s commandId r _ w hs hversion h
  case graphApprove planApproval w =>
    have hroom := of_decide_eq_true hsafe
    exact activate_effect s commandId r planApproval w hs hallowed (by simpa [PlanningRunRequest.kind] using hroom) h
  case goalCancel w => exact cancel_effect s commandId r _ w hs hversion h

/-- The guards in front of the handlers let the command through. -/
structure Gate (s : PlanningRunState) (c : PlanningRunCommand Authority) : Prop where
  expectedVersion : c.expectedVersion = s.version
  commandId : validRef c.commandId = true
  allowed : s.lifecycle ∈ planningRunTransitions c.request.kind
  safe : safeToApply s c.request.kind = true

theorem reducePlanningRun_ok_iff (s : PlanningRunState) (c : PlanningRunCommand Authority) (r : PlanningRunAccepted)
    (hs : Recorded s) :
    reducePlanningRun admitPlanAuthoritySubmission (some s) c = .ok r ↔
      Gate s c ∧ applyRequest admitPlanAuthoritySubmission s c.commandId c.expectedVersion c.request = .ok r := by
  obtain ⟨hlow, hhigh⟩ := hs.valid.version
  have hmax : 0 ≤ maxSafeInteger := by decide
  unfold reducePlanningRun
  dsimp only
  rw [hs.valid.snapshot]
  dsimp only
  constructor
  · intro h
    split at h
    · cases h
    split at h
    · cases h
    rename_i hversion
    split at h
    · cases h
    rename_i hcommand
    split at h
    · split at h <;> cases h
    rename_i hallowed
    split at h
    · cases h
    rename_i hsafe
    exact ⟨⟨not_not.mp hversion, by simpa using hcommand, not_not.mp hallowed, by simpa using hsafe⟩, h⟩
  · rintro ⟨⟨hversion, hcommand, hallowed, hsafe⟩, h⟩
    have hexpected : validExpectedVersion c.expectedVersion = true := by
      simp only [validExpectedVersion, Bool.and_eq_true, isSafeInteger_iff, decide_eq_true_eq]
      omega
    rw [hexpected, if_neg (by decide), if_neg (not_not.mpr hversion), hcommand, if_neg (by decide),
      if_neg (not_not.mpr hallowed), hsafe, if_neg (by decide)]
    exact h

theorem reducePlanningRun_effect (s : PlanningRunState) (c : PlanningRunCommand Authority) (r : PlanningRunAccepted)
    (hs : Recorded s) (h : reducePlanningRun admitPlanAuthoritySubmission (some s) c = .ok r) : Effect s c.request r := by
  obtain ⟨hgate, h⟩ := (reducePlanningRun_ok_iff admitPlanAuthoritySubmission s c r hs).mp h
  exact applyRequest_effect admitPlanAuthoritySubmission s c.commandId c.expectedVersion c.request r hs hgate.allowed
    hgate.safe h

/-- A creation starts a draft of its purpose. -/
theorem reducePlanningRun_created (c : PlanningRunCommand Authority) (r : PlanningRunAccepted)
    (h : reducePlanningRun admitPlanAuthoritySubmission none c = .ok r) :
    Recorded r.state ∧ r.successor = none ∧ r.events.length = 1 ∧ r.state.version = 1 ∧ r.state.lifecycle = .DRAFT := by
  unfold reducePlanningRun at h
  dsimp only at h
  split at h
  swap
  · cases h
  rename_i runId goalRef runKind expansion hrequest
  split at h
  · cases h
  unfold create at h
  split at h
  · cases h
  rename_i hguard
  simp only [Bool.or_eq_true, Bool.not_eq_true', not_or, Bool.not_eq_false] at hguard
  split at h
  · unfold createExpansion at h
    split at h
    · cases h
    rename_i binding
    split at h
    · cases h
    rename_i hcommand
    obtain rfl := Except.ok.inj h
    simp only [Bool.not_eq_true', Bool.not_eq_false, validExpansionCreateCommand, Bool.and_eq_true] at hcommand
    refine ⟨draft_recorded _ _ _ _ hguard.1.2 hguard.2 ?_, rfl, rfl, rfl, rfl⟩
    simp [validCarrier, draft, sealedPlacement, hcommand.2]
  · rename_i hkind
    obtain rfl := Except.ok.inj h
    refine ⟨draft_recorded _ _ _ _ hguard.1.2 hguard.2 ?_, rfl, rfl, rfl, rfl⟩
    simp [validCarrier, draft, hkind]

/-! ### Runs -/

/-- The stored run, the events emitted so far and the runs its rejection minted. -/
structure PlanningLog where
  state : Option PlanningRunState
  events : List PlanningRunEvent
  successors : List PlanningRunState
  deriving DecidableEq

def PlanningLog.empty : PlanningLog := ⟨none, [], []⟩

def planningStep (log : PlanningLog) (command : PlanningRunCommand Authority) : PlanningLog :=
  match reducePlanningRun admitPlanAuthoritySubmission log.state command with
  | .ok r => ⟨some r.state, log.events ++ r.events, log.successors ++ r.successor.toList⟩
  | .error _ => log

structure PlanningReached (log : PlanningLog) : Prop where
  state : ∀ s, log.state = some s → Recorded s ∧ s.version = log.events.length
  absent : log.state = none → log = .empty
  successors : ∀ t ∈ log.successors, Recorded t

theorem planningStep_reached (log : PlanningLog) (c : PlanningRunCommand Authority) (h : PlanningReached log) :
    PlanningReached (planningStep admitPlanAuthoritySubmission log c) := by
  unfold planningStep
  cases hreduce : reducePlanningRun admitPlanAuthoritySubmission log.state c with
  | error e => exact h
  | ok r =>
    cases hstate : log.state with
    | none =>
      rw [hstate] at hreduce
      obtain ⟨hrecorded, hsuccessor, hlength, hversion, -⟩ :=
        reducePlanningRun_created admitPlanAuthoritySubmission c r hreduce
      have hempty := h.absent hstate
      refine ⟨fun s hs => ?_, nofun, ?_⟩
      · obtain rfl := Option.some.inj hs
        simp [hempty, PlanningLog.empty, hrecorded, hversion, hlength]
      · simp [hempty, PlanningLog.empty, hsuccessor]
    | some s =>
      rw [hstate] at hreduce
      obtain ⟨hs, hversion⟩ := h.state s hstate
      have heffect := reducePlanningRun_effect admitPlanAuthoritySubmission s c r hs hreduce
      refine ⟨fun t ht => ?_, nofun, fun t ht => ?_⟩
      · obtain rfl := Option.some.inj ht
        refine ⟨heffect.recorded, ?_⟩
        rw [heffect.version, hversion, List.length_append, Nat.cast_add]
      · obtain ht | ht := List.mem_append.mp ht
        · exact h.successors t ht
        · exact heffect.successor t (Option.mem_toList.mp ht)

theorem run_reached (commands : List (PlanningRunCommand Authority)) :
    PlanningReached (run (planningStep admitPlanAuthoritySubmission) .empty commands) :=
  run_invariant _ PlanningReached (planningStep_reached admitPlanAuthoritySubmission) _
    ⟨(fun _ h => by cases h), fun _ => rfl, fun _ h => by cases h⟩ commands

theorem planningStep_keeps (log : PlanningLog) (s : PlanningRunState) (c : PlanningRunCommand Authority)
    (hstate : log.state = some s) (hs : Recorded s) :
    ∃ t, (planningStep admitPlanAuthoritySubmission log c).state = some t ∧ Recorded t ∧ KeepsHashes s t := by
  unfold planningStep
  cases hreduce : reducePlanningRun admitPlanAuthoritySubmission log.state c with
  | error e => exact ⟨s, hstate, hs, .refl s⟩
  | ok r =>
    rw [hstate] at hreduce
    have heffect := reducePlanningRun_effect admitPlanAuthoritySubmission s c r hs hreduce
    exact ⟨r.state, rfl, heffect.recorded, heffect.keeps⟩

theorem run_keeps (log : PlanningLog) (s : PlanningRunState) (commands : List (PlanningRunCommand Authority))
    (hstate : log.state = some s) (hs : Recorded s) :
    ∃ t, (run (planningStep admitPlanAuthoritySubmission) log commands).state = some t ∧ KeepsHashes s t := by
  induction commands generalizing log s with
  | nil => exact ⟨s, hstate, .refl s⟩
  | cons c rest ih =>
    obtain ⟨t, ht, hrecorded, hkeeps⟩ := planningStep_keeps admitPlanAuthoritySubmission log s c hstate hs
    obtain ⟨u, hu, hrest⟩ := ih _ t ht hrecorded
    exact ⟨u, hu, hkeeps.trans hrest⟩

theorem reducePlanningRun_activated (log : PlanningLog) (hlog : PlanningReached log) (c : PlanningRunCommand Authority)
    (r : PlanningRunAccepted) (h : reducePlanningRun admitPlanAuthoritySubmission log.state c = .ok r)
    (hactivated : r.state.lifecycle = .ACTIVATED) :
    ∃ planApproval witness hashes, c.request = .graphApprove planApproval witness
      ∧ r.state.sealedHashes = some hashes ∧ witness.graphHash = hashes.graphContentHash
      ∧ witness.qualityHash = hashes.qualityHash := by
  cases hstate : log.state with
  | none =>
    rw [hstate] at h
    have hdraft := (reducePlanningRun_created admitPlanAuthoritySubmission c r h).2.2.2.2
    rw [hactivated] at hdraft
    cases hdraft
  | some s =>
    rw [hstate] at h
    have heffect := reducePlanningRun_effect admitPlanAuthoritySubmission s c r (hlog.state s hstate).1 h
    obtain ⟨planApproval, w, hashes, hrequest, hsealed, hgraph, hquality⟩ := heffect.activated hactivated
    exact ⟨planApproval, w, hashes, hrequest, heffect.keeps.sealedHashes hashes hsealed, hgraph, hquality⟩

theorem Recorded.refs_iff {s : PlanningRunState} (h : Recorded s) :
    (s.attemptRef.isSome ↔ s.facets.owned = true) ∧ (s.leaseRef.isSome ↔ s.facets.owned = true) := by
  cases howned : s.facets.owned with
  | false =>
    obtain ⟨hattempt, hlease⟩ := h.valid.unowned howned
    simp [hattempt, hlease]
  | true =>
    obtain ⟨hattempt, hlease⟩ := h.valid.owned howned
    cases ha : s.attemptRef <;> cases hl : s.leaseRef <;> simp_all

theorem Recorded.owned_lifecycle {s : PlanningRunState} (h : Recorded s) (howned : s.facets.owned = true) :
    s.lifecycle = .PLANNING ∨ s.lifecycle = .SUBMISSION_DRAINING := by
  have hfacets := h.valid.facets
  simp only [validFacetPlacement, Bool.and_eq_true] at hfacets
  simpa [howned] using hfacets.1.1.1

/-- The planning lifecycle. Along every run: the stored state and every
successor a rejection minted are accepted unchanged by the contract snapshot,
the version counts the events, each recorded hash stays as it was first set,
an approval repeats the sealed hashes, the attempt and its lease are named
exactly while the run is owned, a draining run has a live planner, and only a
witness for the sealed hashes activates. -/
theorem planning_run_invariant (commands later : List (PlanningRunCommand Authority)) :
    let log := run (planningStep admitPlanAuthoritySubmission) .empty commands
    let after := run (planningStep admitPlanAuthoritySubmission) log later
    (∀ s, log.state = some s →
        snapshotPlanningRunContractState s = some s
        ∧ s.version = log.events.length
        ∧ (∃ t, after.state = some t ∧ KeepsHashes s t)
        ∧ (∀ hashes, s.approvedHashes = some hashes → s.sealedHashes = some hashes)
        ∧ (s.attemptRef.isSome ↔ s.facets.owned = true)
        ∧ (s.leaseRef.isSome ↔ s.facets.owned = true)
        ∧ (s.facets.owned = true → s.lifecycle = .PLANNING ∨ s.lifecycle = .SUBMISSION_DRAINING)
        ∧ (s.lifecycle = .SUBMISSION_DRAINING → s.facets.owned = true ∧ s.facets.livePlannerEffect = true))
      ∧ (∀ t ∈ log.successors, snapshotPlanningRunContractState t = some t)
      ∧ ∀ c r, reducePlanningRun admitPlanAuthoritySubmission log.state c = .ok r → r.state.lifecycle = .ACTIVATED →
        ∃ planApproval witness hashes, c.request = .graphApprove planApproval witness
          ∧ r.state.sealedHashes = some hashes ∧ witness.graphHash = hashes.graphContentHash
          ∧ witness.qualityHash = hashes.qualityHash := by
  intro log after
  have hreached : PlanningReached log := run_reached admitPlanAuthoritySubmission commands
  refine ⟨fun s hs => ?_, fun t ht => (hreached.successors t ht).valid.snapshot,
    reducePlanningRun_activated admitPlanAuthoritySubmission log hreached⟩
  obtain ⟨hrecorded, hversion⟩ := hreached.state s hs
  exact ⟨hrecorded.valid.snapshot, hversion, run_keeps admitPlanAuthoritySubmission log s later hs hrecorded,
    hrecorded.approved, hrecorded.refs_iff.1, hrecorded.refs_iff.2, hrecorded.owned_lifecycle, hrecorded.draining⟩

end Runs

def sampleHashes : PlanRevisionHashes :=
  ⟨List.replicate 64 0x31, List.replicate 64 0x32, List.replicate 64 0x33, List.replicate 64 0x34⟩

-- a draining submission that is finalized, approved and activated in one step
def sampleCommands : List (PlanningRunCommand Empty) :=
  [⟨lit "cmd-1", 0, .createDraft (lit "run-1") (lit "goal-1") .INITIAL none⟩,
    ⟨lit "cmd-2", 1, .ready ⟨lit "criteria-1", lit "base-1", lit "budget-1", .DAEMON_VERIFIED⟩⟩,
    ⟨lit "cmd-3", 2, .claim none ⟨lit "attempt-1", lit "context-1", lit "lease-1", lit "slot-1", .DAEMON_VERIFIED⟩⟩,
    ⟨lit "cmd-4", 3, .propose ⟨.INITIAL, sampleHashes.planHash, ⟨lit "attempt-1", lit "submission-1", .DAEMON_VERIFIED⟩,
      none, none, none, none⟩⟩,
    ⟨lit "cmd-5", 4, .finalizeSubmission none (some ⟨sampleHashes, lit "revision-1"⟩)
      ⟨lit "terminal-1", lit "effect-1", [⟨true, lit "node-1"⟩], lit "slot-1", lit "resources-1", .DAEMON_VERIFIED⟩⟩,
    ⟨lit "cmd-6", 5, .graphApprove (some ⟨sampleHashes, lit "approval-1", .HUMAN_APPROVED⟩)
      ⟨lit "activation-1", sampleHashes.planHash, 1, true, sampleHashes.graphContentHash, sampleHashes.planHash,
        sampleHashes.qualityHash, .HUMAN_APPROVED⟩⟩]

example :
    (run (planningStep fun authority _ => authority.elim) .empty sampleCommands).state.map
      (fun s => (s.lifecycle, s.version, s.approvedHashes)) = some (.ACTIVATED, 7, some sampleHashes) := by
  decide +kernel

end MoeNG.Core.PlanningRun
