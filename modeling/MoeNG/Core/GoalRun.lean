import MoeNG.Core.Goal
import MoeNG.Lib.Run

/-!
# Runs of goal commands

One goal from its creation on, any sequence of commands. An accepted result
replaces the stored state, a refusal keeps it.
-/

namespace MoeNG.Core.Goal
open MoeNG.Kernel MoeNG.Lib MoeNG.Core

/-! ### What the state validator promises -/

structure ValidGoal (s : GoalState) : Prop where
  lineage : validLineage s.goalId s.predecessorGoalRef s.generation = true
  projectId : validRef s.projectId = true
  budgetAccountRef : validRef s.budgetAccountRef = true
  planningRunRef : validRef s.planningRunRef = true
  recovery : validRecoveryFacets s.qualificationInvalidatedRef s.lifecycle = true
  version : 1 ≤ s.version ∧ s.version ≤ maxSafeInteger
  graphEpoch : 0 ≤ s.graphEpoch ∧ s.graphEpoch ≤ maxSafeInteger
  draft : s.lifecycle = .DRAFT → s.graphEpoch = 0
  completed : s.lifecycle = .COMPLETED → 0 < s.graphEpoch
  active : validActiveRevision s = true

theorem validGoalState_iff (s : GoalState) : validGoalState s = true ↔ ValidGoal s := by
  simp only [validGoalState, Bool.and_eq_true, Bool.or_eq_true, decide_eq_true_eq, isSafeInteger_iff]
  constructor
  · rintro ⟨⟨⟨⟨⟨⟨⟨⟨⟨⟨⟨h1, h2⟩, h3⟩, h4⟩, h5⟩, h6⟩, h7⟩, h8⟩, h9⟩, h10⟩, h11⟩, h12⟩
    exact ⟨h1, h2, h3, h4, h5, ⟨h7, h6.2⟩, ⟨h9, h8.2⟩, fun h => h10.resolve_left fun hn => hn h,
      fun h => h11.resolve_left fun hn => hn h, h12⟩
  · intro h
    have hmax : 0 ≤ maxSafeInteger := by decide
    obtain ⟨hv1, hv2⟩ := h.version
    obtain ⟨he1, he2⟩ := h.graphEpoch
    exact ⟨⟨⟨⟨⟨⟨⟨⟨⟨⟨⟨h.lineage, h.projectId⟩, h.budgetAccountRef⟩, h.planningRunRef⟩, h.recovery⟩,
      ⟨by omega, hv2⟩⟩, hv1⟩, ⟨by omega, he2⟩⟩, he1⟩, Decidable.not_or_of_imp h.draft⟩,
      Decidable.not_or_of_imp h.completed⟩, h.active⟩

/-- The active revision is named exactly while the goal executes or closes. -/
theorem ValidGoal.active_iff {s : GoalState} (h : ValidGoal s) :
    s.activeGraphRevisionRef ≠ none ↔ s.lifecycle = .EXECUTION_ENABLED ∨ s.lifecycle = .CLOSING := by
  have hactive := h.active
  unfold validActiveRevision at hactive
  cases href : s.activeGraphRevisionRef with
  | none =>
    rw [href] at hactive
    simpa [isActive] using hactive
  | some ref =>
    rw [href] at hactive
    simp only [Bool.and_eq_true, isActive, decide_eq_true_eq] at hactive
    simpa using hactive.1.1

/-! ### What one accepted command does -/

def GoalRequest.advancesGraph (request : GoalRequest) : Bool :=
  request.kind = .activateInitialGraph ∨ request.kind = .advanceGraphEpoch

def isTerminal (lifecycle : GoalLifecycle) : Bool := lifecycle = .COMPLETED ∨ lifecycle = .CANCELLED

structure Effect (s : GoalState) (request : GoalRequest) (r : GoalAccepted) : Prop where
  valid : ValidGoal r.state
  successor : ∀ g, r.successor = some g → ValidGoal g
  events : r.events ≠ []
  version : r.state.version = s.version + r.events.length
  graphEpoch : r.state.graphEpoch = s.graphEpoch + if request.advancesGraph then 1 else 0
  terminal : isTerminal s.lifecycle = true → r.state.lifecycle = s.lifecycle

theorem no_successor {r : GoalAccepted} (h : r.successor = none) (g : GoalState) (hg : r.successor = some g) : ValidGoal g := by
  rw [h] at hg
  cases hg

/-- The fields no command ever changes. -/
structure SameGoal (s t : GoalState) : Prop where
  goalId : t.goalId = s.goalId
  predecessorGoalRef : t.predecessorGoalRef = s.predecessorGoalRef
  generation : t.generation = s.generation
  projectId : t.projectId = s.projectId
  budgetAccountRef : t.budgetAccountRef = s.budgetAccountRef
  planningRunRef : t.planningRunRef = s.planningRunRef

theorem ValidGoal.next {s t : GoalState} (hs : ValidGoal s) (hsame : SameGoal s t)
    (hrecovery : validRecoveryFacets t.qualificationInvalidatedRef t.lifecycle = true)
    (hversion : s.version ≤ t.version ∧ t.version ≤ maxSafeInteger)
    (hepoch : 0 ≤ t.graphEpoch ∧ t.graphEpoch ≤ maxSafeInteger) (hdraft : t.lifecycle = .DRAFT → t.graphEpoch = 0)
    (hcompleted : t.lifecycle = .COMPLETED → 0 < t.graphEpoch) (hactive : validActiveRevision t = true) :
    ValidGoal t where
  lineage := by rw [hsame.goalId, hsame.predecessorGoalRef, hsame.generation]; exact hs.lineage
  projectId := by rw [hsame.projectId]; exact hs.projectId
  budgetAccountRef := by rw [hsame.budgetAccountRef]; exact hs.budgetAccountRef
  planningRunRef := by rw [hsame.planningRunRef]; exact hs.planningRunRef
  recovery := hrecovery
  version := ⟨hs.version.1.trans hversion.1, hversion.2⟩
  graphEpoch := hepoch
  draft := hdraft
  completed := hcompleted
  active := hactive

/-- An active goal has a positive epoch and names its revision. -/
theorem ValidGoal.active_epoch {s : GoalState} (hs : ValidGoal s) (hactive : isActive s.lifecycle = true) :
    0 < s.graphEpoch ∧ ∃ ref, s.activeGraphRevisionRef = some ref ∧ validRef ref = true := by
  have h := hs.active
  unfold validActiveRevision at h
  cases href : s.activeGraphRevisionRef with
  | none => simp [href, hactive] at h
  | some ref =>
    simp only [href, Bool.and_eq_true, decide_eq_true_eq] at h
    exact ⟨h.2, ref, rfl, h.1.2⟩

theorem ValidGoal.activated {s : GoalState} (hs : ValidGoal s) (ref : JsString) (href : validRef ref = true)
    (hversion : s.version ≤ maxSafeInteger - 1) (hepoch : s.graphEpoch + 1 ≤ maxSafeInteger) :
    ValidGoal (activatedState s ref) := by
  have hpos := hs.graphEpoch.1
  refine hs.next ⟨rfl, rfl, rfl, rfl, rfl, rfl⟩ ?_ ?_ ?_ nofun nofun ?_
  · have hrecovery := hs.recovery
    dsimp only [activatedState]
    cases hq : s.qualificationInvalidatedRef with
    | none => rfl
    | some q =>
      rw [hq] at hrecovery
      simp only [validRecoveryFacets, Bool.and_eq_true] at hrecovery ⊢
      exact ⟨rfl, hrecovery.2⟩
  · dsimp only [activatedState]
    omega
  · dsimp only [activatedState, nextGraphEpoch]
    omega
  · have hnext : 0 < s.graphEpoch + 1 := by omega
    simp [activatedState, validActiveRevision, isActive, href, nextGraphEpoch, hnext]

theorem activate_effect (s : GoalState) (id : JsString) (w : InitialGraphActivationWitness) (r : GoalAccepted)
    (hs : ValidGoal s) (hlifecycle : s.lifecycle = .DRAFT) (hversion : s.version ≤ maxSafeInteger - 1)
    (h : activate s id w = .ok r) : Effect s (.activateInitialGraph w) r := by
  unfold activate at h
  split at h
  · cases h
  · rename_i hw
    obtain rfl := Except.ok.inj h
    simp only [Bool.not_eq_true', Bool.not_eq_false, validActivation, Bool.and_eq_true] at hw
    have hepoch : s.graphEpoch + 1 ≤ maxSafeInteger := by
      rw [hs.draft hlifecycle]
      decide
    exact ⟨hs.activated _ hw.1.1 hversion hepoch, no_successor rfl, List.cons_ne_nil _ _, rfl, rfl,
      fun ht => by simp [isTerminal, hlifecycle] at ht⟩

theorem advanceEpoch_effect (s : GoalState) (id : JsString) (epoch : ℤ) (predecessor successor : JsString)
    (r : GoalAccepted) (hs : ValidGoal s) (hlifecycle : s.lifecycle = .EXECUTION_ENABLED)
    (hversion : s.version ≤ maxSafeInteger - 1) (h : advanceEpoch s id epoch predecessor successor = .ok r) :
    Effect s (.advanceGraphEpoch epoch predecessor successor) r := by
  unfold advanceEpoch at h
  split at h
  · cases h
  rename_i hrefs
  split at h
  · cases h
  split at h
  · cases h
  split at h
  · cases h
  rename_i hnext
  obtain rfl := Except.ok.inj h
  simp only [Bool.or_eq_true, Bool.not_eq_true', not_or, Bool.not_eq_false, isSafeInteger_iff] at hrefs
  have hepoch : s.graphEpoch + 1 ≤ maxSafeInteger := by
    have hsafe := hrefs.2.2
    rw [not_not.mp hnext] at hsafe
    exact hsafe
  exact ⟨hs.activated _ hrefs.1.2 hversion hepoch, no_successor rfl, List.cons_ne_nil _ _, rfl, rfl,
    fun ht => by simp [isTerminal, hlifecycle] at ht⟩

theorem ValidGoal.completedState {s : GoalState} (hs : ValidGoal s) (version : ℤ) (hactive : isActive s.lifecycle = true)
    (hversion : s.version ≤ version ∧ version ≤ maxSafeInteger) : ValidGoal (completedState s version) :=
  hs.next ⟨rfl, rfl, rfl, rfl, rfl, rfl⟩ rfl hversion hs.graphEpoch nofun (fun _ => (hs.active_epoch hactive).1) rfl

theorem finishClose_effect (s : GoalState) (id : JsString) (closure : Option AcceptanceClosureWitness)
    (zero : Option ZeroAuthorityWitness) (r : GoalAccepted) (hs : ValidGoal s) (hlifecycle : s.lifecycle = .CLOSING)
    (hversion : s.version ≤ maxSafeInteger - 1) (h : finishClose s id closure zero = .ok r) :
    Effect s (.close closure zero) r := by
  unfold finishClose at h
  split at h
  · split at h
    · obtain rfl := Except.ok.inj h
      exact ⟨hs.completedState _ (by simp [isActive, hlifecycle]) ⟨by omega, by omega⟩, no_successor rfl,
        List.cons_ne_nil _ _, rfl,
        (add_zero _).symm, fun ht => by simp [isTerminal, hlifecycle] at ht⟩
    · cases h
  · cases h

theorem beginClose_effect (s : GoalState) (id : JsString) (closure : Option AcceptanceClosureWitness)
    (zero : Option ZeroAuthorityWitness) (r : GoalAccepted) (hs : ValidGoal s)
    (hlifecycle : s.lifecycle = .EXECUTION_ENABLED)
    (hversion : s.version ≤ maxSafeInteger - if zero.isSome then 2 else 1) (h : beginClose s id closure zero = .ok r) :
    Effect s (.close closure zero) r := by
  have hactive : isActive s.lifecycle = true := by simp [isActive, hlifecycle]
  obtain ⟨hpos, ref, href, hvalid⟩ := hs.active_epoch hactive
  unfold beginClose at h
  split at h
  · cases h
  · split at h
    · obtain rfl := Except.ok.inj h
      simp only [Option.isSome_none, Bool.false_eq_true, if_false] at hversion
      refine ⟨hs.next ⟨rfl, rfl, rfl, rfl, rfl, rfl⟩ rfl ⟨by dsimp only; omega, by dsimp only; omega⟩ hs.graphEpoch nofun
        nofun ?_, no_successor rfl, List.cons_ne_nil _ _, rfl, (add_zero _).symm,
          fun ht => by simp [isTerminal, hlifecycle] at ht⟩
      simp [validActiveRevision, href, isActive, hvalid, hpos]
    · cases h
  · split at h
    · obtain rfl := Except.ok.inj h
      simp only [Option.isSome_some, if_true] at hversion
      refine ⟨hs.completedState _ hactive ⟨by omega, by omega⟩, no_successor rfl, List.cons_ne_nil _ _, ?_, (add_zero _).symm,
        fun ht => by simp [isTerminal, hlifecycle] at ht⟩
      show s.version + 1 + 1 = s.version + (2 : ℕ)
      omega
    · cases h

theorem invalidate_effect (s : GoalState) (id : JsString) (w : QualificationInvalidationWitness) (r : GoalAccepted)
    (hs : ValidGoal s) (hlifecycle : s.lifecycle = .CLOSING) (hversion : s.version ≤ maxSafeInteger - 1)
    (h : invalidate s id w = .ok r) : Effect s (.qualificationInvalidated w) r := by
  obtain ⟨hpos, ref, href, hvalid⟩ := hs.active_epoch (by simp [isActive, hlifecycle])
  unfold invalidate at h
  split at h
  · cases h
  rename_i hw
  obtain rfl := Except.ok.inj h
  simp only [Bool.not_eq_true', Bool.not_eq_false, validInvalidation, Bool.and_eq_true] at hw
  refine ⟨hs.next ⟨rfl, rfl, rfl, rfl, rfl, rfl⟩ ?_ ⟨by dsimp only; omega, by dsimp only; omega⟩ hs.graphEpoch nofun
    nofun ?_, no_successor rfl, List.cons_ne_nil _ _, rfl, (add_zero _).symm, fun ht => by simp [isTerminal, hlifecycle] at ht⟩
  · simp [validRecoveryFacets, hw.1]
  · simp [validActiveRevision, href, isActive, hvalid, hpos]

theorem cancel_effect (s : GoalState) (id : JsString) (w : CancellationAuthorizationWitness) (r : GoalAccepted)
    (hs : ValidGoal s) (hlifecycle : isTerminal s.lifecycle = false) (hversion : s.version ≤ maxSafeInteger - 1)
    (h : cancel s id w = .ok r) : Effect s (.cancel w) r := by
  unfold cancel at h
  split at h
  · cases h
  obtain rfl := Except.ok.inj h
  exact ⟨hs.next ⟨rfl, rfl, rfl, rfl, rfl, rfl⟩ rfl ⟨by dsimp only; omega, by dsimp only; omega⟩ hs.graphEpoch nofun
    nofun rfl, no_successor rfl, List.cons_ne_nil _ _, rfl, (add_zero _).symm, fun ht => by rw [hlifecycle] at ht; cases ht⟩

theorem successorGoal_valid (s : GoalState) (newGoalId budget planning : JsString) (hs : ValidGoal s)
    (hgeneration : s.generation < maxSafeInteger) (hnew : validRef newGoalId = true) (hne : newGoalId ≠ s.goalId)
    (hbudget : validRef budget = true) (hplanning : validRef planning = true) :
    ValidGoal (successorGoal s newGoalId budget planning) := by
  have hlineage := hs.lineage
  simp only [validLineage, Bool.and_eq_true, decide_eq_true_eq, isSafeInteger_iff] at hlineage
  obtain ⟨⟨⟨hid, hsafe⟩, hone⟩, -⟩ := hlineage
  have hmax : (1 : ℤ) ≤ maxSafeInteger := by decide
  have hgen : s.generation + 1 ≠ 1 := by omega
  refine ⟨?_, hs.projectId, hbudget, hplanning, rfl, ⟨le_refl _, hmax⟩, ⟨le_refl _, by dsimp only [successorGoal]; omega⟩,
    fun _ => rfl, nofun, rfl⟩
  unfold successorGoal validLineage
  dsimp only
  rw [if_neg hgen]
  simp only [Bool.and_eq_true, decide_eq_true_eq, isSafeInteger_iff]
  exact ⟨⟨⟨hnew, by omega, by omega⟩, by omega⟩, hid, fun e => hne e.symm⟩

theorem reopen_effect (s : GoalState) (id newGoalId budget planning : JsString) (w : ReopenAuthorizationWitness)
    (r : GoalAccepted) (hs : ValidGoal s) (hgeneration : s.generation < maxSafeInteger)
    (hversion : s.version < maxSafeInteger) (h : reopen s id newGoalId budget planning w = .ok r) :
    Effect s (.reopenAsRevision newGoalId budget planning w) r := by
  unfold reopen at h
  split at h
  · cases h
  rename_i hguard
  obtain rfl := Except.ok.inj h
  simp only [Bool.or_eq_true, Bool.not_eq_true', decide_eq_true_eq, not_or, Bool.not_eq_false] at hguard
  obtain ⟨⟨⟨⟨hnew, hne⟩, hbudget⟩, hplanning⟩, -⟩ := hguard
  refine ⟨?_, ?_, List.cons_ne_nil _ _, rfl, (add_zero _).symm, fun _ => rfl⟩
  · exact hs.next ⟨rfl, rfl, rfl, rfl, rfl, rfl⟩ hs.recovery ⟨by dsimp only; omega, by dsimp only; omega⟩ hs.graphEpoch
      hs.draft hs.completed hs.active
  · intro g hg
    obtain rfl := Option.some.inj hg
    exact successorGoal_valid s newGoalId budget planning hs hgeneration hnew hne hbudget hplanning

theorem schedule_effect (s : GoalState) (id : JsString) (control : GoalSchedulingControl) (request : GoalRequest)
    (r : GoalAccepted) (hs : ValidGoal s) (hversion : s.version ≤ maxSafeInteger - 1)
    (hrequest : request.advancesGraph = false) (h : schedule s id control = .ok r) : Effect s request r := by
  obtain rfl := Except.ok.inj h
  refine ⟨hs.next ⟨rfl, rfl, rfl, rfl, rfl, rfl⟩ hs.recovery ⟨by dsimp only; omega, by dsimp only; omega⟩ hs.graphEpoch
    hs.draft hs.completed hs.active, no_successor rfl, List.cons_ne_nil _ _, rfl, ?_, fun _ => rfl⟩
  rw [hrequest]
  exact (add_zero _).symm

/-- Everything an accepted command can do to a stored goal. -/
theorem reduceGoal_effect (s : GoalState) (c : GoalCommand) (r : GoalAccepted) (h : reduceGoal (some s) c = .ok r) :
    c.expectedVersion = s.version ∧ ValidGoal s ∧ Effect s c.request r := by
  unfold reduceGoal at h
  dsimp only at h
  split at h
  · cases h
  rename_i hvalid
  split at h
  · cases h
  split at h
  · cases h
  rename_i hversion
  split at h
  · cases h
  split at h
  · cases h
  rename_i hallowed
  split at h
  · cases h
  rename_i hsafe
  have hs : ValidGoal s := by
    rw [← validGoalState_iff]
    simpa using hvalid
  refine ⟨not_not.mp hversion, hs, ?_⟩
  rw [not_not] at hallowed
  simp only [Bool.not_eq_true', Bool.not_eq_false, safeToApply] at hsafe
  cases hrequest : c.request with
  | create goalId projectId budget planning w =>
    rw [hrequest] at h
    cases h
  | activateInitialGraph w =>
    rw [hrequest] at h hallowed hsafe
    exact activate_effect s c.commandId w r hs (by simpa [goalTransitions, GoalRequest.kind] using hallowed)
      (by simpa [GoalRequest.kind, combinedClose] using hsafe) h
  | advanceGraphEpoch epoch predecessor successor =>
    rw [hrequest] at h hallowed hsafe
    exact advanceEpoch_effect s c.commandId epoch predecessor successor r hs
      (by simpa [goalTransitions, GoalRequest.kind] using hallowed)
      (by simpa [GoalRequest.kind, combinedClose] using hsafe) h
  | close closure zero =>
    rw [hrequest] at h hallowed hsafe
    change close s c.commandId closure zero = .ok r at h
    unfold close at h
    split at h
    · rename_i hclosing
      exact finishClose_effect s c.commandId closure zero r hs hclosing
        (by simpa [GoalRequest.kind, combinedClose, hclosing] using hsafe) h
    · rename_i hopen
      have henabled : s.lifecycle = .EXECUTION_ENABLED := by
        simpa [goalTransitions, GoalRequest.kind, hopen] using hallowed
      exact beginClose_effect s c.commandId closure zero r hs henabled
        (by simpa [GoalRequest.kind, combinedClose, henabled] using hsafe) h
  | qualificationInvalidated w =>
    rw [hrequest] at h hallowed hsafe
    exact invalidate_effect s c.commandId w r hs (by simpa [goalTransitions, GoalRequest.kind] using hallowed)
      (by simpa [GoalRequest.kind, combinedClose] using hsafe) h
  | cancel w =>
    rw [hrequest] at h hallowed hsafe
    refine cancel_effect s c.commandId w r hs ?_ (by simpa [GoalRequest.kind, combinedClose] using hsafe) h
    simp only [goalTransitions, GoalRequest.kind, List.mem_cons, List.not_mem_nil, or_false] at hallowed
    rcases hallowed with hl | hl | hl <;> simp [isTerminal, hl]
  | reopenAsRevision newGoalId budget planning w =>
    rw [hrequest] at h hsafe
    simp only [GoalRequest.kind, if_true, Bool.and_eq_true, decide_eq_true_eq] at hsafe
    exact reopen_effect s c.commandId newGoalId budget planning w r hs hsafe.1 hsafe.2 h
  | pause control =>
    rw [hrequest] at h hsafe
    change (if !validPause control then illegal s .pause else schedule s c.commandId control) = .ok r at h
    split at h
    · cases h
    · exact schedule_effect s c.commandId control _ r hs (by simpa [GoalRequest.kind, combinedClose] using hsafe) rfl h
  | resume =>
    rw [hrequest] at h hsafe
    exact schedule_effect s c.commandId .RUNNING _ r hs (by simpa [GoalRequest.kind, combinedClose] using hsafe) rfl h

/-! ### Runs -/

/-- The stored goal, the events emitted so far, the commands that were accepted and the goals they minted. -/
structure GoalRun where
  state : GoalState
  events : List GoalEvent
  taken : List GoalCommand
  successors : List GoalState
  deriving DecidableEq

def started (command : GoalCommand) (r : GoalAccepted) : GoalRun := ⟨r.state, r.events, [command], r.successor.toList⟩

def goalStep (goal : GoalRun) (command : GoalCommand) : GoalRun :=
  match reduceGoal (some goal.state) command with
  | .ok r => ⟨r.state, goal.events ++ r.events, goal.taken ++ [command], goal.successors ++ r.successor.toList⟩
  | .error _ => goal

structure GoalReached (goal : GoalRun) : Prop where
  valid : validGoalState goal.state = true
  successors : ∀ g ∈ goal.successors, validGoalState g = true
  version : goal.state.version = goal.events.length
  graphEpoch : goal.state.graphEpoch = (goal.taken.filter fun c => c.request.advancesGraph).length

theorem started_reached (command : GoalCommand) (r : GoalAccepted) (h : reduceGoal none command = .ok r) :
    GoalReached (started command r) := by
  unfold reduceGoal at h
  dsimp only at h
  split at h
  · rename_i goalId projectId budget planning w hrequest
    split at h
    · cases h
    unfold create at h
    split at h
    · rename_i hguard
      obtain rfl := Except.ok.inj h
      simp only [Bool.and_eq_true, decide_eq_true_eq] at hguard
      obtain ⟨⟨⟨⟨⟨-, hgoal⟩, hproject⟩, hbudget⟩, hplanning⟩, -⟩ := hguard
      have hmax : (1 : ℤ) ≤ maxSafeInteger := by decide
      have hlineage : validLineage goalId none 1 = true := by
        have hone : isSafeInteger 1 = true := by decide
        simp [validLineage, hgoal, hone]
      refine ⟨(validGoalState_iff _).mpr ?_, fun _ hg => absurd hg List.not_mem_nil, rfl, ?_⟩
      · exact ⟨hlineage, hproject, hbudget, hplanning, rfl, ⟨le_refl _, hmax⟩, ⟨le_refl _, by dsimp only [started]; omega⟩,
          fun _ => rfl, nofun, rfl⟩
      · simp [started, hrequest, GoalRequest.advancesGraph, GoalRequest.kind]
    · cases h
  · cases h

theorem goalStep_cases (goal : GoalRun) (c : GoalCommand) :
    (∃ e, reduceGoal (some goal.state) c = .error e ∧ goalStep goal c = goal) ∨
      ∃ r, reduceGoal (some goal.state) c = .ok r ∧
        goalStep goal c = ⟨r.state, goal.events ++ r.events, goal.taken ++ [c], goal.successors ++ r.successor.toList⟩ := by
  unfold goalStep
  cases hreduce : reduceGoal (some goal.state) c with
  | error e => exact Or.inl ⟨e, rfl, rfl⟩
  | ok r => exact Or.inr ⟨r, rfl, rfl⟩

theorem goalStep_reached (goal : GoalRun) (c : GoalCommand) (h : GoalReached goal) : GoalReached (goalStep goal c) := by
  obtain ⟨e, -, hkept⟩ | ⟨r, hreduce, hstep⟩ := goalStep_cases goal c
  · rw [hkept]
    exact h
  · obtain ⟨-, -, heffect⟩ := reduceGoal_effect goal.state c r hreduce
    rw [hstep]
    refine ⟨(validGoalState_iff _).mpr heffect.valid, fun g hg => ?_, ?_, ?_⟩
    · obtain hg | hg := List.mem_append.mp hg
      · exact h.successors g hg
      · exact (validGoalState_iff _).mpr (heffect.successor g (Option.mem_toList.mp hg))
    · have hversion := h.version
      have hnext := heffect.version
      dsimp only
      rw [List.length_append]
      push_cast
      omega
    · have hepoch := h.graphEpoch
      have hnext := heffect.graphEpoch
      dsimp only
      rw [List.filter_append, List.length_append, List.filter_singleton]
      split at hnext
      · rename_i hadvances
        rw [hadvances]
        simp only [cond_true, List.length_singleton]
        push_cast
        omega
      · rename_i hadvances
        rw [Bool.not_eq_true] at hadvances
        rw [hadvances]
        simp only [cond_false, List.length_nil]
        push_cast
        omega

theorem goalStep_version_le (goal : GoalRun) (c : GoalCommand) : goal.state.version ≤ (goalStep goal c).state.version := by
  obtain ⟨e, -, hkept⟩ | ⟨r, hreduce, hstep⟩ := goalStep_cases goal c
  · rw [hkept]
  · obtain ⟨-, -, heffect⟩ := reduceGoal_effect goal.state c r hreduce
    rw [hstep]
    dsimp only
    rw [heffect.version]
    omega

theorem goalStep_graphEpoch_le (goal : GoalRun) (c : GoalCommand) :
    goal.state.graphEpoch ≤ (goalStep goal c).state.graphEpoch := by
  obtain ⟨e, -, hkept⟩ | ⟨r, hreduce, hstep⟩ := goalStep_cases goal c
  · rw [hkept]
  · obtain ⟨-, -, heffect⟩ := reduceGoal_effect goal.state c r hreduce
    rw [hstep]
    dsimp only
    rw [heffect.graphEpoch]
    split <;> omega

theorem goalStep_terminal (goal : GoalRun) (c : GoalCommand) (h : isTerminal goal.state.lifecycle = true) :
    (goalStep goal c).state.lifecycle = goal.state.lifecycle := by
  obtain ⟨e, -, hkept⟩ | ⟨r, hreduce, hstep⟩ := goalStep_cases goal c
  · rw [hkept]
  · obtain ⟨-, -, heffect⟩ := reduceGoal_effect goal.state c r hreduce
    rw [hstep]
    exact heffect.terminal h

/-- Once a command for a version was accepted, every other command prepared for it is refused. -/
theorem prepared_once (goal : GoalRun) (first second : GoalCommand) (r : GoalAccepted) (later : List GoalCommand)
    (hsame : first.expectedVersion = second.expectedVersion) (h : reduceGoal (some goal.state) first = .ok r) :
    ∃ e, reduceGoal (some (run goalStep (goalStep goal first) later).state) second = .error e := by
  obtain ⟨hversion, -, heffect⟩ := reduceGoal_effect goal.state first r h
  have hstep : (goalStep goal first).state = r.state := by
    obtain ⟨e, herror, -⟩ | ⟨r', hok, hstep⟩ := goalStep_cases goal first
    · rw [h] at herror
      cases herror
    · rw [h] at hok
      rw [hstep, ← Except.ok.inj hok]
  have hmono : (goalStep goal first).state.version ≤ (run goalStep (goalStep goal first) later).state.version :=
    run_invariant goalStep (fun g => (goalStep goal first).state.version ≤ g.state.version)
      (fun g c hg => hg.trans (goalStep_version_le g c)) _ (le_refl _) later
  cases hsecond : reduceGoal (some (run goalStep (goalStep goal first) later).state) second with
  | error e => exact ⟨e, rfl⟩
  | ok r' =>
    obtain ⟨hversion', -, -⟩ := reduceGoal_effect _ second r' hsecond
    have hlength := List.length_pos_iff.mpr heffect.events
    have hnext := heffect.version
    rw [hstep] at hmono
    omega

/-- The goal lifecycle. Along every run from an accepted creation: state and
successors stay valid, the version counts the events and the epoch the graph
changes, a revision is named exactly while the goal executes or closes, a
terminal lifecycle is final, a version is spent by one command, and a refusal
changes nothing. -/
theorem goal_lifecycle_invariant (command : GoalCommand) (r : GoalAccepted) (h : reduceGoal none command = .ok r)
    (commands later : List GoalCommand) :
    let goal := run goalStep (started command r) commands
    let after := run goalStep goal later
    GoalReached goal
      ∧ goal.state.version ≤ 2 ^ 53 - 1
      ∧ (goal.state.activeGraphRevisionRef ≠ none ↔
          goal.state.lifecycle = .EXECUTION_ENABLED ∨ goal.state.lifecycle = .CLOSING)
      ∧ goal.state.graphEpoch ≤ after.state.graphEpoch
      ∧ (isTerminal goal.state.lifecycle = true → after.state.lifecycle = goal.state.lifecycle)
      ∧ (∀ first second r', first.expectedVersion = second.expectedVersion →
          reduceGoal (some goal.state) first = .ok r' →
          ∃ e, reduceGoal (some (run goalStep (goalStep goal first) later).state) second = .error e)
      ∧ ∀ c e, reduceGoal (some goal.state) c = .error e → goalStep goal c = goal := by
  intro goal after
  have hreached : GoalReached goal :=
    run_invariant goalStep GoalReached goalStep_reached _ (started_reached command r h) commands
  have hvalid := (validGoalState_iff _).mp hreached.valid
  refine ⟨hreached, hvalid.version.2, hvalid.active_iff, ?_, ?_, ?_, ?_⟩
  · exact run_invariant goalStep (fun g => goal.state.graphEpoch ≤ g.state.graphEpoch)
      (fun g c hg => hg.trans (goalStep_graphEpoch_le g c)) goal (le_refl _) later
  · intro hterminal
    refine run_invariant goalStep (fun g => g.state.lifecycle = goal.state.lifecycle) (fun g c hg => ?_) goal rfl later
    rw [goalStep_terminal g c (by rw [hg]; exact hterminal)]
    exact hg
  · intro first second r' hsame hfirst
    exact prepared_once goal first second r' later hsame hfirst
  · intro c e hrefused
    unfold goalStep
    rw [hrefused]

def sampleCreate : GoalCommand :=
  ⟨lit "cmd-1", 0, .create (lit "goal-1") (lit "project-1") (lit "budget-1") (lit "plan-1")
    ⟨lit "ready-1", .DAEMON_VERIFIED⟩⟩

def sampleDraft : GoalAccepted :=
  ⟨[⟨lit "cmd-1", 1, .GoalCreated (lit "goal-1") (lit "project-1") (lit "budget-1") (lit "plan-1")
      ⟨lit "ready-1", .DAEMON_VERIFIED⟩⟩],
    ⟨none, lit "budget-1", 1, lit "goal-1", 0, .DRAFT, lit "plan-1", none, lit "project-1", none, .RUNNING, 1⟩, none⟩

def sampleClosure : AcceptanceClosureWitness :=
  ⟨lit "closure-1", lit "accepted-1", true, true, lit "obligations-1", .DAEMON_VERIFIED⟩

-- activation, a refused advance at a stale version, the combined close and a reopen
def sampleCommands : List GoalCommand :=
  [⟨lit "cmd-2", 1, .activateInitialGraph ⟨lit "graph-1", lit "approval-1", .DAEMON_VERIFIED⟩⟩,
    ⟨lit "cmd-3", 1, .advanceGraphEpoch 2 (lit "graph-1") (lit "graph-2")⟩,
    ⟨lit "cmd-4", 2, .close (some sampleClosure) (some ⟨.DAEMON_VERIFIED, lit "zero-1"⟩)⟩,
    ⟨lit "cmd-5", 4, .reopenAsRevision (lit "goal-2") (lit "budget-2") (lit "plan-2") ⟨lit "auth-1", .HUMAN_APPROVED⟩⟩]

theorem goal_lifecycle_invariant_reopened :
    reduceGoal none sampleCreate = .ok sampleDraft
      ∧ (run goalStep (started sampleCreate sampleDraft) sampleCommands).state.version = 5
      ∧ GoalReached (run goalStep (started sampleCreate sampleDraft) sampleCommands) := by
  have hruns : reduceGoal none sampleCreate = .ok sampleDraft
      ∧ (run goalStep (started sampleCreate sampleDraft) sampleCommands).state.version = 5 := by decide +kernel
  obtain ⟨hcreate, hversion⟩ := hruns
  exact ⟨hcreate, hversion, (goal_lifecycle_invariant sampleCreate sampleDraft hcreate sampleCommands []).1⟩

end MoeNG.Core.Goal
