import MoeNG.Core.GraphRevision
import MoeNG.Lib.Lists
import MoeNG.Lib.Redelivery

/-!
# Graph revision replay (`packages/core/src/planning/graph-revision-replay.ts`)

The replayer is compared with the reducer in both directions: what the reducer
emits replays to the state the reducer left, and what replays is what the
reducer emits, as far as the replayer repeats its guards.
-/

namespace MoeNG.Core.GraphRevision
open MoeNG.Kernel MoeNG.Lib
open Supersession (DecidedSuccessor Decided decideSupersession)

/-! ### The appliers (`graph-revision-replay.ts:36-202`) -/

inductive GraphRevisionReplayCode where
  | BINDING_DRIFT
  | DUPLICATE_CREATE
  | EPOCH_DRIFT
  | EVENT_INVALID
  | IDENTITY_CONFLICT
  | ILLEGAL_TRANSITION
  | MISSING_CREATE
  | VERSION_BREAK
  deriving DecidableEq

abbrev Applied := Except GraphRevisionReplayCode GraphRevisionState

def epochDrifted (w : GraphRevisionActivationWitness) : Bool :=
  if !isSafeInteger w.graphEpoch then true
  else match w.succession with
    | none => w.graphEpoch ≠ 1
    | some succession => !validSuccessionBinding succession || w.graphEpoch ≠ succession.predecessorGraphEpoch + 1

def applyCreated (version : ℤ) (goalRef graphContentHash planHash revisionId : JsString) : Applied :=
  let state := { createdState goalRef graphContentHash planHash revisionId with version := version }
  if validGraphRevisionState state then .ok state else .error .EVENT_INVALID

def applySubmitted (current : GraphRevisionState) (version : ℤ) (w : GraphSubmissionWitness) : Applied :=
  if !validSubmission w then .error .EVENT_INVALID
  else .ok
    { current with lifecycle := .PENDING_APPROVAL, submissionRef := some w.submissionRef, version := version }

def applyApproved (current : GraphRevisionState) (version : ℤ) (binding : GraphActivationBinding) : Applied :=
  if !validBinding binding then .error .EVENT_INVALID
  else if binding.graphHash ≠ current.graphContentHash then .error .BINDING_DRIFT
  else .ok { current with boundHashes := some binding, lifecycle := .APPROVED, version := version }

def applyActivated (current : GraphRevisionState) (version expectedGoalVersion : ℤ) (goalRef : JsString)
    (w : GraphRevisionActivationWitness) : Applied :=
  if epochDrifted w then .error .EPOCH_DRIFT
  else if !validActivation w then .error .EVENT_INVALID
  else match current.boundHashes with
    | none => .error .BINDING_DRIFT
    | some bound =>
      if !sameBinding bound w.toGraphActivationBinding || w.graphHash ≠ current.graphContentHash
          || goalRef ≠ current.goalRef || expectedGoalVersion ≠ w.expectedGoalVersion then .error .BINDING_DRIFT
      else .ok { current with graphEpoch := w.graphEpoch, lifecycle := .ACTIVE, version := version }

def applyRejected (current : GraphRevisionState) (version : ℤ) (w : GraphRevisionRefusalWitness) : Applied :=
  if !validRefusal w then .error .EVENT_INVALID
  else .ok { current with lifecycle := .REJECTED, version := version }

def applySuperseded (current : GraphRevisionState) (version : ℤ) (authorityHash : JsString)
    (successor : DecidedSuccessor) : Applied :=
  if !validHex64 authorityHash || !validHex64 successor.graphContentHash || !validRef successor.revisionId
      || !validHex64 successor.predecessorGraphContentHash || successor.lifecycle ≠ .ACTIVE
      || !validRef successor.predecessorRevisionId || !isSafeInteger successor.graphEpoch then .error .EVENT_INVALID
  else if successor.predecessorRevisionId ≠ current.revisionId
      || successor.predecessorGraphContentHash ≠ current.graphContentHash then .error .BINDING_DRIFT
  else if successor.graphEpoch ≠ current.graphEpoch + 1 then .error .EPOCH_DRIFT
  else .ok { current with lifecycle := .SUPERSEDED, version := version }

/-! ### The replay (`graph-revision-replay.ts:75-82`, `graph-revision-replay.ts:197-250`) -/

def replayTransitions : GraphRevisionFact → List GraphRevisionLifecycle
  | .GraphRevisionCreated .. => []
  | .GraphRevisionActivated .. => [.APPROVED]
  | .GraphRevisionApproved _ => [.PENDING_APPROVAL]
  | .GraphRevisionRejected _ => [.DRAFT, .PENDING_APPROVAL, .APPROVED]
  | .GraphRevisionSubmitted _ => [.DRAFT]
  | .GraphRevisionSuperseded .. => [.ACTIVE]

def applyFact (current : GraphRevisionState) (version : ℤ) : GraphRevisionFact → Applied
  | .GraphRevisionCreated .. => .error .DUPLICATE_CREATE
  | .GraphRevisionActivated expectedGoalVersion goalRef w => applyActivated current version expectedGoalVersion goalRef w
  | .GraphRevisionApproved binding => applyApproved current version binding
  | .GraphRevisionRejected w => applyRejected current version w
  | .GraphRevisionSubmitted w => applySubmitted current version w
  | .GraphRevisionSuperseded authorityHash successor => applySuperseded current version authorityHash successor

def isCreated : GraphRevisionFact → Bool
  | .GraphRevisionCreated .. => true
  | _ => false

def admissible (entry : GraphRevisionEvent) : Bool := validRef entry.commandId && isSafeInteger entry.version

def applyFirst (entry : GraphRevisionEvent) : Applied :=
  match entry.fact with
  | .GraphRevisionCreated goalRef graphContentHash planHash revisionId =>
    if entry.version ≠ 1 then .error .VERSION_BREAK
    else applyCreated entry.version goalRef graphContentHash planHash revisionId
  | _ => .error .MISSING_CREATE

def applyNext (current : GraphRevisionState) (entry : GraphRevisionEvent) : Applied :=
  if isCreated entry.fact then .error .DUPLICATE_CREATE
  else if entry.version ≠ current.version + 1 then .error .VERSION_BREAK
  else if current.lifecycle ∉ replayTransitions entry.fact then .error .ILLEGAL_TRANSITION
  else applyFact current entry.version entry.fact

def applyEntry (current : Option GraphRevisionState) (entry : GraphRevisionEvent) : Applied :=
  match current with
  | none => applyFirst entry
  | some state => applyNext state entry

abbrev Replaying := Replayed GraphRevisionEvent GraphRevisionState

-- the applied versions are those of the kept events, so the kept events are searched by version
def replayEntry (r : Replaying) (entry : GraphRevisionEvent) : Except GraphRevisionReplayCode Replaying :=
  if !admissible entry then .error .EVENT_INVALID
  else match r.events.find? fun seen => seen.version = entry.version with
    | some seen => if seen ≠ entry then .error .IDENTITY_CONFLICT else .ok r
    | none => (applyEntry r.current entry).map fun next => ⟨r.events ++ [entry], some next⟩

def replayGraphRevisionEvents (history : List GraphRevisionEvent) :
    Except GraphRevisionReplayCode GraphRevisionAccepted := do
  let r ← history.foldlM replayEntry ⟨[], none⟩
  match r.current with
  | none => .error .MISSING_CREATE
  | some state => .ok ⟨r.events, state⟩

/-! ### What the state validator promises -/

structure ValidRevision (s : GraphRevisionState) : Prop where
  revisionId : validRef s.revisionId = true
  goalRef : validRef s.goalRef = true
  graphContentHash : validHex64 s.graphContentHash = true
  planHash : validHex64 s.planHash = true
  version : 1 ≤ s.version ∧ s.version ≤ maxSafeInteger
  bound : validBoundPlacement s.lifecycle s.boundHashes s.graphContentHash = true
  graphEpoch : validGraphEpochPlacement s.lifecycle s.graphEpoch = true
  submission : validSubmissionPlacement s.lifecycle s.submissionRef = true

theorem validGraphRevisionState_iff (s : GraphRevisionState) : validGraphRevisionState s = true ↔ ValidRevision s := by
  simp only [validGraphRevisionState, Bool.and_eq_true, decide_eq_true_eq, isSafeInteger_iff]
  constructor
  · rintro ⟨⟨⟨⟨⟨⟨⟨⟨h1, h2⟩, h3⟩, h4⟩, h5⟩, h6⟩, h7⟩, h8⟩, h9⟩
    exact ⟨h1, h2, h3, h4, ⟨h6, h5.2⟩, h7, h8, h9⟩
  · intro h
    have hmax : 0 ≤ maxSafeInteger := by decide
    obtain ⟨hv1, hv2⟩ := h.version
    exact ⟨⟨⟨⟨⟨⟨⟨⟨h.revisionId, h.goalRef⟩, h.graphContentHash⟩, h.planHash⟩, ⟨by omega, hv2⟩⟩, hv1⟩, h.bound⟩,
      h.graphEpoch⟩, h.submission⟩

/-! ### What one event does -/

/-- The successor of a superseded revision, as far as the event shows it. -/
structure Succeeds (s : GraphRevisionState) (n : DecidedSuccessor) : Prop where
  graphContentHash : validHex64 n.graphContentHash = true
  revisionId : validRef n.revisionId = true
  lifecycle : n.lifecycle = .ACTIVE
  safe : isSafeInteger n.graphEpoch = true
  predecessorRevisionId : n.predecessorRevisionId = s.revisionId
  predecessorGraphContentHash : n.predecessorGraphContentHash = s.graphContentHash
  graphEpoch : n.graphEpoch = s.graphEpoch + 1

/-- One event on a revision that exists, with every guard the replayer reads but the shape of the authority hash. -/
inductive Applies (s : GraphRevisionState) : GraphRevisionEvent → GraphRevisionState → Prop where
  | submitted (id : JsString) (w : GraphSubmissionWitness) (hl : s.lifecycle = .DRAFT) (hw : validSubmission w = true) :
    Applies s ⟨id, s.version + 1, .GraphRevisionSubmitted w⟩
      { s with lifecycle := .PENDING_APPROVAL, submissionRef := some w.submissionRef, version := s.version + 1 }
  | approved (id : JsString) (b : GraphActivationBinding) (hl : s.lifecycle = .PENDING_APPROVAL)
    (hb : validBinding b = true) (hcontent : b.graphHash = s.graphContentHash) :
    Applies s ⟨id, s.version + 1, .GraphRevisionApproved b⟩
      { s with boundHashes := some b, lifecycle := .APPROVED, version := s.version + 1 }
  | activated (id : JsString) (w : GraphRevisionActivationWitness) (hl : s.lifecycle = .APPROVED)
    (hw : validActivation w = true) (hbound : s.boundHashes = some w.toGraphActivationBinding)
    (hcontent : w.graphHash = s.graphContentHash) :
    Applies s ⟨id, s.version + 1, .GraphRevisionActivated w.expectedGoalVersion s.goalRef w⟩
      { s with graphEpoch := w.graphEpoch, lifecycle := .ACTIVE, version := s.version + 1 }
  | rejected (id : JsString) (w : GraphRevisionRefusalWitness)
    (hl : s.lifecycle ∈ [GraphRevisionLifecycle.DRAFT, .PENDING_APPROVAL, .APPROVED]) (hw : validRefusal w = true) :
    Applies s ⟨id, s.version + 1, .GraphRevisionRejected w⟩
      { s with lifecycle := .REJECTED, version := s.version + 1 }
  | superseded (id authorityHash : JsString) (n : DecidedSuccessor) (hl : s.lifecycle = .ACTIVE) (hn : Succeeds s n) :
    Applies s ⟨id, s.version + 1, .GraphRevisionSuperseded authorityHash n⟩
      { s with lifecycle := .SUPERSEDED, version := s.version + 1 }

def hashed : GraphRevisionFact → Bool
  | .GraphRevisionSuperseded authorityHash _ => validHex64 authorityHash
  | _ => true

theorem epochDrifted_eq (w : GraphRevisionActivationWitness) : epochDrifted w = !validActivationEpoch w := by
  unfold epochDrifted validActivationEpoch
  cases isSafeInteger w.graphEpoch <;> cases w.succession <;> simp [Bool.not_and]

theorem validActivation_epoch {w : GraphRevisionActivationWitness} (h : validActivation w = true) :
    validActivationEpoch w = true := by
  simp only [validActivation, Bool.and_eq_true] at h
  exact h.2

theorem applyActivated_iff (s : GraphRevisionState) (version g : ℤ) (ref : JsString) (w : GraphRevisionActivationWitness)
    (t : GraphRevisionState) :
    applyActivated s version g ref w = .ok t ↔
      (validActivation w = true ∧ s.boundHashes = some w.toGraphActivationBinding ∧ w.graphHash = s.graphContentHash
        ∧ ref = s.goalRef ∧ g = w.expectedGoalVersion)
      ∧ { s with graphEpoch := w.graphEpoch, lifecycle := .ACTIVE, version := version } = t := by
  constructor
  · intro h
    unfold applyActivated at h
    split at h
    · cases h
    split at h
    · cases h
    rename_i hvalid
    split at h
    · cases h
    rename_i bound hbound
    split at h
    · cases h
    rename_i hguards
    simp only [sameBinding, Bool.or_eq_true, Bool.not_eq_true', decide_eq_true_eq, decide_eq_false_iff_not, not_or,
      not_not] at hguards
    obtain ⟨⟨⟨rfl, hcontent⟩, hgoal⟩, hexpected⟩ := hguards
    exact ⟨⟨by simpa using hvalid, hbound, hcontent, hgoal, hexpected⟩, Except.ok.inj h⟩
  · rintro ⟨⟨hw, hbound, hcontent, rfl, rfl⟩, rfl⟩
    have hepoch : epochDrifted w = false := by rw [epochDrifted_eq, validActivation_epoch hw, Bool.not_true]
    simp [applyActivated, hepoch, hw, hbound, hcontent, sameBinding]

theorem applySuperseded_iff (s : GraphRevisionState) (version : ℤ) (hash : JsString) (n : DecidedSuccessor)
    (t : GraphRevisionState) (hs : ValidRevision s) :
    applySuperseded s version hash n = .ok t ↔
      (validHex64 hash = true ∧ Succeeds s n) ∧ { s with lifecycle := .SUPERSEDED, version := version } = t := by
  constructor
  · intro h
    unfold applySuperseded at h
    split at h
    · cases h
    rename_i hshape
    split at h
    · cases h
    rename_i hdrift
    split at h
    · cases h
    rename_i hepoch
    simp only [Bool.or_eq_true, Bool.not_eq_true', decide_eq_true_eq, not_or, not_not, Bool.not_eq_false] at hshape hdrift
    obtain ⟨⟨⟨⟨⟨⟨hhash, hcontent⟩, hid⟩, -⟩, hlifecycle⟩, -⟩, hsafe⟩ := hshape
    exact ⟨⟨hhash, hcontent, hid, hlifecycle, hsafe, hdrift.1, hdrift.2, not_not.mp hepoch⟩, Except.ok.inj h⟩
  · rintro ⟨⟨hhash, hn⟩, rfl⟩
    have hsafe : isSafeInteger (s.graphEpoch + 1) = true := hn.graphEpoch ▸ hn.safe
    simp [applySuperseded, hhash, hn.graphContentHash, hn.revisionId, hn.lifecycle, hn.predecessorRevisionId,
      hn.predecessorGraphContentHash, hn.graphEpoch, hs.graphContentHash, hs.revisionId, hsafe]

theorem applyNext_guards (s : GraphRevisionState) (e : GraphRevisionEvent) (t : GraphRevisionState)
    (h : applyNext s e = .ok t) :
    e.version = s.version + 1 ∧ s.lifecycle ∈ replayTransitions e.fact ∧ applyFact s e.version e.fact = .ok t := by
  unfold applyNext at h
  split at h
  · cases h
  split at h
  · cases h
  rename_i hversion
  split at h
  · cases h
  rename_i hlifecycle
  exact ⟨not_not.mp hversion, not_not.mp hlifecycle, h⟩

theorem applyNext_applies (s : GraphRevisionState) (e : GraphRevisionEvent) (t : GraphRevisionState)
    (hs : ValidRevision s) (h : applyNext s e = .ok t) : Applies s e t ∧ hashed e.fact = true := by
  obtain ⟨hversion, hlifecycle, h⟩ := applyNext_guards s e t h
  obtain ⟨id, version, fact⟩ := e
  dsimp only at hversion hlifecycle h
  subst hversion
  cases fact with
  | GraphRevisionCreated goalRef content plan revision => cases h
  | GraphRevisionSubmitted w =>
    simp only [applyFact, applySubmitted] at h
    split at h
    · cases h
    · rename_i hw
      obtain rfl := Except.ok.inj h
      exact ⟨.submitted id w (List.mem_singleton.mp hlifecycle) (by simpa using hw), rfl⟩
  | GraphRevisionApproved b =>
    simp only [applyFact, applyApproved] at h
    split at h
    · cases h
    rename_i hb
    split at h
    · cases h
    rename_i hcontent
    obtain rfl := Except.ok.inj h
    exact ⟨.approved id b (List.mem_singleton.mp hlifecycle) (by simpa using hb) (by simpa using hcontent), rfl⟩
  | GraphRevisionActivated g ref w =>
    obtain ⟨⟨hw, hbound, hcontent, rfl, rfl⟩, rfl⟩ := (applyActivated_iff s _ g ref w t).mp h
    exact ⟨.activated id w (List.mem_singleton.mp hlifecycle) hw hbound hcontent, rfl⟩
  | GraphRevisionRejected w =>
    simp only [applyFact, applyRejected] at h
    split at h
    · cases h
    · rename_i hw
      obtain rfl := Except.ok.inj h
      exact ⟨.rejected id w hlifecycle (by simpa using hw), rfl⟩
  | GraphRevisionSuperseded hash n =>
    obtain ⟨⟨hhash, hn⟩, rfl⟩ := (applySuperseded_iff s _ hash n t hs).mp h
    exact ⟨.superseded id hash n (List.mem_singleton.mp hlifecycle) hn, hhash⟩

theorem Applies.applyNext {s : GraphRevisionState} {e : GraphRevisionEvent} {t : GraphRevisionState}
    (h : Applies s e t) (hs : ValidRevision s) (hhash : hashed e.fact = true) : applyNext s e = .ok t := by
  unfold GraphRevision.applyNext
  cases h with
  | submitted id w hl hw => simp [isCreated, replayTransitions, hl, applyFact, applySubmitted, hw]
  | approved id b hl hb hcontent => simp [isCreated, replayTransitions, hl, applyFact, applyApproved, hb, hcontent]
  | activated id w hl hw hbound hcontent =>
    simp only [isCreated, replayTransitions, hl, applyFact]
    simpa using (applyActivated_iff s _ _ _ w _).mpr ⟨⟨hw, hbound, hcontent, rfl, rfl⟩, rfl⟩
  | rejected id w hl hw =>
    have hmem : s.lifecycle ∈ replayTransitions (.GraphRevisionRejected w) := hl
    simp [isCreated, hmem, applyFact, applyRejected, hw]
  | superseded id hash n hl hn =>
    simp only [isCreated, replayTransitions, hl, applyFact]
    simpa using (applySuperseded_iff s _ hash n _ hs).mpr ⟨⟨hhash, hn⟩, rfl⟩

theorem Applies.version {s t : GraphRevisionState} {e : GraphRevisionEvent} (h : Applies s e t) :
    e.version = s.version + 1 ∧ t.version = s.version + 1 := by
  cases h <;> exact ⟨rfl, rfl⟩

theorem Applies.revisionId {s t : GraphRevisionState} {e : GraphRevisionEvent} (h : Applies s e t) :
    t.revisionId = s.revisionId := by
  cases h <;> rfl

theorem validActivationEpoch_placed {w : GraphRevisionActivationWitness} (h : validActivationEpoch w = true) :
    validGraphEpochPlacement .ACTIVE w.graphEpoch = true := by
  simp only [validActivationEpoch, Bool.and_eq_true] at h
  have hpositive : 1 ≤ w.graphEpoch := by
    have hepoch := h.2
    cases hsuccession : w.succession with
    | none =>
      simp only [hsuccession, decide_eq_true_eq] at hepoch
      omega
    | some b =>
      simp only [hsuccession, validSuccessionBinding, Bool.and_eq_true, decide_eq_true_eq] at hepoch
      omega
  simp [validGraphEpochPlacement, epochBoundState, h.1, hpositive]

theorem validBoundPlacement_rejected {l : GraphRevisionLifecycle} {bound : Option GraphActivationBinding}
    {content : JsString} (h : validBoundPlacement l bound content = true) :
    validBoundPlacement .REJECTED bound content = true := by
  cases bound with
  | none => rfl
  | some b =>
    simp only [validBoundPlacement, Bool.and_eq_true] at h ⊢
    exact ⟨⟨rfl, h.1.2⟩, h.2⟩

theorem validSubmissionPlacement_rejected {l : GraphRevisionLifecycle} {ref : Option JsString}
    (h : validSubmissionPlacement l ref = true) : validSubmissionPlacement .REJECTED ref = true := by
  cases ref with
  | none => rfl
  | some r =>
    unfold validSubmissionPlacement at h
    split at h
    · cases h
    · split at h
      · exact h
      · exact h

theorem validGraphEpochPlacement_rejected {l : GraphRevisionLifecycle} {epoch : ℤ}
    (hl : l ∈ [GraphRevisionLifecycle.DRAFT, .PENDING_APPROVAL, .APPROVED])
    (h : validGraphEpochPlacement l epoch = true) : validGraphEpochPlacement .REJECTED epoch = true := by
  simp only [List.mem_cons, List.not_mem_nil, or_false] at hl
  rcases hl with rfl | rfl | rfl <;> exact h

theorem Applies.valid {s t : GraphRevisionState} {e : GraphRevisionEvent} (h : Applies s e t) (hs : ValidRevision s)
    (hsafe : s.version + 1 ≤ maxSafeInteger) : ValidRevision t := by
  have hversion : 1 ≤ s.version + 1 ∧ s.version + 1 ≤ maxSafeInteger := ⟨by have := hs.version.1; omega, hsafe⟩
  have hbound := hs.bound
  have hepoch := hs.graphEpoch
  have hsubmission := hs.submission
  cases h with
  | submitted id w hl hw =>
    rw [hl] at hbound hepoch
    simp only [validSubmission, Bool.and_eq_true] at hw
    exact ⟨hs.revisionId, hs.goalRef, hs.graphContentHash, hs.planHash, hversion, hbound, hepoch, by
      simpa [validSubmissionPlacement] using hw.1⟩
  | approved id b hl hb hcontent =>
    rw [hl] at hepoch hsubmission
    exact ⟨hs.revisionId, hs.goalRef, hs.graphContentHash, hs.planHash, hversion, by
      simp [validBoundPlacement, boundState, hb, hcontent], hepoch, hsubmission⟩
  | activated id w hl hw hb hcontent =>
    rw [hl] at hbound hsubmission
    exact ⟨hs.revisionId, hs.goalRef, hs.graphContentHash, hs.planHash, hversion, hbound,
      validActivationEpoch_placed (validActivation_epoch hw), hsubmission⟩
  | rejected id w hl hw =>
    exact ⟨hs.revisionId, hs.goalRef, hs.graphContentHash, hs.planHash, hversion, validBoundPlacement_rejected hbound,
      validGraphEpochPlacement_rejected hl hepoch, validSubmissionPlacement_rejected hsubmission⟩
  | superseded id hash n hl hn =>
    rw [hl] at hbound hepoch hsubmission
    exact ⟨hs.revisionId, hs.goalRef, hs.graphContentHash, hs.planHash, hversion, hbound, hepoch, hsubmission⟩

theorem createdState_valid (goalRef content plan revision : JsString) (hrevision : validRef revision = true)
    (hgoal : validRef goalRef = true) (hcontent : validHex64 content = true) (hplan : validHex64 plan = true) :
    ValidRevision (createdState goalRef content plan revision) :=
  ⟨hrevision, hgoal, hcontent, hplan, ⟨le_refl 1, show (1 : ℤ) ≤ maxSafeInteger by decide⟩, rfl,
    show validGraphEpochPlacement .DRAFT 0 = true by decide, rfl⟩

theorem applyFirst_created (e : GraphRevisionEvent) (t : GraphRevisionState) (h : applyFirst e = .ok t) :
    ∃ goalRef content plan revision, e = ⟨e.commandId, 1, .GraphRevisionCreated goalRef content plan revision⟩
      ∧ t = createdState goalRef content plan revision ∧ ValidRevision t := by
  obtain ⟨id, version, fact⟩ := e
  unfold applyFirst at h
  dsimp only at h
  split at h
  · rename_i goalRef content plan revision
    split at h
    · cases h
    rename_i hversion
    obtain rfl := not_not.mp hversion
    unfold applyCreated at h
    dsimp only at h
    split at h
    · rename_i hvalid
      obtain rfl := Except.ok.inj h
      exact ⟨goalRef, content, plan, revision, rfl, rfl, (validGraphRevisionState_iff _).mp hvalid⟩
    · cases h
  · cases h

/-! ### Logs that apply event by event -/

/-- An event that is admitted and then applied. -/
def admitted (current : Option GraphRevisionState) (e : GraphRevisionEvent) : Applied :=
  if admissible e then applyEntry current e else .error .EVENT_INVALID

abbrev Log := Chain admitted

theorem admitted_ok {current : Option GraphRevisionState} {e : GraphRevisionEvent} {t : GraphRevisionState}
    (h : admitted current e = .ok t) : admissible e = true ∧ applyEntry current e = .ok t := by
  unfold admitted at h
  split at h
  · rename_i hadmissible
    exact ⟨hadmissible, h⟩
  · cases h

theorem admissible_version {e : GraphRevisionEvent} (h : admissible e = true) : e.version ≤ maxSafeInteger := by
  simp only [admissible, Bool.and_eq_true, isSafeInteger_iff] at h
  exact h.2.2

theorem admissible_commandId {e : GraphRevisionEvent} (h : admissible e = true) : validRef e.commandId = true := by
  simp only [admissible, Bool.and_eq_true] at h
  exact h.1

theorem Log.valid {log : List GraphRevisionEvent} {current : Option GraphRevisionState} (h : Log log current) :
    ∀ s, current = some s → ValidRevision s := by
  induction h with
  | nil => nofun
  | snoc log current e t _ happly ih =>
    intro s hs
    obtain rfl := Option.some.inj hs
    obtain ⟨hadmissible, happly⟩ := admitted_ok happly
    cases current with
    | none =>
      obtain ⟨_, _, _, _, _, _, hvalid⟩ := applyFirst_created e t happly
      exact hvalid
    | some s =>
      have happlies := (applyNext_applies s e t (ih s rfl) happly).1
      have hsafe := admissible_version hadmissible
      rw [happlies.version.1] at hsafe
      exact happlies.valid (ih s rfl) hsafe

/-- Every version of a log is at most the version of the state it leads to. -/
def versionOf (current : Option GraphRevisionState) : ℤ := (current.map GraphRevisionState.version).getD 0

theorem Log.next_version {log : List GraphRevisionEvent} {current : Option GraphRevisionState} (h : Log log current)
    {e : GraphRevisionEvent} {t : GraphRevisionState} (happly : applyEntry current e = .ok t) :
    e.version = versionOf current + 1 ∧ t.version = versionOf current + 1 := by
  cases current with
  | none =>
    obtain ⟨_, _, _, _, he, rfl, _⟩ := applyFirst_created e t happly
    rw [he]
    exact ⟨rfl, rfl⟩
  | some s => exact (applyNext_applies s e t (h.valid s rfl) happly).1.version

theorem Log.version_le {log : List GraphRevisionEvent} {current : Option GraphRevisionState} (h : Log log current) :
    ∀ e ∈ log, e.version ≤ versionOf current := by
  induction h with
  | nil => nofun
  | snoc log current e t hlog happly ih =>
    obtain ⟨he, ht⟩ := Log.next_version hlog (admitted_ok happly).2
    intro x hx
    show x.version ≤ t.version
    rcases List.mem_append.mp hx with hx | hx
    · have := ih x hx
      omega
    · rw [List.mem_singleton.mp hx]
      omega

theorem Log.fresh {log : List GraphRevisionEvent} {current : Option GraphRevisionState} (h : Log log current)
    {e : GraphRevisionEvent} {t : GraphRevisionState} (happly : applyEntry current e = .ok t) :
    ∀ x ∈ log, x.version ≠ e.version := by
  intro x hx
  have hle := h.version_le x hx
  have hnext := (h.next_version happly).1
  omega

theorem Log.versions_nodup {log : List GraphRevisionEvent} {current : Option GraphRevisionState} (h : Log log current) :
    (log.map GraphRevisionEvent.version).Nodup := by
  induction h with
  | nil => exact List.nodup_nil
  | snoc log current e t hlog happly ih =>
    rw [List.map_append, List.nodup_append]
    refine ⟨ih, List.nodup_singleton _, ?_⟩
    intro v hv w hw
    obtain ⟨x, hx, rfl⟩ := List.mem_map.mp hv
    obtain rfl := List.mem_singleton.mp hw
    exact Log.fresh hlog (admitted_ok happly).2 x hx

/-- The created event carries the identity every later state keeps. -/
def createdId : GraphRevisionFact → Option JsString
  | .GraphRevisionCreated _ _ _ revisionId => some revisionId
  | _ => none

theorem Applies.createdId {s t : GraphRevisionState} {e : GraphRevisionEvent} (h : Applies s e t) :
    createdId e.fact = none := by
  cases h <;> rfl

/-- What the created event of a log names, and nothing else does. -/
structure Identified (log : List GraphRevisionEvent) (revisionId : JsString) : Prop where
  created : ∃ e ∈ log, createdId e.fact = some revisionId
  unique : ∀ e ∈ log, ∀ id, createdId e.fact = some id → id = revisionId

theorem Log.identified {log : List GraphRevisionEvent} {current : Option GraphRevisionState} (h : Log log current) :
    ∀ s, current = some s → Identified log s.revisionId := by
  induction h with
  | nil => nofun
  | snoc log current e t hlog happly ih =>
    intro s hs
    obtain rfl := Option.some.inj hs
    have happly := (admitted_ok happly).2
    cases current with
    | none =>
      obtain ⟨goalRef, content, plan, revision, he, rfl, -⟩ := applyFirst_created e t happly
      rw [hlog.eq_nil, he]
      refine ⟨⟨_, List.mem_singleton_self _, rfl⟩, ?_⟩
      intro x hx id hid
      rw [List.nil_append, List.mem_singleton] at hx
      rw [hx] at hid
      exact (Option.some.inj hid).symm
    | some s =>
      have happlies := (applyNext_applies s e t (Log.valid hlog s rfl) happly).1
      obtain ⟨⟨first, hfirst, hid⟩, hunique⟩ := ih s rfl
      rw [happlies.revisionId]
      refine ⟨⟨first, List.mem_append_left _ hfirst, hid⟩, ?_⟩
      intro x hx id hid
      rcases List.mem_append.mp hx with hx | hx
      · exact hunique x hx id hid
      · rw [List.mem_singleton.mp hx, happlies.createdId] at hid
        cases hid

/-! ### The replayer reads a delivery as its log -/

theorem replayEntry_new (log : List GraphRevisionEvent) (current : Option GraphRevisionState) (e : GraphRevisionEvent)
    (t : GraphRevisionState) (h : Log log current) (happly : admitted current e = .ok t) :
    replayEntry ⟨log, current⟩ e = .ok ⟨log ++ [e], some t⟩ := by
  obtain ⟨hadmissible, happly⟩ := admitted_ok happly
  have hfind : (log.find? fun seen => seen.version = e.version) = none := by
    rw [List.find?_eq_none]
    intro x hx
    simpa using h.fresh happly x hx
  simp [replayEntry, hadmissible, hfind, happly, Except.map]

theorem Log.admissible {log : List GraphRevisionEvent} {current : Option GraphRevisionState} (h : Log log current) :
    ∀ e ∈ log, admissible e = true := by
  induction h with
  | nil => nofun
  | snoc log current e t _ happly ih =>
    intro x hx
    rcases List.mem_append.mp hx with hx | hx
    · exact ih x hx
    · rw [List.mem_singleton.mp hx]
      exact (admitted_ok happly).1

theorem replayEntry_again (log : List GraphRevisionEvent) (current : Option GraphRevisionState)
    (e : GraphRevisionEvent) (h : Log log current) (he : e ∈ log) :
    replayEntry ⟨log, current⟩ e = .ok ⟨log, current⟩ := by
  have hfind := find_key_of_mem GraphRevisionEvent.version log h.versions_nodup e he
  simp [replayEntry, h.admissible e he, hfind]

theorem replayEntry_ok (log : List GraphRevisionEvent) (current : Option GraphRevisionState) (e : GraphRevisionEvent)
    (r : Replaying) (h : replayEntry ⟨log, current⟩ e = .ok r) :
    (r = ⟨log, current⟩ ∧ e ∈ log) ∨ ∃ t, admitted current e = .ok t ∧ r = ⟨log ++ [e], some t⟩ := by
  unfold replayEntry at h
  split at h
  · cases h
  rename_i hadmissible
  split at h
  · rename_i seen hseen
    split at h
    · cases h
    · rename_i hsame
      obtain rfl := not_not.mp hsame
      exact .inl ⟨(Except.ok.inj h).symm, List.mem_of_find?_eq_some hseen⟩
  · obtain ⟨t, ht, rfl⟩ := except_map_ok _ _ _ h
    refine .inr ⟨t, ?_, rfl⟩
    rw [admitted, if_pos (by simpa using hadmissible)]
    exact ht

theorem replay_of_log (log delivered : List GraphRevisionEvent) (s : GraphRevisionState) (h : Log log (some s))
    (hd : Redelivered log delivered) : replayGraphRevisionEvents delivered = .ok ⟨log, s⟩ := by
  have hfold := Chain.replay admitted replayEntry replayEntry_new replayEntry_again log delivered hd (some s) h
  unfold replayGraphRevisionEvents
  rw [hfold]
  rfl

theorem log_of_replay (delivered : List GraphRevisionEvent) (r : GraphRevisionAccepted)
    (h : replayGraphRevisionEvents delivered = .ok r) : Redelivered r.events delivered ∧ Log r.events (some r.state) := by
  unfold replayGraphRevisionEvents at h
  obtain ⟨q, hq, h⟩ := except_bind_ok _ _ _ h
  obtain ⟨hdelivered, hlog⟩ := Chain.of_replay admitted replayEntry (fun log s e r _ => replayEntry_ok log s e r)
    delivered q hq
  split at h
  · cases h
  · rename_i state hstate
    obtain rfl := Except.ok.inj h
    rw [hstate] at hlog
    exact ⟨hdelivered, hlog⟩

end MoeNG.Core.GraphRevision
