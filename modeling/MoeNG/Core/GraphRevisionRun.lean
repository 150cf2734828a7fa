import MoeNG.Core.GraphRevisionReplay

/-!
# Graph revision histories

The events a sequence of accepted commands emits, compared with what replays.
-/

namespace MoeNG.Core.GraphRevision
open MoeNG.Kernel MoeNG.Lib
open Supersession (DecidedSuccessor Decided decideSupersession)

variable (sha256 : List Byte → JsString)

/-- Every command is accepted in the state the earlier ones leave; all emitted events, and the last state. -/
def emitted (state : Option GraphRevisionState) :
    List GraphRevisionCommand → Except GraphRevisionRefusal (List GraphRevisionEvent × Option GraphRevisionState)
  | [] => .ok ([], state)
  | c :: rest => do
    let r ← reduceGraphRevision sha256 state c
    let (later, final) ← emitted (some r.state) rest
    .ok (r.events ++ later, final)

/-! ### What one command emits -/

/-- What the reducer checks of an event and the replayer does not, for the revision of the given identity. -/
def reducible (revisionId : JsString) : GraphRevisionFact → Bool
  | .GraphRevisionActivated _ _ w => w.succession.all fun b => b.predecessorRevisionId ≠ revisionId
  | .GraphRevisionSuperseded _ n => n.revisionId ≠ revisionId && revisionId.length ≤ 256 && n.revisionId.length ≤ 256
  | _ => true

structure Emits (s : GraphRevisionState) (e : GraphRevisionEvent) (t : GraphRevisionState) : Prop where
  applies : Applies s e t
  admissible : admissible e = true
  reducible : reducible s.revisionId e.fact = true
  hash : ∀ hash n, e.fact = .GraphRevisionSuperseded hash n → ∃ preimage, hash = sha256 preimage

inductive Steps : GraphRevisionState → List GraphRevisionEvent → GraphRevisionState → Prop where
  | nil (s : GraphRevisionState) : Steps s [] s
  | cons (s : GraphRevisionState) (e : GraphRevisionEvent) (m : GraphRevisionState) (rest : List GraphRevisionEvent)
    (t : GraphRevisionState) (h : Emits sha256 s e m) (hrest : Steps m rest t) : Steps s (e :: rest) t

theorem Steps.one {s t : GraphRevisionState} {e : GraphRevisionEvent} (h : Emits sha256 s e t) : Steps sha256 s [e] t :=
  .cons s e t [] t h (.nil t)

variable (s : GraphRevisionState)

theorem admissible_next (id : JsString) (fact : GraphRevisionFact) (hid : validRef id = true)
    (hs : 1 ≤ s.version) (hsafe : s.version + 1 ≤ maxSafeInteger) : admissible ⟨id, s.version + 1, fact⟩ = true := by
  have hmax : 0 ≤ maxSafeInteger := by decide
  simp only [admissible, hid, Bool.true_and, isSafeInteger_iff]
  exact ⟨by omega, hsafe⟩

theorem submit_steps (id : JsString) (w : GraphSubmissionWitness) (r : GraphRevisionAccepted)
    (hs : ValidRevision s) (hid : validRef id = true) (hsafe : s.version + 1 ≤ maxSafeInteger)
    (hl : s.lifecycle = .DRAFT) (h : submit s id w = .ok r) : Steps sha256 s r.events r.state := by
  unfold submit at h
  split at h
  · cases h
  · rename_i hw
    obtain rfl := Except.ok.inj h
    exact Steps.one sha256 ⟨.submitted id w hl (by simpa using hw), admissible_next s id _ hid hs.version.1 hsafe, rfl,
      nofun⟩

theorem refuse_steps (id : JsString) (w : GraphRevisionRefusalWitness)
    (r : GraphRevisionAccepted) (hs : ValidRevision s) (hid : validRef id = true)
    (hsafe : s.version + 1 ≤ maxSafeInteger)
    (hl : s.lifecycle ∈ [GraphRevisionLifecycle.DRAFT, .PENDING_APPROVAL, .APPROVED]) (h : refuse s id w = .ok r) :
    Steps sha256 s r.events r.state := by
  unfold refuse at h
  split at h
  · cases h
  · rename_i hw
    obtain rfl := Except.ok.inj h
    exact Steps.one sha256 ⟨.rejected id w hl (by simpa using hw), admissible_next s id _ hid hs.version.1 hsafe, rfl,
      nofun⟩

theorem approvalBinding_ok (approval : Option GraphRevisionApprovalWitness)
    (b : GraphActivationBinding) (h : approvalBinding s approval = .ok b) :
    validBinding b = true ∧ b.graphHash = s.graphContentHash := by
  unfold approvalBinding at h
  split at h
  · cases h
  split at h
  · cases h
  rename_i w hw
  split at h
  · cases h
  rename_i hcontent
  obtain rfl := Except.ok.inj h
  simp only [validApproval, Bool.not_eq_true', Bool.not_eq_false, Bool.and_eq_true] at hw
  exact ⟨hw.1.1, not_not.mp hcontent⟩

theorem namesItself_eq (w : GraphRevisionActivationWitness) :
    namesItself s w = !reducible s.revisionId (.GraphRevisionActivated w.expectedGoalVersion s.goalRef w) := by
  cases hw : w.succession <;> simp [namesItself, reducible, hw]

theorem activateBound_ok (id : JsString) (w : GraphRevisionActivationWitness)
    (bound : Option GraphActivationBinding) (version : ℤ) (events : List GraphRevisionEvent) (r : GraphRevisionAccepted)
    (h : activateBound s id w bound version events = .ok r) :
    validActivation w = true ∧ bound = some w.toGraphActivationBinding ∧ w.graphHash = s.graphContentHash
      ∧ namesItself s w = false
      ∧ r = ⟨events ++ [⟨id, version + 1, .GraphRevisionActivated w.expectedGoalVersion s.goalRef w⟩],
          { s with
            boundHashes := some w.toGraphActivationBinding, graphEpoch := w.graphEpoch, lifecycle := .ACTIVE,
            version := version + 1 }⟩ := by
  unfold activateBound at h
  split at h
  · cases h
  rename_i hw
  split at h
  · cases h
  rename_i b
  split at h
  · cases h
  rename_i hguards
  simp only [sameBinding, Bool.or_eq_true, Bool.not_eq_true', decide_eq_true_eq, decide_eq_false_iff_not, not_or,
    not_not, Bool.not_eq_true] at hguards
  obtain ⟨⟨rfl, hcontent⟩, hself⟩ := hguards
  exact ⟨by simpa using hw, rfl, hcontent, hself, (Except.ok.inj h).symm⟩

theorem decideApproval_steps (id : JsString) (activation : Option GraphRevisionActivationWitness)
    (approval : Option GraphRevisionApprovalWitness) (r : GraphRevisionAccepted) (hs : ValidRevision s)
    (hid : validRef id = true) (hsafe : safeToApply s (.approve activation approval) = true)
    (hl : s.lifecycle ∈ [GraphRevisionLifecycle.PENDING_APPROVAL, .APPROVED])
    (h : decideApproval s id activation approval = .ok r) : Steps sha256 s r.events r.state := by
  have hversion := hs.version.1
  simp only [safeToApply, decide_eq_true_eq] at hsafe
  unfold decideApproval at h
  split at h
  · rename_i hpending
    obtain ⟨b, hb, h⟩ := except_bind_ok _ _ _ h
    obtain ⟨hbinding, hcontent⟩ := approvalBinding_ok s approval b hb
    have hfirst (hsafe : s.version + 1 ≤ maxSafeInteger) : Emits sha256 s ⟨id, s.version + 1, .GraphRevisionApproved b⟩ _ :=
      ⟨.approved id b hpending hbinding hcontent, admissible_next s id _ hid hversion hsafe, rfl, nofun⟩
    cases activation with
    | none =>
      obtain rfl := Except.ok.inj h
      simp only [compound, Option.isSome_none, Bool.and_false] at hsafe
      exact Steps.one sha256 (hfirst (by simp at hsafe; omega))
    | some w =>
      simp only [compound, hpending, Option.isSome_some, decide_true, Bool.and_true, if_true] at hsafe
      obtain ⟨hw, hbound, hgraph, hself, rfl⟩ := activateBound_ok s id w _ _ _ r h
      obtain rfl := Option.some.inj hbound
      refine .cons s _ _ _ _ (hfirst (by omega)) (Steps.one sha256 ⟨.activated id w rfl hw rfl hgraph, ?_, ?_, nofun⟩)
      · exact admissible_next { s with version := s.version + 1 } id _ hid (by dsimp only; omega) (by dsimp only; omega)
      · simpa [namesItself_eq] using hself
  · rename_i hpending
    have happroved : s.lifecycle = .APPROVED := by simpa [hpending] using hl
    split at h
    · cases h
    split at h
    · cases h
    rename_i w
    simp only [compound, hpending, decide_false, Bool.false_and] at hsafe
    obtain ⟨hw, hbound, hgraph, hself, rfl⟩ := activateBound_ok s id w _ _ _ r h
    rw [← hbound]
    refine Steps.one sha256 ⟨.activated id w happroved hw hbound hgraph, ?_, ?_, nofun⟩
    · exact admissible_next s id _ hid hversion (by simp at hsafe; omega)
    · simpa [namesItself_eq] using hself

theorem active_epoch (hs : ValidRevision s) (hl : s.lifecycle = .ACTIVE) :
    1 ≤ s.graphEpoch ∧ s.graphEpoch ≤ maxSafeInteger := by
  have hepoch := hs.graphEpoch
  rw [hl] at hepoch
  simp only [validGraphEpochPlacement, epochBoundState, Bool.and_eq_true, isSafeInteger_iff] at hepoch
  exact ⟨by simpa using hepoch.2, hepoch.1.2⟩

/-- The kernel binds the successors the replayer accepts, less those that `reducible` names. -/
theorem decided_iff (n : DecidedSuccessor) (hash : JsString) (hs : ValidRevision s) (hl : s.lifecycle = .ACTIVE) :
    Decided ⟨s.graphContentHash, s.graphEpoch, s.revisionId⟩ n ↔
      Succeeds s n ∧ reducible s.revisionId (.GraphRevisionSuperseded hash n) = true := by
  constructor
  · rintro ⟨hcurrent, hnext, hmonotonic, hlifecycle⟩
    simp only [Supersession.binding, Supersession.successor, Supersession.monotonic, Supersession.validEpoch,
      Supersession.validRef_iff, Bool.and_eq_true, decide_eq_true_eq] at hcurrent hnext hmonotonic
    obtain ⟨⟨⟨⟨hid, hcontent⟩, hsafe, -⟩, -⟩, -⟩ := hnext
    obtain ⟨⟨⟨⟨-, hepoch⟩, hdistinct⟩, hpredecessor⟩, hpredecessorHash⟩ := hmonotonic
    refine ⟨⟨hcontent, ?_, hlifecycle, hsafe, hpredecessor, hpredecessorHash, hepoch⟩, ?_⟩
    · simpa [validRef, isRef] using hid.1
    · simp [reducible, hdistinct, hcurrent.1.1.2, hid.2]
  · rintro ⟨hn, hreducible⟩
    simp only [reducible, Bool.and_eq_true, decide_eq_true_eq] at hreducible
    obtain ⟨⟨hdistinct, hlength⟩, hnextLength⟩ := hreducible
    obtain ⟨hpositive, hmax⟩ := active_epoch s hs hl
    have hsafe := (isSafeInteger_iff _).mp hn.safe
    have hepoch := hn.graphEpoch
    have hid : 0 < s.revisionId.length := by simpa [validRef, isRef] using hs.revisionId
    have hnextId : 0 < n.revisionId.length := by simpa [validRef, isRef] using hn.revisionId
    refine ⟨?_, ?_, ?_, hn.lifecycle⟩
    · simp only [Supersession.binding, Supersession.validEpoch, Supersession.validRef_iff, Bool.and_eq_true,
        decide_eq_true_eq, isSafeInteger_iff]
      exact ⟨⟨⟨hid, hlength⟩, hs.graphContentHash⟩, ⟨by omega, hmax⟩, by omega⟩
    · simp only [Supersession.successor, Supersession.binding, Supersession.validEpoch, Supersession.validRef_iff,
        Bool.and_eq_true, decide_eq_true_eq]
      refine ⟨⟨⟨⟨⟨hnextId, hnextLength⟩, hn.graphContentHash⟩, hn.safe, by omega⟩, ?_⟩, ?_⟩
      · rw [hn.predecessorRevisionId]
        exact ⟨hid, hlength⟩
      · rw [hn.predecessorGraphContentHash]
        exact hs.graphContentHash
    · simp only [Supersession.monotonic, Bool.and_eq_true, decide_eq_true_eq]
      exact ⟨⟨⟨⟨by omega, hepoch⟩, hdistinct⟩, hn.predecessorRevisionId⟩, hn.predecessorGraphContentHash⟩

theorem supersede_steps (id : JsString) (input : Supersession.SupersessionInput)
    (r : GraphRevisionAccepted) (hs : ValidRevision s) (hid : validRef id = true)
    (hsafe : s.version + 1 ≤ maxSafeInteger) (hl : s.lifecycle = .ACTIVE) (h : supersede sha256 s id input = .ok r) :
    Steps sha256 s r.events r.state := by
  unfold supersede at h
  split at h
  · rename_i code _
    cases code <;> cases h
  · rename_i decision hdecision
    obtain rfl := Except.ok.inj h
    obtain ⟨hd, hhash⟩ := Supersession.decideSupersession_decided sha256 _ _ _ hdecision
    obtain ⟨hn, hreducible⟩ := (decided_iff s decision.successor decision.authorityHash hs hl).mp hd
    refine Steps.one sha256 ⟨.superseded id _ _ hl hn, admissible_next s id _ hid hs.version.1 hsafe, hreducible, ?_⟩
    intro hash n he
    cases he
    exact hhash

theorem safeToApply_next {s : GraphRevisionState} {request : GraphRevisionRequest}
    (h : safeToApply s request = true) : s.version + 1 ≤ maxSafeInteger := by
  simp only [safeToApply, decide_eq_true_eq] at h
  split at h <;> omega

theorem reduce_guards (c : GraphRevisionCommand) (r : GraphRevisionAccepted)
    (h : reduceGraphRevision sha256 (some s) c = .ok r) :
    ValidRevision s ∧ validRef c.commandId = true ∧ s.lifecycle ∈ graphRevisionTransitions c.request.kind
      ∧ safeToApply s c.request = true ∧ applyRequest sha256 s c.commandId c.request = .ok r := by
  unfold reduceGraphRevision at h
  dsimp only at h
  split at h
  · cases h
  rename_i hvalid
  split at h
  · cases h
  split at h
  · cases h
  split at h
  · cases h
  split at h
  · cases h
  rename_i hid
  split at h
  · cases h
  rename_i hl
  split at h
  · cases h
  rename_i hsafe
  exact ⟨(validGraphRevisionState_iff s).mp (by simpa using hvalid), by simpa using hid, not_not.mp hl,
    by simpa using hsafe, h⟩

theorem reduce_steps (c : GraphRevisionCommand) (r : GraphRevisionAccepted)
    (h : reduceGraphRevision sha256 (some s) c = .ok r) : Steps sha256 s r.events r.state := by
  obtain ⟨hs, hid, hl, hsafe, h⟩ := reduce_guards sha256 s c r h
  have hnext := safeToApply_next hsafe
  cases hrequest : c.request with
  | create goalRef content plan revision =>
    rw [hrequest] at hl
    cases hl
  | submit w =>
    rw [hrequest] at hl h
    exact submit_steps sha256 s c.commandId w r hs hid hnext (List.mem_singleton.mp hl) h
  | approve activation approval =>
    rw [hrequest] at hl hsafe h
    exact decideApproval_steps sha256 s c.commandId activation approval r hs hid hsafe hl h
  | reject w =>
    rw [hrequest] at hl h
    exact refuse_steps sha256 s c.commandId w r hs hid hnext hl h
  | supersede input =>
    rw [hrequest] at hl h
    exact supersede_steps sha256 s c.commandId input r hs hid hnext (List.mem_singleton.mp hl) h

theorem reduce_creates (c : GraphRevisionCommand) (r : GraphRevisionAccepted)
    (h : reduceGraphRevision sha256 none c = .ok r) :
    ∃ goalRef content plan revision, r = ⟨[⟨c.commandId, 1, .GraphRevisionCreated goalRef content plan revision⟩],
        createdState goalRef content plan revision⟩
      ∧ validRef c.commandId = true ∧ ValidRevision (createdState goalRef content plan revision) := by
  unfold reduceGraphRevision at h
  dsimp only at h
  split at h
  · rename_i goalRef content plan revision _
    split at h
    · cases h
    rename_i hid
    unfold create at h
    split at h
    · cases h
    rename_i hguards
    simp only [Bool.or_eq_true, Bool.not_eq_true', decide_eq_true_eq, not_or, not_not, Bool.not_eq_false] at hguards
    obtain ⟨⟨⟨⟨-, hrevision⟩, hgoal⟩, hcontent⟩, hplan⟩ := hguards
    exact ⟨goalRef, content, plan, revision, (Except.ok.inj h).symm, by simpa using hid,
      createdState_valid goalRef content plan revision hrevision hgoal hcontent hplan⟩
  · cases h

theorem admitted_created (id goalRef content plan revision : JsString) (hid : validRef id = true)
    (h : ValidRevision (createdState goalRef content plan revision)) :
    admitted none ⟨id, 1, .GraphRevisionCreated goalRef content plan revision⟩
      = .ok (createdState goalRef content plan revision) := by
  have hadmissible : admissible ⟨id, 1, .GraphRevisionCreated goalRef content plan revision⟩ = true := by
    rw [admissible, hid]
    exact show isSafeInteger 1 = true by decide
  have hvalid := (validGraphRevisionState_iff _).mpr h
  rw [admitted, if_pos hadmissible]
  show applyCreated 1 goalRef content plan revision = _
  exact if_pos hvalid

/-! ### What a sequence of commands emits -/

theorem Steps.revisionId {s t : GraphRevisionState} {events : List GraphRevisionEvent} (h : Steps sha256 s events t) :
    t.revisionId = s.revisionId := by
  induction h with
  | nil => rfl
  | cons s e m rest t h _ ih => rw [ih, h.applies.revisionId]

/-- The event is one the reducer emits for the revision of the given identity. -/
structure Belongs (revisionId : JsString) (e : GraphRevisionEvent) : Prop where
  reducible : reducible revisionId e.fact = true
  created : ∀ id, createdId e.fact = some id → id = revisionId

theorem Steps.belongs {s t : GraphRevisionState} {events : List GraphRevisionEvent} (h : Steps sha256 s events t) :
    ∀ e ∈ events, Belongs s.revisionId e := by
  induction h with
  | nil => nofun
  | cons s e m rest t h _ ih =>
    intro x hx
    rcases List.mem_cons.mp hx with rfl | hx
    · refine ⟨h.reducible, fun id hid => ?_⟩
      rw [h.applies.createdId] at hid
      cases hid
    · rw [← h.applies.revisionId]
      exact ih x hx

theorem Steps.log {s t : GraphRevisionState} {events : List GraphRevisionEvent} (h : Steps sha256 s events t)
    (hsha : ∀ bytes, validHex64 (sha256 bytes) = true) (log : List GraphRevisionEvent) (hlog : Log log (some s)) :
    Log (log ++ events) (some t) := by
  induction h generalizing log with
  | nil => rwa [List.append_nil]
  | cons s e m rest t h _ ih =>
    rw [List.append_cons]
    refine ih (log ++ [e]) (.snoc log (some s) e m hlog ?_)
    rw [admitted, if_pos h.admissible]
    refine h.applies.applyNext (Log.valid hlog s rfl) ?_
    cases hfact : e.fact with
    | GraphRevisionSuperseded hash n =>
      obtain ⟨preimage, rfl⟩ := h.hash hash n hfact
      exact hsha preimage
    | _ => rfl

theorem emitted_log (hsha : ∀ bytes, validHex64 (sha256 bytes) = true) (commands : List GraphRevisionCommand)
    (state : Option GraphRevisionState) (log events : List GraphRevisionEvent) (final : Option GraphRevisionState)
    (h : emitted sha256 state commands = .ok (events, final)) (hlog : Log log state) : Log (log ++ events) final := by
  induction commands generalizing state log events with
  | nil =>
    cases h
    rwa [List.append_nil]
  | cons c rest ih =>
    obtain ⟨r, hr, h⟩ := except_bind_ok _ _ _ h
    obtain ⟨⟨later, last⟩, hlater, h⟩ := except_bind_ok _ _ _ h
    cases h
    rw [← List.append_assoc]
    refine ih (some r.state) (log ++ r.events) later hlater ?_
    cases state with
    | some s => exact (reduce_steps sha256 s c r hr).log sha256 hsha log hlog
    | none =>
      obtain ⟨goalRef, content, plan, revision, rfl, hid, hvalid⟩ := reduce_creates sha256 c r hr
      exact .snoc log none _ _ hlog (admitted_created c.commandId goalRef content plan revision hid hvalid)

theorem emitted_belongs (commands : List GraphRevisionCommand) (state : Option GraphRevisionState)
    (events : List GraphRevisionEvent) (t : GraphRevisionState)
    (h : emitted sha256 state commands = .ok (events, some t)) :
    (∀ s, state = some s → t.revisionId = s.revisionId) ∧ ∀ e ∈ events, Belongs t.revisionId e := by
  induction commands generalizing state events with
  | nil =>
    cases h
    exact ⟨fun s hs => by rw [Option.some.inj hs], nofun⟩
  | cons c rest ih =>
    obtain ⟨r, hr, h⟩ := except_bind_ok _ _ _ h
    obtain ⟨⟨later, last⟩, hlater, h⟩ := except_bind_ok _ _ _ h
    cases h
    obtain ⟨hid, hevents⟩ := ih (some r.state) later hlater
    have hid := hid r.state rfl
    cases state with
    | some s =>
      have hsteps := reduce_steps sha256 s c r hr
      rw [hsteps.revisionId] at hid
      refine ⟨fun s' hs' => by rw [hid, Option.some.inj hs'], fun e he => ?_⟩
      rcases List.mem_append.mp he with he | he
      · rw [hid]
        exact hsteps.belongs sha256 e he
      · exact hevents e he
    | none =>
      obtain ⟨goalRef, content, plan, revision, rfl, -, -⟩ := reduce_creates sha256 c r hr
      refine ⟨nofun, fun e he => ?_⟩
      rcases List.mem_append.mp he with he | he
      · rw [List.mem_singleton.mp he, hid]
        exact ⟨rfl, fun id hid => (Option.some.inj hid).symm⟩
      · exact hevents e he

theorem emitted_concat (commands : List GraphRevisionCommand) (c : GraphRevisionCommand)
    (state final : Option GraphRevisionState) (events : List GraphRevisionEvent) (r : GraphRevisionAccepted)
    (h : emitted sha256 state commands = .ok (events, final)) (hr : reduceGraphRevision sha256 final c = .ok r) :
    emitted sha256 state (commands ++ [c]) = .ok (events ++ r.events, some r.state) := by
  induction commands generalizing state events with
  | nil =>
    cases h
    simp [emitted, hr, bind, Except.bind]
  | cons first rest ih =>
    obtain ⟨q, hq, h⟩ := except_bind_ok _ _ _ h
    obtain ⟨⟨later, last⟩, hlater, h⟩ := except_bind_ok _ _ _ h
    cases h
    rw [List.cons_append, emitted, hq, List.append_assoc]
    simp only [bind, Except.bind]
    rw [ih (some q.state) later hlater]

/-! ### Every applied event has a command of its own -/

/-- The event with the hash of its authority left out. -/
def withoutAuthority (e : GraphRevisionEvent) : GraphRevisionEvent :=
  match e.fact with
  | .GraphRevisionSuperseded _ n => { e with fact := .GraphRevisionSuperseded [] n }
  | _ => e

theorem reduce_eq (id : JsString) (request : GraphRevisionRequest) (hs : ValidRevision s)
    (hid : validRef id = true) (hl : s.lifecycle ∈ graphRevisionTransitions request.kind)
    (hsafe : safeToApply s request = true) :
    reduceGraphRevision sha256 (some s) ⟨id, s.version, request⟩ = applyRequest sha256 s id request := by
  have hvalid := (validGraphRevisionState_iff s).mpr hs
  have hexpected : validExpectedVersion s.version = true := by
    have hversion := hs.version
    have hmax : 0 ≤ maxSafeInteger := by decide
    simp only [validExpectedVersion, Bool.and_eq_true, isSafeInteger_iff, decide_eq_true_eq]
    omega
  have hlive : s.lifecycle ≠ .SUPERSEDED := by
    intro hsuperseded
    rw [hsuperseded] at hl
    cases hkind : request.kind <;> rw [hkind] at hl <;> simp [graphRevisionTransitions] at hl
  simp only [reduceGraphRevision, hvalid, hlive, hexpected, hid, hl, hsafe]
  simp

/-- A request that emits the given fact and nothing else. -/
def requestOf (s : GraphRevisionState) : GraphRevisionFact → GraphRevisionRequest
  | .GraphRevisionCreated goalRef content plan revision => .create goalRef content plan revision
  | .GraphRevisionSubmitted w => .submit w
  | .GraphRevisionApproved b => .approve none (some ⟨b, lit "approval", .DAEMON_VERIFIED⟩)
  | .GraphRevisionActivated _ _ w => .approve (some w) none
  | .GraphRevisionRejected w => .reject w
  | .GraphRevisionSuperseded _ n => .supersede
      (Supersession.addition ⟨s.graphContentHash, s.graphEpoch, s.revisionId⟩ n.toSupersessionSuccessorBinding)

theorem requestOf_allowed {s t : GraphRevisionState} {e : GraphRevisionEvent} (h : Applies s e t) :
    s.lifecycle ∈ graphRevisionTransitions (requestOf s e.fact).kind := by
  cases h with
  | submitted id w hl hw => exact List.mem_singleton.mpr hl
  | approved id b hl hb hcontent => simp [requestOf, GraphRevisionRequest.kind, graphRevisionTransitions, hl]
  | activated id w hl hw hbound hcontent => simp [requestOf, GraphRevisionRequest.kind, graphRevisionTransitions, hl]
  | rejected id w hl hw => exact hl
  | superseded id hash n hl hn => exact List.mem_singleton.mpr hl

theorem requestOf_safe {s t : GraphRevisionState} {e : GraphRevisionEvent} (h : Applies s e t)
    (hnext : s.version + 1 ≤ maxSafeInteger) : safeToApply s (requestOf s e.fact) = true := by
  have hcompound : compound s (requestOf s e.fact) = false := by
    cases h with
    | activated id w hl hw hbound hcontent => simp [requestOf, compound, hl]
    | approved id b hl hb hcontent => simp [requestOf, compound]
    | _ => rfl
  simp only [safeToApply, hcompound, decide_eq_true_eq]
  simp only [Bool.false_eq_true, if_false]
  omega

theorem applyRequest_requestOf {s t : GraphRevisionState} {e : GraphRevisionEvent} (h : Applies s e t)
    (hs : ValidRevision s) (hreducible : reducible s.revisionId e.fact = true) :
    ∃ r, applyRequest sha256 s e.commandId (requestOf s e.fact) = .ok r ∧ r.state = t
      ∧ r.events.map withoutAuthority = [withoutAuthority e] := by
  cases h with
  | submitted id w hl hw =>
    refine ⟨⟨[⟨id, s.version + 1, .GraphRevisionSubmitted w⟩], _⟩, ?_, rfl, rfl⟩
    simp [applyRequest, requestOf, submit, hw, accepted]
  | rejected id w hl hw =>
    refine ⟨⟨[⟨id, s.version + 1, .GraphRevisionRejected w⟩], _⟩, ?_, rfl, rfl⟩
    simp [applyRequest, requestOf, refuse, hw, accepted]
  | approved id b hl hb hcontent =>
    have happroval : validApproval ⟨b, lit "approval", .DAEMON_VERIFIED⟩ = true := by
      simp only [validApproval, hb]
      decide
    have hbinding : approvalBinding s (some ⟨b, lit "approval", .DAEMON_VERIFIED⟩) = .ok b := by
      simp [approvalBinding, happroval, hcontent]
    refine ⟨⟨[⟨id, s.version + 1, .GraphRevisionApproved b⟩], _⟩, ?_, rfl, rfl⟩
    simp only [applyRequest, requestOf, decideApproval, hl, if_true, hbinding]
    rfl
  | activated id w hl hw hbound hcontent =>
    have hself : namesItself s w = false := by simpa [namesItself_eq] using hreducible
    refine ⟨⟨[⟨id, s.version + 1, .GraphRevisionActivated w.expectedGoalVersion s.goalRef w⟩], _⟩, ?_, rfl, rfl⟩
    simp [applyRequest, requestOf, decideApproval, hl, activateBound, hw, hbound, sameBinding, hcontent, hself, accepted]
  | superseded id hash n hl hn =>
    have hd := (decided_iff s n hash hs hl).mpr ⟨hn, hreducible⟩
    obtain ⟨d, hdecision, rfl⟩ := Supersession.decideSupersession_addition sha256 _ n hd
    refine ⟨⟨[⟨id, s.version + 1, .GraphRevisionSuperseded d.authorityHash d.successor⟩], _⟩, ?_, rfl, rfl⟩
    simp only [applyRequest, requestOf, supersede, hdecision]
    rfl

theorem reduce_requestOf {s t : GraphRevisionState} {e : GraphRevisionEvent} (h : Applies s e t)
    (hs : ValidRevision s) (hadmissible : admissible e = true) (hreducible : reducible s.revisionId e.fact = true) :
    ∃ r, reduceGraphRevision sha256 (some s) ⟨e.commandId, s.version, requestOf s e.fact⟩ = .ok r ∧ r.state = t
      ∧ r.events.map withoutAuthority = [withoutAuthority e] := by
  have hnext := admissible_version hadmissible
  rw [h.version.1] at hnext
  rw [reduce_eq sha256 s e.commandId _ hs (admissible_commandId hadmissible) (requestOf_allowed h)
    (requestOf_safe h hnext)]
  exact applyRequest_requestOf sha256 h hs hreducible

theorem reduce_create (id goalRef content plan revision : JsString) (hid : validRef id = true)
    (h : ValidRevision (createdState goalRef content plan revision)) :
    reduceGraphRevision sha256 none ⟨id, 0, .create goalRef content plan revision⟩
      = .ok ⟨[⟨id, 1, .GraphRevisionCreated goalRef content plan revision⟩], createdState goalRef content plan revision⟩ := by
  have hrevision : validRef revision = true := h.revisionId
  have hgoal : validRef goalRef = true := h.goalRef
  have hcontent : validHex64 content = true := h.graphContentHash
  have hplan : validHex64 plan = true := h.planHash
  simp [reduceGraphRevision, hid, create, hrevision, hgoal, hcontent, hplan, accepted]

/-- A log whose events are all reducible is emitted by commands, one for each event. -/
theorem Log.emitted {log : List GraphRevisionEvent} {current : Option GraphRevisionState} (h : Log log current) :
    ∀ s, current = some s → (∀ e ∈ log, reducible s.revisionId e.fact = true) →
      ∃ commands events, GraphRevision.emitted sha256 none commands = .ok (events, some s)
        ∧ events.map withoutAuthority = log.map withoutAuthority := by
  induction h with
  | nil => nofun
  | snoc log current e t hlog happly ih =>
    intro s hs hreducible
    obtain rfl := Option.some.inj hs
    obtain ⟨hadmissible, happly⟩ := admitted_ok happly
    cases current with
    | none =>
      obtain ⟨goalRef, content, plan, revision, he, rfl, hvalid⟩ := applyFirst_created e t happly
      have hcreate := reduce_create sha256 e.commandId goalRef content plan revision (admissible_commandId hadmissible)
        hvalid
      refine ⟨[_], _, emitted_concat sha256 [] _ none none [] _ rfl hcreate, ?_⟩
      rw [hlog.eq_nil, he]
    | some s =>
      have hs := Log.valid hlog s rfl
      have happlies := (applyNext_applies s e t hs happly).1
      rw [happlies.revisionId] at hreducible
      obtain ⟨commands, events, hemitted, hevents⟩ := ih s rfl fun x hx => hreducible x (List.mem_append_left _ hx)
      obtain ⟨r, hr, rfl, hlast⟩ := reduce_requestOf sha256 happlies hs hadmissible
        (hreducible e (List.mem_append_right _ (List.mem_singleton_self e)))
      refine ⟨commands ++ [_], _, emitted_concat sha256 commands _ none (some s) events r hemitted hr, ?_⟩
      rw [List.map_append, List.map_append, hevents, hlast, List.map_singleton]

/-! ### Both directions -/

/-- What commands emit replays, however often it is redelivered, to the state the commands left. -/
theorem replay_restores_reduced (hsha : ∀ bytes, validHex64 (sha256 bytes) = true)
    (commands : List GraphRevisionCommand) (events delivered : List GraphRevisionEvent) (s : GraphRevisionState)
    (h : emitted sha256 none commands = .ok (events, some s)) (hd : Redelivered events delivered) :
    replayGraphRevisionEvents delivered = .ok ⟨events, s⟩ :=
  replay_of_log events delivered s (emitted_log sha256 hsha commands none [] events (some s) h .nil) hd

def digestOf (c : CodeUnit) : JsString := List.replicate 64 c

def approvedHashes : GraphActivationBinding := ⟨digestOf 98, 1, digestOf 97, digestOf 99, digestOf 100⟩

def initialActivation : GraphRevisionActivationWitness := ⟨approvedHashes, lit "activation", 1, none, .DAEMON_VERIFIED⟩

def nextRevision : Supersession.SupersessionSuccessorBinding := ⟨⟨digestOf 101, 2, lit "rev-2"⟩, digestOf 97, lit "rev-1"⟩

def authorityDigest : JsString := lit "6b513bd28b356f2306e8e9cf114a3407d386762447dd71a786a44fb04ad7b7a4"

def supersededCommands : List GraphRevisionCommand :=
  [⟨lit "c1", 0, .create (lit "goal") (digestOf 97) (digestOf 102) (lit "rev-1")⟩,
    ⟨lit "c2", 1, .submit ⟨lit "submission", .DAEMON_VERIFIED⟩⟩,
    ⟨lit "c3", 2, .approve (some initialActivation) (some ⟨approvedHashes, lit "approval", .HUMAN_APPROVED⟩)⟩,
    ⟨lit "c4", 4, .supersede (Supersession.addition ⟨digestOf 97, 1, lit "rev-1"⟩ nextRevision)⟩]

def createdEvent : GraphRevisionEvent :=
  ⟨lit "c1", 1, .GraphRevisionCreated (lit "goal") (digestOf 97) (digestOf 102) (lit "rev-1")⟩

def submittedEvent : GraphRevisionEvent := ⟨lit "c2", 2, .GraphRevisionSubmitted ⟨lit "submission", .DAEMON_VERIFIED⟩⟩

def approvedEvent : GraphRevisionEvent := ⟨lit "c3", 3, .GraphRevisionApproved approvedHashes⟩

def activatedEvent : GraphRevisionEvent := ⟨lit "c3", 4, .GraphRevisionActivated 1 (lit "goal") initialActivation⟩

def supersededEvent : GraphRevisionEvent := ⟨lit "c4", 5, .GraphRevisionSuperseded authorityDigest ⟨nextRevision, .ACTIVE⟩⟩

def supersededHistory : List GraphRevisionEvent :=
  [createdEvent, submittedEvent, approvedEvent, activatedEvent, supersededEvent]

def supersededState : GraphRevisionState :=
  ⟨some approvedHashes, lit "goal", digestOf 97, 1, .SUPERSEDED, digestOf 102, lit "rev-1", some (lit "submission"), 5⟩

theorem replay_restores_superseded :
    replayGraphRevisionEvents (supersededHistory ++ [createdEvent, approvedEvent])
      = .ok ⟨supersededHistory, supersededState⟩ := by
  refine replay_restores_reduced (fun _ => authorityDigest) (fun _ => by decide +kernel) supersededCommands
    supersededHistory _ supersededState (by decide +kernel) ?_
  have hlog : Redelivered supersededHistory supersededHistory :=
    .first _ _ _ (.first _ _ _ (.first _ _ _ (.first _ _ _ (.first _ _ _ .nil))))
  exact hlog.append_again _ (by simp [supersededHistory])

/-- The history, less its repeats and up to the authority hash, is what some sequence of commands emits. -/
def Emitted (history : List GraphRevisionEvent) : Prop :=
  ∃ commands events s log, emitted sha256 none commands = .ok (events, some s) ∧ Redelivered log history
    ∧ events.map withoutAuthority = log.map withoutAuthority

/-- No event names the created revision as its own predecessor or successor, and a superseded revision and its
successor have identities the supersession kernel takes. -/
def Reducible (history : List GraphRevisionEvent) : Prop :=
  ∀ first ∈ history, ∀ revisionId, createdId first.fact = some revisionId →
    ∀ e ∈ history, reducible revisionId e.fact = true

theorem reducible_withoutAuthority (revisionId : JsString) (e : GraphRevisionEvent) :
    reducible revisionId (withoutAuthority e).fact = reducible revisionId e.fact := by
  obtain ⟨id, version, fact⟩ := e
  cases fact <;> rfl

theorem createdId_withoutAuthority (e : GraphRevisionEvent) : createdId (withoutAuthority e).fact = createdId e.fact := by
  obtain ⟨id, version, fact⟩ := e
  cases fact <;> rfl

theorem Emitted.reducible {history : List GraphRevisionEvent} (h : Emitted sha256 history) : Reducible history := by
  obtain ⟨commands, events, s, log, hemitted, hdelivered, hsame⟩ := h
  have hevents := (emitted_belongs sha256 commands none events s hemitted).2
  have hmem : ∀ e ∈ history, ∃ x ∈ events, withoutAuthority x = withoutAuthority e := by
    intro e he
    have hlog := (hdelivered.mem_iff e).mp he
    have hmap : withoutAuthority e ∈ events.map withoutAuthority := hsame ▸ List.mem_map_of_mem hlog
    exact List.mem_map.mp hmap
  intro first hfirst revisionId hid e he
  obtain ⟨x, hx, hxe⟩ := hmem e he
  obtain ⟨y, hy, hyf⟩ := hmem first hfirst
  rw [← createdId_withoutAuthority, ← hyf, createdId_withoutAuthority] at hid
  rw [(hevents y hy).created revisionId hid, ← reducible_withoutAuthority, ← hxe, reducible_withoutAuthority]
  exact (hevents x hx).reducible

theorem replayed_emitted_iff (history : List GraphRevisionEvent) (r : GraphRevisionAccepted)
    (h : replayGraphRevisionEvents history = .ok r) : Emitted sha256 history ↔ Reducible history := by
  obtain ⟨hdelivered, hlog⟩ := log_of_replay history r h
  constructor
  · exact Emitted.reducible sha256
  · intro hreducible
    obtain ⟨⟨first, hfirst, hid⟩, -⟩ := hlog.identified r.state rfl
    obtain ⟨commands, events, hemitted, hevents⟩ := Log.emitted sha256 hlog r.state rfl fun e he =>
      hreducible first ((hdelivered.mem_iff first).mpr hfirst) r.state.revisionId hid e ((hdelivered.mem_iff e).mpr he)
    exact ⟨commands, events, r.state, r.events, hemitted, hdelivered, hevents⟩

theorem replayed_emitted_superseded :
    replayGraphRevisionEvents supersededHistory = .ok ⟨supersededHistory, supersededState⟩
      ∧ (Emitted (fun _ => authorityDigest) supersededHistory ↔ Reducible supersededHistory) := by
  have h : replayGraphRevisionEvents supersededHistory = .ok ⟨supersededHistory, supersededState⟩ := by decide +kernel
  exact ⟨h, replayed_emitted_iff (fun _ => authorityDigest) supersededHistory _ h⟩

/-- A revision that replaces itself and is replaced by itself. -/
def selfSucceeded : List GraphRevisionEvent :=
  [createdEvent, submittedEvent, approvedEvent,
    ⟨lit "c3", 4, .GraphRevisionActivated 1 (lit "goal")
      { initialActivation with graphEpoch := 2, succession := some ⟨digestOf 97, 1, lit "rev-1"⟩ }⟩,
    ⟨lit "c4", 5, .GraphRevisionSuperseded authorityDigest
      ⟨⟨⟨digestOf 101, 3, lit "rev-1"⟩, digestOf 97, lit "rev-1"⟩, .ACTIVE⟩⟩]

theorem selfSucceeded_replays_not_emitted :
    replayGraphRevisionEvents selfSucceeded = .ok ⟨selfSucceeded, { supersededState with graphEpoch := 2 }⟩
      ∧ ∀ sha256, ¬ Emitted sha256 selfSucceeded := by
  refine ⟨by decide +kernel, fun sha256 h => ?_⟩
  have hcreated : createdEvent ∈ selfSucceeded := by simp [selfSucceeded]
  have hall := h.reducible sha256 createdEvent hcreated (lit "rev-1") rfl
  have hnone : (selfSucceeded.all fun e => reducible (lit "rev-1") e.fact) = false := by decide
  rw [List.all_eq_true.mpr hall] at hnone
  cases hnone

end MoeNG.Core.GraphRevision
