import MoeNG.Authority.LeaseRun

/-!
# Settled releases and their drain disposition (`lease-drain.ts:87-226`)
-/

namespace MoeNG.Authority
open MoeNG.Kernel MoeNG.Lib

/-! ### The strongest reason -/

theorem oneOf_drainReason (reason : DrainReason) :
    oneOf DrainReason.text drainReasons (.string (lit reason.text)) = some reason := by
  cases reason <;> decide

theorem oneOf_drainTarget (target : DrainTerminalTarget) :
    oneOf DrainTerminalTarget.text [.RELEASED, .REVOKED] (.string (lit target.text)) = some target := by
  cases target <;> decide

theorem isRef_drainReason (reason : DrainReason) : isRef (lit reason.text) = true := by
  cases reason <;> decide

theorem strongerOf_eq (left right : DrainReason) :
    strongerOf left right = if drainReasonRank right ≤ drainReasonRank left then left else right := by
  cases left <;> cases right <;> decide

theorem foldl_strongerOf (reasons : List DrainReason) (first : DrainReason) :
    reasons.foldl strongerOf first ∈ first :: reasons
      ∧ ∀ reason ∈ first :: reasons, drainReasonRank reason ≤ drainReasonRank (reasons.foldl strongerOf first) := by
  induction reasons generalizing first with
  | nil => simp
  | cons next rest ih =>
    obtain ⟨hmem, hle⟩ := ih (strongerOf first next)
    rw [List.foldl_cons]
    have hfirst := hle _ (List.mem_cons_self ..)
    rw [strongerOf_eq] at hmem hle hfirst ⊢
    split at hmem
    · rename_i hrank
      rw [if_pos hrank] at hle hfirst ⊢
      refine ⟨by simp only [List.mem_cons] at hmem ⊢; tauto, fun reason hreason => ?_⟩
      obtain rfl | hreason := List.mem_cons.mp hreason
      · exact hfirst
      obtain rfl | hreason := List.mem_cons.mp hreason
      · omega
      · exact hle reason (List.mem_cons_of_mem _ hreason)
    · rename_i hrank
      rw [if_neg hrank] at hle hfirst ⊢
      refine ⟨by simp only [List.mem_cons] at hmem ⊢; tauto, fun reason hreason => ?_⟩
      obtain rfl | hreason := List.mem_cons.mp hreason
      · omega
      · exact hle reason hreason

/-! ### What a composed disposition says of its reasons -/

theorem eraseDups_nodup {A : Type} [DecidableEq A] (items : List A) : items.eraseDups.Nodup := by
  induction hn : items.length using Nat.strongRecOn generalizing items with
  | ind n ih =>
    cases items with
    | nil => simp
    | cons item rest =>
      rw [List.eraseDups_cons, List.nodup_cons]
      refine ⟨by simp, ih _ ?_ _ rfl⟩
      rw [← hn, List.length_cons]
      exact Nat.lt_succ_of_le (List.length_filter_le _ _)

structure Composed (reasons : List DrainReason) (disposition : DrainDisposition) : Prop where
  members : ∀ reason, reason ∈ disposition.reasons ↔ reason ∈ reasons
  nodup : disposition.reasons.Nodup
  sorted : disposition.reasons.Pairwise fun left right => lit left.text ≤ lit right.text
  strongest_mem : disposition.strongestReason ∈ disposition.reasons
  strongest : ∀ reason ∈ disposition.reasons, drainReasonRank reason ≤ drainReasonRank disposition.strongestReason
  target : disposition.terminalTarget = targetOf disposition.strongestReason
  resumable : disposition.resumable = resumableOf disposition.strongestReason

theorem drainReasonRank_injective (left right : DrainReason) (h : drainReasonRank left = drainReasonRank right) :
    left = right := by
  revert h
  cases left <;> cases right <;> decide

theorem text_antisymm (left right : DrainReason) (h : lit left.text ≤ lit right.text) (h' : lit right.text ≤ lit left.text) :
    left = right := by
  revert h h'
  cases left <;> cases right <;> decide

theorem composed_of (reasons : List DrainReason) (disposition : DrainDisposition)
    (h : composeDisposition reasons = some disposition) : Composed reasons disposition := by
  unfold composeDisposition at h
  dsimp only at h
  have hmembers (reason : DrainReason) : reason ∈ reasons.eraseDups.insertionSort
      (fun left right => lit left.text ≤ lit right.text) ↔ reason ∈ reasons := by
    rw [List.mem_insertionSort, List.mem_eraseDups]
  have hnodup : (reasons.eraseDups.insertionSort fun left right => lit left.text ≤ lit right.text).Nodup :=
    (List.perm_insertionSort _ _).nodup_iff.mpr (eraseDups_nodup _)
  have hsorted : (reasons.eraseDups.insertionSort fun left right => lit left.text ≤ lit right.text).Pairwise
      fun left right => lit left.text ≤ lit right.text := by
    have htotal : Std.Total fun left right : DrainReason => lit left.text ≤ lit right.text := ⟨fun _ _ => le_total _ _⟩
    have htrans : IsTrans DrainReason fun left right => lit left.text ≤ lit right.text := ⟨fun _ _ _ => le_trans⟩
    exact List.pairwise_insertionSort _ _
  generalize (reasons.eraseDups.insertionSort fun left right => lit left.text ≤ lit right.text)
    = unique at h hmembers hnodup hsorted
  split at h
  · cases h
  rename_i first rest
  obtain rfl := Option.some.inj h
  have hfold := foldl_strongerOf (first :: rest) first
  simp only [List.mem_cons, or_self_left] at hfold
  exact ⟨hmembers, hnodup, hsorted, List.mem_cons.mpr hfold.1, fun reason hr => hfold.2 reason (List.mem_cons.mp hr), rfl, rfl⟩

theorem composed_unique (reasons reasons' : List DrainReason) (left right : DrainDisposition) (h : Composed reasons left)
    (h' : Composed reasons' right) (hsame : ∀ reason, reason ∈ reasons ↔ reason ∈ reasons') : left = right := by
  have hmembers (reason : DrainReason) : reason ∈ left.reasons ↔ reason ∈ right.reasons :=
    (h.members reason).trans ((hsame reason).trans (h'.members reason).symm)
  have hreasons : left.reasons = right.reasons :=
    ((List.perm_ext_iff_of_nodup h.nodup h'.nodup).mpr hmembers).eq_of_pairwise (fun a b _ _ => text_antisymm a b)
      h.sorted h'.sorted
  have hstrongest : left.strongestReason = right.strongestReason := by
    refine drainReasonRank_injective _ _ (le_antisymm ?_ ?_)
    · exact h'.strongest _ (hreasons ▸ h.strongest_mem)
    · exact h.strongest _ (hreasons ▸ h'.strongest_mem)
  obtain ⟨_, _, _, _⟩ := left
  obtain ⟨_, _, _, _⟩ := right
  obtain rfl := hreasons
  obtain rfl := hstrongest
  rw [DrainDisposition.mk.injEq]
  exact ⟨rfl, rfl, h.target.trans h'.target.symm, h.resumable.trans h'.resumable.symm⟩

theorem composeDisposition_isSome (reasons : List DrainReason) (h : reasons ≠ []) :
    ∃ disposition, composeDisposition reasons = some disposition := by
  unfold composeDisposition
  dsimp only
  split
  · rename_i hempty
    obtain ⟨reason, hreason⟩ := List.exists_mem_of_ne_nil _ h
    have hmem := (List.mem_insertionSort fun left right : DrainReason => lit left.text ≤ lit right.text).mpr
      (List.mem_eraseDups.mpr hreason)
    rw [hempty] at hmem
    cases hmem
  · exact ⟨_, rfl⟩

/-- A disposition says the reasons of its parts, however they were listed. -/
theorem Composed.recompose {reasons : List DrainReason} {disposition : DrainDisposition} (h : Composed reasons disposition) :
    composeDisposition disposition.reasons = some disposition := by
  obtain ⟨again, hagain⟩ := composeDisposition_isSome disposition.reasons (List.ne_nil_of_mem h.strongest_mem)
  rw [hagain, composed_unique _ _ _ _ (composed_of _ _ hagain) h h.members]

/-! ### A parsed disposition parses again -/

theorem parseDisposition_composed (value : Value) (disposition : DrainDisposition)
    (h : parseDisposition value = some disposition) : ∃ reasons, Composed reasons disposition := by
  simp only [parseDisposition, Option.bind_eq_bind, Option.bind_eq_some_iff] at h
  obtain ⟨_, _, texts, _, h⟩ := h
  split at h
  · cases h
  simp only [Option.bind_eq_some_iff] at h
  obtain ⟨reasons, _, _, _, composed, hcomposed, _, _, _, _, h⟩ := h
  split at h
  · cases h
  exact ⟨reasons, Option.some.inj h ▸ composed_of reasons composed hcomposed⟩

theorem nodup_length_le (reasons : List DrainReason) (h : reasons.Nodup) : reasons.length ≤ drainReasons.length :=
  (List.subperm_of_subset h fun reason _ => by cases reason <;> decide).length_le

theorem stringList_reasons (reasons : List DrainReason) (h : reasons.Nodup) :
    stringList (.array (reasons.map fun reason => .string (lit reason.text))) drainReasons.length
      = some (reasons.map fun reason => lit reason.text) := by
  have hlength := nodup_length_le reasons h
  have hread : readList (.array (reasons.map fun reason => Value.string (lit reason.text))) drainReasons.length
      = some (reasons.map fun reason => .string (lit reason.text)) :=
    if_neg (by rw [List.length_map]; omega)
  rw [stringList, hread, Option.bind_eq_bind, Option.bind_some, List.mapM_map]
  exact mapM_eq_some_map _ _ _ fun reason _ => refOf_string _ (isRef_drainReason reason)

theorem parseDisposition_toValue {reasons : List DrainReason} (disposition : DrainDisposition)
    (h : Composed reasons disposition) : parseDisposition disposition.toValue = some disposition := by
  have hread : exactRecord disposition.toValue ["reasons", "strongestReason", "terminalTarget", "resumable"] = some _ :=
    exactRecord_recordOf _ (show (["reasons", "strongestReason", "terminalTarget", "resumable"].map lit).Nodup by decide)
  have htexts : (disposition.reasons.map fun reason => lit reason.text).mapM
      (fun text => oneOf DrainReason.text drainReasons (.string text)) = some disposition.reasons := by
    rw [List.mapM_map]
    exact mapM_eq_some _ _ fun reason _ => oneOf_drainReason reason
  have hlength : (disposition.reasons.map fun reason => lit reason.text).length ≠ 0 := by
    rw [List.length_map]
    exact fun hnil => List.ne_nil_of_mem h.strongest_mem (List.length_eq_zero_iff.mp hnil)
  unfold parseDisposition
  rw [hread]
  simp only [Fields.field_cons, String.reduceEq, if_true, if_false, Option.bind_eq_bind, Option.bind_some,
    stringList_reasons _ h.nodup, hlength, htexts, oneOf_drainReason, oneOf_drainTarget, h.recompose, boolOf_bool, ne_eq,
    not_true_eq_false, or_self]

/-! ### A settled release -/

def requestedReasons (request : ReleaseRequest) : List DrainReason :=
  (request.disposition.elim [] DrainDisposition.reasons) ++ [request.reason]

def ReleaseRequest.settled (request : ReleaseRequest) : Bool :=
  request.safeBoundaryObserved && request.effectsTerminal && request.resourcesTerminal

theorem parseRequest_disposition (value : Value) (request : ReleaseRequest) (h : parseRequest value = some request)
    (disposition : DrainDisposition) (hd : request.disposition = some disposition) :
    ∃ reasons, Composed reasons disposition := by
  simp only [parseRequest, Option.bind_eq_bind, Option.pure_def, Option.bind_eq_some_iff] at h
  obtain ⟨fields, _, _, _, _, _, _, _, _, _, _, _, h⟩ := h
  split at h
  · obtain rfl := Option.some.inj h
    cases hd
  · obtain ⟨supplied, hsupplied, h⟩ := Option.bind_eq_some_iff.mp h
    obtain ⟨d, hparse, rfl⟩ := Option.map_eq_some_iff.mp hsupplied
    obtain rfl := Option.some.inj h
    obtain rfl := Option.some.inj hd
    exact parseDisposition_composed _ _ hparse

theorem applyDrainReason_request (value : Value) (request : ReleaseRequest) (h : parseRequest value = some request)
    (disposition : DrainDisposition) (happly : applyDrainReason (request.disposition.elim .null DrainDisposition.toValue)
      (.string (lit request.reason.text)) = .ok disposition) : Composed (requestedReasons request) disposition := by
  have hcompose : composeDisposition (requestedReasons request) = some disposition := by
    unfold applyDrainReason at happly
    rw [oneOf_drainReason] at happly
    unfold requestedReasons
    cases hd : request.disposition with
    | none =>
      rw [hd] at happly
      dsimp only [Option.elim_none] at happly ⊢
      split at happly
      · cases happly
      · cases happly
        assumption
    | some supplied =>
      obtain ⟨reasons, hcomposed⟩ := parseRequest_disposition value request h supplied hd
      have hparse := parseDisposition_toValue supplied hcomposed
      rw [hd] at happly
      dsimp only [Option.elim_some, DrainDisposition.toValue, recordOf] at happly hparse ⊢
      rw [hparse] at happly
      dsimp only [Option.map_some] at happly
      split at happly
      · cases happly
      · cases happly
        assumption
  exact composed_of _ _ hcompose

def DrainTerminalTarget.leaseState : DrainTerminalTarget → LeaseState
  | RELEASED => .RELEASED
  | REVOKED => .REVOKED

/-- A release that ends where its disposition points, with the union of the reasons. -/
structure SettlesOnTarget (request : ReleaseRequest) (lease : LeaseRecord) (disposition : DrainDisposition) : Prop where
  state : lease.state = disposition.terminalTarget.leaseState
  reasons : ∀ reason, reason ∈ disposition.reasons ↔ reason ∈ requestedReasons request
  strongest_mem : disposition.strongestReason ∈ disposition.reasons
  strongest : ∀ reason ∈ disposition.reasons, drainReasonRank reason ≤ drainReasonRank disposition.strongestReason
  resumable : disposition.resumable = true ↔ disposition.strongestReason = .WORK_RELEASE_OR_PAUSE

theorem releaseWork_settled (record authority request : Value) (source : LeaseRecord) (parsed : ReleaseRequest)
    (result : ReleaseResult) (hsource : parseLeaseRecord record = some source) (hlive : source.state.terminal = false)
    (hparsed : parseRequest request = some parsed) (hsettled : parsed.settled = true)
    (h : releaseWork record authority request = .ok result) : ∃ handoff disposition,
      result = .released { source with state := .RELEASED, version := source.version + 1 } handoff disposition
        disposition.resumable ∧ Composed (requestedReasons parsed) disposition := by
  obtain ⟨⟨lease, proof⟩, hfence, h⟩ := except_bind_ok _ _ _ h
  obtain rfl : lease = source :=
    Option.some.inj ((fenceAuthority_ok _ _ _ _ _ _ hfence).record.symm.trans hsource)
  dsimp only at h
  split at h
  · rename_i hterminal
    obtain hs | hs := hterminal <;> rw [hs] at hlive <;> cases hlive
  rw [hparsed] at h
  dsimp only at h
  split at h
  · cases h
  rename_i handoff _
  obtain ⟨disposition, happly, h⟩ := except_bind_ok _ _ _ h
  have hflags : (parsed.safeBoundaryObserved && parsed.effectsTerminal && parsed.resourcesTerminal) = true := hsettled
  rw [hflags] at h
  cases h
  exact ⟨handoff, disposition, rfl, applyDrainReason_request request parsed hparsed disposition happly⟩

-- the two revoking reasons have the two highest ranks
theorem targetOf_released_iff (strongest : DrainReason) (reasons : List DrainReason) (hmem : strongest ∈ reasons)
    (hle : ∀ reason ∈ reasons, drainReasonRank reason ≤ drainReasonRank strongest) :
    targetOf strongest = .RELEASED ↔ ∀ reason ∈ reasons, reason ∉ revokingReasons := by
  have hranks (left right : DrainReason) (hrank : drainReasonRank left ≤ drainReasonRank right)
      (hreleased : targetOf right = .RELEASED) : left ∉ revokingReasons := by
    revert hrank hreleased
    cases left <;> cases right <;> decide
  refine ⟨fun h reason hr => hranks reason strongest (hle reason hr) h, fun h => ?_⟩
  exact if_neg (h strongest hmem)

/-- A settled release ends in the target of its disposition when no revoking reason was ever requested, and only then. -/
theorem settled_release_iff (record authority request : Value) (source : LeaseRecord) (parsed : ReleaseRequest)
    (result : ReleaseResult) (hsource : parseLeaseRecord record = some source) (hlive : source.state.terminal = false)
    (hparsed : parseRequest request = some parsed) (hsettled : parsed.settled = true)
    (h : releaseWork record authority request = .ok result) :
    (∃ lease handoff disposition, result = .released lease handoff disposition disposition.resumable
      ∧ SettlesOnTarget parsed lease disposition) ↔ ∀ reason ∈ requestedReasons parsed, reason ∉ revokingReasons := by
  obtain ⟨handoff, disposition, rfl, hcomposed⟩ :=
    releaseWork_settled record authority request source parsed result hsource hlive hparsed hsettled h
  have htarget := targetOf_released_iff _ _ hcomposed.strongest_mem hcomposed.strongest
  rw [← hcomposed.target] at htarget
  have hresumable : disposition.resumable = true ↔ disposition.strongestReason = .WORK_RELEASE_OR_PAUSE := by
    rw [hcomposed.resumable, resumableOf, decide_eq_true_iff]
  constructor
  · rintro ⟨lease, handoff', disposition', heq, hsettles⟩ reason hreason
    obtain ⟨rfl, -, rfl, -⟩ := ReleaseResult.released.inj heq
    refine htarget.mp ?_ reason ((hcomposed.members reason).mpr hreason)
    have hstate := hsettles.state
    revert hstate
    cases disposition.terminalTarget <;> simp [DrainTerminalTarget.leaseState]
  · intro hreasons
    have hreleased := htarget.mpr fun reason hr => hreasons reason ((hcomposed.members reason).mp hr)
    refine ⟨_, handoff, disposition, rfl, ?_, hcomposed.members, hcomposed.strongest_mem, hcomposed.strongest, hresumable⟩
    rw [hreleased]
    rfl

def boundaryHandoff : Value := recordOf [
  ("completedSteps", .array [.string (lit "step-1")]), ("activeProcessResourceFacts", .array []),
  ("inputDigest", .string (List.replicate 64 97)), ("worktreeDigest", .string (List.replicate 64 97)),
  ("contextDigest", .string (List.replicate 64 98)), ("journalDigest", .string (List.replicate 64 98)),
  ("artifactDigest", .string (List.replicate 64 99)), ("nextSafeAction", .string (lit "resume")),
  ("truthClass", .string (lit "DAEMON_VERIFIED"))]

def boundaryRelease (reason : DrainReason) : Value := recordOf [
  ("reason", .string (lit reason.text)), ("safeBoundaryObserved", .bool true), ("effectsTerminal", .bool true),
  ("resourcesTerminal", .bool true), ("handoff", boundaryHandoff), ("intentRefs", .array []), ("disposition", .null)]

def releasedLease (reason : DrainReason) : Option (LeaseState × DrainDisposition) :=
  match releaseWork assignmentLease.toValue assignmentLease.proof (boundaryRelease reason) with
  | .ok (.released lease _ disposition _) => some (lease.state, disposition)
  | _ => none

theorem settled_release_iff_paused : ∃ parsed lease handoff disposition,
    parseRequest (boundaryRelease .WORK_RELEASE_OR_PAUSE) = some parsed
      ∧ releaseWork assignmentLease.toValue assignmentLease.proof (boundaryRelease .WORK_RELEASE_OR_PAUSE)
        = .ok (.released lease handoff disposition disposition.resumable) ∧ SettlesOnTarget parsed lease disposition := by
  have hruns : parseLeaseRecord assignmentLease.toValue = some assignmentLease
      ∧ ((parseRequest (boundaryRelease .WORK_RELEASE_OR_PAUSE)).map fun request =>
        (request.settled, requestedReasons request)) = some (true, [.WORK_RELEASE_OR_PAUSE])
      ∧ releasedLease .WORK_RELEASE_OR_PAUSE
        = some (.RELEASED, ⟨[.WORK_RELEASE_OR_PAUSE], .WORK_RELEASE_OR_PAUSE, .RELEASED, true⟩) := by decide +kernel
  obtain ⟨hlease, hread, hrun⟩ := hruns
  obtain ⟨parsed, hparsed, hrequest⟩ := Option.map_eq_some_iff.mp hread
  obtain ⟨hsettled, hreasons⟩ := Prod.mk.inj hrequest
  unfold releasedLease at hrun
  split at hrun
  · rename_i hwork
    obtain ⟨lease, handoff, disposition, heq, hsettles⟩ := (settled_release_iff _ _ _ assignmentLease parsed _
      hlease rfl hparsed hsettled hwork).mpr (by rw [hreasons]; decide)
    rw [heq] at hwork
    exact ⟨parsed, lease, handoff, disposition, hparsed, hwork, hsettles⟩
  · cases hrun

/-- An urgent revocation that is settled leaves the lease RELEASED. -/
theorem settled_release_revoked :
    releasedLease .URGENT_REVOKE = some (.RELEASED, ⟨[.URGENT_REVOKE], .URGENT_REVOKE, .REVOKED, false⟩)
      ∧ ¬ ∀ (record authority request : Value) (source : LeaseRecord) (parsed : ReleaseRequest) (result : ReleaseResult),
        parseLeaseRecord record = some source → source.state.terminal = false → parseRequest request = some parsed →
        parsed.settled = true → releaseWork record authority request = .ok result →
        ∃ lease handoff disposition, result = .released lease handoff disposition disposition.resumable
          ∧ SettlesOnTarget parsed lease disposition := by
  have hruns : parseLeaseRecord assignmentLease.toValue = some assignmentLease
      ∧ ((parseRequest (boundaryRelease .URGENT_REVOKE)).map ReleaseRequest.settled) = some true
      ∧ releasedLease .URGENT_REVOKE = some (.RELEASED, ⟨[.URGENT_REVOKE], .URGENT_REVOKE, .REVOKED, false⟩) := by
    decide +kernel
  obtain ⟨hsource, hflag, hrun⟩ := hruns
  refine ⟨hrun, fun hclaim => ?_⟩
  obtain ⟨parsed, hparsed, hsettled⟩ := Option.map_eq_some_iff.mp hflag
  unfold releasedLease at hrun
  split at hrun
  · rename_i lease handoff disposition resumable hwork
    obtain ⟨hstate, hdisposition⟩ := Prod.mk.inj (Option.some.inj hrun)
    obtain ⟨lease', handoff', disposition', heq, hsettles⟩ :=
      hclaim _ _ _ assignmentLease parsed _ hsource rfl hparsed hsettled hwork
    obtain ⟨rfl, -, rfl, -⟩ := ReleaseResult.released.inj heq
    have htarget := hsettles.state
    rw [hstate, hdisposition] at htarget
    cases htarget
  · cases hrun

end MoeNG.Authority
