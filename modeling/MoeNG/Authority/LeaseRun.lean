import MoeNG.Authority.Lease
import MoeNG.Lib.Run

/-!
# Runs of lease commands

One lease record, any sequence of the five commands with arbitrary arguments.
An accepted lease replaces the record, a refusal keeps it.
-/

namespace MoeNG.Authority
open MoeNG.Kernel MoeNG.Lib

/-! ### What the parser promises -/

structure LeaseRecord.WellFormed (r : LeaseRecord) : Prop where
  leaseId : isRef r.leaseId = true
  ownerSessionRef : isRef r.ownerSessionRef = true
  leaseToken : isRef r.leaseToken = true
  epoch : isCount r.epoch = true
  serverWallDeadline : isCount r.serverWallDeadline = true
  bootId : isRef r.bootId = true
  monotonicObservation : isCount r.monotonicObservation = true
  authorityHashRef : isDigest r.authorityHashRef = true
  version : isCount r.version = true

theorem oneOf_leaseKind (k : LeaseKind) : oneOf LeaseKind.text leaseKinds (.string (lit k.text)) = some k := by
  cases k <;> decide

theorem oneOf_leaseState (s : LeaseState) : oneOf LeaseState.text leaseStates (.string (lit s.text)) = some s := by
  cases s <;> decide

theorem parseLeaseRecord_wellFormed (v : Value) (r : LeaseRecord) (h : parseLeaseRecord v = some r) :
    r.WellFormed := by
  obtain ⟨_, -, h1, -, h2, h3, h4, -, h5, h6, h7, h8, h9⟩ := (parseLeaseRecord_iff v r).mp h
  exact ⟨isRef_of_refOf _ _ h1, isRef_of_refOf _ _ h2, isRef_of_refOf _ _ h3, isCount_of_countOf _ _ h4,
    isCount_of_countOf _ _ h5, isRef_of_refOf _ _ h6, isCount_of_countOf _ _ h7, isDigest_of_digestOf _ _ h9,
    isCount_of_countOf _ _ h8⟩

theorem parseLeaseRecord_toValue (r : LeaseRecord) (h : r.WellFormed) : parseLeaseRecord r.toValue = some r := by
  have hread : exactRecord r.toValue leaseKeys = some _ :=
    exactRecord_recordOf _ (show (leaseKeys.map lit).Nodup by decide)
  refine (parseLeaseRecord_iff _ _).mpr ⟨_, hread, ?_⟩
  simp only [Fields.field_cons, String.reduceEq, if_true, if_false, refOf_string _ h.leaseId, oneOf_leaseKind,
    refOf_string _ h.ownerSessionRef, refOf_string _ h.leaseToken, countOf_integer _ h.epoch, oneOf_leaseState,
    countOf_integer _ h.serverWallDeadline, refOf_string _ h.bootId, countOf_integer _ h.monotonicObservation,
    countOf_integer _ h.version, digestOf_string _ h.authorityHashRef, and_self]

theorem isCount_succ (z : ℤ) (h : isCount z = true) (hlt : z < maxAuthorityCount) : isCount (z + 1) = true := by
  simp only [isCount, decide_eq_true_eq] at h ⊢
  omega

theorem parseClock_some (v : Value) (clock : ClockObservation) (h : parseClock v = some clock) :
    isCount (clock.serverWallSeconds + renewalWindowSeconds) = true ∧ isRef clock.bootId = true
      ∧ isCount clock.monotonicObservation = true := by
  simp only [parseClock, Option.bind_eq_bind, Option.pure_def, Option.bind_eq_some_iff] at h
  obtain ⟨_, _, wall, h1, boot, h2, mono, h3, h⟩ := h
  split at h
  · cases h
  rename_i hcap
  obtain rfl := Option.some.inj h
  have hwall := isCount_of_countOf _ _ h1
  refine ⟨?_, isRef_of_refOf _ _ h2, isCount_of_countOf _ _ h3⟩
  simp only [isCount, decide_eq_true_eq] at hwall ⊢
  unfold renewalWindowSeconds at hcap ⊢
  omega

/-! ### What the fence promises -/

structure Fenced (record authority : Value) (legalStates : List LeaseState) (lease : LeaseRecord)
    (proof : AuthorityProof) : Prop where
  record : parseLeaseRecord record = some lease
  authority : parseProof authority = some proof
  version_lt : lease.version < maxAuthorityCount
  epoch_lt : lease.epoch < maxAuthorityCount
  leaseToken : proof.leaseToken = lease.leaseToken
  epoch : proof.epoch = lease.epoch
  authorityHashRef : proof.authorityHashRef = lease.authorityHashRef
  ownerSessionRef : proof.ownerSessionRef = lease.ownerSessionRef
  expectedVersion : proof.expectedVersion = lease.version
  state : lease.state ∈ legalStates

theorem fenceAuthority_ok (record authority : Value) (commandKind : String) (legalStates : List LeaseState)
    (lease : LeaseRecord) (proof : AuthorityProof)
    (h : fenceAuthority record authority commandKind legalStates = .ok (lease, proof)) :
    Fenced record authority legalStates lease proof := by
  unfold fenceAuthority at h
  split at h
  swap
  · cases h
  rename_i l p hl hp
  dsimp only at h
  split at h
  · cases h
  rename_i hcounters
  split at h
  · cases h
  rename_i htoken
  split at h
  · split at h <;> cases h
  rename_i hepoch
  split at h
  · cases h
  rename_i hhash
  split at h
  · cases h
  rename_i hsession
  split at h
  · cases h
  rename_i hversion
  split at h
  · cases h
  rename_i hstate
  cases h
  exact ⟨hl, hp, by omega, by omega, not_not.mp htoken, not_not.mp hepoch, not_not.mp hhash, not_not.mp hsession,
    not_not.mp hversion, not_not.mp hstate⟩

/-! ### Commands -/

inductive LeaseCommand where
  | fencedRenew (authority observation : Value)
  | markSuspect (authority observation : Value)
  | extend (authority observation reason : Value)
  | confirmRevoke (authority reason : Value)
  | releaseWork (authority request : Value)

def LeaseCommand.authority : LeaseCommand → Value
  | fencedRenew authority _ => authority
  | markSuspect authority _ => authority
  | extend authority _ _ => authority
  | confirmRevoke authority _ => authority
  | releaseWork authority _ => authority

def LeaseCommand.revokes : LeaseCommand → Bool
  | confirmRevoke _ _ => true
  | _ => false

/-- The lease of an accepted result, and whether the result is the `NO_OP` one. -/
structure Accepted where
  lease : LeaseRecord
  noOp : Bool
  deriving DecidableEq

def LeaseCommand.apply (record : Value) : LeaseCommand → AuthorityOutcome Accepted
  | fencedRenew authority observation =>
    (Authority.fencedRenew record authority observation).map fun renewal => ⟨renewal.lease, false⟩
  | markSuspect authority observation =>
    (Authority.markSuspect record authority observation).map fun suspicion => ⟨suspicion.lease, false⟩
  | extend authority observation reason =>
    (Authority.extend record authority observation reason).map fun extension => ⟨extension.lease, false⟩
  | confirmRevoke authority reason =>
    (Authority.confirmRevoke record authority reason).map fun revocation => ⟨revocation.lease, false⟩
  | releaseWork authority request =>
    (Authority.releaseWork record authority request).map fun result => ⟨result.lease, result.isNoOp⟩

def leaseStep (record : Value) (c : LeaseCommand) : Value :=
  match c.apply record with
  | .ok accepted => accepted.lease.toValue
  | .error _ => record

/-- Whether the command is accepted and is not a `NO_OP`. -/
def takesEffect (record : Value) (c : LeaseCommand) : Bool :=
  match c.apply record with
  | .ok accepted => !accepted.noOp
  | .error _ => false

/-- The commands of a run that took effect, in order. -/
def effective (record : Value) : List LeaseCommand → List LeaseCommand
  | [] => []
  | c :: rest => (if takesEffect record c then [c] else []) ++ effective (leaseStep record c) rest

/-- A command whose proof carries the token, the epoch and the version of `r`. -/
def LeaseCommand.preparedFor (r : LeaseRecord) (c : LeaseCommand) : Bool :=
  match parseProof c.authority with
  | some proof => proof.leaseToken = r.leaseToken ∧ proof.epoch = r.epoch ∧ proof.expectedVersion = r.version
  | none => false

def LeaseState.terminal : LeaseState → Bool
  | RELEASED => true
  | REVOKED => true
  | _ => false

/-- The changes of state a command may make. -/
inductive LeaseMove : LeaseState → LeaseState → Prop
  | suspect : LeaseMove .ACTIVE .SUSPECT
  | activate (s : LeaseState) (h : s = .ACTIVE ∨ s = .SUSPECT) : LeaseMove s .ACTIVE
  | drain (s : LeaseState) (h : s.terminal = false) : LeaseMove s .DRAINING
  | release (s : LeaseState) (h : s.terminal = false) : LeaseMove s .RELEASED
  | revoke (s : LeaseState) (h : s.terminal = false) : LeaseMove s .REVOKED

/-! ### One accepted command -/

/-- Everything an accepted command can do to the record it was given. -/
structure Successor (r : LeaseRecord) (c : LeaseCommand) (a : Accepted) : Prop where
  wellFormed : a.lease.WellFormed
  leaseId : a.lease.leaseId = r.leaseId
  kind : a.lease.kind = r.kind
  ownerSessionRef : a.lease.ownerSessionRef = r.ownerSessionRef
  leaseToken : a.lease.leaseToken = r.leaseToken
  authorityHashRef : a.lease.authorityHashRef = r.authorityHashRef
  version : a.lease.version = if a.noOp then r.version else r.version + 1
  epoch : a.lease.epoch = if c.revokes then r.epoch + 1 else r.epoch
  noOp : a.noOp = true → a.lease = r
  terminal : a.noOp = r.state.terminal
  move : a.noOp = false → LeaseMove r.state a.lease.state
  prepared : c.preparedFor r = true

theorem Fenced.prepared {record : Value} {legalStates : List LeaseState} {lease : LeaseRecord} {proof : AuthorityProof}
    {c : LeaseCommand} (h : Fenced record c.authority legalStates lease proof) : c.preparedFor lease = true := by
  unfold LeaseCommand.preparedFor
  rw [h.authority]
  simp only [decide_eq_true_eq]
  exact ⟨h.leaseToken, h.epoch, h.expectedVersion⟩

theorem Fenced.wellFormed_advance {record authority : Value} {legalStates : List LeaseState} {lease : LeaseRecord}
    {proof : AuthorityProof} (h : Fenced record authority legalStates lease proof) (state : LeaseState) :
    { lease with state := state, version := lease.version + 1 }.WellFormed := by
  have hw := parseLeaseRecord_wellFormed record lease h.record
  exact { hw with version := isCount_succ _ hw.version h.version_lt }

theorem Fenced.wellFormed_renewed {record authority : Value} {legalStates : List LeaseState} {lease : LeaseRecord}
    {proof : AuthorityProof} (h : Fenced record authority legalStates lease proof) (observation : Value)
    (clock : ClockObservation) (hclock : parseClock observation = some clock) : (renewed lease clock).WellFormed := by
  have hw := parseLeaseRecord_wellFormed record lease h.record
  obtain ⟨hdeadline, hboot, hmono⟩ := parseClock_some observation clock hclock
  exact { hw with
    serverWallDeadline := hdeadline
    bootId := hboot
    monotonicObservation := hmono
    version := isCount_succ _ hw.version h.version_lt }

theorem not_terminal (s : LeaseState) (h : s ∈ [LeaseState.ACTIVE, .SUSPECT, .DRAINING]) : s.terminal = false := by
  revert h
  cases s <;> decide

/-- A renewal or an extension. -/
theorem Fenced.successor_renewed {record : Value} {lease : LeaseRecord} {proof : AuthorityProof} (c : LeaseCommand)
    (h : Fenced record c.authority [.ACTIVE, .SUSPECT] lease proof) (hc : c.revokes = false) (observation : Value)
    (clock : ClockObservation) (hclock : parseClock observation = some clock) :
    Successor lease c ⟨renewed lease clock, false⟩ := by
  have hstate : lease.state = .ACTIVE ∨ lease.state = .SUSPECT := by simpa using h.state
  refine ⟨h.wellFormed_renewed _ _ hclock, rfl, rfl, rfl, rfl, rfl, rfl, ?_, nofun, ?_, fun _ => .activate _ hstate,
    h.prepared⟩
  · rw [hc]
    rfl
  · obtain hs | hs := hstate <;> rw [hs] <;> rfl

/-- A command that only moves the state. -/
theorem Fenced.successor_advance {record : Value} {legalStates : List LeaseState} {lease : LeaseRecord}
    {proof : AuthorityProof} (c : LeaseCommand) (h : Fenced record c.authority legalStates lease proof)
    (hc : c.revokes = false) (state : LeaseState) (hstate : lease.state.terminal = false)
    (hmove : LeaseMove lease.state state) :
    Successor lease c ⟨{ lease with state := state, version := lease.version + 1 }, false⟩ := by
  refine ⟨h.wellFormed_advance state, rfl, rfl, rfl, rfl, rfl, rfl, ?_, nofun, hstate.symm, fun _ => hmove, h.prepared⟩
  rw [hc]
  rfl

/-- A command runs on the parsed record once its fence has passed. -/
theorem fenced_then {α : Type} {record authority : Value} {commandKind : String} {legalStates : List LeaseState}
    {f : LeaseRecord × AuthorityProof → Except AuthorityRejection α} {r : LeaseRecord} {a : α}
    (hr : parseLeaseRecord record = some r) (h : (fenceAuthority record authority commandKind legalStates >>= f) = .ok a) :
    ∃ proof, Fenced record authority legalStates r proof ∧ f (r, proof) = .ok a := by
  obtain ⟨⟨lease, proof⟩, hf, h⟩ := except_bind_ok _ _ _ h
  have hfence := fenceAuthority_ok _ _ _ _ _ _ hf
  obtain rfl : lease = r := Option.some.inj (hfence.record.symm.trans hr)
  exact ⟨proof, hfence, h⟩

theorem fencedRenew_successor (record : Value) (r : LeaseRecord) (authority observation : Value) (renewal : LeaseRenewal)
    (hr : parseLeaseRecord record = some r) (h : fencedRenew record authority observation = .ok renewal) :
    Successor r (.fencedRenew authority observation) ⟨renewal.lease, false⟩ := by
  obtain ⟨proof, hfence, h⟩ := fenced_then hr h
  dsimp only at h
  split at h
  · cases h
  rename_i clock hclock
  cases h
  exact hfence.successor_renewed (.fencedRenew authority observation) rfl observation clock hclock

theorem markSuspect_successor (record : Value) (r : LeaseRecord) (authority observation : Value)
    (suspicion : LeaseSuspicion) (hr : parseLeaseRecord record = some r)
    (h : markSuspect record authority observation = .ok suspicion) :
    Successor r (.markSuspect authority observation) ⟨suspicion.lease, false⟩ := by
  obtain ⟨proof, hfence, h⟩ := fenced_then hr h
  dsimp only at h
  split at h
  · cases h
  split at h
  · cases h
  cases h
  have hstate : r.state = .ACTIVE := by simpa using hfence.state
  have hmove : LeaseMove r.state .SUSPECT := hstate ▸ .suspect
  exact hfence.successor_advance (.markSuspect authority observation) rfl .SUSPECT (by rw [hstate]; rfl) hmove

theorem extend_successor (record : Value) (r : LeaseRecord) (authority observation reason : Value)
    (extension : LeaseExtension) (hr : parseLeaseRecord record = some r)
    (h : extend record authority observation reason = .ok extension) :
    Successor r (.extend authority observation reason) ⟨extension.lease, false⟩ := by
  obtain ⟨proof, hfence, h⟩ := fenced_then hr h
  dsimp only at h
  split at h
  · cases h
  rename_i clock hclock
  split at h
  · cases h
  cases h
  exact hfence.successor_renewed (.extend authority observation reason) rfl observation clock hclock

theorem confirmRevoke_successor (record : Value) (r : LeaseRecord) (authority reason : Value)
    (revocation : LeaseRevocation) (hr : parseLeaseRecord record = some r)
    (h : confirmRevoke record authority reason = .ok revocation) :
    Successor r (.confirmRevoke authority reason) ⟨revocation.lease, false⟩ := by
  obtain ⟨proof, hfence, h⟩ := fenced_then hr h
  dsimp only at h
  split at h
  · cases h
  cases h
  have hw := parseLeaseRecord_wellFormed record r hr
  have hstate := not_terminal _ hfence.state
  refine ⟨?_, rfl, rfl, rfl, rfl, rfl, rfl, rfl, nofun, hstate.symm, fun _ => .revoke _ hstate, hfence.prepared⟩
  exact { hfence.wellFormed_advance .REVOKED with epoch := isCount_succ _ hw.epoch hfence.epoch_lt }

theorem releaseWork_successor (record : Value) (r : LeaseRecord) (authority request : Value) (result : ReleaseResult)
    (hr : parseLeaseRecord record = some r) (h : releaseWork record authority request = .ok result) :
    Successor r (.releaseWork authority request) ⟨result.lease, result.isNoOp⟩ := by
  obtain ⟨proof, hfence, h⟩ := fenced_then hr h
  dsimp only at h
  split at h
  · rename_i hterminal
    cases h
    refine ⟨parseLeaseRecord_wellFormed record r hr, rfl, rfl, rfl, rfl, rfl, rfl, rfl, fun _ => rfl, ?_, nofun,
      hfence.prepared⟩
    obtain hs | hs := hterminal <;> rw [hs] <;> rfl
  rename_i hterminal
  have hstate : r.state.terminal = false := by
    revert hterminal
    cases r.state <;> decide
  split at h
  · cases h
  split at h
  · cases h
  obtain ⟨disposition, _, h⟩ := except_bind_ok _ _ _ h
  split at h
  · cases h
    exact hfence.successor_advance (.releaseWork authority request) rfl .DRAINING hstate (.drain _ hstate)
  · cases h
    exact hfence.successor_advance (.releaseWork authority request) rfl .RELEASED hstate (.release _ hstate)

theorem apply_successor (record : Value) (r : LeaseRecord) (c : LeaseCommand) (a : Accepted)
    (hr : parseLeaseRecord record = some r) (h : c.apply record = .ok a) : Successor r c a := by
  cases c with
  | fencedRenew authority observation =>
    obtain ⟨renewal, hok, rfl⟩ := except_map_ok _ _ _ h
    exact fencedRenew_successor record r authority observation renewal hr hok
  | markSuspect authority observation =>
    obtain ⟨suspicion, hok, rfl⟩ := except_map_ok _ _ _ h
    exact markSuspect_successor record r authority observation suspicion hr hok
  | extend authority observation reason =>
    obtain ⟨extension, hok, rfl⟩ := except_map_ok _ _ _ h
    exact extend_successor record r authority observation reason extension hr hok
  | confirmRevoke authority reason =>
    obtain ⟨revocation, hok, rfl⟩ := except_map_ok _ _ _ h
    exact confirmRevoke_successor record r authority reason revocation hr hok
  | releaseWork authority request =>
    obtain ⟨result, hok, rfl⟩ := except_map_ok _ _ _ h
    exact releaseWork_successor record r authority request result hr hok

/-! ### Runs -/

/-- Everything the run so far says about the record it reached. -/
structure LeaseReached (r₀ : LeaseRecord) (effects : ℕ) (record : Value) (r : LeaseRecord) : Prop where
  parses : parseLeaseRecord record = some r
  leaseId : r.leaseId = r₀.leaseId
  kind : r.kind = r₀.kind
  ownerSessionRef : r.ownerSessionRef = r₀.ownerSessionRef
  leaseToken : r.leaseToken = r₀.leaseToken
  authorityHashRef : r.authorityHashRef = r₀.authorityHashRef
  version : r.version = r₀.version + effects
  epoch_le : r₀.epoch ≤ r.epoch
  terminal : r₀.state.terminal = true → r = r₀

theorem LeaseReached.step {r₀ r : LeaseRecord} {effects : ℕ} {record : Value} (h : LeaseReached r₀ effects record r)
    (c : LeaseCommand) :
    ∃ r', LeaseReached r₀ (effects + if takesEffect record c then 1 else 0) (leaseStep record c) r' := by
  unfold takesEffect leaseStep
  cases hc : c.apply record with
  | error e => exact ⟨r, h⟩
  | ok a =>
    have hs := apply_successor record r c a h.parses hc
    refine ⟨a.lease, parseLeaseRecord_toValue _ hs.wellFormed, hs.leaseId.trans h.leaseId, hs.kind.trans h.kind,
      hs.ownerSessionRef.trans h.ownerSessionRef, hs.leaseToken.trans h.leaseToken,
      hs.authorityHashRef.trans h.authorityHashRef, ?_, ?_, ?_⟩
    · have hv := h.version
      rw [hs.version]
      cases hnoOp : a.noOp with
      | true => simpa [hnoOp] using hv
      | false =>
        simp only [hnoOp, Bool.false_eq_true, if_false, Bool.not_false, if_true, Nat.cast_add, Nat.cast_one]
        omega
    · have he := h.epoch_le
      rw [hs.epoch]
      split <;> omega
    · intro hterminal
      obtain rfl := h.terminal hterminal
      exact hs.noOp (hs.terminal.trans hterminal)

theorem leaseRun_reached (record : Value) (r₀ r : LeaseRecord) (effects : ℕ) (h : LeaseReached r₀ effects record r)
    (commands : List LeaseCommand) :
    ∃ r', LeaseReached r₀ (effects + (effective record commands).length) (run leaseStep record commands) r' := by
  induction commands generalizing record r effects with
  | nil => exact ⟨r, h⟩
  | cons c rest ih =>
    obtain ⟨r', hstep⟩ := h.step c
    obtain ⟨r'', hrest⟩ := ih _ r' _ hstep
    refine ⟨r'', ?_⟩
    have hcount : effects + (effective record (c :: rest)).length =
        (effects + if takesEffect record c then 1 else 0) + (effective (leaseStep record c) rest).length := by
      rw [effective, List.length_append]
      split <;> simp only [List.length_cons, List.length_nil] <;> omega
    rw [hcount]
    exact hrest

theorem leaseReached_start (record : Value) (r₀ : LeaseRecord) (h : parseLeaseRecord record = some r₀) :
    LeaseReached r₀ 0 record r₀ :=
  ⟨h, rfl, rfl, rfl, rfl, rfl, by simp, le_rfl, fun _ => rfl⟩

/-- A proof that names another version is refused. -/
theorem apply_stale (record : Value) (r old : LeaseRecord) (c : LeaseCommand) (hr : parseLeaseRecord record = some r)
    (hc : c.preparedFor old = true) (hversion : r.version ≠ old.version) : ∃ e, c.apply record = .error e := by
  cases h : c.apply record with
  | error e => exact ⟨e, rfl⟩
  | ok a =>
    have hp := (apply_successor record r c a hr h).prepared
    unfold LeaseCommand.preparedFor at hc hp
    split at hp
    swap
    · cases hp
    rename_i proof hproof
    rw [hproof] at hc
    simp only [decide_eq_true_eq] at hc hp
    exact absurd (hp.2.2.symm.trans hc.2.2) hversion

theorem takesEffect_preparedFor (record : Value) (r old : LeaseRecord) (c : LeaseCommand)
    (hr : parseLeaseRecord record = some r) (hc : c.preparedFor old = true) (heffect : takesEffect record c = true) :
    r.version = old.version ∧ ∃ r', parseLeaseRecord (leaseStep record c) = some r' ∧ old.version < r'.version := by
  have hversion : r.version = old.version := by
    by_contra hne
    obtain ⟨e, he⟩ := apply_stale record r old c hr hc hne
    rw [takesEffect, he] at heffect
    cases heffect
  obtain ⟨r', hstep⟩ := (leaseReached_start record r hr).step c
  rw [heffect] at hstep
  have hv := hstep.version
  simp only [if_true, Nat.zero_add, Nat.cast_one] at hv
  exact ⟨hversion, r', hstep.parses, by omega⟩

theorem leaseStep_version_le (record : Value) (r : LeaseRecord) (c : LeaseCommand)
    (hr : parseLeaseRecord record = some r) :
    ∃ r', parseLeaseRecord (leaseStep record c) = some r' ∧ r.version ≤ r'.version := by
  obtain ⟨r', hstep⟩ := (leaseReached_start record r hr).step c
  refine ⟨r', hstep.parses, ?_⟩
  rw [hstep.version]
  omega

/-- Once the version has passed, no command prepared for the older record takes effect. -/
theorem effective_preparedFor_eq_nil (record : Value) (r old : LeaseRecord) (hr : parseLeaseRecord record = some r)
    (hlt : old.version < r.version) (commands : List LeaseCommand) :
    (effective record commands).filter (fun c => c.preparedFor old) = [] := by
  induction commands generalizing record r with
  | nil => rfl
  | cons c rest ih =>
    obtain ⟨r', hr', hle⟩ := leaseStep_version_le record r c hr
    rw [effective, List.filter_append, ih _ r' hr' (by omega), List.append_nil]
    split
    · rename_i heffect
      rw [List.filter_cons_of_neg]
      · rfl
      · intro hc
        have hversion := (takesEffect_preparedFor record r old c hr hc heffect).1
        omega
    · rfl

/-- Of all commands prepared for one record, a run lets at most one take effect. -/
theorem effective_preparedFor_le_one (record : Value) (r old : LeaseRecord) (hr : parseLeaseRecord record = some r)
    (commands : List LeaseCommand) : ((effective record commands).filter fun c => c.preparedFor old).length ≤ 1 := by
  induction commands generalizing record r with
  | nil => exact Nat.zero_le 1
  | cons c rest ih =>
    obtain ⟨r', hr', -⟩ := leaseStep_version_le record r c hr
    rw [effective, List.filter_append, List.length_append]
    by_cases hc : takesEffect record c = true ∧ c.preparedFor old = true
    · obtain ⟨-, r'', hr'', hlt⟩ := takesEffect_preparedFor record r old c hr hc.2 hc.1
      rw [effective_preparedFor_eq_nil _ r'' old hr'' hlt rest, if_pos hc.1, List.filter_cons_of_pos hc.2]
      exact le_rfl
    · have hhead : (if takesEffect record c then [c] else []).filter (fun c => c.preparedFor old) = [] := by
        split
        · rename_i heffect
          exact List.filter_cons_of_neg fun hp => hc ⟨heffect, hp⟩
        · rfl
      rw [hhead, List.length_nil, Nat.zero_add]
      exact ih _ r' hr'

/-- Lease authority. Along every run from a record the parser accepts: the
record stays parseable with its identity, the version counts the commands that
took effect, an accepted command moves epoch and state only as listed, and a
proof for an earlier record is worthless once anything has taken effect. -/
theorem lease_authority_invariant (record : Value) (r₀ : LeaseRecord) (h : parseLeaseRecord record = some r₀)
    (commands : List LeaseCommand) :
    ∃ r, LeaseReached r₀ (effective record commands).length (run leaseStep record commands) r
      ∧ (∀ c a, c.apply (run leaseStep record commands) = .ok a →
          Successor r c a ∧ parseLeaseRecord a.lease.toValue = some a.lease)
      ∧ (∀ later (c : LeaseCommand), effective (run leaseStep record commands) later ≠ [] → c.preparedFor r = true →
          ∃ e, c.apply (run leaseStep record (commands ++ later)) = .error e)
      ∧ ∀ later, ((effective (run leaseStep record commands) later).filter fun c => c.preparedFor r).length ≤ 1 := by
  obtain ⟨r, hreached⟩ := leaseRun_reached record r₀ r₀ 0 (leaseReached_start record r₀ h) commands
  rw [Nat.zero_add] at hreached
  refine ⟨r, hreached, fun c a hc => ?_, fun later c hlater hc => ?_, fun later => ?_⟩
  · have hs := apply_successor _ r c a hreached.parses hc
    exact ⟨hs, parseLeaseRecord_toValue _ hs.wellFormed⟩
  · rw [run_append]
    obtain ⟨r', hr'⟩ := leaseRun_reached _ r r 0 (leaseReached_start _ r hreached.parses) later
    have hpos := List.length_pos_iff.mpr hlater
    have hversion := hr'.version
    exact apply_stale _ r' r c hr'.parses hc (by omega)
  · exact effective_preparedFor_le_one _ r r hreached.parses later

def LeaseRecord.proof (r : LeaseRecord) : Value := recordOf [
  ("leaseToken", .string r.leaseToken), ("epoch", .number (.integer r.epoch)),
  ("authorityHashRef", .string r.authorityHashRef), ("ownerSessionRef", .string r.ownerSessionRef),
  ("expectedVersion", .number (.integer r.version))]

def assignmentLease : LeaseRecord :=
  ⟨lit "lease-1", .ASSIGNMENT, lit "session-1", lit "token-1", 1, .ACTIVE, 1000, lit "boot-1", 10,
    List.replicate 64 97, 3⟩

def lateClock : Value := recordOf [
  ("serverWallSeconds", .number (.integer 2000)), ("bootId", .string (lit "boot-1")),
  ("monotonicObservation", .number (.integer 20))]

-- a revocation and a renewal raced against the same record
def racedCommands : List LeaseCommand :=
  [.markSuspect assignmentLease.proof lateClock, .fencedRenew assignmentLease.proof lateClock,
    .confirmRevoke { assignmentLease with version := 4 }.proof (.string (lit "GOAL_CANCEL")),
    .extend { assignmentLease with version := 4 }.proof lateClock (.string (lit "wait"))]

theorem lease_authority_invariant_raced :
    parseLeaseRecord assignmentLease.toValue = some assignmentLease
      ∧ (effective assignmentLease.toValue racedCommands).length = 2
      ∧ ∃ r, LeaseReached assignmentLease 2 (run leaseStep assignmentLease.toValue racedCommands) r := by
  have hparse : parseLeaseRecord assignmentLease.toValue = some assignmentLease := by decide +kernel
  have hcount : (effective assignmentLease.toValue racedCommands).length = 2 := by decide +kernel
  obtain ⟨r, hreached, -⟩ := lease_authority_invariant assignmentLease.toValue assignmentLease hparse racedCommands
  rw [hcount] at hreached
  exact ⟨hparse, hcount, r, hreached⟩

end MoeNG.Authority
