import MoeNG.Supervisor.Activation

/-!
# The lease mirror and the fence (`lease-mirror.ts`, `effect-shape.ts:186-238`, `authority/lease-fencing.ts:39-144`)

The runner reads a lease and a proof with bounded, normalized references and
goes through the fence of the scheduler over again. A record the mirror reads is
the record the scheduler reads, and the two answers are compared as verdicts.
-/

namespace MoeNG.Supervisor
open MoeNG.Kernel hiding refOf digestOf countOf isCount isRef
open MoeNG.Authority (LeaseKind LeaseState LeaseRecord AuthorityProof AuthorityErrorCode AuthorityRejection
  parseLeaseRecord parseProof fenceAuthority)

section Mirror
variable {nfc : JsString → JsString}

/-! ### One record under two parsers -/

abbrev MirroredLeaseRecord.plain (lease : MirroredLeaseRecord nfc) : LeaseRecord where
  leaseId := lease.leaseId
  kind := lease.kind
  ownerSessionRef := lease.ownerSessionRef
  leaseToken := lease.leaseToken
  epoch := lease.epoch
  state := lease.state
  serverWallDeadline := lease.serverWallDeadline
  bootId := lease.bootId
  monotonicObservation := lease.monotonicObservation
  authorityHashRef := lease.authorityHashRef
  version := lease.version

abbrev MirroredLeaseProof.plain (proof : MirroredLeaseProof nfc) : AuthorityProof where
  leaseToken := proof.leaseToken
  epoch := proof.epoch
  authorityHashRef := proof.authorityHashRef
  ownerSessionRef := proof.ownerSessionRef
  expectedVersion := proof.expectedVersion

def leaseRefs (lease : LeaseRecord) : List JsString := [lease.leaseId, lease.ownerSessionRef, lease.leaseToken, lease.bootId]

def proofRefs (proof : AuthorityProof) : List JsString := [proof.leaseToken, proof.ownerSessionRef]

theorem refOf_plain (v : Value) (s : Ref nfc) (h : refOf nfc v = some s) : Kernel.refOf v = some s.val := by
  cases v with
  | string t =>
    by_cases hfits : isRef nfc t = true
    · obtain rfl := Option.some.inj ((dif_pos hfits).symm.trans h)
      have hlength : 0 < t.length := by
        simp only [isRef, Bool.and_eq_true, decide_eq_true_eq] at hfits
        exact hfits.1.1
      exact if_pos (decide_eq_true hlength)
    · cases (dif_neg hfits).symm.trans h
  | _ => cases h

theorem refOf_fits (v : Value) (s : JsString) (h : Kernel.refOf v = some s) (hfits : isRef nfc s = true) :
    refOf nfc v = some ⟨s, hfits⟩ := by
  cases v with
  | string t =>
    by_cases href : Kernel.isRef t = true
    · obtain rfl := Option.some.inj ((if_pos href).symm.trans h)
      exact dif_pos hfits
    · cases (if_neg href).symm.trans h
  | _ => cases h

theorem countOf_eq (v : Value) : Kernel.countOf v = (countOf v).map Subtype.val := by
  cases v with
  | number n =>
    cases n with
    | integer z =>
      by_cases hcount : isCount z = true
      · have hread : countOf (.number (.integer z)) = some ⟨z, hcount⟩ := dif_pos hcount
        rw [hread]
        exact if_pos hcount
      · have hread : countOf (.number (.integer z)) = none := dif_neg hcount
        rw [hread]
        exact if_neg hcount
    | _ => rfl
  | _ => rfl

theorem digestOf_eq (v : Value) : Kernel.digestOf v = (digestOf v).map Subtype.val := by
  cases v with
  | string t =>
    by_cases hdigest : isDigest t = true
    · have hread : digestOf (.string t) = some ⟨t, hdigest⟩ := dif_pos hdigest
      rw [hread]
      exact if_pos hdigest
    · have hread : digestOf (.string t) = none := dif_neg hdigest
      rw [hread]
      exact if_neg hdigest
  | _ => rfl

theorem countOf_plain (v : Value) (c : Count) (h : countOf v = some c) : Kernel.countOf v = some c.val := by
  rw [countOf_eq, h, Option.map_some]

theorem digestOf_plain (v : Value) (d : Digest) (h : digestOf v = some d) : Kernel.digestOf v = some d.val := by
  rw [digestOf_eq, h, Option.map_some]

theorem countOf_mirrored (v : Value) (z : ℤ) (h : Kernel.countOf v = some z) : ∃ c, countOf v = some c := by
  rw [countOf_eq] at h
  obtain ⟨c, hc, -⟩ := Option.map_eq_some_iff.mp h
  exact ⟨c, hc⟩

theorem digestOf_mirrored (v : Value) (s : JsString) (h : Kernel.digestOf v = some s) : ∃ d, digestOf v = some d := by
  rw [digestOf_eq] at h
  obtain ⟨d, hd, -⟩ := Option.map_eq_some_iff.mp h
  exact ⟨d, hd⟩

theorem parseMirroredLease_iff (v : Value) (r : MirroredLeaseRecord nfc) : parseMirroredLease nfc v = some r
    ↔ ∃ p, exactRecord v leaseKeys = some p ∧ refOf nfc (p.field "leaseId") = some r.leaseId
      ∧ oneOf LeaseKind.text Authority.leaseKinds (p.field "kind") = some r.kind
      ∧ refOf nfc (p.field "ownerSessionRef") = some r.ownerSessionRef
      ∧ refOf nfc (p.field "leaseToken") = some r.leaseToken ∧ countOf (p.field "epoch") = some r.epoch
      ∧ oneOf LeaseState.text Authority.leaseStates (p.field "state") = some r.state
      ∧ countOf (p.field "serverWallDeadline") = some r.serverWallDeadline ∧ refOf nfc (p.field "bootId") = some r.bootId
      ∧ countOf (p.field "monotonicObservation") = some r.monotonicObservation
      ∧ countOf (p.field "version") = some r.version ∧ digestOf (p.field "authorityHashRef") = some r.authorityHashRef := by
  simp only [parseMirroredLease, ↓Lib.bind_some_iff, Option.pure_def, Option.some.injEq]
  constructor
  · rintro ⟨p, hp, _, h1, _, h2, _, h3, _, h4, _, h5, _, h6, _, h7, _, h8, _, h9, _, h10, _, h11, rfl⟩
    exact ⟨p, hp, h1, h2, h3, h4, h5, h6, h7, h8, h9, h10, h11⟩
  · rintro ⟨p, hp, h1, h2, h3, h4, h5, h6, h7, h8, h9, h10, h11⟩
    exact ⟨p, hp, _, h1, _, h2, _, h3, _, h4, _, h5, _, h6, _, h7, _, h8, _, h9, _, h10, _, h11, rfl⟩

theorem parseMirroredProof_iff (v : Value) (r : MirroredLeaseProof nfc) : parseMirroredProof nfc v = some r
    ↔ ∃ p, exactRecord v ["leaseToken", "epoch", "authorityHashRef", "ownerSessionRef", "expectedVersion"] = some p
      ∧ refOf nfc (p.field "leaseToken") = some r.leaseToken ∧ countOf (p.field "epoch") = some r.epoch
      ∧ refOf nfc (p.field "ownerSessionRef") = some r.ownerSessionRef
      ∧ countOf (p.field "expectedVersion") = some r.expectedVersion
      ∧ digestOf (p.field "authorityHashRef") = some r.authorityHashRef := by
  simp only [parseMirroredProof, ↓Lib.bind_some_iff, Option.pure_def, Option.some.injEq]
  constructor
  · rintro ⟨p, hp, _, h1, _, h2, _, h3, _, h4, _, h5, rfl⟩
    exact ⟨p, hp, h1, h2, h3, h4, h5⟩
  · rintro ⟨p, hp, h1, h2, h3, h4, h5⟩
    exact ⟨p, hp, _, h1, _, h2, _, h3, _, h4, _, h5, rfl⟩

theorem parseMirroredLease_plain (record : Value) (lease : MirroredLeaseRecord nfc)
    (h : parseMirroredLease nfc record = some lease) : parseLeaseRecord record = some lease.plain := by
  obtain ⟨p, hp, hleaseId, hkind, howner, htoken, hepoch, hstate, hdeadline, hbootId, hobservation, hversion, hhash⟩ :=
    (parseMirroredLease_iff record lease).mp h
  exact (Authority.parseLeaseRecord_iff record lease.plain).mpr ⟨p, hp, refOf_plain _ _ hleaseId, hkind, refOf_plain _ _ howner,
    refOf_plain _ _ htoken, countOf_plain _ _ hepoch, hstate, countOf_plain _ _ hdeadline, refOf_plain _ _ hbootId,
    countOf_plain _ _ hobservation, countOf_plain _ _ hversion, digestOf_plain _ _ hhash⟩

theorem parseLeaseRecord_mirrored (record : Value) (lease : LeaseRecord) (h : parseLeaseRecord record = some lease)
    (hfits : ∀ s ∈ leaseRefs lease, isRef nfc s = true) : ∃ mirrored, parseMirroredLease nfc record = some mirrored := by
  obtain ⟨p, hp, hleaseId, hkind, howner, htoken, hepoch, hstate, hdeadline, hbootId, hobservation, hversion, hhash⟩ :=
    (Authority.parseLeaseRecord_iff record lease).mp h
  simp only [leaseRefs, List.forall_mem_cons] at hfits
  obtain ⟨hfitsId, hfitsOwner, hfitsToken, hfitsBoot, -⟩ := hfits
  obtain ⟨epoch, hepoch⟩ := countOf_mirrored _ _ hepoch
  obtain ⟨deadline, hdeadline⟩ := countOf_mirrored _ _ hdeadline
  obtain ⟨observation, hobservation⟩ := countOf_mirrored _ _ hobservation
  obtain ⟨version, hversion⟩ := countOf_mirrored _ _ hversion
  obtain ⟨hash, hhash⟩ := digestOf_mirrored _ _ hhash
  exact ⟨⟨⟨_, hfitsId⟩, lease.kind, ⟨_, hfitsOwner⟩, ⟨_, hfitsToken⟩, epoch, lease.state, deadline, ⟨_, hfitsBoot⟩,
      observation, hash, version⟩,
    (parseMirroredLease_iff record _).mpr ⟨p, hp, refOf_fits _ _ hleaseId hfitsId, hkind, refOf_fits _ _ howner hfitsOwner,
      refOf_fits _ _ htoken hfitsToken, hepoch, hstate, hdeadline, refOf_fits _ _ hbootId hfitsBoot, hobservation, hversion,
      hhash⟩⟩

theorem parseMirroredProof_plain (authority : Value) (proof : MirroredLeaseProof nfc)
    (h : parseMirroredProof nfc authority = some proof) : parseProof authority = some proof.plain := by
  obtain ⟨p, hp, htoken, hepoch, howner, hversion, hhash⟩ := (parseMirroredProof_iff authority proof).mp h
  exact (Authority.parseProof_iff authority proof.plain).mpr ⟨p, hp, refOf_plain _ _ htoken, countOf_plain _ _ hepoch,
    refOf_plain _ _ howner, countOf_plain _ _ hversion, digestOf_plain _ _ hhash⟩

theorem parseProof_mirrored (authority : Value) (proof : AuthorityProof) (h : parseProof authority = some proof)
    (hfits : ∀ s ∈ proofRefs proof, isRef nfc s = true) : ∃ mirrored, parseMirroredProof nfc authority = some mirrored := by
  obtain ⟨p, hp, htoken, hepoch, howner, hversion, hhash⟩ := (Authority.parseProof_iff authority proof).mp h
  simp only [proofRefs, List.forall_mem_cons] at hfits
  obtain ⟨hfitsToken, hfitsOwner, -⟩ := hfits
  obtain ⟨epoch, hepoch⟩ := countOf_mirrored _ _ hepoch
  obtain ⟨version, hversion⟩ := countOf_mirrored _ _ hversion
  obtain ⟨hash, hhash⟩ := digestOf_mirrored _ _ hhash
  exact ⟨⟨⟨_, hfitsToken⟩, epoch, hash, ⟨_, hfitsOwner⟩, version⟩,
    (parseMirroredProof_iff authority _).mpr ⟨p, hp, refOf_fits _ _ htoken hfitsToken, hepoch,
      refOf_fits _ _ howner hfitsOwner, hversion, hhash⟩⟩

/-! ### Verdicts -/

inductive FenceVerdict where
  | accepted (lease : LeaseRecord) (proof : AuthorityProof)
  | refused (code : AuthorityErrorCode) (message : String)
  deriving DecidableEq

/-- The code the scheduler has for a code of the mirror. -/
def authorityCode : SupervisorErrorCode → Option AuthorityErrorCode
  | .LEASE_MIRROR_MALFORMED => some .AUTHORITY_MALFORMED_INPUT
  | .LEASE_MIRROR_STALE => some .AUTHORITY_STALE_LEASE
  | .LEASE_MIRROR_STALE_EPOCH => some .AUTHORITY_STALE_EPOCH
  | .LEASE_MIRROR_SUPERSEDED_AUTHORITY => some .AUTHORITY_SUPERSEDED_AUTHORITY
  | _ => none

def mirrorVerdict : Except SupervisorFailure (MirroredLeaseRecord nfc × MirroredLeaseProof nfc) → Option FenceVerdict
  | .ok (lease, proof) => some (.accepted lease.plain proof.plain)
  | .error failure => (authorityCode failure.code).map fun code => .refused code failure.message

def authorityVerdict : Except AuthorityRejection (LeaseRecord × AuthorityProof) → Option FenceVerdict
  | .ok (lease, proof) => some (.accepted lease proof)
  | .error rejection => rejection.issues.head?.map fun issue => .refused issue.code issue.message

/-- What both fences say of a lease and a proof they have read. -/
def verdictOf (lease : LeaseRecord) (proof : AuthorityProof) (commandKind : String)
    (legalStates : List LeaseState) : FenceVerdict :=
  if lease.version ≥ maxAuthorityCount ∨ lease.epoch ≥ maxAuthorityCount then
    .refused .AUTHORITY_MALFORMED_INPUT (commandKind ++ " found an exhausted lease counter")
  else if proof.leaseToken ≠ lease.leaseToken then .refused .AUTHORITY_STALE_LEASE "lease token is not current"
  else if proof.epoch ≠ lease.epoch then
    if proof.epoch < lease.epoch ∧ lease.state = .REVOKED then
      .refused .AUTHORITY_SUPERSEDED_AUTHORITY "authority was superseded by a revocation epoch"
    else .refused .AUTHORITY_STALE_EPOCH "lease epoch is not current"
  else if proof.authorityHashRef ≠ lease.authorityHashRef then
    .refused .AUTHORITY_STALE_LEASE "authority hash does not bind this lease"
  else if proof.ownerSessionRef ≠ lease.ownerSessionRef then
    .refused .AUTHORITY_STALE_LEASE "session does not own this lease"
  else if proof.expectedVersion ≠ lease.version then .refused .AUTHORITY_STALE_LEASE "lease record version is stale"
  else if lease.state ∉ legalStates then
    .refused .AUTHORITY_STALE_LEASE ("lease state " ++ lease.state.text ++ " cannot accept " ++ commandKind)
  else .accepted lease proof

theorem fenceAuthority_verdict (record authority : Value) (commandKind : String) (legalStates : List LeaseState)
    (lease : LeaseRecord) (proof : AuthorityProof) (hlease : parseLeaseRecord record = some lease)
    (hproof : parseProof authority = some proof) :
    authorityVerdict (fenceAuthority record authority commandKind legalStates)
      = some (verdictOf lease proof commandKind legalStates) := by
  unfold fenceAuthority verdictOf
  rw [hlease, hproof]
  simp only [apply_ite authorityVerdict, apply_ite some]
  rfl

theorem fenceMirroredLease_verdict (record authority : Value) (commandKind : String) (legalStates : List LeaseState)
    (lease : MirroredLeaseRecord nfc) (proof : MirroredLeaseProof nfc) (hlease : parseMirroredLease nfc record = some lease)
    (hproof : parseMirroredProof nfc authority = some proof) :
    mirrorVerdict (@fenceMirroredLease nfc record authority commandKind legalStates)
      = some (verdictOf lease.plain proof.plain commandKind legalStates) := by
  have hmax : maxSupervisorCount = maxAuthorityCount := rfl
  unfold fenceMirroredLease verdictOf
  rw [hlease, hproof]
  simp only [ne_eq, Subtype.ext_iff, MirroredLeaseRecord.plain, MirroredLeaseProof.plain, hmax, apply_ite mirrorVerdict,
    apply_ite some]
  rfl

/-! ### Agreement -/

/-- What keeps the mirror from reading a reference that the scheduler reads. -/
def Unmirrored (nfc : JsString → JsString) (s : JsString) : Prop :=
  maxSupervisorTextChars < s.length ∨ wellFormed s = false ∨ s ≠ nfc s

theorem isRef_of_mirrored (s : JsString) (hs : Kernel.isRef s = true) (h : ¬ Unmirrored nfc s) : isRef nfc s = true := by
  have hlength : 0 < s.length := of_decide_eq_true hs
  simp only [Unmirrored, not_or, not_lt, ne_eq, not_not, Bool.not_eq_false] at h
  obtain ⟨hbound, hformed, hnormal⟩ := h
  simp only [isRef, isNormalizedText, Bool.and_eq_true, decide_eq_true_eq]
  exact ⟨⟨hlength, hbound⟩, hformed, hnormal⟩

theorem leaseRefs_isRef (record : Value) (lease : LeaseRecord) (h : parseLeaseRecord record = some lease) :
    ∀ s ∈ leaseRefs lease, Kernel.isRef s = true := by
  obtain ⟨p, -, hleaseId, -, howner, htoken, -, -, -, hbootId, -⟩ := (Authority.parseLeaseRecord_iff record lease).mp h
  simp only [leaseRefs, List.forall_mem_cons]
  exact ⟨isRef_of_refOf _ _ hleaseId, isRef_of_refOf _ _ howner, isRef_of_refOf _ _ htoken, isRef_of_refOf _ _ hbootId, nofun⟩

theorem proofRefs_isRef (authority : Value) (proof : AuthorityProof) (h : parseProof authority = some proof) :
    ∀ s ∈ proofRefs proof, Kernel.isRef s = true := by
  obtain ⟨p, -, htoken, -, howner, -⟩ := (Authority.parseProof_iff authority proof).mp h
  simp only [proofRefs, List.forall_mem_cons]
  exact ⟨isRef_of_refOf _ _ htoken, isRef_of_refOf _ _ howner, nofun⟩

def malformedShape (commandKind : String) : SupervisorFailure :=
  ⟨.LEASE_MIRROR_MALFORMED, .LEASE_MIRROR, commandKind ++ " received a malformed authority shape", ⟨none, some commandKind, none⟩⟩

theorem fenceMirroredLease_malformed (record authority : Value) (commandKind : String) (legalStates : List LeaseState)
    (h : parseMirroredLease nfc record = none ∨ parseMirroredProof nfc authority = none) :
    @fenceMirroredLease nfc record authority commandKind legalStates = .error (malformedShape commandKind) := by
  unfold fenceMirroredLease
  split
  · rename_i hlease hproof
    rw [hlease, hproof] at h
    obtain hnone | hnone := h <;> cases hnone
  · rfl

theorem fenceAuthority_malformed (record authority : Value) (commandKind : String) (legalStates : List LeaseState)
    (h : parseLeaseRecord record = none ∨ parseProof authority = none) :
    authorityVerdict (fenceAuthority record authority commandKind legalStates)
      = some (.refused .AUTHORITY_MALFORMED_INPUT (commandKind ++ " received a malformed authority shape")) := by
  unfold fenceAuthority
  split
  · rename_i hlease hproof
    rw [hlease, hproof] at h
    obtain hnone | hnone := h <;> cases hnone
  · rfl

variable (nfc) in
structure Mirrors (record authority : Value) (commandKind : String) (legalStates : List LeaseState) : Prop where
  fenced : ∀ (lease : MirroredLeaseRecord nfc) (proof : MirroredLeaseProof nfc),
    fenceMirroredLease record authority commandKind legalStates = .ok (lease, proof) →
      fenceAuthority record authority commandKind legalStates = .ok (lease.plain, proof.plain)
  parsed : (parseMirroredLease nfc record).isSome = true → (parseMirroredProof nfc authority).isSome = true →
    ∃ verdict, mirrorVerdict (@fenceMirroredLease nfc record authority commandKind legalStates) = some verdict
      ∧ authorityVerdict (fenceAuthority record authority commandKind legalStates) = some verdict
  differs : mirrorVerdict (@fenceMirroredLease nfc record authority commandKind legalStates)
      ≠ authorityVerdict (fenceAuthority record authority commandKind legalStates) →
    (∃ lease proof, parseLeaseRecord record = some lease ∧ parseProof authority = some proof
      ∧ ∃ s ∈ leaseRefs lease ++ proofRefs proof, Unmirrored nfc s)
    ∧ @fenceMirroredLease nfc record authority commandKind legalStates = .error (malformedShape commandKind)

theorem parsed_verdict (record authority : Value) (commandKind : String) (legalStates : List LeaseState)
    (lease : MirroredLeaseRecord nfc) (proof : MirroredLeaseProof nfc) (hlease : parseMirroredLease nfc record = some lease)
    (hproof : parseMirroredProof nfc authority = some proof) :
    ∃ verdict, mirrorVerdict (@fenceMirroredLease nfc record authority commandKind legalStates) = some verdict
      ∧ authorityVerdict (fenceAuthority record authority commandKind legalStates) = some verdict :=
  ⟨_, fenceMirroredLease_verdict record authority commandKind legalStates lease proof hlease hproof,
    fenceAuthority_verdict record authority commandKind legalStates lease.plain proof.plain
      (parseMirroredLease_plain record lease hlease) (parseMirroredProof_plain authority proof hproof)⟩

theorem authorityVerdict_accepted (answer : Except AuthorityRejection (LeaseRecord × AuthorityProof)) (lease : LeaseRecord)
    (proof : AuthorityProof) (h : authorityVerdict answer = some (.accepted lease proof)) : answer = .ok (lease, proof) := by
  cases answer with
  | ok accepted =>
    obtain ⟨rfl, rfl⟩ := FenceVerdict.accepted.inj (Option.some.inj h)
    rfl
  | error rejection =>
    obtain ⟨issue, -, hissue⟩ := Option.map_eq_some_iff.mp h
    cases hissue

theorem fenceMirroredLease_parsed (record authority : Value) (commandKind : String) (legalStates : List LeaseState)
    (lease : MirroredLeaseRecord nfc) (proof : MirroredLeaseProof nfc)
    (h : fenceMirroredLease record authority commandKind legalStates = .ok (lease, proof)) :
    (parseMirroredLease nfc record).isSome = true ∧ (parseMirroredProof nfc authority).isSome = true := by
  by_contra hnot
  have hmalformed := @fenceMirroredLease_malformed nfc record authority commandKind legalStates (by
    cases hlease : parseMirroredLease nfc record with
    | none => exact .inl rfl
    | some _ =>
      cases hproof : parseMirroredProof nfc authority with
      | none => exact .inr rfl
      | some _ => exact absurd ⟨by rw [hlease]; rfl, by rw [hproof]; rfl⟩ hnot)
  cases hmalformed.symm.trans h

/-- The mirror fences nothing that the scheduler does not, answers as the scheduler does on what it
reads, and refuses as malformed what only the scheduler reads. -/
theorem mirrors (nfc : JsString → JsString) (record authority : Value) (commandKind : String) (legalStates : List LeaseState) :
    Mirrors nfc record authority commandKind legalStates where
  fenced lease proof h := by
    obtain ⟨hlease, hproof⟩ := fenceMirroredLease_parsed record authority commandKind legalStates lease proof h
    obtain ⟨_, hlease⟩ := Option.isSome_iff_exists.mp hlease
    obtain ⟨_, hproof⟩ := Option.isSome_iff_exists.mp hproof
    obtain ⟨verdict, hmirror, hfence⟩ := parsed_verdict record authority commandKind legalStates _ _ hlease hproof
    rw [h] at hmirror
    obtain rfl := Option.some.inj hmirror
    exact authorityVerdict_accepted _ _ _ hfence
  parsed hlease hproof := by
    obtain ⟨_, hlease⟩ := Option.isSome_iff_exists.mp hlease
    obtain ⟨_, hproof⟩ := Option.isSome_iff_exists.mp hproof
    exact parsed_verdict record authority commandKind legalStates _ _ hlease hproof
  differs hne := by
    have hunread : parseMirroredLease nfc record = none ∨ parseMirroredProof nfc authority = none := by
      by_contra hnot
      obtain ⟨hlease, hproof⟩ := not_or.mp hnot
      obtain ⟨_, hlease⟩ := Option.ne_none_iff_exists'.mp hlease
      obtain ⟨_, hproof⟩ := Option.ne_none_iff_exists'.mp hproof
      obtain ⟨verdict, hmirror, hfence⟩ := parsed_verdict record authority commandKind legalStates _ _ hlease hproof
      exact hne (hmirror.trans hfence.symm)
    have hmirror := @fenceMirroredLease_malformed nfc record authority commandKind legalStates hunread
    refine ⟨?_, hmirror⟩
    have hread : ¬ (parseLeaseRecord record = none ∨ parseProof authority = none) := by
      intro hnone
      rw [hmirror, fenceAuthority_malformed record authority commandKind legalStates hnone] at hne
      exact hne rfl
    obtain ⟨hlease, hproof⟩ := not_or.mp hread
    obtain ⟨lease, hlease⟩ := Option.ne_none_iff_exists'.mp hlease
    obtain ⟨proof, hproof⟩ := Option.ne_none_iff_exists'.mp hproof
    refine ⟨lease, proof, hlease, hproof, ?_⟩
    by_contra hall
    -- every reference would be one the mirror reads, so it would read both shapes
    have hmirrored : ∀ s ∈ leaseRefs lease ++ proofRefs proof, ¬ Unmirrored nfc s := fun s hs hbad => hall ⟨s, hs, hbad⟩
    obtain ⟨_, hlease'⟩ := @parseLeaseRecord_mirrored nfc record lease hlease fun s hs =>
      isRef_of_mirrored s (leaseRefs_isRef record lease hlease s hs) (hmirrored s (List.mem_append_left _ hs))
    obtain ⟨_, hproof'⟩ := @parseProof_mirrored nfc authority proof hproof fun s hs =>
      isRef_of_mirrored s (proofRefs_isRef authority proof hproof s hs) (hmirrored s (List.mem_append_right _ hs))
    rw [hlease', hproof'] at hunread
    obtain hnone | hnone := hunread <;> cases hnone

end Mirror

end MoeNG.Supervisor
