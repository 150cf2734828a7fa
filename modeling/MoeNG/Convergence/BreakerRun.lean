import MoeNG.Convergence.Breaker
import MoeNG.Lib.Run

/-!
# Runs of the circuit breaker
-/

namespace MoeNG.Convergence
open MoeNG.Kernel MoeNG.Lib

/-! ### Fingerprints -/

theorem frame_points_iff (s t x y : JsString) :
    codePoints (frame s ++ x) = codePoints (frame t ++ y) ↔ codePoints s = codePoints t ∧ codePoints x = codePoints y := by
  rw [frame, frame, List.append_assoc, List.append_assoc]
  exact counted_points_iff s t x y 0 (by decide)

theorem framedFields_points_iff (fields : List String) (facts facts' : List JsString)
    (h : facts.length = fields.length) (h' : facts'.length = fields.length) :
    codePoints (framedFields fields facts) = codePoints (framedFields fields facts') ↔
      facts.map codePoints = facts'.map codePoints := by
  induction fields generalizing facts facts' with
  | nil =>
    obtain rfl := List.length_eq_zero_iff.mp h
    obtain rfl := List.length_eq_zero_iff.mp h'
    exact ⟨fun _ => rfl, fun _ => rfl⟩
  | cons field rest ih =>
    cases facts with
    | nil => cases h
    | cons fact more =>
      cases facts' with
      | nil => cases h'
      | cons fact' more' =>
        have hunfold (v : JsString) (vs : List JsString) :
            framedFields (field :: rest) (v :: vs) = frame (lit field) ++ (frame v ++ framedFields rest vs) := by
          simp [framedFields]
        rw [hunfold, hunfold, frame_points_iff, frame_points_iff, ih more more' (Nat.succ.inj h) (Nat.succ.inj h')]
        simp

theorem canonicalFacts_points_iff (facts facts' : List JsString) (h : facts.length = fingerprintFields.length)
    (h' : facts'.length = fingerprintFields.length) :
    codePoints (canonicalFacts facts) = codePoints (canonicalFacts facts') ↔
      facts.map codePoints = facts'.map codePoints := by
  rw [canonicalFacts, canonicalFacts, List.append_assoc, List.append_assoc, frame_points_iff, frame_points_iff,
    framedFields_points_iff _ _ _ h h']
  simp

variable (sha256 : List Byte → JsString)

/-- Failures share a fingerprint exactly when their five fields have the same code points. -/
theorem fingerprint_eq_iff (hsha : Function.Injective sha256) (a b : Datum)
    (facts facts' : List JsString) (ha : readTypedFacts a = some facts) (hb : readTypedFacts b = some facts') :
    computeFailureFingerprint sha256 a = computeFailureFingerprint sha256 b ↔
      facts.map codePoints = facts'.map codePoints := by
  rw [computeFailureFingerprint, computeFailureFingerprint, ha, hb, Option.map_some, Option.map_some,
    Option.some.injEq, hsha.eq_iff, utf8_eq_iff]
  exact canonicalFacts_points_iff facts facts' (length_of_mapM_some _ _ _ ha) (length_of_mapM_some _ _ _ hb)

/-! ### What one request does -/

/-- Why a held fingerprint may be admitted again. -/
def Caused (sha256 : List Byte → JsString) (hold : HoldRecord) (request : BreakerRequest) (fingerprint : JsString) : Prop :=
  (∃ release, request.humanRelease = some release ∧ release.kind = lit "HUMAN_RELEASE" ∧ release.decisionId ≠ []
      ∧ release.fingerprint = fingerprint)
    ∨ ∃ candidate, parseFactPredicate request.candidatePredicate = some candidate
      ∧ canonicalSha256 sha256 candidate ≠ canonicalSha256 sha256 hold.awaitedPredicate

def BreakerOutcome.refused (outcome : BreakerOutcome) : Prop := outcome = .inputInvalid ∨ outcome = .holdsExhausted

def BreakerOutcome.held : BreakerOutcome → Bool
  | .sameBugHold _ => true
  | .retryPredicateHold .. => true
  | _ => false

inductive Moves (sha256 : List Byte → JsString) (holds : ActiveHolds) (request : BreakerRequest) :
    BreakerTransition → Prop where
  | refused (outcome : BreakerOutcome) (h : outcome.refused) : Moves sha256 holds request ⟨outcome, holds⟩
  | opened (fingerprint entryId : JsString) (awaited : FactPredicate)
    (hfp : computeFailureFingerprint sha256 request.entry = some fingerprint) (hget : holds.get fingerprint = none)
    (hsize : holds.entries.length < maxActiveHolds) :
    Moves sha256 holds request ⟨.admitted fingerprint, withHold holds (openHold fingerprint entryId awaited)⟩
  | released (fingerprint : JsString) (existing : HoldRecord)
    (hfp : computeFailureFingerprint sha256 request.entry = some fingerprint)
    (hget : holds.get fingerprint = some existing) (hcause : Caused sha256 existing request fingerprint) :
    Moves sha256 holds request ⟨.admitted fingerprint, withoutHold holds fingerprint⟩
  | joined (fingerprint entryId : JsString) (existing : HoldRecord) (reason : ConvergenceHoldReason)
    (outcome : BreakerOutcome) (hfp : computeFailureFingerprint sha256 request.entry = some fingerprint)
    (hget : holds.get fingerprint = some existing) (houtcome : outcome.held = true) :
    Moves sha256 holds request ⟨outcome, withHold holds (join existing entryId reason)⟩

theorem releases_caused (hold : HoldRecord) (request : BreakerRequest)
    (fingerprint : JsString) (h : releases request.humanRelease fingerprint = true) :
    Caused sha256 hold request fingerprint := by
  unfold releases at h
  split at h
  · cases h
  · rename_i release hrelease
    simp only [Bool.and_eq_true, decide_eq_true_eq] at h
    exact .inl ⟨release, hrelease, h.1.1, List.length_pos_iff.mp h.1.2, h.2⟩

theorem unlocks_none (hold : HoldRecord) (candidate : FactPredicate) (h : unlocks sha256 hold candidate = none) :
    canonicalSha256 sha256 candidate ≠ canonicalSha256 sha256 hold.awaitedPredicate := by
  intro hsame
  rw [unlocks, evaluateRetryUnlock, if_pos hsame.symm] at h
  cases h

theorem parseCandidate_some (value : Datum) (candidate : FactPredicate) (h : parseCandidate value = some (some candidate)) :
    parseFactPredicate value = some candidate := by
  unfold parseCandidate at h
  split at h
  · cases h
  · simpa using h

theorem readRequest_some (request : BreakerRequest) (fingerprint entryId : JsString)
    (retryPredicate : FactPredicate) (candidate : Option FactPredicate)
    (h : readRequest sha256 request = some (fingerprint, entryId, retryPredicate, candidate)) :
    computeFailureFingerprint sha256 request.entry = some fingerprint
      ∧ parseCandidate request.candidatePredicate = some candidate := by
  simp only [readRequest, ↓bind_some_iff] at h
  obtain ⟨_, hfp, _, -, _, -, _, hc, h⟩ := h
  cases h
  exact ⟨hfp, hc⟩

theorem decideBreaker_moves (holds : ActiveHolds) (request : BreakerRequest) :
    Moves sha256 holds request (decideBreaker sha256 holds request) := by
  unfold decideBreaker
  split
  · exact .refused _ (.inl rfl)
  rename_i fingerprint entryId retryPredicate candidate hread
  obtain ⟨hfp, hcandidate⟩ := readRequest_some sha256 request fingerprint entryId retryPredicate candidate hread
  unfold decideRead
  split
  · rename_i hget
    split
    · exact .refused _ (.inr rfl)
    · rename_i hsize
      exact .opened fingerprint entryId retryPredicate hfp hget (by omega)
  · rename_i existing hget
    unfold decideHeld
    split
    · rename_i hreleases
      exact .released fingerprint existing hfp hget (releases_caused sha256 existing request fingerprint hreleases)
    · split
      · exact .joined fingerprint entryId existing _ _ hfp hget rfl
      · rename_i predicate
        split
        · rename_i hunlocks
          exact .released fingerprint existing hfp hget
            (.inr ⟨predicate, parseCandidate_some _ _ hcandidate, unlocks_none sha256 existing predicate hunlocks⟩)
        · exact .joined fingerprint entryId existing _ _ hfp hget rfl

/-! ### Bounded holds -/

structure Bounded (holds : ActiveHolds) : Prop where
  size : holds.entries.length ≤ 4096
  fingerprint : ∀ fingerprint hold, holds.get fingerprint = some hold → hold.fingerprint = fingerprint
  entryIds : ∀ fingerprint hold, holds.get fingerprint = some hold → hold.entryIds.length ≤ 64 ∧ hold.entryIds.Nodup

theorem bounded_empty : Bounded emptyHolds := ⟨Nat.zero_le _, nofun, nofun⟩

theorem join_entryIds (existing : HoldRecord) (entryId : JsString) (reason : ConvergenceHoldReason)
    (h : existing.entryIds.Nodup) :
    (join existing entryId reason).entryIds.length ≤ 64 ∧ (join existing entryId reason).entryIds.Nodup := by
  have happended : (if entryId ∈ existing.entryIds then existing.entryIds else existing.entryIds ++ [entryId]).Nodup := by
    split
    · exact h
    · rename_i hnew
      exact List.nodup_append.mpr ⟨h, List.nodup_singleton _, fun a ha b hb hab =>
        hnew (List.mem_singleton.mp hb ▸ hab ▸ ha)⟩
  dsimp only [join]
  generalize (if entryId ∈ existing.entryIds then existing.entryIds else existing.entryIds ++ [entryId]) = appended
    at happended
  split
  · rename_i hlong
    simp only [maxHoldEntryIds] at hlong
    refine ⟨?_, (List.drop_sublist _ _).nodup happended⟩
    rw [List.length_drop, maxHoldEntryIds]
    omega
  · rename_i hshort
    simp only [maxHoldEntryIds] at hshort
    exact ⟨by omega, happended⟩

theorem Bounded.withHold {holds : ActiveHolds} (h : Bounded holds) (record : HoldRecord)
    (hsize : holds.get record.fingerprint = none → holds.entries.length < 4096)
    (hids : record.entryIds.length ≤ 64 ∧ record.entryIds.Nodup) : Bounded (withHold holds record) := by
  refine ⟨?_, ?_, ?_⟩
  · have hmax := h.size
    have hfresh := (OrdMap.get_eq_none_iff holds record.fingerprint).mpr
    rw [Convergence.withHold, OrdMap.length_set]
    split
    · exact hmax
    · rename_i hkey
      have := hsize (hfresh hkey)
      omega
  · intro fp hold hget
    rw [Convergence.withHold, OrdMap.get_set] at hget
    split at hget
    · rename_i hfp
      rw [hfp, Option.some.inj hget]
    · exact h.fingerprint fp hold hget
  · intro fp hold hget
    rw [Convergence.withHold, OrdMap.get_set] at hget
    split at hget
    · rw [← Option.some.inj hget]
      exact hids
    · exact h.entryIds fp hold hget

theorem Bounded.withoutHold {holds : ActiveHolds} (h : Bounded holds) (fingerprint : JsString) :
    Bounded (withoutHold holds fingerprint) := by
  have hkept (fp : JsString) (hold : HoldRecord) (hget : (Convergence.withoutHold holds fingerprint).get fp = some hold) :
      holds.get fp = some hold := by
    rw [Convergence.withoutHold, OrdMap.get_erase] at hget
    split at hget
    · cases hget
    · exact hget
  refine ⟨?_, fun fp hold hget => h.fingerprint fp hold (hkept fp hold hget),
    fun fp hold hget => h.entryIds fp hold (hkept fp hold hget)⟩
  have hmax := h.size
  have hle := OrdMap.length_erase_le holds fingerprint
  rw [Convergence.withoutHold]
  omega

theorem Moves.bounded {sha256 : List Byte → JsString} {holds : ActiveHolds} {request : BreakerRequest}
    {t : BreakerTransition} (h : Moves sha256 holds request t) (hb : Bounded holds) : Bounded t.holds := by
  cases h with
  | refused outcome h => exact hb
  | opened fingerprint entryId awaited hfp hget hsize =>
    exact hb.withHold _ (fun _ => hsize) ⟨Nat.le_of_ble_eq_true rfl, List.nodup_singleton _⟩
  | released fingerprint existing hfp hget hcause => exact hb.withoutHold fingerprint
  | joined fingerprint entryId existing reason outcome hfp hget houtcome =>
    have hsame : existing.fingerprint = fingerprint := hb.fingerprint fingerprint existing hget
    refine hb.withHold _ (fun hnone => ?_) (join_entryIds existing entryId reason (hb.entryIds fingerprint existing hget).2)
    have hget' : holds.get existing.fingerprint = none := hnone
    rw [hsame, hget] at hget'
    cases hget'

/-! ### Steps -/

/-- What a request may do to holds that are bounded. -/
structure StepSafe (sha256 : List Byte → JsString) (holds : ActiveHolds) (request : BreakerRequest)
    (t : BreakerTransition) : Prop where
  refused : t.outcome.refused → t.holds = holds
  others : ∀ fingerprint, computeFailureFingerprint sha256 request.entry ≠ some fingerprint →
    t.holds.get fingerprint = holds.get fingerprint
  released : ∀ fingerprint hold, holds.get fingerprint = some hold →
    t.outcome = .admitted fingerprint ∨ t.holds.get fingerprint = none → Caused sha256 hold request fingerprint

theorem Moves.stepSafe {sha256 : List Byte → JsString} {holds : ActiveHolds} {request : BreakerRequest}
    {t : BreakerTransition} (h : Moves sha256 holds request t) (hb : Bounded holds) :
    StepSafe sha256 holds request t := by
  cases h with
  | refused outcome h =>
    refine ⟨fun _ => rfl, fun _ _ => rfl, fun fp hold hget hadmitted => ?_⟩
    rcases hadmitted with hadmitted | hnone
    · dsimp only at hadmitted
      rcases h with h | h <;> rw [h] at hadmitted <;> cases hadmitted
    · rw [hget] at hnone
      cases hnone
  | opened fingerprint entryId awaited hfp hget hsize =>
    have hset (fp : JsString) : (withHold holds (openHold fingerprint entryId awaited)).get fp
        = if fp = fingerprint then some (openHold fingerprint entryId awaited) else holds.get fp := OrdMap.get_set ..
    refine ⟨?_, fun fp hne => ?_, fun fp hold hheld hadmitted => ?_⟩
    · rintro (h | h) <;> cases h
    · rw [hset, if_neg (by rintro rfl; exact hne hfp)]
    · rcases hadmitted with hadmitted | hnone
      · obtain rfl := BreakerOutcome.admitted.inj hadmitted
        rw [hget] at hheld
        cases hheld
      · dsimp only at hnone
        rw [hset] at hnone
        split at hnone
        · cases hnone
        · rw [hheld] at hnone
          cases hnone
  | released fingerprint existing hfp hget hcause =>
    have hset (fp : JsString) : (withoutHold holds fingerprint).get fp
        = if fp = fingerprint then none else holds.get fp := OrdMap.get_erase ..
    refine ⟨?_, fun fp hne => ?_, fun fp hold hheld hadmitted => ?_⟩
    · rintro (h | h) <;> cases h
    · rw [hset, if_neg (by rintro rfl; exact hne hfp)]
    · have hsame : fp = fingerprint := by
        rcases hadmitted with hadmitted | hnone
        · exact (BreakerOutcome.admitted.inj hadmitted).symm
        · dsimp only at hnone
          rw [hset] at hnone
          split at hnone
          · assumption
          · rw [hheld] at hnone
            cases hnone
      subst hsame
      rw [hget] at hheld
      obtain rfl := Option.some.inj hheld
      exact hcause
  | joined fingerprint entryId existing reason outcome hfp hget houtcome =>
    have hfingerprint : existing.fingerprint = fingerprint := hb.fingerprint fingerprint existing hget
    have hset (fp : JsString) : (withHold holds (join existing entryId reason)).get fp
        = if fp = existing.fingerprint then some (join existing entryId reason) else holds.get fp := OrdMap.get_set ..
    refine ⟨?_, fun fp hne => ?_, fun fp hold hheld hadmitted => ?_⟩
    · rintro (h | h) <;> dsimp only at h <;> rw [h] at houtcome <;> cases houtcome
    · rw [hset, hfingerprint, if_neg (by rintro rfl; exact hne hfp)]
    · rcases hadmitted with hadmitted | hnone
      · dsimp only at hadmitted
        rw [hadmitted] at houtcome
        cases houtcome
      · dsimp only at hnone
        rw [hset] at hnone
        split at hnone
        · cases hnone
        · rw [hheld] at hnone
          cases hnone

def next (sha256 : List Byte → JsString) (holds : ActiveHolds) (request : BreakerRequest) : ActiveHolds :=
  (decideBreaker sha256 holds request).holds

theorem run_bounded (requests : List BreakerRequest) : Bounded (run (next sha256) emptyHolds requests) :=
  run_invariant (next sha256) Bounded (fun holds request hb => (decideBreaker_moves sha256 holds request).bounded hb)
    emptyHolds bounded_empty requests

theorem Bounded.fingerprints_nodup {holds : ActiveHolds} (h : Bounded holds) :
    (holds.entries.map fun e => e.2.fingerprint).Nodup := by
  have hkeys : (holds.entries.map fun e => e.2.fingerprint) = holds.entries.map Prod.fst :=
    List.map_congr_left fun e he => h.fingerprint e.1 e.2 (OrdMap.get_of_mem_entries holds e.1 e.2 he)
  rw [hkeys]
  exact holds.nodup

/-- In every run the holds stay bounded and every step is safe; and the fingerprints of two failures tell their fields
apart exactly when the fields differ in more than the surrogates that stand alone in them. -/
theorem breaker_run_safe_iff (hsha : Function.Injective sha256)
    (requests : List BreakerRequest) (request : BreakerRequest) (a b : Datum) (facts facts' : List JsString)
    (ha : readTypedFacts a = some facts) (hb : readTypedFacts b = some facts') :
    (Bounded (run (next sha256) emptyHolds requests)
        ∧ ((run (next sha256) emptyHolds requests).entries.map fun e => e.2.fingerprint).Nodup
        ∧ StepSafe sha256 (run (next sha256) emptyHolds requests) request
          (decideBreaker sha256 (run (next sha256) emptyHolds requests) request)
        ∧ (computeFailureFingerprint sha256 a = computeFailureFingerprint sha256 b ↔ facts = facts'))
      ↔ (facts.map codePoints = facts'.map codePoints → facts = facts') := by
  have hbounded := run_bounded sha256 requests
  rw [fingerprint_eq_iff sha256 hsha a b facts facts' ha hb]
  constructor
  · rintro ⟨-, -, -, hsame⟩
    exact hsame.mp
  · intro hsame
    exact ⟨hbounded, hbounded.fingerprints_nodup, (decideBreaker_moves sha256 _ request).stepSafe hbounded, hsame,
      fun h => by rw [h]⟩

def failureEntry (primaryScope : JsString) : Datum :=
  .object
    [(lit "id", some (.string (lit "entry-1"))), (lit "failureCode", some (.string (lit "COMPILE_FAILED"))),
      (lit "primaryScope", some (.string primaryScope)), (lit "recipeDigest", some (.string (lit "recipe-1"))),
      (lit "baseDigest", some (.string (lit "base-1"))), (lit "environmentDigest", some (.string (lit "env-1"))),
      (lit "retryPredicate", some (.object
        [(lit "kind", some (.string (lit "FACT_DIGEST"))), (lit "factId", some (.string (lit "build.artifact"))),
          (lit "operator", some (.string (lit "EQUALS"))), (lit "expectedDigest", some (.string (lit "digest-1")))] 0))] 0

def failureFacts (primaryScope : JsString) : List JsString :=
  [lit "COMPILE_FAILED", primaryScope, lit "recipe-1", lit "base-1", lit "env-1"]

theorem injective_override {A B : Type} [DecidableEq A] (f : A → B) (hf : Function.Injective f) (a : A) (b : B)
    (hb : ∀ x, f x ≠ b) : Function.Injective fun x => if x = a then b else f x := by
  intro x y h
  dsimp only at h
  by_cases hx : x = a <;> by_cases hy : y = a
  · rw [hx, hy]
  · rw [if_pos hx, if_neg hy] at h
    exact absurd h.symm (hb y)
  · rw [if_neg hx, if_pos hy] at h
    exact absurd h (hb x)
  · rw [if_neg hx, if_neg hy] at h
    exact hf h

/-- SHA-256 on the two texts hashed below, and some other injection elsewhere. -/
def knownSha256 (bytes : List Byte) : JsString :=
  if bytes = utf8 (canonicalFacts (failureFacts (lit "packages/scheduler"))) then
    lit "a5eeb675f3bf023bd740ac90a8f5a6eeab3b327bcecb128a0689d71ceafa109c"
  else if bytes = utf8 (canonicalFacts (failureFacts (lit "packages/store"))) then
    lit "76c4a60d6b63bc72c3b75a7ec105e5d0131dacbb697a365bef2a7a7095eedc28"
  else 0 :: bytes.map (Fin.castLE byte_le_unit)

theorem knownSha256_injective : Function.Injective knownSha256 := by
  have hhead (word : JsString) (hword : word.head? ≠ some 0) (bytes : List Byte) :
      (0 : CodeUnit) :: bytes.map (Fin.castLE (by decide)) ≠ word := by
    rintro rfl
    exact hword rfl
  refine injective_override _ (injective_override _ ?_ _ _ (hhead _ (by decide))) _ _ ?_
  · intro x y h
    exact List.map_injective_iff.mpr (Fin.castLE_injective (by decide)) (List.cons.inj h).2
  · intro bytes
    split
    · decide
    · exact hhead _ (by decide) bytes

def repeated (release : Option HumanRelease) : BreakerRequest := ⟨failureEntry (lit "packages/scheduler"), .null, release⟩

def trippedHolds : ActiveHolds := run (next knownSha256) emptyHolds [repeated none, repeated none]

def schedulerFingerprint : JsString := knownSha256 (utf8 (canonicalFacts (failureFacts (lit "packages/scheduler"))))

def released : BreakerRequest := repeated (some ⟨lit "HUMAN_RELEASE", lit "decision-1", schedulerFingerprint⟩)

/-- The repeated failure trips the hold that the first one opened, and a person releases it. -/
theorem breaker_run_safe_distinct :
    ((decideBreaker knownSha256 (next knownSha256 emptyHolds (repeated none)) (repeated none)).outcome.held = true
        ∧ (trippedHolds.get schedulerFingerprint).isSome = true
        ∧ (decideBreaker knownSha256 trippedHolds released).outcome = .admitted schedulerFingerprint
        ∧ (next knownSha256 trippedHolds released).entries = [])
      ∧ StepSafe knownSha256 trippedHolds released (decideBreaker knownSha256 trippedHolds released)
      ∧ (computeFailureFingerprint knownSha256 (failureEntry (lit "packages/scheduler"))
          = computeFailureFingerprint knownSha256 (failureEntry (lit "packages/store"))
        ↔ failureFacts (lit "packages/scheduler") = failureFacts (lit "packages/store")) := by
  have h := (breaker_run_safe_iff knownSha256 knownSha256_injective [repeated none, repeated none] released
    (failureEntry (lit "packages/scheduler")) (failureEntry (lit "packages/store"))
    (failureFacts (lit "packages/scheduler")) (failureFacts (lit "packages/store")) (by decide) (by decide)).mpr (by decide)
  exact ⟨by decide +kernel, h.2.2.1, h.2.2.2⟩

/-- Two scopes that are different surrogates standing alone. -/
theorem lone_surrogates_share_fingerprint :
    readTypedFacts (failureEntry [0xD800]) = some (failureFacts [0xD800])
      ∧ readTypedFacts (failureEntry [0xD801]) = some (failureFacts [0xD801])
      ∧ failureFacts [0xD800] ≠ failureFacts [0xD801]
      ∧ ∀ sha256, computeFailureFingerprint sha256 (failureEntry [0xD800])
          = computeFailureFingerprint sha256 (failureEntry [0xD801]) := by
  refine ⟨by decide, by decide, by decide, fun sha256 => ?_⟩
  have ha : readTypedFacts (failureEntry [0xD800]) = some (failureFacts [0xD800]) := by decide
  have hb : readTypedFacts (failureEntry [0xD801]) = some (failureFacts [0xD801]) := by decide
  have hpoints : codePoints (canonicalFacts (failureFacts [0xD800])) = codePoints (canonicalFacts (failureFacts [0xD801])) :=
    (canonicalFacts_points_iff _ _ rfl rfl).mpr (by decide)
  rw [computeFailureFingerprint, computeFailureFingerprint, ha, hb, Option.map_some, Option.map_some,
    (utf8_eq_iff _ _).mpr hpoints]

end MoeNG.Convergence
