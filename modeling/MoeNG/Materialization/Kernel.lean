import MoeNG.Lib.ComparatorSort
import MoeNG.Supervisor.Effect

/-!
# Materialization vocabulary (`packages/runner/src/materialization/materialization-kernel.ts`)
-/

namespace MoeNG.Materialization
open MoeNG.Kernel hiding refOf digestOf countOf isCount isRef
open MoeNG.Lib MoeNG.Supervisor

/-! ### Ceilings (`materialization-kernel.ts:16-27`) -/

def nodeInputManifestVersion : String := "moe-node-input-manifest/1"

def maxPredecessorCandidates : ℕ := 512
def maxArtifactsPerPredecessor : ℕ := 256
def maxSelectedInputs : ℕ := 4096
def maxMaterializationWitnesses : ℕ := 128
def maxMaterializationContracts : ℕ := 128
def maxEnvironmentRequirements : ℕ := 128

/-! ### Refusals (`materialization-kernel.ts:29-133`) -/

inductive RefusalLayer where
  | SELECTION
  | WITNESS
  | SEAL
  | STALENESS
  deriving DecidableEq

-- without the marker `RUNNER_MATERIALIZATION_`
inductive ErrorCode where
  | CLOSURE_MALFORMED
  | CLOSURE_LIMIT
  | CANDIDATE_MALFORMED
  | ARTIFACT_LIMIT
  | BASE_INVALID
  | MILESTONE_UNQUALIFIED
  | PRODUCER_AMBIGUOUS
  | SELECTION_LIMIT
  | CONTRACT_MALFORMED
  | CONTRACT_LIMIT
  | REGISTRY_MALFORMED
  | MONOTONIC_OPERATION_MISMATCH
  | WITNESS_FACTS_MALFORMED
  | WITNESS_MISSING
  | WITNESS_VERSION_CHANGED
  | WITNESS_DIGEST_CHANGED
  | SELECTION_INVALID
  | AUTHORITY_INVALID
  | ENVIRONMENT_INVALID
  | EPOCH_INVALID
  | PROVIDER_RUNTIME_INVALID
  | MANIFEST_TAMPERED
  | WITNESS_STALE
  | PREDECESSOR_STALE
  | EPOCH_STALE
  deriving DecidableEq

/-- `detail` names the element that refused. -/
structure MaterializationFailure where
  code : ErrorCode
  layer : RefusalLayer
  message : String
  detail : Option JsString
  deriving DecidableEq

abbrev Materialized (α : Type) := Except MaterializationFailure α

/-- A guard that refuses instead of returning nothing. -/
def required {α : Type} (failure : MaterializationFailure) : Option α → Materialized α
  | some a => .ok a
  | none => .error failure

/-! ### Milestones (`materialization-kernel.ts:91-111`) -/

inductive QualifyingMilestone where
  | CANDIDATE_SEALED
  | RESULT_SEALED
  | EVIDENCE_SEALED
  | INTEGRATION_SEALED
  | REVIEW_QUALIFIED
  | ACCEPTED
  deriving DecidableEq

def qualifyingMilestones : List QualifyingMilestone :=
  [.CANDIDATE_SEALED, .RESULT_SEALED, .EVIDENCE_SEALED, .INTEGRATION_SEALED, .REVIEW_QUALIFIED, .ACCEPTED]

def QualifyingMilestone.text : QualifyingMilestone → String
  | CANDIDATE_SEALED => "CANDIDATE_SEALED"
  | RESULT_SEALED => "RESULT_SEALED"
  | EVIDENCE_SEALED => "EVIDENCE_SEALED"
  | INTEGRATION_SEALED => "INTEGRATION_SEALED"
  | REVIEW_QUALIFIED => "REVIEW_QUALIFIED"
  | ACCEPTED => "ACCEPTED"

def milestoneRank (milestone : QualifyingMilestone) : ℕ := qualifyingMilestones.idxOf milestone

/-! ### Bounded lists (`materialization-kernel.ts:141-163`) -/

inductive BoundedListRead where
  | OK (items : List Value)
  | LIMIT
  | MALFORMED

def readBoundedList (value : Value) (maximum : ℕ) : BoundedListRead :=
  match value with
  | .array items => if items.length > maximum then .LIMIT else .OK items
  | _ => .MALFORMED

/-- The callers that tell a limit from a malformed list apart match on it; the others ask for the items. -/
def boundedItems (value : Value) (maximum : ℕ) : Option (List Value) :=
  match readBoundedList value maximum with
  | .OK items => some items
  | _ => none

theorem boundedItems_array (items : List Value) (maximum : ℕ) :
    boundedItems (.array items) maximum = if items.length > maximum then none else some items := by
  unfold boundedItems readBoundedList
  by_cases h : items.length > maximum
  · simp only [if_pos h]
  · simp only [if_neg h]

theorem boundedItems_some {value : Value} {maximum : ℕ} {items : List Value} (h : boundedItems value maximum = some items) :
    value = .array items ∧ items.length ≤ maximum := by
  cases value with
  | array listed =>
    rw [boundedItems_array] at h
    split at h
    · cases h
    · rename_i hle
      obtain rfl := Option.some.inj h
      exact ⟨rfl, not_lt.mp hle⟩
  | _ => cases h

/-! ### Guards (`materialization-kernel.ts:165-182`, `canonical.ts:82-97`) -/

def maxGraphKeyCodeUnits : ℕ := 128

def isAlphanumeric (c : CodeUnit) : Bool := (65 ≤ c ∧ c ≤ 90) ∨ (97 ≤ c ∧ c ≤ 122) ∨ (48 ≤ c ∧ c ≤ 57)

/-- `[A-Za-z0-9_][A-Za-z0-9._:@/+~-]*`, at most 128 code units. -/
def isMirroredGraphKey (s : JsString) : Bool :=
  match s with
  | [] => false
  | first :: rest =>
    s.length ≤ maxGraphKeyCodeUnits ∧ (isAlphanumeric first ∨ first = 95)
      ∧ rest.all fun c => isAlphanumeric c ∨ c ∈ lit "._:@/+~-"

abbrev GraphKey := { s : JsString // isMirroredGraphKey s = true }

def graphKeyOf : Value → Option GraphKey
  | .string s => if h : isMirroredGraphKey s = true then some ⟨s, h⟩ else none
  | _ => none

def isHexText (length : ℕ) (s : JsString) : Bool :=
  s.length = length && s.all fun c => (48 ≤ c ∧ c ≤ 57) ∨ (97 ≤ c ∧ c ≤ 102)

def isCommitIdentity (s : JsString) : Bool := isHexText 40 s || isHexText 64 s

abbrev CommitIdentity := { s : JsString // isCommitIdentity s = true }

def commitOf : Value → Option CommitIdentity
  | .string s => if h : isCommitIdentity s = true then some ⟨s, h⟩ else none
  | _ => none

abbrev ByteCount := { z : ℤ // isSafeCount z = true }

/-- `isSafeByteCount`: `-0` passes, and is the number `0`. -/
def byteCountOf : Value → Option ByteCount
  | .number (.integer z) => if h : isSafeCount z = true then some ⟨z, h⟩ else none
  | .number .negativeZero => some ⟨0, by decide⟩
  | _ => none

theorem graphKeyOf_string (key : GraphKey) : graphKeyOf (.string key.val) = some key := dif_pos key.property

theorem commitOf_string (commit : CommitIdentity) : commitOf (.string commit.val) = some commit := dif_pos commit.property

theorem byteCountOf_integer (count : ByteCount) : byteCountOf (.number (.integer count.val)) = some count :=
  dif_pos count.property

/-! ### Sorted lists -/

def sortByRef {A : Type} (ref : A → JsString) (items : List A) : List A :=
  items.insertionSort fun left right => ref left ≤ ref right

theorem sortByRef_perm {A : Type} (ref : A → JsString) (items : List A) : (sortByRef ref items).Perm items :=
  List.perm_insertionSort _ items

theorem sortByRef_pairwise {A : Type} (ref : A → JsString) (items : List A) :
    (sortByRef ref items).Pairwise fun a b => ref a ≤ ref b := by
  have htotal : Std.Total fun a b : A => ref a ≤ ref b := ⟨fun a b => le_total (ref a) (ref b)⟩
  exact pairwise_insertionSort items fun _ _ _ _ _ _ h h' => le_trans h h'

theorem sortByRef_strict {A : Type} (ref : A → JsString) (items : List A) (h : hasDuplicates (items.map ref) = false) :
    (sortByRef ref items).Pairwise fun a b => ref a < ref b := by
  have hnodup := ((sortByRef_perm ref items).map ref).nodup_iff.mpr ((hasDuplicates_eq_false _).mp h)
  exact ((sortByRef_pairwise ref items).and (List.pairwise_map.mp hnodup)).imp fun hboth =>
    lt_of_le_of_ne hboth.1 hboth.2

/-- Lists that differ only in order are sorted alike when no reference comes twice. -/
theorem sortByRef_congr {A : Type} (ref : A → JsString) {items items' : List A} (hperm : items'.Perm items)
    (h : hasDuplicates (items.map ref) = false) : sortByRef ref items' = sortByRef ref items := by
  have h' : hasDuplicates (items'.map ref) = false := (hasDuplicates_perm (hperm.map ref)).trans h
  refine List.Perm.eq_of_pairwise (fun a b _ _ hab hba => absurd hab hba.asymm) (sortByRef_strict ref items' h')
    (sortByRef_strict ref items h) ?_
  exact (sortByRef_perm ref items').trans (hperm.trans (sortByRef_perm ref items).symm)

/-- A record list in the order of its references, each reference once. -/
abbrev SortedBy {A : Type} (ref : A → JsString) := { items : List A // items.Pairwise fun a b => ref a < ref b }

end MoeNG.Materialization
