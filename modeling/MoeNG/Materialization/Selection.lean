import Mathlib.Data.Prod.Lex
import MoeNG.Kernel.CanonicalJson
import MoeNG.Lib.OrdMap
import MoeNG.Materialization.Kernel

/-!
# Predecessor selection (`packages/runner/src/materialization/predecessor-candidate-parse.ts`, `predecessor-selection.ts`)
-/

namespace MoeNG.Materialization
open MoeNG.Kernel hiding refOf digestOf countOf isCount isRef
open MoeNG.Lib MoeNG.Supervisor

variable (nfc : JsString → JsString)

/-! ### Records (`predecessor-candidate-parse.ts:27-42`, `predecessor-selection.ts:28-44`) -/

structure ParsedArtifact where
  artifactIdentity : Ref nfc
  sha256 : Digest
  byteLength : ByteCount
  deriving DecidableEq

structure ParsedCandidate where
  nodeKey : GraphKey
  topologicalIndex : Count
  resultRef : Ref nfc
  attemptRef : Ref nfc
  epoch : Count
  adoptionRef : Ref nfc
  milestone : QualifyingMilestone
  artifacts : SortedBy fun artifact : ParsedArtifact nfc => artifact.artifactIdentity.val
  deriving DecidableEq

structure SelectedInput where
  artifactIdentity : Ref nfc
  sha256 : Digest
  byteLength : ByteCount
  producerNodeKey : GraphKey
  producerResultRef : Ref nfc
  producerAttemptRef : Ref nfc
  producerEpoch : Count
  producerAdoptionRef : Ref nfc
  deriving DecidableEq

structure PredecessorSelection where
  baseIdentity : CommitIdentity
  requiredMilestone : QualifyingMilestone
  entries : List (SelectedInput nfc)
  deriving DecidableEq

structure SelectPredecessorInputsInput where
  baseIdentity : Value
  requiredMilestone : Value
  candidates : Value

/-! ### Parsing (`predecessor-candidate-parse.ts:44-144`) -/

def candidateKeys : List String :=
  ["nodeKey", "topologicalIndex", "resultRef", "attemptRef", "epoch", "adoptionRef", "milestone", "artifacts"]

def artifactKeys : List String := ["artifactIdentity", "sha256", "byteLength"]

def malformed : MaterializationFailure :=
  ⟨.CANDIDATE_MALFORMED, .SELECTION, "predecessor candidate is malformed or incomplete", none⟩

def parseArtifact (entry : Value) : Option (ParsedArtifact nfc) := do
  let item ← exactRecord entry artifactKeys
  let artifactIdentity ← refOf nfc (item.field "artifactIdentity")
  let sha256 ← digestOf (item.field "sha256")
  let byteLength ← byteCountOf (item.field "byteLength")
  return ⟨artifactIdentity, sha256, byteLength⟩

def parseArtifacts (value : Value) (nodeKey : GraphKey) :
    Materialized (SortedBy fun artifact : ParsedArtifact nfc => artifact.artifactIdentity.val) :=
  match readBoundedList value maxArtifactsPerPredecessor with
  | .LIMIT => .error ⟨.ARTIFACT_LIMIT, .SELECTION, "predecessor offers more artifacts than the ceiling allows", some nodeKey⟩
  | .MALFORMED => .error malformed
  | .OK items =>
    if items.length = 0 then .error malformed
    else match items.mapM (parseArtifact nfc) with
      | none => .error malformed
      | some artifacts =>
        if h : hasDuplicates (artifacts.map fun artifact => artifact.artifactIdentity.val) = false then
          .ok ⟨sortByRef _ artifacts, sortByRef_strict _ artifacts h⟩
        else .error malformed

def parseCandidate (value : Value) : Materialized (ParsedCandidate nfc) := do
  let item ← required malformed (exactRecord value candidateKeys)
  let nodeKey ← required malformed (graphKeyOf (item.field "nodeKey"))
  let topologicalIndex ← required malformed (countOf (item.field "topologicalIndex"))
  let epoch ← required malformed (countOf (item.field "epoch"))
  let resultRef ← required malformed (refOf nfc (item.field "resultRef"))
  let attemptRef ← required malformed (refOf nfc (item.field "attemptRef"))
  let adoptionRef ← required malformed (refOf nfc (item.field "adoptionRef"))
  let milestone ← required malformed (oneOf QualifyingMilestone.text qualifyingMilestones (item.field "milestone"))
  let artifacts ← parseArtifacts nfc (item.field "artifacts") nodeKey
  return ⟨nodeKey, topologicalIndex, resultRef, attemptRef, epoch, adoptionRef, milestone, artifacts⟩

variable {nfc} in
/-- `left.topologicalIndex - right.topologicalIndex || byWitnessText(left.nodeKey, right.nodeKey)` is at most zero. -/
def selectionOrder (left right : ParsedCandidate nfc) : Prop :=
  left.topologicalIndex.val < right.topologicalIndex.val
    ∨ left.topologicalIndex.val = right.topologicalIndex.val ∧ left.nodeKey.val ≤ right.nodeKey.val

instance : DecidableRel (@selectionOrder nfc) := fun left right =>
  inferInstanceAs (Decidable (left.topologicalIndex.val < right.topologicalIndex.val
    ∨ left.topologicalIndex.val = right.topologicalIndex.val ∧ left.nodeKey.val ≤ right.nodeKey.val))

def parseClosure (value : Value) : Materialized (List (ParsedCandidate nfc)) :=
  match readBoundedList value maxPredecessorCandidates with
  | .LIMIT => .error ⟨.CLOSURE_LIMIT, .SELECTION, "predecessor closure exceeds its ceiling", none⟩
  | .MALFORMED => .error ⟨.CLOSURE_MALFORMED, .SELECTION, "predecessor closure is malformed", none⟩
  | .OK items => do
    let output ← items.mapM (parseCandidate nfc)
    return output.insertionSort selectionOrder

/-! ### Selection (`predecessor-selection.ts:57-161`) -/

variable {nfc}

def artifactValue (artifact : ParsedArtifact nfc) : Value := recordOf
  [("artifactIdentity", .string artifact.artifactIdentity), ("sha256", .string artifact.sha256),
    ("byteLength", .number (.integer artifact.byteLength))]

def candidateValue (candidate : ParsedCandidate nfc) : Value := recordOf
  [("nodeKey", .string candidate.nodeKey), ("topologicalIndex", .number (.integer candidate.topologicalIndex)),
    ("resultRef", .string candidate.resultRef), ("attemptRef", .string candidate.attemptRef),
    ("epoch", .number (.integer candidate.epoch)), ("adoptionRef", .string candidate.adoptionRef),
    ("milestone", .string (lit candidate.milestone.text)), ("artifacts", .array (candidate.artifacts.val.map artifactValue))]

/-- Every field of a parsed candidate can be printed. -/
def producerBinding (candidate : ParsedCandidate nfc) : JsString := canonicalText (candidateValue candidate)

def unqualified (detail : JsString) : MaterializationFailure :=
  ⟨.MILESTONE_UNQUALIFIED, .SELECTION, "predecessor result is not qualified at the required milestone", some detail⟩

def ambiguous (detail : JsString) : MaterializationFailure :=
  ⟨.PRODUCER_AMBIGUOUS, .SELECTION, "two disagreeing producers claim the same identity", some detail⟩

def toEntry (candidate : ParsedCandidate nfc) (artifact : ParsedArtifact nfc) : SelectedInput nfc where
  artifactIdentity := artifact.artifactIdentity
  sha256 := artifact.sha256
  byteLength := artifact.byteLength
  producerNodeKey := candidate.nodeKey
  producerResultRef := candidate.resultRef
  producerAttemptRef := candidate.attemptRef
  producerEpoch := candidate.epoch
  producerAdoptionRef := candidate.adoptionRef

variable (nfc) in
/-- What the loop over the candidates keeps. -/
structure SelectionState where
  producers : OrdMap JsString JsString
  entries : List (SelectedInput nfc)
  claimed : List JsString

def SelectionState.start : SelectionState nfc := ⟨OrdMap.empty, [], []⟩

def claimArtifact (candidate : ParsedCandidate nfc) (state : SelectionState nfc) (artifact : ParsedArtifact nfc) :
    Materialized (SelectionState nfc) :=
  if artifact.artifactIdentity.val ∈ state.claimed then .error (ambiguous artifact.artifactIdentity)
  else .ok { state with
    claimed := state.claimed ++ [artifact.artifactIdentity.val]
    entries := state.entries ++ [toEntry candidate artifact] }

def selectCandidate (requiredMilestone : QualifyingMilestone) (state : SelectionState nfc) (candidate : ParsedCandidate nfc) :
    Materialized (SelectionState nfc) :=
  if milestoneRank candidate.milestone < milestoneRank requiredMilestone then .error (unqualified candidate.nodeKey)
  else match state.producers.get candidate.nodeKey with
    | some known => if known ≠ producerBinding candidate then .error (ambiguous candidate.nodeKey) else .ok state
    | none =>
      candidate.artifacts.val.foldlM (claimArtifact candidate)
        { state with producers := state.producers.set candidate.nodeKey (producerBinding candidate) }

variable (nfc) in
def selectPredecessorInputs (input : SelectPredecessorInputsInput) : Materialized (PredecessorSelection nfc) := do
  let baseIdentity ← required ⟨.BASE_INVALID, .SELECTION, "graph base must be a 40- or 64-hex commit", none⟩
    (commitOf input.baseIdentity)
  let requiredMilestone ←
    required ⟨.CLOSURE_MALFORMED, .SELECTION, "required qualifying milestone is not a known milestone", none⟩
      (oneOf QualifyingMilestone.text qualifyingMilestones input.requiredMilestone)
  let candidates ← parseClosure nfc input.candidates
  let state ← candidates.foldlM (selectCandidate requiredMilestone) .start
  if state.entries.length > maxSelectedInputs then
    .error ⟨.SELECTION_LIMIT, .SELECTION, "selected input closure exceeds its ceiling", none⟩
  else .ok ⟨baseIdentity, requiredMilestone, state.entries⟩

end MoeNG.Materialization
