import MoeNG.Core.Snapshot
import MoeNG.Kernel.Utf8

/-!
# Supersession kernel (`packages/core/src/supersession/supersession-engine.ts`, `policy/approval-invalidation.ts`)

The SHA-256 of the runtime is the parameter `sha256`, from the bytes it is fed
to the lower case hexadecimal text of their digest.
-/

namespace MoeNG.Core

inductive GraphRevisionLifecycle where
  | DRAFT
  | PENDING_APPROVAL
  | APPROVED
  | ACTIVE
  | SUPERSEDED
  | REJECTED
  deriving DecidableEq

def GraphRevisionLifecycle.text : GraphRevisionLifecycle → String
  | .DRAFT => "DRAFT"
  | .PENDING_APPROVAL => "PENDING_APPROVAL"
  | .APPROVED => "APPROVED"
  | .ACTIVE => "ACTIVE"
  | .SUPERSEDED => "SUPERSEDED"
  | .REJECTED => "REJECTED"

end MoeNG.Core

namespace MoeNG.Core.Supersession
open MoeNG.Kernel MoeNG.Core

/-! ### Carry-forward evidence (`approval-contract.ts:20-31`, `approval-contract.ts:102-115`,
`approval-invalidation.ts:150-196`) -/

inductive CarryForwardReasonCode where
  | CARRY_FORWARD_HASH_MISMATCH
  | CARRY_FORWARD_DEPENDENCY_MISSING
  | CARRY_FORWARD_POLICY_SLICE_CHANGED
  | CARRY_FORWARD_PREDECESSOR_RESULT_CHANGED
  | CARRY_FORWARD_ENVIRONMENT_CHANGED
  | CARRY_FORWARD_CANONICALIZATION_UNKNOWN
  deriving DecidableEq

structure CarryForwardInput where
  canonicalizerVersion : JsString
  dependenciesPresent : Bool
  environmentClosureUnchanged : Bool
  policySliceUnchanged : Bool
  predecessorResultUnchanged : Bool
  sourceHash : JsString
  targetHash : JsString
  deriving DecidableEq

structure CarryForwardVerdict where
  reasonCodes : List CarryForwardReasonCode
  valid : Bool
  deriving DecidableEq

def validateCarryForwardInput (input : CarryForwardInput) : Bool :=
  validHex64 input.sourceHash && validHex64 input.targetHash && validRef input.canonicalizerVersion

def carryForwardReasons (input : CarryForwardInput) (versions : List JsString) : List CarryForwardReasonCode :=
  (if input.sourceHash ≠ input.targetHash then [.CARRY_FORWARD_HASH_MISMATCH] else [])
    ++ (if !input.dependenciesPresent then [.CARRY_FORWARD_DEPENDENCY_MISSING] else [])
    ++ (if !input.policySliceUnchanged then [.CARRY_FORWARD_POLICY_SLICE_CHANGED] else [])
    ++ (if !input.predecessorResultUnchanged then [.CARRY_FORWARD_PREDECESSOR_RESULT_CHANGED] else [])
    ++ (if !input.environmentClosureUnchanged then [.CARRY_FORWARD_ENVIRONMENT_CHANGED] else [])
    ++ (if input.canonicalizerVersion ∉ versions then [.CARRY_FORWARD_CANONICALIZATION_UNKNOWN] else [])

/-- `none` is the refusal `INPUT_INVALID`. -/
def evaluateCarryForward (input : CarryForwardInput) (versions : List JsString) : Option CarryForwardVerdict :=
  if !validateCarryForwardInput input then none
  else if versions.length = 0 || !versions.all validRef then none
  else
    let reasonCodes := carryForwardReasons input versions
    some ⟨reasonCodes, reasonCodes.length = 0⟩

/-! ### Contract (`supersession-engine.ts:8-61`) -/

inductive SupersessionDispositionKind where
  | ADD
  | CARRY
  | REQUALIFY
  | REEXECUTE
  | CHANGE
  | REMOVE
  deriving DecidableEq

def SupersessionDispositionKind.text : SupersessionDispositionKind → String
  | .ADD => "ADD"
  | .CARRY => "CARRY"
  | .REQUALIFY => "REQUALIFY"
  | .REEXECUTE => "REEXECUTE"
  | .CHANGE => "CHANGE"
  | .REMOVE => "REMOVE"

structure SupersessionPredecessorBinding where
  graphContentHash : JsString
  graphEpoch : ℤ
  revisionId : JsString
  deriving DecidableEq

structure SupersessionSuccessorBinding extends SupersessionPredecessorBinding where
  predecessorGraphContentHash : JsString
  predecessorRevisionId : JsString
  deriving DecidableEq

structure SupersessionSafeCarry where
  authority : CarryForwardInput
  inputBinding : CarryForwardInput
  deriving DecidableEq

structure SupersessionDisposition where
  kind : SupersessionDispositionKind
  nodeKey : JsString
  predecessorAuthorityHash : Option JsString
  safeCarry : Option SupersessionSafeCarry
  successorAuthorityHash : Option JsString
  deriving DecidableEq

structure SupersessionInput where
  dispositions : List SupersessionDisposition
  expectedPredecessor : SupersessionPredecessorBinding
  successor : SupersessionSuccessorBinding
  supportedCanonicalizerVersions : List JsString
  deriving DecidableEq

structure DecidedPredecessor extends SupersessionPredecessorBinding where
  lifecycle : GraphRevisionLifecycle
  deriving DecidableEq

structure DecidedSuccessor extends SupersessionSuccessorBinding where
  lifecycle : GraphRevisionLifecycle
  deriving DecidableEq

/-- The decision before its hash is taken. -/
structure UnsealedDecision where
  dispositions : List SupersessionDisposition
  predecessor : DecidedPredecessor
  successor : DecidedSuccessor
  supportedCanonicalizerVersions : List JsString
  deriving DecidableEq

structure SupersessionDecision extends UnsealedDecision where
  authorityHash : JsString
  deriving DecidableEq

inductive SupersessionRefusal where
  | REVISION_REBOUND
  | SUPERSESSION_CONSEQUENCE_CHANGED
  deriving DecidableEq

/-! ### Structural checks (`supersession-engine.ts:78-181`) -/

def maxRefLength : ℕ := 256

def validRef (value : JsString) : Bool := 0 < value.length ∧ value.length ≤ maxRefLength

def validEpoch (value : ℤ) : Bool := isSafeInteger value && 0 < value

def binding (value : SupersessionPredecessorBinding) : Bool :=
  validRef value.revisionId && validHex64 value.graphContentHash && validEpoch value.graphEpoch

def successor (value : SupersessionSuccessorBinding) : Bool :=
  binding value.toSupersessionPredecessorBinding && validRef value.predecessorRevisionId
    && validHex64 value.predecessorGraphContentHash

def validHashes (kind : SupersessionDispositionKind) (before after : Option JsString) : Bool :=
  before.all validHex64 && after.all validHex64 &&
    match kind with
    | .ADD => before.isNone && after.isSome
    | .REMOVE => before.isSome && after.isNone
    | .CHANGE => before.isSome && after.isSome && before ≠ after
    | .CARRY | .REQUALIFY | .REEXECUTE => before.isSome && before = after

def disposition (value : SupersessionDisposition) : Bool :=
  validRef value.nodeKey && validHashes value.kind value.predecessorAuthorityHash value.successorAuthorityHash
    && (value.kind = .CARRY || value.safeCarry.isNone)

def structuralInput (value : SupersessionInput) : Bool :=
  binding value.expectedPredecessor && successor value.successor && value.dispositions.length ≠ 0
    && value.dispositions.length ≤ 128 && value.supportedCanonicalizerVersions.length ≠ 0
    && value.supportedCanonicalizerVersions.length ≤ 32 && value.supportedCanonicalizerVersions.all validRef
    && !hasDuplicates value.supportedCanonicalizerVersions && value.dispositions.all disposition
    && !hasDuplicates (value.dispositions.map SupersessionDisposition.nodeKey)

def samePredecessor (current expected : SupersessionPredecessorBinding) : Bool :=
  current.revisionId = expected.revisionId && current.graphEpoch = expected.graphEpoch
    && current.graphContentHash = expected.graphContentHash

def monotonic (current : SupersessionPredecessorBinding) (next : SupersessionSuccessorBinding) : Bool :=
  current.graphEpoch < maxSafeInteger && next.graphEpoch = current.graphEpoch + 1
    && next.revisionId ≠ current.revisionId && next.predecessorRevisionId = current.revisionId
    && next.predecessorGraphContentHash = current.graphContentHash

/-! ### Dispositions (`supersession-engine.ts:183-215`) -/

def carriesForward (input : CarryForwardInput) (versions : List JsString) : Bool :=
  (evaluateCarryForward input versions).any CarryForwardVerdict.valid

def validCarry (entry : SupersessionDisposition) (versions : List JsString) : Option SupersessionSafeCarry :=
  match entry.safeCarry with
  | none => none
  | some carry =>
    if carriesForward carry.authority versions && carriesForward carry.inputBinding versions
        && some carry.authority.sourceHash = entry.predecessorAuthorityHash
        && some carry.authority.targetHash = entry.successorAuthorityHash then some carry
    else none

def normalizedDisposition (versions : List JsString) (entry : SupersessionDisposition) :
    Option SupersessionDisposition :=
  if entry.kind = .CARRY then
    (validCarry entry versions).map fun carry => { entry with safeCarry := some carry }
  else some { entry with safeCarry := none }

def normalizedDispositions (candidate : SupersessionInput) : Option (List SupersessionDisposition) :=
  (candidate.dispositions.mergeSort fun left right => left.nodeKey ≤ right.nodeKey).mapM
    (normalizedDisposition candidate.supportedCanonicalizerVersions)

/-! ### The authority hash (`supersession-engine.ts:217-246`) -/

def sized (bytes : List Byte) : List Byte := utf8 (decimal bytes.length) ++ utf8 (lit ":") ++ bytes

def frame (label value : JsString) : List Byte := sized (utf8 label) ++ sized (utf8 value)

def nullable (value : Option JsString) : JsString := value.getD (lit "<null>")

def boolText (value : Bool) : JsString := if value then lit "true" else lit "false"

def frameBinding (label : String) (value : SupersessionPredecessorBinding) : List Byte :=
  frame (lit label ++ lit ".revisionId") value.revisionId
    ++ frame (lit label ++ lit ".graphContentHash") value.graphContentHash
    ++ frame (lit label ++ lit ".graphEpoch") (decimal value.graphEpoch.toNat)

def frameCarryFacts (label : JsString) (facts : CarryForwardInput) : List Byte :=
  frame (label ++ lit "canonicalizerVersion") facts.canonicalizerVersion
    ++ frame (label ++ lit "dependenciesPresent") (boolText facts.dependenciesPresent)
    ++ frame (label ++ lit "environmentClosureUnchanged") (boolText facts.environmentClosureUnchanged)
    ++ frame (label ++ lit "policySliceUnchanged") (boolText facts.policySliceUnchanged)
    ++ frame (label ++ lit "predecessorResultUnchanged") (boolText facts.predecessorResultUnchanged)
    ++ frame (label ++ lit "sourceHash") facts.sourceHash
    ++ frame (label ++ lit "targetHash") facts.targetHash

def frameDisposition (index : ℕ) (entry : SupersessionDisposition) : List Byte :=
  let label := lit "dispositions." ++ decimal index ++ lit "."
  frame (label ++ lit "nodeKey") entry.nodeKey
    ++ frame (label ++ lit "kind") (lit entry.kind.text)
    ++ frame (label ++ lit "predecessorAuthorityHash") (nullable entry.predecessorAuthorityHash)
    ++ frame (label ++ lit "successorAuthorityHash") (nullable entry.successorAuthorityHash)
    ++ frame (label ++ lit "safeCarry.present") (boolText entry.safeCarry.isSome)
    ++ match entry.safeCarry with
      | none => []
      | some carry => frameCarryFacts (label ++ lit "safeCarry.authority.") carry.authority
          ++ frameCarryFacts (label ++ lit "safeCarry.inputBinding.") carry.inputBinding

/-- The bytes the hash is taken of. -/
def authorityPreimage (decision : UnsealedDecision) : List Byte :=
  frame (lit "domain") (lit "@moe/core.supersession.authority/v1")
    ++ frameBinding "predecessor" decision.predecessor.toSupersessionPredecessorBinding
    ++ frame (lit "predecessor.lifecycle") (lit decision.predecessor.lifecycle.text)
    ++ frameBinding "successor" decision.successor.toSupersessionPredecessorBinding
    ++ frame (lit "successor.predecessorRevisionId") decision.successor.predecessorRevisionId
    ++ frame (lit "successor.predecessorGraphContentHash") decision.successor.predecessorGraphContentHash
    ++ frame (lit "successor.lifecycle") (lit decision.successor.lifecycle.text)
    ++ frame (lit "dispositions.count") (decimal decision.dispositions.length)
    ++ (decision.dispositions.mapIdx frameDisposition).flatten
    ++ frame (lit "supportedCanonicalizerVersions.count") (decimal decision.supportedCanonicalizerVersions.length)
    ++ (decision.supportedCanonicalizerVersions.mapIdx fun index version =>
        frame (lit "supportedCanonicalizerVersions." ++ decimal index) version).flatten

section Kernel
variable (sha256 : List Byte → JsString)

def authorityHash (decision : UnsealedDecision) : JsString := sha256 (authorityPreimage decision)

/-! ### The decision (`supersession-engine.ts:249-268`) -/

def decideSupersession (current : SupersessionPredecessorBinding) (candidate : SupersessionInput) :
    Except SupersessionRefusal SupersessionDecision :=
  if !binding current || !structuralInput candidate || !samePredecessor current candidate.expectedPredecessor
      || !monotonic current candidate.successor then .error .REVISION_REBOUND
  else match normalizedDispositions candidate with
    | none => .error .SUPERSESSION_CONSEQUENCE_CHANGED
    | some dispositions =>
      let decision : UnsealedDecision :=
        { dispositions := dispositions
          predecessor := { current with lifecycle := .SUPERSEDED }
          successor := { candidate.successor with lifecycle := .ACTIVE }
          supportedCanonicalizerVersions :=
            candidate.supportedCanonicalizerVersions.mergeSort fun left right => left ≤ right }
      .ok { decision with authorityHash := authorityHash sha256 decision }

end Kernel

/-! ### What the kernel promises -/

theorem validRef_iff (value : JsString) : validRef value = true ↔ 0 < value.length ∧ value.length ≤ 256 :=
  decide_eq_true_iff

structure Decided (current : SupersessionPredecessorBinding) (next : DecidedSuccessor) : Prop where
  predecessor : binding current = true
  successor : successor next.toSupersessionSuccessorBinding = true
  monotonic : monotonic current next.toSupersessionSuccessorBinding = true
  lifecycle : next.lifecycle = .ACTIVE

theorem decideSupersession_decided (sha256 : List Byte → JsString) (current : SupersessionPredecessorBinding)
    (candidate : SupersessionInput) (d : SupersessionDecision)
    (h : decideSupersession sha256 current candidate = .ok d) :
    Decided current d.successor ∧ ∃ preimage, d.authorityHash = sha256 preimage := by
  unfold decideSupersession at h
  split at h
  · cases h
  · rename_i hguards
    simp only [Bool.or_eq_true, Bool.not_eq_true', not_or, Bool.not_eq_false] at hguards
    obtain ⟨⟨⟨hcurrent, hstructural⟩, -⟩, hmonotonic⟩ := hguards
    split at h
    · cases h
    · obtain rfl := Except.ok.inj h
      simp only [structuralInput, Bool.and_eq_true] at hstructural
      obtain ⟨⟨⟨⟨⟨⟨⟨⟨⟨-, hsuccessor⟩, -⟩, -⟩, -⟩, -⟩, -⟩, -⟩, -⟩, -⟩ := hstructural
      exact ⟨⟨hcurrent, hsuccessor, hmonotonic, rfl⟩, _, rfl⟩

def addedNode : SupersessionDisposition := ⟨.ADD, lit "node", none, none, some (List.replicate 64 48)⟩

/-- A request that adds one node. -/
def addition (current : SupersessionPredecessorBinding) (next : SupersessionSuccessorBinding) : SupersessionInput where
  dispositions := [addedNode]
  expectedPredecessor := current
  successor := next
  supportedCanonicalizerVersions := [lit "v1"]

theorem structuralInput_addition (current : SupersessionPredecessorBinding) (next : SupersessionSuccessorBinding)
    (hcurrent : binding current = true) (hnext : successor next = true) :
    structuralInput (addition current next) = true := by
  have hversions : [lit "v1"].all validRef = true ∧ hasDuplicates [lit "v1"] = false := by decide
  have hentry : disposition addedNode = true := by decide
  have hkeys : hasDuplicates [addedNode.nodeKey] = false := by decide
  simp [structuralInput, addition, hcurrent, hnext, hversions, hentry, hkeys]

/-- Any successor the kernel can bind is reached by adding one node. -/
theorem decideSupersession_addition (sha256 : List Byte → JsString) (current : SupersessionPredecessorBinding)
    (next : DecidedSuccessor) (h : Decided current next) :
    ∃ d, decideSupersession sha256 current (addition current next.toSupersessionSuccessorBinding) = .ok d
      ∧ d.successor = next := by
  have hstructural := structuralInput_addition current next.toSupersessionSuccessorBinding h.predecessor h.successor
  have hsame : samePredecessor current (addition current next.toSupersessionSuccessorBinding).expectedPredecessor = true := by
    simp [samePredecessor, addition]
  have hmonotonic : Supersession.monotonic current (addition current next.toSupersessionSuccessorBinding).successor = true :=
    h.monotonic
  have hnormal : normalizedDispositions (addition current next.toSupersessionSuccessorBinding) = some [addedNode] := by
    simp [normalizedDispositions, addition, normalizedDisposition, addedNode]
  unfold decideSupersession
  rw [if_neg (by simp [h.predecessor, hstructural, hsame, hmonotonic])]
  rw [hnormal]
  refine ⟨_, rfl, ?_⟩
  dsimp only [addition]
  rw [← h.lifecycle]

end MoeNG.Core.Supersession
