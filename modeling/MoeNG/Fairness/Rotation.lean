import Mathlib.Data.List.Sort
import MoeNG.Fairness.Contract
import MoeNG.Lib.Redelivery

/-!
# Weighted deficit round robin (`fairness/fairness-rotation.ts`)

The engine, and what one selection does to every resource's queue.
-/

namespace MoeNG.Fairness
open MoeNG.Kernel MoeNG.Lib

/-! ### The engine (`fairness-rotation.ts:45-276`) -/

inductive RotationDisposition where
  | SELECTED
  | IDLE_CAPACITY_BOUND
  | IDLE_NO_SERVABLE_HEAD
  deriving DecidableEq

structure RotationSelection where
  workItemId : JsString
  resourceId : JsString
  deriving DecidableEq

structure RotationOutcome where
  disposition : RotationDisposition
  selection : Option RotationSelection
  ring : FairnessRing
  roundsAdvanced : ℕ
  deriving DecidableEq

structure QueueHead where
  resourceId : JsString
  weight : ℤ
  index : ℕ
  entry : FairnessRingQueueEntry
  deriving DecidableEq

def outcome (disposition : RotationDisposition) (selection : Option RotationSelection) (ring : FairnessRing)
    (entries : List FairnessRingQueueEntry) (roundsAdvanced : ℕ) : RotationOutcome :=
  ⟨disposition, selection, { ring with entries := entries }, roundsAdvanced⟩

def orderedResourceIds (ring : FairnessRing) : List JsString :=
  (ring.resources.map FairnessRingResource.resourceId).insertionSort (· ≤ ·)

def weightOf (ring : FairnessRing) (resourceId : JsString) : ℤ :=
  ((ring.resources.find? fun each => each.resourceId = resourceId).map FairnessRingResource.weight).getD 0

def queueHead (ring : FairnessRing) (entries : List FairnessRingQueueEntry) (resourceId : JsString) :
    Option QueueHead := do
  let index ← headIndex FairnessRingQueueEntry.resourceId entries resourceId
  let entry ← entries[index]?
  pure ⟨resourceId, weightOf ring resourceId, index, entry⟩

def queueHeads (ring : FairnessRing) (entries : List FairnessRingQueueEntry) : List QueueHead :=
  (orderedResourceIds ring).filterMap (queueHead ring entries)

inductive HeadState where
  | SERVABLE
  | CAPACITY_BLOCKED
  | NOT_DISPATCHABLE
  deriving DecidableEq

def headState (head : QueueHead) (inputs : FairnessRotationInputs) : HeadState :=
  match inputs.capacities.find? fun c => c.resourceId = head.resourceId with
  | none => .CAPACITY_BLOCKED
  | some capacity =>
    if capacity.inFlightUnits ≥ capacity.capacityUnits then .CAPACITY_BLOCKED
    else
      match inputs.items.find? fun item => item.workItemId = head.entry.workItemId with
      | some item => if item.dispatchability.state = .DISPATCHABLE then .SERVABLE else .NOT_DISPATCHABLE
      | none => .NOT_DISPATCHABLE

def pick (heads : List QueueHead) (inputs : FairnessRotationInputs) : Option QueueHead :=
  heads.find? fun head => headState head inputs = .SERVABLE ∧ head.entry.deficitCounter ≥ fairnessServiceCost

-- a head that cannot be served holds exactly one round's share afterwards
def creditHead (inputs : FairnessRotationInputs) (credited : List FairnessRingQueueEntry) (head : QueueHead) :
    FairnessResult (List FairnessRingQueueEntry) :=
  if headState head inputs ≠ .SERVABLE then
    .ok (credited.set head.index { head.entry with deficitCounter := head.weight })
  else
    match safeAdd head.entry.deficitCounter head.weight with
    | none =>
      .error (ringRefusal .FAIRNESS_CONTRACT_INVALID_COUNTER
        "advancing a round would push a deficit past the safe counter range" [head.entry.workItemId, head.resourceId])
    | some next => .ok (credited.set head.index { head.entry with deficitCounter := next })

def advanceRound (heads : List QueueHead) (entries : List FairnessRingQueueEntry) (inputs : FairnessRotationInputs) :
    FairnessResult (List FairnessRingQueueEntry) :=
  heads.foldlM (creditHead inputs) entries

def dequeue (entries : List FairnessRingQueueEntry) (head : QueueHead) : FairnessResult (List FairnessRingQueueEntry) :=
  let residual := head.entry.deficitCounter - fairnessServiceCost
  let remaining := entries.eraseIdx head.index
  match headIndex FairnessRingQueueEntry.resourceId remaining head.resourceId with
  | none => .ok remaining
  | some nextIndex =>
    if residual = 0 then .ok remaining
    else
      match remaining[nextIndex]? with
      | none => .ok remaining
      | some successor =>
        match safeAdd successor.deficitCounter residual with
        | none =>
          .error (ringRefusal .FAIRNESS_CONTRACT_INVALID_COUNTER
            "carrying a residual deficit onto the next head would leave the safe counter range"
            [successor.workItemId, head.resourceId])
        | some carried => .ok (remaining.set nextIndex { successor with deficitCounter := carried })

def forcedSelection (inputs : FairnessRotationInputs) (forcedHead : JsString) : FairnessResult RotationOutcome :=
  match inputs.ring.entries.findIdx? fun each => each.workItemId = forcedHead with
  | none =>
    .error (ringRefusal .FAIRNESS_CONTRACT_INVALID_IDENTITY "the forced head is not queued on the ring" [forcedHead])
  | some index =>
    match inputs.ring.entries[index]? with
    | none =>
      .error (ringRefusal .FAIRNESS_CONTRACT_INVALID_IDENTITY "the forced head is not queued on the ring" [forcedHead])
    | some entry =>
      let atCapacity := match inputs.capacities.find? fun c => c.resourceId = entry.resourceId with
        | none => true
        | some capacity => decide (capacity.inFlightUnits ≥ capacity.capacityUnits)
      if atCapacity then
        .error (ringRefusal .FAIRNESS_CONTRACT_CARDINALITY_EXCEEDED "the forced head's resource is at capacity"
          [forcedHead, entry.resourceId])
      else if ((inputs.items.find? fun item => item.workItemId = forcedHead).map
          fun item => item.dispatchability.state) ≠ some .DISPATCHABLE then
        .error (ringRefusal .FAIRNESS_CONTRACT_DISPATCHABILITY_UNOBSERVED "the forced head is not dispatchable"
          [forcedHead])
      else .ok (outcome .SELECTED (some ⟨forcedHead, entry.resourceId⟩) inputs.ring
        (inputs.ring.entries.eraseIdx index) 0)

def idleDisposition (heads : List QueueHead) (inputs : FairnessRotationInputs) : RotationDisposition :=
  if heads.any fun head => headState head inputs = .CAPACITY_BLOCKED then .IDLE_CAPACITY_BOUND
  else .IDLE_NO_SERVABLE_HEAD

def serve (inputs : FairnessRotationInputs) (entries : List FairnessRingQueueEntry) (chosen : QueueHead)
    (roundsAdvanced : ℕ) : FairnessResult RotationOutcome := do
  let served ← dequeue entries chosen
  pure (outcome .SELECTED (some ⟨chosen.entry.workItemId, chosen.resourceId⟩) inputs.ring served roundsAdvanced)

def selectFrom (inputs : FairnessRotationInputs) : FairnessResult RotationOutcome := do
  let entries := inputs.ring.entries
  let heads := queueHeads inputs.ring entries
  match pick heads inputs with
  | some chosen => serve inputs entries chosen 0
  | none =>
    if heads.length > 0 then
      let credited ← advanceRound heads entries inputs
      let heads := queueHeads inputs.ring credited
      match pick heads inputs with
      | some chosen => serve inputs credited chosen 1
      | none => pure (outcome (idleDisposition heads inputs) none inputs.ring credited 1)
    else pure (outcome (idleDisposition heads inputs) none inputs.ring entries 0)

def atRevisedCap (inputs : FairnessRotationInputs) : Bool :=
  match inputs.revisedCapUnits with
  | none => false
  | some cap => inputs.totalInFlight ≥ cap

def atBound (inputs : FairnessRotationInputs) (message : String) : FairnessResult RotationOutcome :=
  match inputs.forcedHead with
  | some forcedHead => .error (ringRefusal .FAIRNESS_CONTRACT_CARDINALITY_EXCEEDED message [forcedHead])
  | none => .ok (outcome .IDLE_CAPACITY_BOUND none inputs.ring inputs.ring.entries 0)

def rotateOnce (value : Value) : FairnessResult RotationOutcome := do
  let inputs ← validateRotationRequest value
  if inputs.totalInFlight ≥ fairnessDimensionCeiling then
    atBound inputs "a forced head cannot be admitted at the per-dimension ceiling"
  else if atRevisedCap inputs then
    atBound inputs "a forced head cannot be admitted at the revised cap"
  else
    match inputs.forcedHead with
    | some forcedHead => forcedSelection inputs forcedHead
    | none => selectFrom inputs

end MoeNG.Fairness
