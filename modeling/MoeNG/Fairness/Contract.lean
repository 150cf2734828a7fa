import MoeNG.Kernel.Value

/-!
# Fairness contracts (`fairness/fairness-contract.ts`, `fairness-ring.ts`, `fairness-work-item.ts`,
`fairness-cap-revision.ts`, `fairness-rotation-input.ts`)

Total validators over hostile input. Each refusal carries one issue, the first
violation in the order the source checks.
-/

namespace MoeNG.Fairness
open MoeNG.Kernel

/-! ### Results (`fairness-contract.ts:31-161`) -/

inductive Layer where
  | CAP_REVISION
  | RESOURCE
  | RING
  | WORK_ITEM
  deriving DecidableEq

inductive IssueCode where
  | FAIRNESS_CONTRACT_BOUND_LOOSENED
  | FAIRNESS_CONTRACT_CARDINALITY_EXCEEDED
  | FAIRNESS_CONTRACT_DIMENSION_MISMATCH
  | FAIRNESS_CONTRACT_DISPATCHABILITY_UNOBSERVED
  | FAIRNESS_CONTRACT_DUPLICATE_IDENTITY
  | FAIRNESS_CONTRACT_EMPTY_RESOURCE_SET
  | FAIRNESS_CONTRACT_INVALID_COUNTER
  | FAIRNESS_CONTRACT_INVALID_IDENTITY
  | FAIRNESS_CONTRACT_INVALID_PRIORITY
  | FAIRNESS_CONTRACT_ITEM_IN_MULTIPLE_QUEUES
  | FAIRNESS_CONTRACT_MALFORMED_INPUT
  | FAIRNESS_CONTRACT_MIGRATION_TARGET_DRAINED
  | FAIRNESS_CONTRACT_PRIOR_BOUND_UNOBSERVED
  | FAIRNESS_CONTRACT_UNDECLARED_RESOURCE
  deriving DecidableEq

structure Issue where
  code : IssueCode
  layer : Layer
  message : JsString
  missingInput : Option JsString
  subjects : List JsString
  deriving DecidableEq

inductive RefusalDisposition where
  | REFUSED
  | UNKNOWN
  deriving DecidableEq

structure Refusal where
  disposition : RefusalDisposition
  issues : List Issue
  deriving DecidableEq

abbrev FairnessResult (α : Type) := Except Refusal α

def refuseFairness (code : IssueCode) (layer : Layer) (message : String) (subjects : List JsString) : Refusal :=
  ⟨.REFUSED, [⟨code, layer, lit message, none, subjects⟩]⟩

def unknownFairness (code : IssueCode) (layer : Layer) (missingInput : JsString) (subjects : List JsString) : Refusal :=
  ⟨.UNKNOWN, [⟨code, layer, lit "cannot classify without " ++ missingInput, some missingInput, subjects⟩]⟩

def maxAuthorityItems : ℕ := 128
def maxGraphKeyCodeUnits : ℕ := 128

def isAlphanumeric (c : CodeUnit) : Bool := (65 ≤ c ∧ c ≤ 90) ∨ (97 ≤ c ∧ c ≤ 122) ∨ (48 ≤ c ∧ c ≤ 57)

/-- `isGraphKey` (`graph-key.ts:9-17`): `[A-Za-z0-9_][A-Za-z0-9._:@/+~-]*`, at most 128 code units. -/
def isGraphKey (s : JsString) : Bool :=
  match s with
  | [] => false
  | first :: rest =>
    s.length ≤ maxGraphKeyCodeUnits ∧ (isAlphanumeric first ∨ first = 95)
      ∧ rest.all fun c => isAlphanumeric c ∨ c ∈ lit "._:@/+~-"

def identityOf : Value → Option JsString
  | .string s => if isGraphKey s then some s else none
  | _ => none

def readFairnessItems (value : Value) (layer : Layer) (field : String) : FairnessResult (List Value) :=
  match value with
  | .array items =>
    if items.length > maxAuthorityItems then
      .error (refuseFairness .FAIRNESS_CONTRACT_CARDINALITY_EXCEEDED layer
        (field ++ " exceeds the bounded cardinality") [])
    else .ok items
  | _ => .error (refuseFairness .FAIRNESS_CONTRACT_MALFORMED_INPUT layer (field ++ " is not a bounded data array") [])

/-- A guard that refuses instead of returning nothing. -/
def orRefuse {α : Type} (read : Option α) (refusal : Refusal) : FairnessResult α :=
  match read with
  | some value => .ok value
  | none => .error refusal

/-! ### Rings (`fairness-ring.ts:37-235`) -/

structure FairnessRingResource where
  resourceId : JsString
  weight : ℤ
  deriving DecidableEq

structure FairnessRingQueueEntry where
  workItemId : JsString
  resourceId : JsString
  deficitCounter : ℤ
  deriving DecidableEq

structure FairnessRing where
  ringId : JsString
  dimensionId : JsString
  resources : List FairnessRingResource
  entries : List FairnessRingQueueEntry
  deriving DecidableEq

def resourceRefusal (code : IssueCode) (message : String) (subjects : List JsString) : Refusal :=
  refuseFairness code .RESOURCE message subjects

def ringRefusal (code : IssueCode) (message : String) (subjects : List JsString) : Refusal :=
  refuseFairness code .RING message subjects

def resourceKeys : List String := ["resourceId", "weight"]

def validateRingResource (value : Value) : FairnessResult FairnessRingResource := do
  let parsed ← orRefuse (exactRecord value resourceKeys)
    (resourceRefusal .FAIRNESS_CONTRACT_MALFORMED_INPUT "input is not a resource record" [])
  let resourceId ← orRefuse (identityOf (parsed.field "resourceId"))
    (resourceRefusal .FAIRNESS_CONTRACT_INVALID_IDENTITY "resourceId is not a safe fairness identity" [])
  let weight ← orRefuse (countOf (parsed.field "weight"))
    (resourceRefusal .FAIRNESS_CONTRACT_INVALID_COUNTER "weight is not a non-negative safe integer" [resourceId])
  pure ⟨resourceId, weight⟩

def entryKeys : List String := ["workItemId", "resourceId", "deficitCounter"]

def readEntry (value : Value) : FairnessResult FairnessRingQueueEntry := do
  let parsed ← orRefuse (exactRecord value entryKeys)
    (ringRefusal .FAIRNESS_CONTRACT_MALFORMED_INPUT "a queue entry is not an entry record" [])
  let workItemId ← orRefuse (identityOf (parsed.field "workItemId"))
    (ringRefusal .FAIRNESS_CONTRACT_INVALID_IDENTITY "workItemId is not a safe fairness identity" [])
  let resourceId ← orRefuse (identityOf (parsed.field "resourceId"))
    (ringRefusal .FAIRNESS_CONTRACT_INVALID_IDENTITY "resourceId is not a safe fairness identity" [workItemId])
  let deficitCounter ← orRefuse (countOf (parsed.field "deficitCounter"))
    (ringRefusal .FAIRNESS_CONTRACT_INVALID_COUNTER "deficitCounter is not a non-negative safe integer" [workItemId])
  pure ⟨workItemId, resourceId, deficitCounter⟩

def readResourcesAfter (seen : List JsString) : List Value → FairnessResult (List FairnessRingResource)
  | [] => .ok []
  | raw :: rest => do
    let resource ← validateRingResource raw
    if resource.resourceId ∈ seen then
      .error (ringRefusal .FAIRNESS_CONTRACT_DUPLICATE_IDENTITY "resourceId is declared twice" [resource.resourceId])
    else
      let declared ← readResourcesAfter (seen ++ [resource.resourceId]) rest
      pure (resource :: declared)

def readResources (value : Value) : FairnessResult (List FairnessRingResource) := do
  let items ← readFairnessItems value .RING "resources"
  readResourcesAfter [] items

def checkEntriesAfter (declared : List JsString) (placements : List (JsString × JsString)) :
    List FairnessRingQueueEntry → FairnessResult Unit
  | [] => .ok ()
  | entry :: rest =>
    if entry.resourceId ∉ declared then
      .error (ringRefusal .FAIRNESS_CONTRACT_UNDECLARED_RESOURCE "a queue entry names an undeclared resource"
        [entry.workItemId, entry.resourceId])
    else
      match placements.find? fun p => p.1 = entry.workItemId with
      | some placed =>
        if placed.2 = entry.resourceId then
          .error (ringRefusal .FAIRNESS_CONTRACT_DUPLICATE_IDENTITY "a work item is queued twice on one resource"
            [entry.workItemId, entry.resourceId])
        else
          .error (ringRefusal .FAIRNESS_CONTRACT_ITEM_IN_MULTIPLE_QUEUES "a work item is queued on two resources"
            [entry.workItemId, placed.2, entry.resourceId])
      | none => checkEntriesAfter declared (placements ++ [(entry.workItemId, entry.resourceId)]) rest

def checkEntries (entries : List FairnessRingQueueEntry) (declared : List JsString) : FairnessResult Unit :=
  if entries.length > 0 ∧ declared.length = 0 then
    .error (ringRefusal .FAIRNESS_CONTRACT_EMPTY_RESOURCE_SET "a queue holds items but no resource is declared" [])
  else checkEntriesAfter declared [] entries

def ringKeys : List String := ["ringId", "dimensionId", "resources", "entries"]

def validateRing (value : Value) : FairnessResult FairnessRing := do
  let parsed ← orRefuse (exactRecord value ringKeys)
    (ringRefusal .FAIRNESS_CONTRACT_MALFORMED_INPUT "input is not a ring record" [])
  let ringId ← orRefuse (identityOf (parsed.field "ringId"))
    (ringRefusal .FAIRNESS_CONTRACT_INVALID_IDENTITY "ringId is not a safe fairness identity" [])
  let dimensionId ← orRefuse (identityOf (parsed.field "dimensionId"))
    (ringRefusal .FAIRNESS_CONTRACT_INVALID_IDENTITY "dimensionId is not a safe fairness identity" [])
  let resources ← readResources (parsed.field "resources")
  let rawEntries ← readFairnessItems (parsed.field "entries") .RING "entries"
  let entries ← rawEntries.mapM readEntry
  checkEntries entries (resources.map FairnessRingResource.resourceId)
  pure ⟨ringId, dimensionId, resources, entries⟩

/-! ### Work items (`fairness-work-item.ts:30-150`) -/

inductive PriorityClass where
  | P0
  | P1
  | P2
  | P3
  deriving DecidableEq

def PriorityClass.text : PriorityClass → String
  | P0 => "P0"
  | P1 => "P1"
  | P2 => "P2"
  | P3 => "P3"

inductive DispatchabilityState where
  | DISPATCHABLE
  | NOT_DISPATCHABLE
  deriving DecidableEq

def DispatchabilityState.text : DispatchabilityState → String
  | DISPATCHABLE => "DISPATCHABLE"
  | NOT_DISPATCHABLE => "NOT_DISPATCHABLE"

structure DispatchabilityFact where
  state : DispatchabilityState
  observationRef : JsString
  deriving DecidableEq

structure FairnessWorkItem where
  workItemId : JsString
  dimensionId : JsString
  priority : PriorityClass
  resourceId : JsString
  dispatchability : DispatchabilityFact
  deriving DecidableEq

def workItemMalformed (message : String) : Refusal :=
  refuseFairness .FAIRNESS_CONTRACT_MALFORMED_INPUT .WORK_ITEM message []

def invalidIdentity (field : String) : Refusal :=
  refuseFairness .FAIRNESS_CONTRACT_INVALID_IDENTITY .WORK_ITEM (field ++ " is not a safe fairness identity") []

def readDispatchability (value : Value) : FairnessResult DispatchabilityFact := do
  let parsed ← orRefuse (exactRecord value ["state", "observationRef"])
    (workItemMalformed "dispatchability is not a dispatchability fact")
  let state ← orRefuse (oneOf DispatchabilityState.text [.DISPATCHABLE, .NOT_DISPATCHABLE] (parsed.field "state"))
    (workItemMalformed "dispatchability.state is outside the closed state set")
  match parsed.field "observationRef" with
  | .null => .error (unknownFairness .FAIRNESS_CONTRACT_DISPATCHABILITY_UNOBSERVED .WORK_ITEM
      (lit "dispatchability.observationRef") [])
  | value => do
    let observationRef ← orRefuse (identityOf value) (invalidIdentity "dispatchability.observationRef")
    pure ⟨state, observationRef⟩

def validateWorkItem (value : Value) : FairnessResult FairnessWorkItem := do
  let parsed ← orRefuse (exactRecord value ["workItemId", "dimensionId", "priority", "resourceId", "dispatchability"])
    (workItemMalformed "input is not a work-item record")
  let workItemId ← orRefuse (identityOf (parsed.field "workItemId")) (invalidIdentity "workItemId")
  let dimensionId ← orRefuse (identityOf (parsed.field "dimensionId")) (invalidIdentity "dimensionId")
  let resourceId ← orRefuse (identityOf (parsed.field "resourceId")) (invalidIdentity "resourceId")
  let priority ← orRefuse (oneOf PriorityClass.text [.P0, .P1, .P2, .P3] (parsed.field "priority"))
    (refuseFairness .FAIRNESS_CONTRACT_INVALID_PRIORITY .WORK_ITEM "priority is outside the closed class set"
      [workItemId])
  let dispatchability ← readDispatchability (parsed.field "dispatchability")
  pure ⟨workItemId, dimensionId, priority, resourceId, dispatchability⟩

def readWorkItemsAfter (expectedDimensionId : JsString) (seen : List JsString) :
    List Value → FairnessResult (List FairnessWorkItem)
  | [] => .ok []
  | raw :: rest => do
    let item ← validateWorkItem raw
    if item.dimensionId ≠ expectedDimensionId then
      .error (refuseFairness .FAIRNESS_CONTRACT_DIMENSION_MISMATCH .WORK_ITEM
        "work item names a different compatibility dimension" [item.workItemId])
    else if item.workItemId ∈ seen then
      .error (refuseFairness .FAIRNESS_CONTRACT_DUPLICATE_IDENTITY .WORK_ITEM "workItemId appears twice in the set"
        [item.workItemId])
    else
      let validated ← readWorkItemsAfter expectedDimensionId (seen ++ [item.workItemId]) rest
      pure (item :: validated)

def validateWorkItemSet (value : Value) (expectedDimensionId : JsString) : FairnessResult (List FairnessWorkItem) := do
  if !isGraphKey expectedDimensionId then .error (invalidIdentity "expectedDimensionId")
  else
    let items ← readFairnessItems value .WORK_ITEM "work item set"
    readWorkItemsAfter expectedDimensionId [] items

/-! ### Cap revisions (`fairness-cap-revision.ts:36-191`) -/

structure FairnessCapMigration where
  workItemId : JsString
  boundAtMost : ℤ
  currentBoundAtMost : ℤ
  deriving DecidableEq

structure FairnessCapRevision where
  revisionRef : JsString
  dimensionId : JsString
  fromCapUnits : ℤ
  toCapUnits : ℤ
  drainedWorkItemIds : List JsString
  migrations : List FairnessCapMigration
  deriving DecidableEq

def capRefusal (code : IssueCode) (message : String) (subjects : List JsString) : Refusal :=
  refuseFairness code .CAP_REVISION message subjects

def readMigration (value : Value) (index : ℕ) : FairnessResult FairnessCapMigration := do
  let parsed ← orRefuse (exactRecord value ["workItemId", "boundAtMost", "currentBoundAtMost"])
    (capRefusal .FAIRNESS_CONTRACT_MALFORMED_INPUT "a migration is not a migration record" [])
  let workItemId ← orRefuse (identityOf (parsed.field "workItemId"))
    (capRefusal .FAIRNESS_CONTRACT_INVALID_IDENTITY "workItemId is not a safe fairness identity" [])
  let boundAtMost ← orRefuse (countOf (parsed.field "boundAtMost"))
    (capRefusal .FAIRNESS_CONTRACT_INVALID_COUNTER "boundAtMost is not a non-negative safe integer" [workItemId])
  match parsed.field "currentBoundAtMost" with
  | .null => .error (unknownFairness .FAIRNESS_CONTRACT_PRIOR_BOUND_UNOBSERVED .CAP_REVISION
      (lit "migrations[" ++ decimal index ++ lit "].currentBoundAtMost") [workItemId])
  | value => do
    let currentBoundAtMost ← orRefuse (countOf value)
      (capRefusal .FAIRNESS_CONTRACT_INVALID_COUNTER "currentBoundAtMost is not a non-negative safe integer"
        [workItemId])
    if boundAtMost > currentBoundAtMost then
      .error (capRefusal .FAIRNESS_CONTRACT_BOUND_LOOSENED "a migration must be equal or tighter" [workItemId])
    else pure ⟨workItemId, boundAtMost, currentBoundAtMost⟩

def readDrainedAfter (seen : List JsString) : List Value → FairnessResult (List JsString)
  | [] => .ok []
  | raw :: rest => do
    let id ← orRefuse (identityOf raw)
      (capRefusal .FAIRNESS_CONTRACT_INVALID_IDENTITY "a drained id is not a safe fairness identity" [])
    if id ∈ seen then
      .error (capRefusal .FAIRNESS_CONTRACT_DUPLICATE_IDENTITY "a drained id repeats" [id])
    else
      let drained ← readDrainedAfter (seen ++ [id]) rest
      pure (id :: drained)

def readDrained (value : Value) : FairnessResult (List JsString) := do
  let items ← readFairnessItems value .CAP_REVISION "drainedWorkItemIds"
  readDrainedAfter [] items

def readMigrationsAfter (targets : List JsString) : ℕ → List Value → FairnessResult (List FairnessCapMigration)
  | _, [] => .ok []
  | index, raw :: rest => do
    let migration ← readMigration raw index
    if migration.workItemId ∈ targets then
      .error (capRefusal .FAIRNESS_CONTRACT_DUPLICATE_IDENTITY "a migration target repeats" [migration.workItemId])
    else
      let migrations ← readMigrationsAfter (targets ++ [migration.workItemId]) (index + 1) rest
      pure (migration :: migrations)

def validateCapRevision (value : Value) : FairnessResult FairnessCapRevision := do
  let parsed ← orRefuse (exactRecord value
      ["revisionRef", "dimensionId", "fromCapUnits", "toCapUnits", "drainedWorkItemIds", "migrations"])
    (capRefusal .FAIRNESS_CONTRACT_MALFORMED_INPUT "input is not a cap revision record" [])
  let revisionRef ← orRefuse (identityOf (parsed.field "revisionRef"))
    (capRefusal .FAIRNESS_CONTRACT_INVALID_IDENTITY "revisionRef is not a safe fairness identity" [])
  let dimensionId ← orRefuse (identityOf (parsed.field "dimensionId"))
    (capRefusal .FAIRNESS_CONTRACT_INVALID_IDENTITY "dimensionId is not a safe fairness identity" [])
  let capUnits := capRefusal .FAIRNESS_CONTRACT_INVALID_COUNTER "a cap unit count is not a non-negative safe integer" []
  let fromCapUnits ← orRefuse (countOf (parsed.field "fromCapUnits")) capUnits
  let toCapUnits ← orRefuse (countOf (parsed.field "toCapUnits")) capUnits
  let drainedWorkItemIds ← readDrained (parsed.field "drainedWorkItemIds")
  let rawMigrations ← readFairnessItems (parsed.field "migrations") .CAP_REVISION "migrations"
  let migrations ← readMigrationsAfter [] 0 rawMigrations
  match (migrations.map FairnessCapMigration.workItemId).find? fun target => target ∈ drainedWorkItemIds with
  | some target =>
    .error (capRefusal .FAIRNESS_CONTRACT_MIGRATION_TARGET_DRAINED "a work item is both drained and migrated" [target])
  | none => pure ⟨revisionRef, dimensionId, fromCapUnits, toCapUnits, drainedWorkItemIds, migrations⟩

/-! ### Rotation requests (`fairness-rotation-input.ts:33-266`) -/

def fairnessServiceCost : ℤ := 1
def fairnessDimensionCeiling : ℤ := 10000

structure FairnessResourceCapacity where
  resourceId : JsString
  capacityUnits : ℤ
  inFlightUnits : ℤ
  deriving DecidableEq

structure FairnessRotationInputs where
  ring : FairnessRing
  items : List FairnessWorkItem
  capacities : List FairnessResourceCapacity
  forcedHead : Option JsString
  totalInFlight : ℤ
  revisedCapUnits : Option ℤ
  deriving DecidableEq

def safeAdd (left right : ℤ) : Option ℤ :=
  let sum := left + right
  if (-maxSafeInteger ≤ sum ∧ sum ≤ maxSafeInteger) ∧ sum ≤ maxAuthorityCount then some sum else none

def validateResourceCapacity (value : Value) : FairnessResult FairnessResourceCapacity := do
  let parsed ← orRefuse (exactRecord value ["resourceId", "capacityUnits", "inFlightUnits"])
    (resourceRefusal .FAIRNESS_CONTRACT_MALFORMED_INPUT "input is not a capacity record" [])
  let resourceId ← orRefuse (identityOf (parsed.field "resourceId"))
    (resourceRefusal .FAIRNESS_CONTRACT_INVALID_IDENTITY "resourceId is not a safe fairness identity" [])
  let units := resourceRefusal .FAIRNESS_CONTRACT_INVALID_COUNTER
    "a capacity unit count is not a non-negative safe integer" [resourceId]
  let capacityUnits ← orRefuse (countOf (parsed.field "capacityUnits")) units
  let inFlightUnits ← orRefuse (countOf (parsed.field "inFlightUnits")) units
  if inFlightUnits > capacityUnits then
    .error (resourceRefusal .FAIRNESS_CONTRACT_CARDINALITY_EXCEEDED "in-flight units exceed the declared capacity"
      [resourceId])
  else pure ⟨resourceId, capacityUnits, inFlightUnits⟩

def readCapacitiesAfter (ring : FairnessRing) (seen : List JsString) :
    List Value → FairnessResult (List FairnessResourceCapacity)
  | [] => .ok []
  | raw :: rest => do
    let capacity ← validateResourceCapacity raw
    if capacity.resourceId ∈ seen then
      .error (resourceRefusal .FAIRNESS_CONTRACT_DUPLICATE_IDENTITY "a capacity record repeats a resource"
        [capacity.resourceId])
    else if !ring.resources.any fun each => each.resourceId = capacity.resourceId then
      .error (resourceRefusal .FAIRNESS_CONTRACT_UNDECLARED_RESOURCE
        "a capacity record names a resource the ring does not declare" [capacity.resourceId])
    else
      let capacities ← readCapacitiesAfter ring (seen ++ [capacity.resourceId]) rest
      pure (capacity :: capacities)

def readCapacities (value : Value) (ring : FairnessRing) : FairnessResult (List FairnessResourceCapacity) := do
  let items ← readFairnessItems value .RESOURCE "capacities"
  let byResource ← readCapacitiesAfter ring [] items
  match ring.resources.find? fun declared => !byResource.any fun c => c.resourceId = declared.resourceId with
  | some declared =>
    .error (unknownFairness .FAIRNESS_CONTRACT_UNDECLARED_RESOURCE .RESOURCE
      (lit "capacities[" ++ declared.resourceId ++ lit "]") [declared.resourceId])
  | none => pure byResource

def checkEntryPlacements (items : List FairnessWorkItem) : List FairnessRingQueueEntry → FairnessResult Unit
  | [] => .ok ()
  | entry :: rest =>
    match items.find? fun item => item.workItemId = entry.workItemId with
    | none =>
      .error (ringRefusal .FAIRNESS_CONTRACT_INVALID_IDENTITY
        "a queue entry names a work item absent from the validated set" [entry.workItemId])
    | some workItem =>
      if workItem.resourceId ≠ entry.resourceId then
        .error (ringRefusal .FAIRNESS_CONTRACT_UNDECLARED_RESOURCE
          "a queue entry places a work item on a resource the item does not name"
          [entry.workItemId, entry.resourceId, workItem.resourceId])
      else checkEntryPlacements items rest

def checkPlacements (ring : FairnessRing) (items : List FairnessWorkItem) : FairnessResult Unit := do
  checkEntryPlacements items ring.entries
  match ring.resources.find? fun declared => declared.weight < fairnessServiceCost ∧
      ring.entries.any fun each => each.resourceId = declared.resourceId with
  | some declared =>
    .error (resourceRefusal .FAIRNESS_CONTRACT_INVALID_COUNTER
      "a resource below one service unit of weight can never serve its queue" [declared.resourceId])
  | none => pure ()

def sumInFlightFrom (total : ℤ) : List FairnessResourceCapacity → FairnessResult ℤ
  | [] => .ok total
  | capacity :: rest =>
    match safeAdd total capacity.inFlightUnits with
    | none =>
      .error (resourceRefusal .FAIRNESS_CONTRACT_INVALID_COUNTER "summed in-flight units leave the safe counter range"
        [capacity.resourceId])
    | some next => sumInFlightFrom next rest

def checkCapRevision (value : Value) (ring : FairnessRing) (totalInFlight : ℤ) : FairnessResult (Option ℤ) :=
  match value with
  | .null => .ok none
  | value => do
    let revision ← validateCapRevision value
    if revision.dimensionId ≠ ring.dimensionId then
      .error (capRefusal .FAIRNESS_CONTRACT_DIMENSION_MISMATCH "the revision names a different compatibility dimension"
        [revision.revisionRef])
    else
      match revision.drainedWorkItemIds.find? fun drained => ring.entries.any fun each => each.workItemId = drained with
      | some drained =>
        .error (capRefusal .FAIRNESS_CONTRACT_MIGRATION_TARGET_DRAINED "a drained work item is still queued on the ring"
          [drained])
      | none =>
        if totalInFlight > revision.toCapUnits then
          .error (capRefusal .FAIRNESS_CONTRACT_CARDINALITY_EXCEEDED "in-flight units already exceed the revised cap"
            [revision.revisionRef])
        else pure (some revision.toCapUnits)

def requestKeys : List String := ["ring", "workItems", "capacities", "forcedHead", "capRevision"]

def readForcedHead (value : Value) : FairnessResult (Option JsString) :=
  match value with
  | .null => .ok none
  | value => do
    let forcedHead ← orRefuse (identityOf value)
      (ringRefusal .FAIRNESS_CONTRACT_INVALID_IDENTITY "forcedHead is not a safe fairness identity" [])
    pure (some forcedHead)

def validateRotationRequest (value : Value) : FairnessResult FairnessRotationInputs := do
  let parsed ← orRefuse (exactRecord value requestKeys)
    (ringRefusal .FAIRNESS_CONTRACT_MALFORMED_INPUT "input is not a rotation request record" [])
  let ring ← validateRing (parsed.field "ring")
  let items ← validateWorkItemSet (parsed.field "workItems") ring.dimensionId
  checkPlacements ring items
  let capacities ← readCapacities (parsed.field "capacities") ring
  let totalInFlight ← sumInFlightFrom 0 capacities
  let revisedCapUnits ← checkCapRevision (parsed.field "capRevision") ring totalInFlight
  let forcedHead ← readForcedHead (parsed.field "forcedHead")
  pure ⟨ring, items, capacities, forcedHead, totalInFlight, revisedCapUnits⟩

end MoeNG.Fairness
