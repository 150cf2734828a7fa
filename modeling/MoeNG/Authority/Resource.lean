import MoeNG.Authority.Lease
import MoeNG.Lib.Run

/-!
# Resource acquisition (`authority/resource-model.ts`, `authority/lease-resource.ts`)

One transaction reserves every declared resource or none; adapter reports and
successor grants then move the rows. A run keeps the previous rows on a refusal.
-/

namespace MoeNG.Authority
open MoeNG.Kernel MoeNG.Lib

/-! ### Vocabulary and parsers (`resource-model.ts:22-179`) -/

inductive AcquisitionState where
  | PENDING_ACQUIRE
  | ACTIVE
  | RELEASED
  | QUARANTINED
  deriving DecidableEq

def AcquisitionState.text : AcquisitionState → String
  | PENDING_ACQUIRE => "PENDING_ACQUIRE"
  | ACTIVE => "ACTIVE"
  | RELEASED => "RELEASED"
  | QUARANTINED => "QUARANTINED"

def acquisitionStates : List AcquisitionState := [.PENDING_ACQUIRE, .ACTIVE, .RELEASED, .QUARANTINED]

inductive AcquisitionFailure where
  | FAILED
  | UNKNOWN
  deriving DecidableEq

def AcquisitionFailure.text : AcquisitionFailure → String
  | FAILED => "FAILED"
  | UNKNOWN => "UNKNOWN"

def acquisitionFailures : List AcquisitionFailure := [.FAILED, .UNKNOWN]

structure DeclaredResource where
  resourceId : JsString
  capacityUnits : ℤ
  external : Bool
  fenceable : Bool
  deriving DecidableEq

structure ReserveAllRequest where
  requestId : JsString
  declaredResources : List DeclaredResource
  capacitySnapshot : Value
  epoch : ℤ
  eligibilityEventSequenceRef : JsString
  continuouslyEligibleSinceRef : JsString
  callerObservation : JsString

structure ResourceRow where
  resourceId : JsString
  capacityUnits : ℤ
  epoch : ℤ
  state : AcquisitionState
  effectIntentRef : JsString
  external : Bool
  fenceable : Bool
  deriving DecidableEq

structure ResourceWaitRequest where
  requestId : JsString
  resourceIds : List JsString
  eligibilityEventSequenceRef : JsString
  continuouslyEligibleSinceRef : JsString
  callerObservation : JsString
  deriving DecidableEq

structure AcquisitionSet where
  rows : List ResourceRow
  allActive : Bool
  held : Bool
  deriving DecidableEq

inductive ReserveAllResult where
  | reserved (rows : List ResourceRow)
  | waiting (waitRequest : ResourceWaitRequest)
  deriving DecidableEq

def parseDeclared (value : Value) : Option DeclaredResource := do
  let parsed ← exactRecord value ["resourceId", "capacityUnits", "external", "fenceable"]
  let resourceId ← refOf (parsed.field "resourceId")
  let capacityUnits ← countOf (parsed.field "capacityUnits")
  let external ← boolOf (parsed.field "external")
  let fenceable ← boolOf (parsed.field "fenceable")
  pure ⟨resourceId, capacityUnits, external, fenceable⟩

def rowKeys : List String :=
  ["resourceId", "capacityUnits", "epoch", "state", "effectIntentRef", "external", "fenceable"]

def parseRow (value : Value) : Option ResourceRow := do
  let parsed ← exactRecord value rowKeys
  let resourceId ← refOf (parsed.field "resourceId")
  let capacityUnits ← countOf (parsed.field "capacityUnits")
  let epoch ← countOf (parsed.field "epoch")
  let state ← oneOf AcquisitionState.text acquisitionStates (parsed.field "state")
  let effectIntentRef ← refOf (parsed.field "effectIntentRef")
  let external ← boolOf (parsed.field "external")
  let fenceable ← boolOf (parsed.field "fenceable")
  pure ⟨resourceId, capacityUnits, epoch, state, effectIntentRef, external, fenceable⟩

def ResourceRow.toValue (r : ResourceRow) : Value := recordOf [
  ("resourceId", .string r.resourceId), ("capacityUnits", .number (.integer r.capacityUnits)),
  ("epoch", .number (.integer r.epoch)), ("state", .string (lit r.state.text)),
  ("effectIntentRef", .string r.effectIntentRef), ("external", .bool r.external), ("fenceable", .bool r.fenceable)]

def rowsValue (rows : List ResourceRow) : Value := .array (rows.map ResourceRow.toValue)

def parseRows (value : Value) : Option (List ResourceRow) := do
  let items ← readList value maxAuthorityItems
  if items.length = 0 then none else items.mapM parseRow

def availableUnits (snapshot : Value) (resourceId : JsString) : Option ℤ := do
  let value ← readOwnDataProperty snapshot resourceId
  countOf value

def parseReserveRequest (value : Value) : Option ReserveAllRequest := do
  let parsed ← exactRecord value ["requestId", "declaredResources", "capacitySnapshot", "epoch",
    "eligibilityEventSequenceRef", "continuouslyEligibleSinceRef", "callerObservation"]
  let requestId ← refOf (parsed.field "requestId")
  let epoch ← countOf (parsed.field "epoch")
  let eligibilityEventSequenceRef ← refOf (parsed.field "eligibilityEventSequenceRef")
  let continuouslyEligibleSinceRef ← refOf (parsed.field "continuouslyEligibleSinceRef")
  let callerObservation ← refOf (parsed.field "callerObservation")
  if isPlainRecord (parsed.field "capacitySnapshot") then
    let items ← readList (parsed.field "declaredResources") maxAuthorityItems
    if items.length = 0 then none
    else
      let resources ← items.mapM parseDeclared
      let declared := resources.insertionSort fun left right => left.resourceId ≤ right.resourceId
      if hasDuplicates (declared.map DeclaredResource.resourceId) then none
      else pure ⟨requestId, declared, parsed.field "capacitySnapshot", epoch, eligibilityEventSequenceRef,
        continuouslyEligibleSinceRef, callerObservation⟩
  else none

def refuse (message : String) : AuthorityRejection := ⟨[⟨.AUTHORITY_STALE_LEASE, message⟩], none⟩

/-! ### Operations (`lease-resource.ts:53-169`, `lease-resource.ts:224-241`) -/

def reservedRow (parsed : ReserveAllRequest) (resource : DeclaredResource) : ResourceRow :=
  ⟨resource.resourceId, resource.capacityUnits, parsed.epoch,
    if resource.external then .PENDING_ACQUIRE else .ACTIVE,
    lit "intent:" ++ parsed.requestId ++ lit ":" ++ resource.resourceId, resource.external, resource.fenceable⟩

def reserveAll (value : Value) : AuthorityOutcome ReserveAllResult :=
  match parseReserveRequest value with
  | none => .error (malformed "reserveAll received a malformed acquisition request")
  | some parsed =>
    let sufficient := parsed.declaredResources.all fun resource =>
      match availableUnits parsed.capacitySnapshot resource.resourceId with
      | none => false
      | some available => available ≥ resource.capacityUnits
    if !sufficient then
      .ok (.waiting ⟨parsed.requestId, parsed.declaredResources.map DeclaredResource.resourceId,
        parsed.eligibilityEventSequenceRef, parsed.continuouslyEligibleSinceRef, parsed.callerObservation⟩)
    else .ok (.reserved (parsed.declaredResources.map (reservedRow parsed)))

def settled (rows : List ResourceRow) (held : Bool) : AcquisitionSet :=
  ⟨rows, rows.all fun row => row.state = .ACTIVE, held⟩

def locate (value resourceId epoch : Value) : AuthorityOutcome (List ResourceRow × ResourceRow) :=
  match parseRows value, refOf resourceId, countOf epoch with
  | some rows, some resourceId, some epoch =>
    match rows.find? fun candidate => candidate.resourceId = resourceId with
    | none => .error (refuse "resource is not part of this acquisition set")
    | some row =>
      if row.epoch ≠ epoch then
        .error ⟨[⟨.AUTHORITY_STALE_EPOCH, "adapter reported a stale acquisition epoch"⟩], none⟩
      else .ok (rows, row)
  | _, _, _ => .error (malformed "adapter report received a malformed acquisition set")

def adapterConfirm (value resourceId epoch : Value) : AuthorityOutcome AcquisitionSet := do
  let (rows, located) ← locate value resourceId epoch
  if !located.external then .error (refuse "only an external resource needs confirmation")
  else if located.state ≠ .PENDING_ACQUIRE then
    .error (refuse ("resource state " ++ located.state.text ++ " cannot accept a confirmation"))
  else .ok (settled (rows.map fun row =>
    if row.resourceId ≠ located.resourceId then row else { row with state := .ACTIVE }) false)

-- a sibling that cannot be fenced may still be held at its adapter
def uncertainRow (located : ResourceRow) (disposition : AcquisitionFailure) (row : ResourceRow) : Bool :=
  let acquiring : Bool := row.state = .ACTIVE ∨ row.state = .PENDING_ACQUIRE
  if row.resourceId = located.resourceId then disposition = .UNKNOWN else acquiring && !row.fenceable

def failedState (located : ResourceRow) (disposition : AcquisitionFailure) (row : ResourceRow) : AcquisitionState :=
  if uncertainRow located disposition row then .QUARANTINED else .RELEASED

def adapterFail (value resourceId epoch disposition : Value) : AuthorityOutcome AcquisitionSet := do
  let (rows, located) ← locate value resourceId epoch
  match oneOf AcquisitionFailure.text acquisitionFailures disposition with
  | none => .error (malformed "adapterFail requires a FAILED or UNKNOWN disposition")
  | some disposition =>
    if located.state ≠ .PENDING_ACQUIRE ∧ located.state ≠ .ACTIVE then
      .error (refuse ("resource state " ++ located.state.text ++ " cannot accept a failure report"))
    else .ok (settled (rows.map fun row => { row with state := failedState located disposition row }) true)

def grantSuccessorCapacity (value proofRef : Value) : AuthorityOutcome AcquisitionSet :=
  match parseRows value with
  | none => .error (malformed "grantSuccessorCapacity received a malformed set")
  | some rows =>
    if !rows.any fun row => row.state = .QUARANTINED then .ok (settled rows false)
    else
      match refOf proofRef with
      | none => .error (refuse "a quarantined resource needs a fenceability or reconciliation proof")
      | some _ => .ok (settled (rows.map fun row =>
          if row.state ≠ .QUARANTINED then row else { row with state := .RELEASED }) false)

end MoeNG.Authority
