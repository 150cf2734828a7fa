import MoeNG.Lib.Run
import MoeNG.Lib.OrdMap
import MoeNG.Projections.Plain

/-!
# The projection fold (`packages/store/src/projections/projection-fold.ts`)

A request is read, its batch is checked as a whole, then upcast and reduced
event by event. Reducers and upcaster are functions of their arguments; a
reducer may throw or return something that is not a plain record.
-/

namespace MoeNG.Projections
open MoeNG.Kernel MoeNG.Lib MoeNG.Store

/-! ### Contract (`store-contracts.ts`, `projection-upcast.ts:14-37`, `projection-fold.ts:17-55`) -/

structure StoredDecisionTrace where
  commandId : JsString
  commandKind : JsString
  principalId : JsString
  projectId : JsString
  requestIdentityVersion : JsString
  requestSha256 : JsString
  deriving DecidableEq

structure StoredEvent where
  aggregateId : JsString
  aggregateSequence : ℤ
  commandId : JsString
  committedAt : JsString
  decisionTrace : Option StoredDecisionTrace
  domainSchemaVersion : JsString
  eventId : JsString
  eventType : JsString
  globalPosition : ℤ
  metadata : List Byte
  payload : List Byte
  payloadCodecVersion : JsString
  recordVersion : JsString
  requestSha256 : JsString
  deriving DecidableEq

inductive UpcastFailureCode where
  | SCHEMA_VERSION_UNSUPPORTED
  | UPCAST_HANDLER_FAILED
  | UPCAST_OUTPUT_INVALID
  deriving DecidableEq

structure UpcastFailure where
  code : UpcastFailureCode
  currentVersion : Option JsString
  eventId : JsString
  eventType : JsString
  fromVersion : JsString
  deriving DecidableEq

inductive UpcastOutcome where
  | upcast (event : StoredEvent)
  | refused (failure : UpcastFailure)
  | threw
  deriving DecidableEq

abbrev StoredEventUpcaster := StoredEvent → UpcastOutcome

inductive ReducerOutcome where
  | next (state : ProjectionState)
  | notPlain
  | threw

abbrev ProjectionReducer := ProjectionState → StoredEvent → ReducerOutcome

/-- The own functions of the reducer record, by event type. -/
abbrev ProjectionReducers := JsString → Option ProjectionReducer

inductive ProjectionFoldLayer where
  | INPUT
  | REDUCER
  | UPCAST
  deriving DecidableEq

inductive ProjectionFoldCode where
  | PROJECTION_FOLD_DUPLICATE_EVENT
  | PROJECTION_FOLD_INPUT_INVALID
  | PROJECTION_FOLD_OUT_OF_ORDER
  | PROJECTION_FOLD_REDUCER_FAILED
  | PROJECTION_FOLD_REDUCER_MISSING
  | PROJECTION_FOLD_STALE_POSITION
  | PROJECTION_FOLD_STATE_INVALID
  | PROJECTION_FOLD_UPCAST_REFUSED
  deriving DecidableEq

/-- What `normalizeEvent` finds: fields of their kinds, anything else, or a read that throws. -/
inductive BatchItem where
  | event (event : StoredEvent)
  | malformed
  | hostile

/-- The reducers are missing when they are no object, the upcaster when it has no `upcast` function, and a batch that
cannot be iterated has a hostile item first. -/
structure ProjectionFoldInput where
  checkpoint : RawValue
  events : List BatchItem
  reducers : Option ProjectionReducers
  state : RawValue
  upcaster : Option StoredEventUpcaster

/-- A request with the types of the contract. -/
def ProjectionFoldInput.plain (checkpoint : ℤ) (events : List StoredEvent) (reducers : ProjectionReducers)
    (state : ProjectionState) (upcaster : StoredEventUpcaster) : ProjectionFoldInput :=
  ⟨rawCheckpoint checkpoint, events.map .event, some reducers, rawState state, some upcaster⟩

structure ProjectionFolded where
  checkpoint : ℤ
  state : ProjectionState

structure Issue where
  code : ProjectionFoldCode
  detail : JsString
  eventId : Option JsString
  layer : ProjectionFoldLayer
  upcast : Option UpcastFailure
  deriving DecidableEq

structure ProjectionFoldRefusal extends Issue where
  checkpoint : ℤ
  state : ProjectionState

abbrev ProjectionFoldResult := Except ProjectionFoldRefusal ProjectionFolded

def eventRecordVersion : JsString := lit "moe-event-record/1"
def opaquePayloadCodecVersion : JsString := lit "moe-opaque-bytes/1"

def UpcastFailureCode.text : UpcastFailureCode → String
  | .SCHEMA_VERSION_UNSUPPORTED => "SCHEMA_VERSION_UNSUPPORTED"
  | .UPCAST_HANDLER_FAILED => "UPCAST_HANDLER_FAILED"
  | .UPCAST_OUTPUT_INVALID => "UPCAST_OUTPUT_INVALID"

/-! ### Preflight (`projection-fold.ts:113-196`) -/

/-- `normalizeEvent` copies an event whose fields have their kinds; these are the values it checks. -/
def plainEvent (event : StoredEvent) : Bool :=
  event.payloadCodecVersion = opaquePayloadCodecVersion && event.recordVersion = eventRecordVersion
    && isSafeCount event.aggregateSequence && 0 ≤ event.globalPosition

structure Preflight where
  eventIds : List JsString
  sequences : OrdMap JsString ℤ
  position : ℤ

def deny (code : ProjectionFoldCode) (eventId : Option JsString) (detail : JsString) : Option Issue :=
  some ⟨code, detail, eventId, .INPUT, none⟩

def notPlainEvent : Issue := ⟨.PROJECTION_FOLD_INPUT_INVALID, lit "event is not plain event data", none, .INPUT, none⟩

def preflightEvent (mark : ℤ) (seen : Preflight) (event : StoredEvent) : Option Issue :=
  if !plainEvent event then some notPlainEvent
  else if event.globalPosition ≤ mark then
    deny .PROJECTION_FOLD_STALE_POSITION (some event.eventId)
      (lit "position " ++ decimalInt event.globalPosition ++ lit " is at or below checkpoint " ++ decimalInt mark)
  else if event.globalPosition ≤ seen.position then
    deny .PROJECTION_FOLD_OUT_OF_ORDER (some event.eventId)
      (lit "position " ++ decimalInt event.globalPosition ++ lit " does not exceed " ++ decimalInt seen.position)
  else if event.eventId ∈ seen.eventIds then
    deny .PROJECTION_FOLD_DUPLICATE_EVENT (some event.eventId) (lit "eventId repeats")
  else match seen.sequences.get event.aggregateId with
    | none => none
    | some last =>
      if event.aggregateSequence ≤ last then
        deny (if event.aggregateSequence = last then .PROJECTION_FOLD_DUPLICATE_EVENT else .PROJECTION_FOLD_OUT_OF_ORDER)
          (some event.eventId)
          (event.aggregateId ++ lit " sequence " ++ decimalInt event.aggregateSequence ++ lit " follows " ++ decimalInt last)
      else none

def Preflight.record (seen : Preflight) (event : StoredEvent) : Preflight :=
  ⟨event.eventId :: seen.eventIds, seen.sequences.set event.aggregateId event.aggregateSequence, event.globalPosition⟩

inductive Preflighted where
  | ready (events : List StoredEvent)
  | denied (issue : Issue)
  | threw

def Preflighted.push (event : StoredEvent) : Preflighted → Preflighted
  | .ready events => .ready (event :: events)
  | answer => answer

def preflightFrom (mark : ℤ) (seen : Preflight) : List BatchItem → Preflighted
  | [] => .ready []
  | .hostile :: _ => .threw
  | .malformed :: _ => .denied notPlainEvent
  | .event event :: rest =>
    match preflightEvent mark seen event with
    | some issue => .denied issue
    | none => (preflightFrom mark (seen.record event) rest).push event

def preflight (events : List BatchItem) (checkpoint : ℤ) : Preflighted :=
  preflightFrom checkpoint ⟨[], .empty, checkpoint⟩ events

/-! ### Reduction (`projection-fold.ts:198-250`) -/

def upcastOne (upcaster : StoredEventUpcaster) (event : StoredEvent) : Except Issue StoredEvent :=
  match upcaster event with
  | .upcast current => .ok current
  | .threw => .error ⟨.PROJECTION_FOLD_UPCAST_REFUSED, lit "upcaster threw", some event.eventId, .UPCAST, none⟩
  | .refused failure =>
    .error ⟨.PROJECTION_FOLD_UPCAST_REFUSED, lit failure.code.text ++ lit " at " ++ failure.fromVersion,
      some event.eventId, .UPCAST, some failure⟩

def reduceOne (reducers : ProjectionReducers) (state : ProjectionState) (current : StoredEvent) :
    Except Issue ProjectionState :=
  let bad (code : ProjectionFoldCode) (detail : JsString) : Except Issue ProjectionState :=
    .error ⟨code, detail, some current.eventId, .REDUCER, none⟩
  match reducers current.eventType with
  | none => bad .PROJECTION_FOLD_REDUCER_MISSING (lit "no reducer for " ++ current.eventType)
  | some reducer =>
    match reducer state current with
    | .threw => bad .PROJECTION_FOLD_REDUCER_FAILED (lit "the " ++ current.eventType ++ lit " reducer threw")
    | .notPlain => bad .PROJECTION_FOLD_STATE_INVALID (lit "state is not plain data")
    | .next next => .ok next

def applyEvent (reducers : ProjectionReducers) (upcaster : StoredEventUpcaster) (state : ProjectionState)
    (event : StoredEvent) : Except Issue ProjectionState :=
  upcastOne upcaster event >>= reduceOne reducers state

def refuse (issue : Issue) (state : ProjectionState) (checkpoint : ℤ) : ProjectionFoldResult :=
  .error ⟨issue, checkpoint, state⟩

/-- Every failure echoes `start` and `point`, never a partial fold. -/
def reduceAll (events : List StoredEvent) (start : ProjectionState) (point : ℤ) (reducers : ProjectionReducers)
    (upcaster : StoredEventUpcaster) : ProjectionFoldResult :=
  match events.foldlM (applyEvent reducers upcaster) start with
  | .error issue => refuse issue start point
  | .ok state => .ok ⟨(events.getLast?.map StoredEvent.globalPosition).getD point, state⟩

/-- Nothing of the request is echoed. -/
def unusableRequest : ProjectionFoldRefusal :=
  ⟨⟨.PROJECTION_FOLD_INPUT_INVALID, lit "state, checkpoint, batch, or wiring is not usable", none, .INPUT, none⟩, 0, []⟩

def foldProjection (request : ProjectionFoldInput) : ProjectionFoldResult :=
  match plainRecord request.state, normalizeCheckpoint request.checkpoint, request.reducers, request.upcaster with
  | some start, some point, some reducers, some upcaster =>
    match preflight request.events point with
    | .threw => .error unusableRequest
    | .denied issue => refuse issue start point
    | .ready events => reduceAll events start point reducers upcaster
  | _, _, _, _ => .error unusableRequest

/-! ### What the gate accepts -/

/-- Both events are of one ledger, and the second one is later. -/
structure Follows (a b : StoredEvent) : Prop where
  position : a.globalPosition < b.globalPosition
  eventId : a.eventId ≠ b.eventId
  sequence : a.aggregateId = b.aggregateId → a.aggregateSequence < b.aggregateSequence

/-- An event behind the mark and behind what was seen. -/
structure Passes (mark : ℤ) (seen : Preflight) (event : StoredEvent) : Prop where
  plain : plainEvent event = true
  marked : mark < event.globalPosition
  behind : seen.position < event.globalPosition
  fresh : event.eventId ∉ seen.eventIds
  sequence : ∀ last, seen.sequences.get event.aggregateId = some last → last < event.aggregateSequence

theorem preflightEvent_none_iff (mark : ℤ) (seen : Preflight) (event : StoredEvent) :
    preflightEvent mark seen event = none ↔ Passes mark seen event := by
  unfold preflightEvent
  constructor
  · intro h
    split at h
    · cases h
    rename_i hplain
    split at h
    · cases h
    rename_i hmark
    split at h
    · cases h
    rename_i hposition
    split at h
    · cases h
    rename_i hid
    refine ⟨by simpa using hplain, not_le.mp hmark, not_le.mp hposition, hid, fun last hlast => ?_⟩
    rw [hlast] at h
    dsimp only at h
    split at h
    · cases h
    · rename_i hsequence
      exact not_le.mp hsequence
  · intro h
    rw [if_neg (by simpa using h.plain), if_neg (not_le.mpr h.marked), if_neg (not_le.mpr h.behind), if_neg h.fresh]
    cases hlast : seen.sequences.get event.aggregateId with
    | none => rfl
    | some last => exact if_neg (not_le.mpr (h.sequence last hlast))

/-- Events in the order of one ledger, all of them behind what was seen. -/
structure Fits (mark : ℤ) (seen : Preflight) (events : List StoredEvent) : Prop where
  passes : ∀ e ∈ events, Passes mark seen e
  follows : events.Pairwise Follows

theorem fits_cons_iff (mark : ℤ) (seen : Preflight) (event : StoredEvent) (rest : List StoredEvent) :
    Fits mark seen (event :: rest) ↔ preflightEvent mark seen event = none ∧ Fits mark (seen.record event) rest := by
  have hget : ∀ key, (seen.record event).sequences.get key
      = if key = event.aggregateId then some event.aggregateSequence else seen.sequences.get key := fun key =>
    OrdMap.get_set ..
  rw [preflightEvent_none_iff]
  constructor
  · rintro ⟨hpasses, hfollows⟩
    obtain ⟨hfirst, hrest⟩ := List.pairwise_cons.mp hfollows
    refine ⟨hpasses event (List.mem_cons_self ..), fun e he => ?_, hrest⟩
    have hpass := hpasses e (List.mem_cons_of_mem _ he)
    refine ⟨hpass.plain, hpass.marked, (hfirst e he).position, fun hin => ?_, fun last hlast => ?_⟩
    · obtain heq | hin := List.mem_cons.mp hin
      · exact (hfirst e he).eventId heq.symm
      · exact hpass.fresh hin
    · rw [hget] at hlast
      split at hlast
      · rename_i haggregate
        obtain rfl := Option.some.inj hlast
        exact (hfirst e he).sequence haggregate.symm
      · exact hpass.sequence last hlast
  · rintro ⟨hevent, h⟩
    have hfollows : ∀ e ∈ rest, Follows event e := by
      intro e he
      have hpass := h.passes e he
      exact ⟨hpass.behind, fun heq => hpass.fresh (heq ▸ List.mem_cons_self ..), fun haggregate =>
        hpass.sequence _ ((hget _).trans (if_pos haggregate.symm))⟩
    refine ⟨List.forall_mem_cons.mpr ⟨hevent, fun e he => ?_⟩, List.pairwise_cons.mpr ⟨hfollows, h.follows⟩⟩
    have hpass := h.passes e he
    refine ⟨hpass.plain, hpass.marked, hevent.behind.trans hpass.behind,
      fun hin => hpass.fresh (List.mem_cons_of_mem _ hin), fun last hlast => ?_⟩
    by_cases haggregate : e.aggregateId = event.aggregateId
    · exact (hevent.sequence last (haggregate ▸ hlast)).trans ((hfollows e he).sequence haggregate.symm)
    · exact hpass.sequence last ((hget _).trans ((if_neg haggregate).trans hlast))

theorem Preflighted.push_ready_iff (event : StoredEvent) (answer : Preflighted) (events : List StoredEvent) :
    answer.push event = .ready events ↔ ∃ rest, answer = .ready rest ∧ events = event :: rest := by
  cases answer <;> simp [Preflighted.push, eq_comm]

theorem preflightFrom_ready_iff (mark : ℤ) (seen : Preflight) (items : List BatchItem) (events : List StoredEvent) :
    preflightFrom mark seen items = .ready events ↔ items = events.map .event ∧ Fits mark seen events := by
  induction items generalizing seen events with
  | nil =>
    constructor
    · intro h
      obtain rfl := Preflighted.ready.inj h
      exact ⟨rfl, nofun, List.Pairwise.nil⟩
    · rintro ⟨h, -⟩
      rw [List.map_eq_nil_iff.mp h.symm]
      rfl
  | cons item rest ih =>
    cases item with
    | hostile => exact ⟨nofun, fun h => by cases events <;> cases h.1⟩
    | malformed => exact ⟨nofun, fun h => by cases events <;> cases h.1⟩
    | event event =>
      constructor
      · intro h
        rw [preflightFrom] at h
        split at h
        · cases h
        · rename_i hevent
          obtain ⟨tail, htail, rfl⟩ := (Preflighted.push_ready_iff ..).mp h
          obtain ⟨hitems, hfits⟩ := (ih _ _).mp htail
          exact ⟨congrArg _ hitems, (fits_cons_iff ..).mpr ⟨hevent, hfits⟩⟩
      · rintro ⟨hitems, hfits⟩
        cases events with
        | nil => cases hitems
        | cons e more =>
          obtain ⟨heq, hrest⟩ := List.cons.inj hitems
          obtain rfl := BatchItem.event.inj heq
          obtain ⟨hevent, hfits⟩ := (fits_cons_iff ..).mp hfits
          rw [preflightFrom, hevent]
          exact (Preflighted.push_ready_iff ..).mpr ⟨more, (ih _ _).mpr ⟨hrest, hfits⟩, rfl⟩

/-- A batch in the order of one ledger, behind a checkpoint. -/
structure InOrder (checkpoint : ℤ) (events : List StoredEvent) : Prop where
  plain : ∀ e ∈ events, plainEvent e = true
  behind : ∀ e ∈ events, checkpoint < e.globalPosition
  follows : events.Pairwise Follows

theorem preflight_ready_iff (items : List BatchItem) (checkpoint : ℤ) (events : List StoredEvent) :
    preflight items checkpoint = .ready events ↔ items = events.map .event ∧ InOrder checkpoint events := by
  rw [preflight, preflightFrom_ready_iff]
  refine and_congr_right fun _ => ⟨fun h => ?_, fun h => ?_⟩
  · exact ⟨fun e he => (h.passes e he).plain, fun e he => (h.passes e he).marked, h.follows⟩
  · exact ⟨fun e he => ⟨h.plain e he, h.behind e he, h.behind e he, List.not_mem_nil, fun _ hlast => by simp at hlast⟩,
      h.follows⟩

/-! ### What a fold does -/

/-- What a request that can be read asks for. -/
structure ProjectionFoldInput.Reads (request : ProjectionFoldInput) (start : ProjectionState) (point : ℤ)
    (reducers : ProjectionReducers) (upcaster : StoredEventUpcaster) : Prop where
  state : plainRecord request.state = some start
  checkpoint : normalizeCheckpoint request.checkpoint = some point
  reducers : request.reducers = some reducers
  upcaster : request.upcaster = some upcaster

theorem foldProjection_of_reads {request : ProjectionFoldInput} {start : ProjectionState} {point : ℤ}
    {reducers : ProjectionReducers} {upcaster : StoredEventUpcaster} (h : request.Reads start point reducers upcaster) :
    foldProjection request = match preflight request.events point with
      | .threw => .error unusableRequest
      | .denied issue => refuse issue start point
      | .ready events => reduceAll events start point reducers upcaster := by
  unfold foldProjection
  rw [h.state, h.checkpoint, h.reducers, h.upcaster]

theorem foldProjection_unread {request : ProjectionFoldInput}
    (h : ∀ start point reducers upcaster, ¬ request.Reads start point reducers upcaster) :
    foldProjection request = .error unusableRequest := by
  unfold foldProjection
  split
  · rename_i start point reducers upcaster hstate hcheckpoint hreducers hupcaster
    exact absurd ⟨hstate, hcheckpoint, hreducers, hupcaster⟩ (h start point reducers upcaster)
  · rfl

/-- A successful fold is the left fold of the batch, up to its last position. -/
theorem foldProjection_ok_iff (request : ProjectionFoldInput) (r : ProjectionFolded) :
    foldProjection request = .ok r ↔ ∃ start point reducers upcaster, request.Reads start point reducers upcaster
      ∧ ∃ events : List StoredEvent, request.events = events.map .event ∧ InOrder point events
        ∧ events.foldlM (applyEvent reducers upcaster) start = .ok r.state
        ∧ r.checkpoint = (events.getLast?.map StoredEvent.globalPosition).getD point := by
  constructor
  · intro h
    by_cases hreads : ∃ start point reducers upcaster, request.Reads start point reducers upcaster
    · obtain ⟨start, point, reducers, upcaster, hreads⟩ := hreads
      refine ⟨start, point, reducers, upcaster, hreads, ?_⟩
      rw [foldProjection_of_reads hreads] at h
      split at h
      · cases h
      · cases h
      · rename_i events hpreflight
        obtain ⟨hitems, horder⟩ := (preflight_ready_iff _ _ _).mp hpreflight
        unfold reduceAll at h
        split at h
        · cases h
        · rename_i state hfold
          obtain rfl := Except.ok.inj h
          exact ⟨events, hitems, horder, hfold, rfl⟩
    · rw [foldProjection_unread fun start point reducers upcaster h => hreads ⟨start, point, reducers, upcaster, h⟩] at h
      cases h
  · rintro ⟨start, point, reducers, upcaster, hreads, events, hitems, horder, hfold, hcheckpoint⟩
    obtain ⟨checkpoint, state⟩ := r
    rw [foldProjection_of_reads hreads, (preflight_ready_iff _ _ _).mpr ⟨hitems, horder⟩]
    dsimp only [reduceAll]
    rw [hfold]
    exact congrArg _ (congrArg (ProjectionFolded.mk · state) hcheckpoint.symm)

theorem event_injective : Function.Injective BatchItem.event := fun _ _ h => BatchItem.event.inj h

/-- The fold of a request with the types of the contract. -/
theorem foldProjection_plain_iff (checkpoint : ℤ) (events : List StoredEvent) (reducers : ProjectionReducers)
    (state : ProjectionState) (upcaster : StoredEventUpcaster) (r : ProjectionFolded) :
    foldProjection (.plain checkpoint events reducers state upcaster) = .ok r ↔ 0 ≤ checkpoint ∧ InOrder checkpoint events
      ∧ events.foldlM (applyEvent reducers upcaster) state = .ok r.state
      ∧ r.checkpoint = (events.getLast?.map StoredEvent.globalPosition).getD checkpoint := by
  rw [foldProjection_ok_iff]
  constructor
  · rintro ⟨start, point, reducers', upcaster', ⟨hstate, hpoint, hreducers, hupcaster⟩, events', hitems, h⟩
    obtain rfl := Option.some.inj ((plainRecord_rawState state).symm.trans hstate)
    rw [ProjectionFoldInput.plain, normalizeCheckpoint_rawCheckpoint] at hpoint
    split at hpoint
    · rename_i hnonneg
      obtain rfl := Option.some.inj hpoint
      obtain rfl := Option.some.inj hreducers
      obtain rfl := Option.some.inj hupcaster
      obtain rfl := event_injective.list_map hitems
      exact ⟨hnonneg, h⟩
    · cases hpoint
  · rintro ⟨hnonneg, h⟩
    exact ⟨state, checkpoint, reducers, upcaster,
      ⟨plainRecord_rawState state, (normalizeCheckpoint_rawCheckpoint checkpoint).trans (if_pos hnonneg), rfl, rfl⟩,
      events, rfl, h⟩

/-! ### Reducers that do not observe the key order -/

def ReducerOutcome.canonical : ReducerOutcome → ReducerOutcome
  | .next state => .next (canonicalState state)
  | .notPlain => .notPlain
  | .threw => .threw

/-- No reducer tells a state from its canonical clone, which differs in the order of the keys only. -/
def KeyOrderBlind (reducers : ProjectionReducers) : Prop :=
  ∀ eventType reducer, reducers eventType = some reducer →
    ∀ state event, (reducer (canonicalState state) event).canonical = (reducer state event).canonical

theorem KeyOrderBlind.applyEvent {reducers : ProjectionReducers} (h : KeyOrderBlind reducers)
    (upcaster : StoredEventUpcaster) : Blind (applyEvent reducers upcaster) canonicalState := by
  intro state event
  unfold MoeNG.Projections.applyEvent
  cases upcastOne upcaster event with
  | error issue => rfl
  | ok current =>
    show (reduceOne reducers (canonicalState state) current).map canonicalState =
      (reduceOne reducers state current).map canonicalState
    unfold reduceOne
    cases hreducer : reducers current.eventType with
    | none => rfl
    | some reducer =>
      have hblind := h current.eventType reducer hreducer state current
      cases hleft : reducer (canonicalState state) current <;> cases hright : reducer state current <;>
        simp_all [ReducerOutcome.canonical, Except.map]

end MoeNG.Projections
