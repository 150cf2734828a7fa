import MoeNG.Lib.Run
import MoeNG.Projections.Fold

/-!
# Folding in batches (`projection-fold.ts:153-250`)

The gate accepts a batch exactly when its events stand in the order of one
ledger behind the checkpoint, so a batch that it accepts may be cut anywhere. A
refusal echoes what the request asks to start from, unless that or the rest of
the request cannot be read.
-/

namespace MoeNG.Projections
open MoeNG.Kernel MoeNG.Lib

/-! ### Cutting a batch -/

def reached (checkpoint : ℤ) (events : List StoredEvent) : ℤ := (events.getLast?.map StoredEvent.globalPosition).getD checkpoint

theorem reached_append (checkpoint : ℤ) (first second : List StoredEvent) :
    reached checkpoint (first ++ second) = reached (reached checkpoint first) second := by
  unfold reached
  rw [List.getLast?_append]
  cases second.getLast? <;> rfl

theorem InOrder.reached_nonneg {checkpoint : ℤ} {events : List StoredEvent} (h : InOrder checkpoint events)
    (hcheckpoint : 0 ≤ checkpoint) : 0 ≤ reached checkpoint events := by
  unfold reached
  cases hlast : events.getLast? with
  | none => exact hcheckpoint
  | some e => exact (hcheckpoint.trans_lt (h.behind e (List.mem_of_getLast? hlast))).le

theorem InOrder.left {checkpoint : ℤ} {first second : List StoredEvent} (h : InOrder checkpoint (first ++ second)) :
    InOrder checkpoint first where
  plain e he := h.plain e (List.mem_append_left _ he)
  behind e he := h.behind e (List.mem_append_left _ he)
  follows := (List.pairwise_append.mp h.follows).1

theorem InOrder.right {checkpoint : ℤ} {first second : List StoredEvent} (h : InOrder checkpoint (first ++ second)) :
    InOrder (reached checkpoint first) second where
  plain e he := h.plain e (List.mem_append_right _ he)
  behind e he := by
    unfold reached
    cases hlast : first.getLast? with
    | none => exact h.behind e (List.mem_append_right _ he)
    | some last => exact ((List.pairwise_append.mp h.follows).2.2 last (List.mem_of_getLast? hlast) e he).position
  follows := (List.pairwise_append.mp h.follows).2.1

/-! ### What a fold answers -/

/-- Every event is upcast and handed to the reducer of its type, once and in its turn. -/
inductive Applied (reducers : ProjectionReducers) (upcaster : StoredEventUpcaster) :
    ProjectionState → List StoredEvent → ProjectionState → Prop
  | nil (state : ProjectionState) : Applied reducers upcaster state [] state
  | cons {state next final : ProjectionState} {event current : StoredEvent} {rest : List StoredEvent}
      {reducer : ProjectionReducer} :
    upcaster event = .upcast current → reducers current.eventType = some reducer → reducer state current = .next next →
    Applied reducers upcaster next rest final → Applied reducers upcaster state (event :: rest) final

theorem applyEvent_ok {reducers : ProjectionReducers} {upcaster : StoredEventUpcaster} {state next : ProjectionState}
    {event : StoredEvent} (h : applyEvent reducers upcaster state event = .ok next) :
    ∃ current reducer, upcaster event = .upcast current ∧ reducers current.eventType = some reducer
      ∧ reducer state current = .next next := by
  obtain ⟨current, hupcast, hreduce⟩ := except_bind_ok _ _ _ h
  refine ⟨current, ?_⟩
  unfold upcastOne at hupcast
  split at hupcast
  · rename_i hevent
    obtain rfl := Except.ok.inj hupcast
    unfold reduceOne at hreduce
    dsimp only at hreduce
    split at hreduce
    · cases hreduce
    rename_i reducer hreducer
    split at hreduce
    · cases hreduce
    · cases hreduce
    · rename_i hnext
      obtain rfl := Except.ok.inj hreduce
      exact ⟨reducer, hevent, hreducer, hnext⟩
  · cases hupcast
  · cases hupcast

theorem applied_of_foldlM {reducers : ProjectionReducers} {upcaster : StoredEventUpcaster} (events : List StoredEvent)
    {state final : ProjectionState} (h : events.foldlM (applyEvent reducers upcaster) state = .ok final) :
    Applied reducers upcaster state events final := by
  induction events generalizing state with
  | nil =>
    obtain rfl := Except.ok.inj h
    exact Applied.nil state
  | cons event rest ih =>
    rw [List.foldlM_cons] at h
    obtain ⟨next, hnext, hrest⟩ := except_bind_ok _ _ _ h
    obtain ⟨current, reducer, hupcast, hreducer, hreduce⟩ := applyEvent_ok hnext
    exact Applied.cons hupcast hreducer hreduce (ih hrest)

theorem reduceAll_refused {events : List StoredEvent} {start : ProjectionState} {point : ℤ} {reducers : ProjectionReducers}
    {upcaster : StoredEventUpcaster} {refusal : ProjectionFoldRefusal}
    (h : reduceAll events start point reducers upcaster = .error refusal) :
    refusal.state = start ∧ refusal.checkpoint = point := by
  unfold reduceAll at h
  split at h
  · obtain rfl := Except.error.inj h
    exact ⟨rfl, rfl⟩
  · cases h

/-- The batch cannot be read, and nothing before that refuses it. -/
def Unreadable (point : ℤ) (items : List BatchItem) : Prop :=
  ∃ events rest, items = events.map .event ++ .hostile :: rest ∧ InOrder point events

theorem preflightFrom_threw_iff (mark : ℤ) (seen : Preflight) (items : List BatchItem) :
    preflightFrom mark seen items = .threw
      ↔ ∃ events rest, items = events.map .event ++ .hostile :: rest ∧ Fits mark seen events := by
  induction items generalizing seen with
  | nil => exact ⟨nofun, fun ⟨events, _, h, _⟩ => by cases events <;> cases h⟩
  | cons item items ih =>
    cases item with
    | hostile => exact ⟨fun _ => ⟨[], items, rfl, nofun, List.Pairwise.nil⟩, fun _ => rfl⟩
    | malformed => exact ⟨nofun, fun ⟨events, _, h, _⟩ => by cases events <;> cases h⟩
    | event event =>
      constructor
      · intro h
        rw [preflightFrom] at h
        split at h
        · cases h
        · rename_i hevent
          have hthrew : preflightFrom mark (seen.record event) items = .threw := by
            cases hitems : preflightFrom mark (seen.record event) items <;> rw [hitems] at h <;> first | rfl | cases h
          obtain ⟨events, rest, hitems, hfits⟩ := (ih _).mp hthrew
          exact ⟨event :: events, rest, congrArg (List.cons (.event event)) hitems, (fits_cons_iff ..).mpr ⟨hevent, hfits⟩⟩
      · rintro ⟨events, rest, hitems, hfits⟩
        cases events with
        | nil => cases hitems
        | cons e events =>
          obtain ⟨heq, hmore⟩ := List.cons.inj hitems
          obtain rfl := BatchItem.event.inj heq
          obtain ⟨hevent, hfits⟩ := (fits_cons_iff ..).mp hfits
          rw [preflightFrom, hevent]
          dsimp only
          rw [(ih _).mpr ⟨events, rest, hmore, hfits⟩]
          rfl

theorem preflight_threw_iff (items : List BatchItem) (point : ℤ) :
    preflight items point = .threw ↔ Unreadable point items := by
  rw [preflight, preflightFrom_threw_iff]
  refine exists_congr fun events => exists_congr fun _ => and_congr_right fun _ => ?_
  have hready := preflight_ready_iff (events.map .event) point events
  rw [preflight, preflightFrom_ready_iff] at hready
  simpa using hready

/-- State, checkpoint and wiring can be read, and so can the batch up to what refuses it. -/
structure ProjectionFoldInput.Usable (request : ProjectionFoldInput) (start : ProjectionState) (point : ℤ) : Prop where
  reads : ∃ reducers upcaster, request.Reads start point reducers upcaster
  batch : ¬ Unreadable point request.events

theorem foldProjection_refused {request : ProjectionFoldInput} {refusal : ProjectionFoldRefusal}
    (h : foldProjection request = .error refusal) {start : ProjectionState} {point : ℤ} (husable : request.Usable start point) :
    refusal.state = start ∧ refusal.checkpoint = point := by
  obtain ⟨reducers, upcaster, hreads⟩ := husable.reads
  rw [foldProjection_of_reads hreads] at h
  split at h
  · rename_i hthrew
    exact absurd ((preflight_threw_iff _ _).mp hthrew) husable.batch
  · obtain rfl := Except.error.inj h
    exact ⟨rfl, rfl⟩
  · exact reduceAll_refused h

theorem foldProjection_unusable {request : ProjectionFoldInput} (h : ∀ start point, ¬ request.Usable start point) :
    foldProjection request = .error unusableRequest := by
  by_cases hreads : ∃ start point reducers upcaster, request.Reads start point reducers upcaster
  · obtain ⟨start, point, reducers, upcaster, hreads⟩ := hreads
    have hthrew : preflight request.events point = .threw :=
      (preflight_threw_iff _ _).mpr (not_not.mp fun hbatch => h start point ⟨⟨reducers, upcaster, hreads⟩, hbatch⟩)
    rw [foldProjection_of_reads hreads, hthrew]
  · exact foldProjection_unread fun start point reducers upcaster h => hreads ⟨start, point, reducers, upcaster, h⟩

/-! ### The law of the fold -/

/-- A batch may be cut anywhere; a success has applied every event in its turn; a refusal echoes
what it was asked to start from, if the request can be read. -/
structure FoldLaw (request : ProjectionFoldInput) : Prop where
  batches : ∀ first second r, request.events = first ++ second → foldProjection request = .ok r →
    ∃ mid, foldProjection { request with events := first } = .ok mid
      ∧ foldProjection { request with
          events := second, state := rawState mid.state, checkpoint := rawCheckpoint mid.checkpoint } = .ok r
  applied : ∀ r, foldProjection request = .ok r → ∃ start point reducers upcaster,
    request.Reads start point reducers upcaster ∧ ∃ events : List StoredEvent, request.events = events.map .event
      ∧ Applied reducers upcaster start events r.state
      ∧ (events.map StoredEvent.globalPosition).Pairwise (· < ·) ∧ (∀ e ∈ events, point < e.globalPosition)
      ∧ r.checkpoint = (events.getLast?.map StoredEvent.globalPosition).getD point
  refused : ∀ refusal, foldProjection request = .error refusal → ∀ start point, request.Usable start point →
    refusal.state = start ∧ refusal.checkpoint = point
  unusable : (∀ start point, ¬ request.Usable start point) → ∃ refusal, foldProjection request = .error refusal
    ∧ refusal.code = .PROJECTION_FOLD_INPUT_INVALID ∧ refusal.state = [] ∧ refusal.checkpoint = 0

theorem foldProjection_law (request : ProjectionFoldInput) : FoldLaw request where
  batches first second r hevents h := by
    obtain ⟨start, point, reducers, upcaster, hreads, events, hitems, horder, hfold, hcheckpoint⟩ :=
      (foldProjection_ok_iff request r).mp h
    obtain ⟨before, later, rfl, rfl, rfl⟩ := List.map_eq_append_iff.mp (hitems.symm.trans hevents)
    rw [List.foldlM_append] at hfold
    obtain ⟨state, hfirst, hsecond⟩ := except_bind_ok _ _ _ hfold
    have hnonneg := horder.left.reached_nonneg (normalizeCheckpoint_nonneg _ _ hreads.checkpoint)
    refine ⟨⟨reached point before, state⟩, ?_, ?_⟩
    · exact (foldProjection_ok_iff _ _).mpr ⟨start, point, reducers, upcaster,
        ⟨hreads.state, hreads.checkpoint, hreads.reducers, hreads.upcaster⟩, before, rfl, horder.left, hfirst, rfl⟩
    · refine (foldProjection_ok_iff _ _).mpr ⟨state, reached point before, reducers, upcaster,
        ⟨plainRecord_rawState state, (normalizeCheckpoint_rawCheckpoint _).trans (if_pos hnonneg), hreads.reducers,
          hreads.upcaster⟩, later, rfl, horder.right, hsecond, ?_⟩
      exact hcheckpoint.trans (reached_append point before later)
  applied r h := by
    obtain ⟨start, point, reducers, upcaster, hreads, events, hitems, horder, hfold, hcheckpoint⟩ :=
      (foldProjection_ok_iff request r).mp h
    refine ⟨start, point, reducers, upcaster, hreads, events, hitems, applied_of_foldlM _ hfold, ?_, horder.behind, hcheckpoint⟩
    exact List.pairwise_map.mpr (horder.follows.imp fun hab => hab.position)
  refused _ h _ _ husable := foldProjection_refused h husable
  unusable h := ⟨_, foldProjection_unusable h, rfl, rfl, rfl⟩

/-- A request whose state has an own key `__proto__`, and one that starts before the origin, are not echoed. -/
theorem foldProjection_unechoed :
    foldProjection ⟨rawCheckpoint 5, [], some fun _ => none, .object .plain [(.string (lit "__proto__"),
      some (.number (lit "1")))],
        some .upcast⟩ = .error unusableRequest
      ∧ foldProjection (.plain (-1) [] (fun _ => none) [] .upcast) = .error unusableRequest
      ∧ unusableRequest.checkpoint ≠ 5 ∧ unusableRequest.checkpoint ≠ -1 :=
  ⟨rfl, rfl, by decide, by decide⟩

end MoeNG.Projections
