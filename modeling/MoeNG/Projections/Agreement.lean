import MoeNG.Lib.Run
import MoeNG.Projections.Rebuild

/-!
# Incremental relay and rebuild agree

One caller relays messages into one projection of a fresh store, each time with
the state and checkpoint it last got back. Nobody else writes the ledger.
-/

namespace MoeNG.Projections
open MoeNG.Kernel MoeNG.Lib MoeNG.Store

/-- What relay and rebuild are both given. -/
structure Projection where
  name : JsString
  reducers : ProjectionReducers
  state : Option ProjectionState
  upcaster : StoredEventUpcaster

def Projection.origin (p : Projection) : ProjectionState := p.state.getD []

def Projection.rebuild (p : Projection) (pageLimit : Option ℤ) : ProjectionRebuildRequest :=
  ⟨p.name, pageLimit, p.reducers, p.state, p.upcaster⟩

structure Inbound where
  commit : CommitInput
  consumerId : JsString
  message : RelayMessage

/-- The tables, what the caller last got back, and the messages that were applied. -/
structure Relaying where
  db : Database
  state : ProjectionState
  checkpoint : ℤ
  applied : List (JsString × JsString)

def Projection.fresh (p : Projection) : Relaying := ⟨.empty, p.origin, 0, []⟩

def Projection.request (p : Projection) (r : Relaying) (inbound : Inbound) : OutboxRelayRequest :=
  ⟨inbound.commit, inbound.consumerId, inbound.message, ⟨r.checkpoint, p.name, p.reducers, r.state, p.upcaster⟩⟩

section Agreement
variable (sha256 : List Byte → JsString) (p : Projection)

def relayed (r : Relaying) (inbound : Inbound) : Relaying :=
  match relayMessage sha256 r.db (p.request r inbound) with
  | (db, .APPLIED applied) =>
    ⟨db, applied.state, applied.checkpoint, (inbound.consumerId, inbound.message.messageId) :: r.applied⟩
  | (db, _) => { r with db := db }

/-- The row is the fold of the whole ledger, which the caller holds too. -/
structure Agreed (r : Relaying) : Prop where
  sound : Sound r.db
  fold : ∃ s, foldThrough p.reducers p.upcaster p.origin r.db.events r.db.events.rows.length = .ok s
    ∧ canonicalState s = canonicalState r.state
  checkpoint : r.checkpoint = r.db.events.rows.length
  row : r.db.projections.get p.name =
    if r.db.events.rows = [] then none else some ⟨r.db.events.rows.length, some (stateDigest sha256 r.state)⟩
  canonical : r.db.events.rows ≠ [] → canonicalState r.state = r.state
  applied : r.applied.Nodup
  recorded : ∀ key ∈ r.applied, r.db.inbox.get key ≠ none

theorem Agreed.fresh : Agreed sha256 p p.fresh where
  sound := Sound.empty
  fold := ⟨p.origin, foldThrough_zero _ _ _ _, rfl⟩
  checkpoint := rfl
  row := rfl
  canonical := fun h => absurd rfl h
  applied := List.nodup_nil
  recorded := nofun

theorem relayed_cases (r : Relaying) (inbound : Inbound) :
    relayed sha256 p r inbound = r ∨
      ∃ plan written next receipt events folded applied,
        RelayRun sha256 r.db (p.request r inbound) plan written next receipt events folded applied
          ∧ relayed sha256 p r inbound =
            ⟨next, applied.state, applied.checkpoint, (inbound.consumerId, inbound.message.messageId) :: r.applied⟩ := by
  unfold relayed
  obtain ⟨hdb, hunapplied⟩ | ⟨plan, written, next, receipt, events, folded, applied, heq, hrun⟩ :=
    relayMessage_cases sha256 r.db (p.request r inbound)
  · left
    generalize relayMessage sha256 r.db (p.request r inbound) = outcome at hdb hunapplied
    obtain ⟨db, result⟩ := outcome
    obtain rfl : db = r.db := hdb
    cases result with
    | APPLIED applied => exact absurd rfl (hunapplied applied)
    | unapplied rolled => rfl
    | threw e => rfl
  · right
    rw [heq]
    exact ⟨plan, written, next, receipt, events, folded, applied, hrun, rfl⟩

variable {sha256 p}

/-- The batch of an applied message is everything its command appended. -/
theorem RelayRun.appended {db : Database} {request : OutboxRelayRequest} {plan : RelayPlan} {written next : Database}
    {receipt : CommandReceipt} {events : List StoredEvent} {folded : ProjectionFolded} {applied : OutboxRelayApplied}
    (hrun : RelayRun sha256 db request plan written next receipt events folded applied) (hs : Sound db) :
    ∃ more, 0 < more ∧ next.events.rows.length = db.events.rows.length + more ∧ db.events.Extends next.events
      ∧ events = next.events.stretch db.events.rows.length more ∧ Sound next := by
  obtain ⟨hwritten, -, -⟩ := writeCommitEffects_ok _ _ _ _ _ _ hrun.commits
  have hsound := hs.written hrun.commits
  have hown : Written db plan.commit receipt.requestSha256 receipt.previousVersion written receipt := by
    rw [hwritten.requestSha256, hwritten.previousVersion]
    exact hwritten
  have hevents := materializeEvents_written db written plan ⟨receipt, .COMMITTED⟩ hs hrun.fresh hown
  rw [hrun.materialized, Except.ok.injEq] at hevents
  have hrows := hrun.effect.events
  have hextends : db.events.Extends next.events := by
    rw [hrows]
    exact ⟨_, hwritten.rows.symm⟩
  obtain ⟨more, hmore⟩ := Nat.exists_eq_add_of_le hextends.length_le
  have hstretch : events = next.events.stretch db.events.rows.length more := by
    rw [hevents, EventTable.stretch, hrows, List.take_of_length_le]
    rw [List.length_drop, ← hrows, hmore]
    omega
  refine ⟨more, ?_, hmore, hextends, hstretch, ?_⟩
  · refine Nat.pos_of_ne_zero fun hzero => materializeEvents_ne_nil _ _ _ _ hrun.materialized ?_
    rw [hstretch, hzero, EventTable.stretch, List.take_zero, List.map_nil]
  · exact ⟨by rw [hrows]; exact hsound.orderly, by rw [hrows, hrun.effect.receipts]; exact hsound.receipts⟩

/-- One message keeps the agreement. -/
theorem Agreed.relayed (hblind : KeyOrderBlind p.reducers) {r : Relaying} (hr : Agreed sha256 p r) (inbound : Inbound) :
    Agreed sha256 p (relayed sha256 p r inbound) := by
  obtain heq | ⟨plan, written, next, receipt, events, folded, applied, hrun, heq⟩ := relayed_cases sha256 p r inbound
  · rw [heq]
    exact hr
  rw [heq]
  obtain ⟨more, hmore, hlength, hextends, hevents, hsound⟩ := hrun.appended hr.sound
  obtain ⟨-, -, hfold, hcheckpoint⟩ := (foldProjection_plain_iff ..).mp hrun.effect.fold
  obtain ⟨s, hs, hstate⟩ := hr.fold
  rw [← foldThrough_extends p.reducers p.upcaster p.origin hextends _ le_rfl] at hs
  have hresume := foldThrough_resume p.upcaster p.origin hblind next.events _ more hlength.ge s plan.priorState hs
    (by rw [hrun.planned.priorState, canonicalState_idem]; exact hstate.symm)
  rw [hevents, hrun.planned.reducers, hrun.planned.upcaster] at hfold
  dsimp only [Projection.request] at hfold
  rw [hfold] at hresume
  obtain ⟨s', hs', hnormal⟩ := except_map_ok _ _ _ hresume.symm
  rw [← hlength] at hs'
  have hposition : folded.checkpoint = next.events.rows.length := by
    rw [hcheckpoint, hevents, next.events.stretch_last _ more hlength.ge hmore, Option.getD_some, hlength]
  have hrows : next.events.rows ≠ [] := by
    rw [← List.length_pos_iff]
    omega
  have hname : plan.name = p.name := hrun.planned.name
  have hkey : (plan.consumerId, plan.messageId) = (inbound.consumerId, inbound.message.messageId) := by
    rw [hrun.planned.consumerId, hrun.planned.messageId]
    rfl
  refine ⟨hsound, ⟨s', hs', ?_⟩, ?_, ?_, fun _ => ?_, ?_, ?_⟩
  · rw [hrun.effect.state, canonicalState_idem]
    exact hnormal.symm
  · rw [hrun.effect.checkpoint]
    exact hposition
  · dsimp only
    rw [hrun.effect.projections, if_neg hrows, OrdMap.get_set, hname, if_pos rfl, hposition, hrun.effect.state,
      stateDigest_canonicalState]
  · rw [hrun.effect.state, canonicalState_idem]
  · refine List.nodup_cons.mpr ⟨fun hmem => ?_, hr.applied⟩
    have hfresh := hrun.effect.fresh
    obtain ⟨hwritten, -, -⟩ := writeCommitEffects_ok _ _ _ _ _ _ hrun.commits
    rw [hkey, hwritten.inbox] at hfresh
    exact hr.recorded _ hmem hfresh
  · intro key hmem
    dsimp only
    obtain ⟨hwritten, -, -⟩ := writeCommitEffects_ok _ _ _ _ _ _ hrun.commits
    rw [hrun.effect.inbox, OrdMap.get_set, hkey, hwritten.inbox]
    split
    · exact Option.some_ne_none _
    · rename_i hne
      exact hr.recorded key (List.mem_of_ne_of_mem hne hmem)

theorem agreed_run (hblind : KeyOrderBlind p.reducers) (history : List Inbound) :
    Agreed sha256 p (run (Projections.relayed sha256 p) p.fresh history) :=
  run_invariant _ (Agreed sha256 p) (fun _ inbound hr => hr.relayed hblind inbound) _ (Agreed.fresh sha256 p) history

/-! ### The rebuild of what was relayed -/

variable {plan : RebuildPlan} {pageLimit : Option ℤ} {r : Relaying}

theorem walk_ended (fuel : ℕ) (db : Database) (result : ProjectionRebuildResult) :
    walk sha256 plan fuel db (.ended result) = some (db, result) := by
  cases fuel <;> rfl

/-- The write at the end of the ledger finds the row that the relay left. -/
theorem Agreed.persist_eq (hr : Agreed sha256 p r) (hrows : r.db.events.rows ≠ []) :
    persist r.db p.name ⟨some (stateDigest sha256 r.state), r.db.events.rows.length⟩ r.db.events.rows.length
        (stateDigest sha256 r.state) =
      .ok (r.db, ⟨some (stateDigest sha256 r.state), r.db.events.rows.length⟩) := by
  have hrow := hr.row
  rw [if_neg hrows] at hrow
  have hexpected : ∀ row, r.db.projections.get p.name = some row →
      row.lastAppliedPosition = r.db.events.rows.length ∧ row.stateDigest = some (stateDigest sha256 r.state) := by
    intro row hget
    rw [hrow] at hget
    obtain rfl := Option.some.inj hget
    exact ⟨rfl, rfl⟩
  obtain ⟨-, -, heq⟩ | ⟨hother | hahead, -⟩ := persist_cases r.db p.name
    ⟨some (stateDigest sha256 r.state), r.db.events.rows.length⟩ r.db.events.rows.length (stateDigest sha256 r.state)
  · rw [heq, OrdMap.set_get _ _ _ hrow]
  · exact absurd hexpected hother
  · exact absurd (fun row hget => ⟨(hexpected row hget).1.le, fun _ => (hexpected row hget).2⟩) hahead

/-- From anywhere behind the end, the walk folds up to it and finds the row unchanged: two steps for an event do. -/
theorem Agreed.walk_read (hblind : KeyOrderBlind p.reducers) (hr : Agreed sha256 p r)
    (hplan : RebuildPlanOf sha256 plan (p.rebuild pageLimit)) (n : ℕ) (carried : Progress)
    (hc : Carries sha256 plan p.origin r.db.events carried n) (hn : n < r.db.events.rows.length) :
    ∃ pages, ∀ fuel, 2 * (r.db.events.rows.length - n) ≤ fuel →
      walk sha256 plan fuel r.db (.read ⟨some (stateDigest sha256 r.state), r.db.events.rows.length⟩
          r.db.events.rows.length carried false) =
        some (r.db, .REBUILT ⟨r.db.events.rows.length, pages, canonicalState r.state, stateDigest sha256 r.state⟩) := by
  induction hleft : r.db.events.rows.length - n using Nat.strong_induction_on generalizing n carried with
  | _ left ih =>
    have hplanBlind : KeyOrderBlind plan.reducers := by
      rw [hplan.reducers]
      exact hblind
    have hrows : r.db.events.rows ≠ [] := List.ne_nil_of_length_pos (by omega)
    obtain ⟨s, hs, hstate⟩ := hr.fold
    have hfolds : foldThrough plan.reducers plan.upcaster p.origin r.db.events r.db.events.rows.length = .ok s := by
      rw [hplan.reducers, hplan.upcaster]
      exact hs
    obtain ⟨hend, -⟩ | ⟨j, hj, hle, -, hread⟩ := readPage_eq sha256 plan r.db
      ⟨some (stateDigest sha256 r.state), r.db.events.rows.length⟩ r.db.events.rows.length carried false n hc.position
      hc.within hplan.pageLimit
    · omega
    obtain ⟨next, hnext⟩ := hc.foldPage_eq hplanBlind hr.sound.orderly j hle
      (foldThrough_initial _ _ _ _ (n + j) hle s hfolds)
    have hcarries := hc.foldPage_ok hplanBlind j hj hle next hnext
    rw [hnext] at hread
    dsimp only at hread
    obtain hbehind | hlast := Nat.lt_or_ge (n + j) r.db.events.rows.length
    · obtain ⟨pages, hwalk⟩ := ih _ (by omega) (n + j) next hcarries hbehind rfl
      refine ⟨pages, fun fuel hfuel => ?_⟩
      obtain ⟨rest, rfl⟩ := Nat.exists_eq_add_of_lt (show 0 < fuel by omega)
      have hstep : walkStep sha256 plan r.db (.read ⟨some (stateDigest sha256 r.state), r.db.events.rows.length⟩
          r.db.events.rows.length carried false) = (r.db, .read ⟨some (stateDigest sha256 r.state),
            r.db.events.rows.length⟩ r.db.events.rows.length next false) := by
        dsimp only [walkStep]
        rw [hread, afterPage, if_neg (by rw [hcarries.position]; omega), if_pos (by simpa using hbehind)]
      unfold walk
      rw [hstep]
      exact hwalk _ (by omega)
    · obtain hend : n + j = r.db.events.rows.length := by omega
      obtain ⟨s', hs', hnextState, hnextDigest⟩ := hcarries.fold
      rw [hend, hfolds] at hs'
      obtain rfl := Except.ok.inj hs'
      rw [hstate] at hnextState
      rw [stateDigest_congr sha256 hstate] at hnextDigest
      have hposition := hcarries.position
      rw [hend] at hposition
      refine ⟨next.pages, fun fuel hfuel => ?_⟩
      obtain ⟨rest, rfl⟩ := Nat.exists_eq_add_of_lt (show 1 < fuel by omega)
      have hstep : walkStep sha256 plan r.db (.read ⟨some (stateDigest sha256 r.state), r.db.events.rows.length⟩
          r.db.events.rows.length carried false) = (r.db, .write ⟨some (stateDigest sha256 r.state),
            r.db.events.rows.length⟩ r.db.events.rows.length next false) := by
        dsimp only [walkStep]
        rw [hread, afterPage, if_pos (by rw [hposition]), decide_eq_false (by omega)]
      have hwrite : walkStep sha256 plan r.db (.write ⟨some (stateDigest sha256 r.state), r.db.events.rows.length⟩
          r.db.events.rows.length next false) = (r.db, rebuilt next) := by
        dsimp only [walkStep]
        rw [hposition, hnextDigest, hplan.name, show (p.rebuild pageLimit).name = p.name from rfl, hr.persist_eq hrows]
        rfl
      rw [show 1 + rest + 1 = (rest + 1) + 1 by omega]
      unfold walk
      rw [hstep]
      dsimp only
      unfold walk
      rw [hwrite]
      dsimp only
      rw [rebuilt, walk_ended, hposition, hnextState, hnextDigest]

/-- A ledger without events is rebuilt by inserting the row of the origin. -/
theorem Agreed.walk_empty (hr : Agreed sha256 p r) (hplan : RebuildPlanOf sha256 plan (p.rebuild pageLimit))
    (hrows : r.db.events.rows = []) (fuel : ℕ) (hfuel : 3 ≤ fuel) :
    walk sha256 plan fuel r.db .start =
      some ({ r.db with projections := r.db.projections.set p.name ⟨0, some (stateDigest sha256 p.origin)⟩ },
        .REBUILT ⟨0, 0, canonicalState p.origin, stateDigest sha256 p.origin⟩) := by
  have hrow := hr.row
  rw [if_pos hrows] at hrow
  have hname : plan.name = p.name := hplan.name
  obtain ⟨rest, rfl⟩ := Nat.exists_eq_add_of_le' hfuel
  have hstart : walkStep sha256 plan r.db .start =
      (r.db, .read originExpectation 0 ⟨plan.originDigest, 0, 0, plan.originState⟩ false) := by
    dsimp only [walkStep, readDurable]
    rw [hname, hrow]
    rfl
  have hread : walkStep sha256 plan r.db (.read originExpectation 0 ⟨plan.originDigest, 0, 0, plan.originState⟩ false) =
      (r.db, .close originExpectation ⟨plan.originDigest, 0, 0, plan.originState⟩) := by
    obtain ⟨-, heq⟩ | ⟨j, hj, hle, -⟩ := readPage_eq sha256 plan r.db originExpectation 0
      ⟨plan.originDigest, 0, 0, plan.originState⟩ false 0 rfl (Nat.zero_le _) hplan.pageLimit
    · dsimp only [walkStep]
      rw [heq]
      rfl
    · rw [hrows, List.length_nil] at hle
      omega
  have hclose : walkStep sha256 plan r.db (.close originExpectation ⟨plan.originDigest, 0, 0, plan.originState⟩) =
      ({ r.db with projections := r.db.projections.set p.name ⟨0, some (stateDigest sha256 p.origin)⟩ },
        rebuilt ⟨plan.originDigest, 0, 0, plan.originState⟩) := by
    dsimp only [walkStep]
    rw [hname, hplan.originDigest]
    obtain ⟨-, -, heq⟩ | ⟨hother | hahead, -⟩ := persist_cases r.db p.name originExpectation 0 (stateDigest sha256 p.origin)
    · rw [show stateDigest sha256 ((p.rebuild pageLimit).state.getD []) = stateDigest sha256 p.origin from rfl, heq]
    · exact absurd (fun row hget => by rw [hrow] at hget; cases hget) hother
    · exact absurd (fun row hget => by rw [hrow] at hget; cases hget) hahead
  unfold walk
  rw [hstart]
  dsimp only
  unfold walk
  rw [hread]
  dsimp only
  unfold walk
  rw [hclose]
  dsimp only
  rw [rebuilt, walk_ended, hplan.originState, hplan.originDigest]
  rfl

/-- The rebuild returns what the caller holds, and writes at most the row of an empty ledger. -/
theorem Agreed.rebuild (hblind : KeyOrderBlind p.reducers) (hr : Agreed sha256 p r)
    (hplan : planRebuild sha256 (p.rebuild pageLimit) = .ok plan) :
    ∃ pages, ∀ fuel, 2 * r.db.events.rows.length + 3 ≤ fuel →
      rebuildProjection sha256 fuel r.db (p.rebuild pageLimit) =
        some (if r.db.events.rows = [] then
            { r.db with projections := r.db.projections.set p.name ⟨0, some (stateDigest sha256 p.origin)⟩ } else r.db,
          .REBUILT ⟨r.checkpoint, pages, canonicalState r.state, stateDigest sha256 r.state⟩) := by
  have hof := planRebuild_ok sha256 plan _ hplan
  unfold rebuildProjection
  rw [hplan]
  dsimp only
  by_cases hrows : r.db.events.rows = []
  · obtain ⟨s, hs, hstate⟩ := hr.fold
    rw [hrows, List.length_nil, Nat.cast_zero, foldThrough_zero] at hs
    obtain rfl := Except.ok.inj hs
    refine ⟨0, fun fuel hfuel => ?_⟩
    rw [if_pos hrows, hr.walk_empty hof hrows fuel (by omega), hr.checkpoint, hrows, hstate,
      stateDigest_congr sha256 hstate]
    rfl
  · have hpositive := List.length_pos_iff.mpr hrows
    obtain ⟨pages, hwalk⟩ := hr.walk_read hblind hof 0 _ (Carries.start hof r.db.events) hpositive
    have hstart : walkStep sha256 plan r.db .start =
        (r.db, .read ⟨some (stateDigest sha256 r.state), r.db.events.rows.length⟩ r.db.events.rows.length
          ⟨plan.originDigest, 0, 0, plan.originState⟩ false) := by
      have hrow := hr.row
      rw [if_neg hrows] at hrow
      dsimp only [walkStep, readDurable]
      rw [hof.name, show (p.rebuild pageLimit).name = p.name from rfl, hrow]
      rfl
    refine ⟨pages, fun fuel hfuel => ?_⟩
    obtain ⟨rest, rfl⟩ := Nat.exists_eq_add_of_lt (show 0 < fuel by omega)
    unfold walk
    rw [hstart]
    dsimp only
    rw [if_neg hrows, hwalk _ (by omega), hr.checkpoint]

variable (sha256 p) (r)

/-- What holds of a store, its caller, and a rebuild of the same projection. -/
structure RebuildsTo : Prop where
  row : ∃ s, r.db.events.storedEvents.foldlM (applyEvent p.reducers p.upcaster) p.origin = .ok s
    ∧ (r.db.projections.get p.name =
      if r.db.events.rows = [] then none else some ⟨r.db.events.lastPosition, some (stateDigest sha256 s)⟩)
    ∧ canonicalState r.state = canonicalState s ∧ (r.db.events.rows ≠ [] → r.state = canonicalState s)
  checkpoint : r.checkpoint = r.db.events.lastPosition
  once : r.applied.Nodup
  unapplied : ∀ inbound, (∀ applied, (relayMessage sha256 r.db (p.request r inbound)).2 ≠ .APPLIED applied) →
    (relayMessage sha256 r.db (p.request r inbound)).1 = r.db
  rebuild : ∀ pageLimit plan, planRebuild sha256 (p.rebuild pageLimit) = .ok plan →
    ∃ pages, ∀ fuel, 2 * r.db.events.rows.length + 3 ≤ fuel →
      rebuildProjection sha256 fuel r.db (p.rebuild pageLimit) =
        some (if r.db.events.rows = [] then
            { r.db with projections := r.db.projections.set p.name ⟨0, some (stateDigest sha256 p.origin)⟩ } else r.db,
          .REBUILT ⟨r.checkpoint, pages, canonicalState r.state, stateDigest sha256 r.state⟩)

/-- Whatever was relayed, in whatever order: the row is the fold of the ledger, and a rebuild finds the same. -/
theorem relay_agrees_with_rebuild (hblind : KeyOrderBlind p.reducers) (history : List Inbound) :
    RebuildsTo sha256 p (run (relayed sha256 p) p.fresh history) := by
  have hr : Agreed sha256 p _ := agreed_run hblind history
  generalize run (relayed sha256 p) p.fresh history = r at hr
  obtain ⟨s, hs, hstate⟩ := hr.fold
  have hlast := r.db.events.lastPosition_eq
  refine ⟨⟨s, ?_, ?_, hstate.symm, fun hrows => ?_⟩, ?_, hr.applied, fun inbound hunapplied => ?_,
    fun pageLimit plan hplan => hr.rebuild hblind hplan⟩
  · rw [foldThrough, EventTable.through_length] at hs
    exact hs
  · rw [hr.row, hlast, stateDigest_congr sha256 hstate]
  · rw [hstate, hr.canonical hrows]
  · rw [hr.checkpoint, hlast]
  · obtain ⟨hdb, -⟩ | ⟨plan, written, next, receipt, events, folded, applied, heq, -⟩ :=
      relayMessage_cases sha256 r.db (p.request r inbound)
    · exact hdb
    · exact absurd (congrArg Prod.snd heq) (hunapplied applied)

end Agreement

/-! ### Two commands of one aggregate -/

def inbound (n : String) (expectedVersion : ℤ) (eventType : String) : Inbound where
  commit :=
    ⟨lit "aggregate-1", [], lit ("command-" ++ n), lit "2026-01-01T00:00:00.000Z",
      [⟨none, lit ("event-" ++ n), lit eventType, none, [], [], ⟨437, by decide⟩⟩], expectedVersion⟩
  consumerId := lit "consumer-1"
  message := ⟨none, lit ("message-" ++ n), [], lit "orders"⟩

def firstInbound : Inbound := inbound "1" 0 "keys.added"
def secondInbound : Inbound := inbound "2" 1 "first.kept"

def lastState (eventId : JsString) : ProjectionState := [(⟨lit "last", by decide⟩, .string eventId)]
def addedState : ProjectionState := [(⟨lit "z", by decide⟩, .null), (⟨lit "a", by decide⟩, .null)]
def firstState (key : JsString) : ProjectionState := [(⟨lit "first", by decide⟩, .string key)]

/-- The id of the last event. -/
def lastEvent : Projection where
  name := lit "last-event"
  reducers := fun _ => some fun _ event => .next (lastState event.eventId)
  state := none
  upcaster := .upcast

/-- Two keys are added, and then the first one is kept: it depends on the order they were added in. -/
def firstKey : Projection where
  name := lit "first-key"
  reducers := fun eventType =>
    if eventType = lit "keys.added" then some fun _ _ => .next addedState
    else some fun state _ => .next ((state.head?.map fun entry => firstState entry.1.val).getD [])
  state := none
  upcaster := .upcast

def requestText (expectedVersion : ℕ) : List Byte :=
  frameText commandRequestIdentityVersion ++ frameText (lit "aggregate-1") ++ frameBytes (bigEndian64 expectedVersion)
    ++ frameBytes []

def knownDigests : List (List Byte × JsString) :=
  [(requestText 0, lit "1601b46ee1c8f36a5d108eccaa1e7690019e5db2868ac60920654c132083eb1b"),
    (requestText 1, lit "ba0502c53a70ad5d16037bf73ca315a431e65db5c23893944280c87ff4a17783"),
    (inboxBytes firstInbound.consumerId firstInbound.message,
      lit "e3dfa2fd8b129833104ba8c0f9af05dd0d09a6161941c2e61eb78e53f3348d40"),
    (inboxBytes secondInbound.consumerId secondInbound.message,
      lit "3b202953117d20b0827620de8d1bed660689e7902e41d04ec3c350f8531b42d2"),
    (stateBytes [], lit "4f808dd7c10235950f7bb44ec0d676719add9a7daab41bfb4a9c1af841236b33"),
    (stateBytes addedState, lit "6f8018e69b02f10396e9fd9c859a281b8d7623a49661aa42fd5bc06b9c1aa9d0"),
    (stateBytes (firstState (lit "a")), lit "10a03b2c9a48c7c69af0de2ae66cd5fd404ed85b2575c97b7fb733d1af89bdbf"),
    (stateBytes (firstState (lit "z")), lit "1d5f4c4868711b9ccd69e3b6a87865368d134cf45083f95f4f6bb56c6cbcd599"),
    (stateBytes (lastState (lit "event-1")), lit "3758c001589328c1832e89ff78c938507a81b0c8ddbd8f4b07b3e45c2a456ba9"),
    (stateBytes (lastState (lit "event-2")), lit "0ae96373526c13033fa727fde8a69436550935ad1bfeb5963c95fec8ac6112ea")]

/-- SHA-256 on the texts hashed here. -/
def knownSha256 (bytes : List Byte) : JsString :=
  ((knownDigests.find? fun e => e.1 = bytes).map Prod.snd).getD []

theorem lastEvent_blind : KeyOrderBlind lastEvent.reducers := by
  intro eventType reducer hreducer state event
  obtain rfl := Option.some.inj hreducer
  rfl

theorem lastEvent_agrees :
    (run (relayed knownSha256 lastEvent) lastEvent.fresh [firstInbound, secondInbound, firstInbound]).applied.length = 2
      ∧ RebuildsTo knownSha256 lastEvent
        (run (relayed knownSha256 lastEvent) lastEvent.fresh [firstInbound, secondInbound, firstInbound]) :=
  ⟨by decide +kernel, relay_agrees_with_rebuild knownSha256 lastEvent lastEvent_blind _⟩

def ProjectionRebuildResult.refusal : ProjectionRebuildResult → Option ProjectionRebuildCode
  | .REFUSED refused => some refused.code
  | _ => none

/-- A store without events has no row, and a rebuild inserts one; and a projection that depends on the order of the keys
has another row after two messages than the fold of the ledger, so that the rebuild is refused. -/
theorem firstKey_drifts :
    firstKey.fresh.db.projections.get firstKey.name = none
      ∧ ((rebuildProjection knownSha256 3 firstKey.fresh.db (firstKey.rebuild none)).bind fun outcome =>
        outcome.1.projections.get firstKey.name) = some ⟨0, some (stateDigest knownSha256 [])⟩
      ∧ (run (relayed knownSha256 firstKey) firstKey.fresh [firstInbound, secondInbound]).applied.length = 2
      ∧ ((run (relayed knownSha256 firstKey) firstKey.fresh [firstInbound, secondInbound]).db.projections.get
        firstKey.name) = some ⟨2, some (lit "10a03b2c9a48c7c69af0de2ae66cd5fd404ed85b2575c97b7fb733d1af89bdbf")⟩
      ∧ ((run (relayed knownSha256 firstKey) firstKey.fresh [firstInbound, secondInbound]).db.events.storedEvents.foldlM
          (applyEvent firstKey.reducers firstKey.upcaster) firstKey.origin).toOption.map (stateDigest knownSha256) =
        some (lit "1d5f4c4868711b9ccd69e3b6a87865368d134cf45083f95f4f6bb56c6cbcd599")
      ∧ (rebuildProjection knownSha256 7
          (run (relayed knownSha256 firstKey) firstKey.fresh [firstInbound, secondInbound]).db
          (firstKey.rebuild none)).map (fun outcome => outcome.2.refusal) =
        some (some .PROJECTION_REBUILD_STATE_CONFLICT) := by
  refine ⟨by decide +kernel, by decide +kernel, by decide +kernel, by decide +kernel, by decide +kernel, by decide +kernel⟩

end MoeNG.Projections
