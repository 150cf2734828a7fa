import MoeNG.Projections.Append
import MoeNG.Projections.Relay
import MoeNG.Projections.RelaySpec

/-!
# The projection rebuild (`packages/store/src/projections/projection-rebuild.ts`)

One walk over the ledger in steps that other writers may come between: the
read of the durable row, the read and fold of a page, and the compare-and-set
of what was folded.
-/

namespace MoeNG.Projections
open MoeNG.Kernel MoeNG.Lib MoeNG.Store

/-! ### Contract (`projection-rebuild-contracts.ts:17-54`, `projection-rebuild.ts:27-57`) -/

structure ProjectionRebuildRequest where
  name : JsString
  pageLimit : Option ℤ
  reducers : ProjectionReducers
  state : Option ProjectionState
  upcaster : StoredEventUpcaster

inductive ProjectionRebuildLayer where
  | INPUT
  | PROJECTION
  | STATE
  deriving DecidableEq

inductive ProjectionRebuildCode where
  | PROJECTION_REBUILD_FOLD_REFUSED
  | PROJECTION_REBUILD_INPUT_INVALID
  | PROJECTION_REBUILD_STATE_CONFLICT
  | PROJECTION_REBUILD_WRITE_FAILED
  deriving DecidableEq

structure ProjectionRebuildFoldDetail where
  code : ProjectionFoldCode
  eventId : Option JsString
  layer : ProjectionFoldLayer
  deriving DecidableEq

structure ProjectionRebuildRefused where
  code : ProjectionRebuildCode
  detail : JsString
  fold : Option ProjectionRebuildFoldDetail
  layer : ProjectionRebuildLayer
  deriving DecidableEq

structure ProjectionRebuilt where
  checkpoint : ℤ
  pages : ℕ
  state : ProjectionState
  stateDigest : JsString

/-- A ledger read that throws is rethrown. -/
inductive ProjectionRebuildResult where
  | REBUILT (rebuilt : ProjectionRebuilt)
  | REFUSED (refused : ProjectionRebuildRefused)
  | threw (error : StoreError)

structure RebuildPlan where
  name : JsString
  originDigest : JsString
  originState : ProjectionState
  pageLimit : ℤ
  reducers : ProjectionReducers
  upcaster : StoredEventUpcaster

structure Expectation where
  digest : Option JsString
  position : ℤ
  deriving DecidableEq

structure Progress where
  digest : JsString
  pages : ℕ
  position : ℤ
  state : ProjectionState

def defaultPageLimit : ℤ := 100

def originExpectation : Expectation := ⟨none, 0⟩

abbrev Denied (α : Type) := Except ProjectionRebuildRefused α

/-! ### The durable row (`projection-rebuild.ts:115-215`) -/

def readDurable (db : Database) (name : JsString) : Option Expectation :=
  (db.projections.get name).map fun row => ⟨row.stateDigest, row.lastAppliedPosition⟩

def stateConflict {α : Type} (detail : JsString) : Denied α :=
  .error ⟨.PROJECTION_REBUILD_STATE_CONFLICT, detail, none, .STATE⟩

/-- The row that was observed is never adopted as the base: it only feeds these two refusals. -/
def durableConflict (observed : Option Expectation) (position : ℤ) (digest : JsString) : Option JsString :=
  observed.bind fun row =>
    if position < row.position then
      some (lit "durable checkpoint " ++ decimalInt row.position ++ lit " runs ahead of the rebuilt position "
        ++ decimalInt position)
    else if row.position = position ∧ row.digest ≠ some digest then
      some (lit "durable digest at position " ++ decimalInt position ++ lit " is not what the ledger rebuilds to")
    else none

/-- One transaction: the row is read, compared and set in the same snapshot. -/
def persist (db : Database) (name : JsString) (expected : Expectation) (position : ℤ) (digest : JsString) :
    Denied (Database × Expectation) :=
  match durableConflict (readDurable db name) position digest with
  | some detail => stateConflict detail
  | none =>
    let (projections, changes) := upsertProjection db.projections name position digest expected.position expected.digest
    if changes ≠ 1 then
      stateConflict (lit "the rebuild lost its compare-and-set on " ++ jsonText name ++ lit ": SQLite changed "
        ++ decimal changes ++ lit " rows")
    else .ok ({ db with projections := projections }, ⟨some digest, position⟩)

section Rebuild
variable (sha256 : List Byte → JsString)

def planRebuild (request : ProjectionRebuildRequest) : Denied RebuildPlan :=
  let bad (detail : JsString) : Denied RebuildPlan := .error ⟨.PROJECTION_REBUILD_INPUT_INVALID, detail, none, .INPUT⟩
  match requireIdentifier request.name "name" with
  | .error e => bad (lit "name is not usable: " ++ e.message)
  | .ok name =>
    let pageLimit := request.pageLimit.getD defaultPageLimit
    if pageLimit < 1 ∨ maxPageSize < pageLimit then
      bad (lit "pageLimit must be a safe integer between 1 and " ++ decimal maxPageSize)
    else
      let origin := request.state.getD []
      .ok ⟨name, stateDigest sha256 origin, canonicalState origin, pageLimit, request.reducers, request.upcaster⟩

/-! ### Pages (`projection-rebuild.ts:217-250`) -/

/-- A page never crosses the durable checkpoint. -/
def clampPage (items : List StoredEvent) (verifyAt position : ℤ) : List StoredEvent :=
  if verifyAt ≤ position then items else items.filter fun event => event.globalPosition ≤ verifyAt

def foldPage (plan : RebuildPlan) (carried : Progress) (events : List StoredEvent) : Denied Progress :=
  match foldProjection (.plain carried.position events plan.reducers carried.state plan.upcaster) with
  | .error refusal =>
    .error ⟨.PROJECTION_REBUILD_FOLD_REFUSED, refusal.detail, some ⟨refusal.code, refusal.eventId, refusal.layer⟩,
      .PROJECTION⟩
  | .ok folded =>
    .ok ⟨stateDigest sha256 folded.state, carried.pages + 1, folded.checkpoint, canonicalState folded.state⟩

/-! ### The walk (`projection-rebuild.ts:252-289`) -/

/-- What the walk does next, with the variables it has at that point. -/
inductive Walk where
  | start
  | read (expected : Expectation) (verifyAt : ℤ) (carried : Progress) (persisted : Bool)
  | write (expected : Expectation) (verifyAt : ℤ) (carried : Progress) (more : Bool)
  | close (expected : Expectation) (carried : Progress)
  | ended (result : ProjectionRebuildResult)

def rebuilt (carried : Progress) : Walk := .ended (.REBUILT ⟨carried.position, carried.pages, carried.state, carried.digest⟩)

/-- The loop is left; a walk that wrote nothing persists what it has. -/
def leaveLoop (expected : Expectation) (carried : Progress) (persisted : Bool) : Walk :=
  if persisted then rebuilt carried else .close expected carried

def readPage (plan : RebuildPlan) (db : Database) (expected : Expectation) (verifyAt : ℤ) (carried : Progress)
    (persisted : Bool) : Walk :=
  match readEventsAfter db.events carried.position plan.pageLimit with
  | .error e => .ended (.threw e)
  | .ok page =>
    let events := clampPage page.items verifyAt carried.position
    if events = [] then leaveLoop expected carried persisted
    else match foldPage sha256 plan carried events with
      | .error refused => .ended (.REFUSED refused)
      | .ok next =>
        -- a clamped page dropped events that are still to be folded
        let more := page.hasMore || events.length ≠ page.items.length
        if verifyAt ≤ next.position then .write expected verifyAt next more
        else if more then .read expected verifyAt next persisted
        else leaveLoop expected next persisted

def walkStep (plan : RebuildPlan) (db : Database) : Walk → Database × Walk
  | .start =>
    let expected := (readDurable db plan.name).getD originExpectation
    (db, .read expected expected.position ⟨plan.originDigest, 0, 0, plan.originState⟩ false)
  | .read expected verifyAt carried persisted => (db, readPage sha256 plan db expected verifyAt carried persisted)
  | .write expected verifyAt carried more =>
    match persist db plan.name expected carried.position carried.digest with
    | .error refused => (db, .ended (.REFUSED refused))
    | .ok (next, written) => (next, if more then .read written verifyAt carried true else rebuilt carried)
  | .close expected carried =>
    match persist db plan.name expected carried.position carried.digest with
    | .error refused => (db, .ended (.REFUSED refused))
    | .ok (next, _) => (next, rebuilt carried)
  | .ended result => (db, .ended result)

/-- The walk with nobody else around, for as many steps as the fuel allows. -/
def walk (plan : RebuildPlan) : ℕ → Database → Walk → Option (Database × ProjectionRebuildResult)
  | _, db, .ended result => some (db, result)
  | 0, _, _ => none
  | fuel + 1, db, stage =>
    let (next, after) := walkStep sha256 plan db stage
    walk plan fuel next after

def rebuildProjection (fuel : ℕ) (db : Database) (request : ProjectionRebuildRequest) :
    Option (Database × ProjectionRebuildResult) :=
  match planRebuild sha256 request with
  | .error refused => some (db, .REFUSED refused)
  | .ok plan => walk sha256 plan fuel db .start

end Rebuild

end MoeNG.Projections

/-!
## What one step of a rebuild does

A page is the next stretch of the ledger, and a fold of it goes on from the
fold of everything before. A write goes through when the row is the one the
walk expects, and then never moves it back.
-/

namespace MoeNG.Projections
open MoeNG.Kernel MoeNG.Lib MoeNG.Store

/-! ### Stretches of the ledger -/

/-- The events up to a position. -/
def EventTable.through (t : EventTable) (position : ℤ) : List StoredEvent :=
  t.storedEvents.filter fun e => e.globalPosition ≤ position

/-- `more` of the rows, from the one behind the `n`-th on. -/
def EventTable.stretch (t : EventTable) (n more : ℕ) : List StoredEvent :=
  ((t.rows.drop n).take more).map EventRow.storedEvent

/-- Every row of `t` is a row of the longer table. -/
def EventTable.Extends (t t' : EventTable) : Prop := t.rows <+: t'.rows

theorem EventTable.positions_stretch (t : EventTable) (n more : ℕ) (h : n + more ≤ t.rows.length) :
    (t.stretch n more).map StoredEvent.globalPosition = (List.range' (n + 1) more).map Nat.cast := by
  have hrows : ((t.rows.drop n).take more).map EventRow.globalPosition = List.range' (n + 1) more := by
    rw [List.map_take, List.map_drop, t.positions, List.drop_range', List.take_range'_of_length_ge (by omega),
      Nat.mul_one, Nat.add_comm]
  rw [← hrows, List.map_map, EventTable.stretch, List.map_map]
  rfl

theorem EventTable.stretch_last (t : EventTable) (n more : ℕ) (h : n + more ≤ t.rows.length) (hmore : 0 < more) :
    (t.stretch n more).getLast?.map StoredEvent.globalPosition = some ((n + more : ℕ) : ℤ) := by
  rw [← List.getLast?_map, t.positions_stretch n more h, List.getLast?_map, List.getLast?_range',
    if_neg (Nat.pos_iff_ne_zero.mp hmore), Option.map_some, show n + 1 + more - 1 = n + more by omega]

theorem EventTable.mem_stretch (t : EventTable) (n more : ℕ) (h : n + more ≤ t.rows.length) (e : StoredEvent)
    (he : e ∈ t.stretch n more) : (n : ℤ) < e.globalPosition ∧ e.globalPosition ≤ n + more := by
  have hmem := List.mem_map_of_mem (f := StoredEvent.globalPosition) he
  rw [t.positions_stretch n more h] at hmem
  obtain ⟨p, hp, hcast⟩ := List.mem_map.mp hmem
  have := List.mem_range'_1.mp hp
  omega

theorem EventTable.stretch_append (t : EventTable) (n first second : ℕ) :
    t.stretch n (first + second) = t.stretch n first ++ t.stretch (n + first) second := by
  rw [EventTable.stretch, EventTable.stretch, EventTable.stretch, ← List.map_append, List.take_add, List.drop_drop]

theorem EventTable.storedEvents_eq (t : EventTable) : t.storedEvents = t.stretch 0 t.rows.length := by
  rw [EventTable.stretch, List.drop_zero, List.take_length, EventTable.storedEvents]

theorem EventTable.through_eq (t : EventTable) (n : ℕ) (hn : n ≤ t.rows.length) : t.through n = t.stretch 0 n := by
  obtain ⟨more, hmore⟩ := Nat.exists_eq_add_of_le hn
  rw [EventTable.through, t.storedEvents_eq, hmore, t.stretch_append, List.filter_append, Nat.zero_add,
    List.filter_eq_self.mpr, List.filter_eq_nil_iff.mpr, List.append_nil]
  · intro e he
    have := (t.mem_stretch n more hmore.ge e he).1
    simpa using this
  · intro e he
    have := (t.mem_stretch 0 n (by omega) e he).2
    simpa using this

theorem EventTable.through_length (t : EventTable) : t.through t.rows.length = t.storedEvents := by
  rw [t.through_eq _ le_rfl, t.storedEvents_eq]

/-- The position of the last event, which is the origin's when there is none. -/
def EventTable.lastPosition (t : EventTable) : ℤ := (t.storedEvents.getLast?.map StoredEvent.globalPosition).getD 0

theorem EventTable.lastPosition_eq (t : EventTable) : t.lastPosition = t.rows.length := by
  rw [EventTable.lastPosition, t.storedEvents_eq]
  obtain hzero | hpositive := Nat.eq_zero_or_pos t.rows.length
  · rw [hzero]
    rfl
  · rw [t.stretch_last 0 _ (by omega) hpositive, Nat.zero_add, Option.getD_some]

theorem EventTable.Extends.refl (t : EventTable) : t.Extends t := List.prefix_refl _

theorem EventTable.Extends.stretch {t t' : EventTable} (h : t.Extends t') (n : ℕ) (hn : n ≤ t.rows.length) :
    t'.stretch 0 n = t.stretch 0 n := by
  obtain ⟨more, hmore⟩ := h
  rw [EventTable.stretch, EventTable.stretch, ← hmore, List.drop_zero, List.drop_zero, List.take_append_of_le_length hn]

/-! ### Folds of the ledger -/

section LedgerFold
variable (reducers : ProjectionReducers) (upcaster : StoredEventUpcaster) (origin : ProjectionState)

/-- The left fold of every event up to a position. -/
def foldThrough (t : EventTable) (position : ℤ) : Except Issue ProjectionState :=
  (t.through position).foldlM (applyEvent reducers upcaster) origin

theorem foldThrough_zero (t : EventTable) : foldThrough reducers upcaster origin t 0 = .ok origin := by
  have h := t.through_eq 0 (Nat.zero_le _)
  rw [Nat.cast_zero] at h
  rw [foldThrough, h]
  rfl

theorem foldThrough_extends {t t' : EventTable} (h : t.Extends t') (n : ℕ) (hn : n ≤ t.rows.length) :
    foldThrough reducers upcaster origin t' n = foldThrough reducers upcaster origin t n := by
  rw [foldThrough, foldThrough, t.through_eq n hn, t'.through_eq n (hn.trans h.length_le), h.stretch n hn]

theorem foldThrough_initial (t : EventTable) (n : ℕ) (hn : n ≤ t.rows.length) (s : ProjectionState)
    (h : foldThrough reducers upcaster origin t t.rows.length = .ok s) :
    ∃ r, foldThrough reducers upcaster origin t n = .ok r := by
  obtain ⟨more, hmore⟩ := Nat.exists_eq_add_of_le hn
  rw [foldThrough, t.through_eq _ le_rfl, hmore, t.stretch_append, List.foldlM_append, ← t.through_eq n hn] at h
  obtain ⟨r, hr, -⟩ := except_bind_ok _ _ _ h
  exact ⟨r, hr⟩

variable {reducers}

/-- A fold that goes on from a state with the canonical clone of the fold so far. -/
theorem foldThrough_resume (hblind : KeyOrderBlind reducers) (t : EventTable) (n more : ℕ) (h : n + more ≤ t.rows.length)
    (s carried : ProjectionState) (hs : foldThrough reducers upcaster origin t n = .ok s)
    (hcarried : canonicalState carried = canonicalState s) :
    ((t.stretch n more).foldlM (applyEvent reducers upcaster) carried).map canonicalState =
      (foldThrough reducers upcaster origin t ((n + more : ℕ) : ℤ)).map canonicalState := by
  rw [foldThrough, t.through_eq n (by omega)] at hs
  rw [foldThrough, t.through_eq _ h, t.stretch_append, Nat.zero_add]
  exact (hblind.applyEvent upcaster).resume _ _ hs hcarried

end LedgerFold

/-! ### One page -/

section Page
variable (sha256 : List Byte → JsString) (plan : RebuildPlan)

theorem clampPage_eq (t : EventTable) (n k : ℕ) (verifyAt : ℤ) (hk : n + k ≤ t.rows.length) :
    ∃ j ≤ k, clampPage (t.stretch n k) verifyAt n = t.stretch n j ∧ (0 < k → 0 < j)
      ∧ (verifyAt ≤ n ∨ ((n + j : ℕ) : ℤ) ≤ verifyAt) := by
  unfold clampPage
  split
  · rename_i hpassed
    exact ⟨k, le_rfl, rfl, id, Or.inl hpassed⟩
  · rename_i hbehind
    rw [not_le] at hbehind
    obtain ⟨left, hleft⟩ := Int.eq_ofNat_of_zero_le (sub_nonneg.mpr hbehind.le)
    rcases Nat.le_total k left with hle | hle
    · refine ⟨k, le_rfl, ?_, id, Or.inr (by omega)⟩
      rw [List.filter_eq_self]
      intro e he
      have := (t.mem_stretch n k hk e he).2
      rw [decide_eq_true_eq]
      omega
    · obtain ⟨more, rfl⟩ := Nat.exists_eq_add_of_le hle
      refine ⟨left, hle, ?_, fun _ => by omega, Or.inr (by omega)⟩
      rw [t.stretch_append, List.filter_append, List.filter_eq_self.mpr, List.filter_eq_nil_iff.mpr, List.append_nil]
      · intro e he
        have := (t.mem_stretch (n + left) more (by omega) e he).1
        rw [decide_eq_true_eq]
        omega
      · intro e he
        have := (t.mem_stretch n left (by omega) e he).2
        rw [decide_eq_true_eq]
        omega

theorem EventTable.length_stretch (t : EventTable) (n more : ℕ) (h : n + more ≤ t.rows.length) :
    (t.stretch n more).length = more := by
  rw [EventTable.stretch, List.length_map, List.length_take, List.length_drop]
  omega

/-- A plan is the request with its origin digested. -/
structure RebuildPlanOf (request : ProjectionRebuildRequest) : Prop where
  name : plan.name = request.name
  originDigest : plan.originDigest = stateDigest sha256 (request.state.getD [])
  originState : plan.originState = canonicalState (request.state.getD [])
  pageLimit : 1 ≤ plan.pageLimit ∧ plan.pageLimit ≤ maxPageSize
  reducers : plan.reducers = request.reducers
  upcaster : plan.upcaster = request.upcaster

theorem planRebuild_ok (request : ProjectionRebuildRequest) (h : planRebuild sha256 request = .ok plan) :
    RebuildPlanOf sha256 plan request := by
  unfold planRebuild at h
  dsimp only at h
  split at h
  · cases h
  rename_i name hname
  split at h
  · cases h
  rename_i hlimit
  obtain rfl := Except.ok.inj h
  rw [not_or, not_lt, not_lt] at hlimit
  exact ⟨(requireIdentifier_ok _ _ _ hname).1, rfl, rfl, hlimit, rfl, rfl⟩

/-- What the walk does after the fold of a page. -/
def afterPage (expected : Expectation) (verifyAt : ℤ) (persisted more : Bool) (next : Progress) : Walk :=
  if verifyAt ≤ next.position then .write expected verifyAt next more
  else if more then .read expected verifyAt next persisted
  else leaveLoop expected next persisted

/-- A read behind `n` events folds the next few of them, and none when there are none left. -/
theorem readPage_eq (db : Database) (expected : Expectation) (verifyAt : ℤ) (carried : Progress) (persisted : Bool)
    (n : ℕ) (hposition : carried.position = n) (hn : n ≤ db.events.rows.length)
    (hlimit : 1 ≤ plan.pageLimit ∧ plan.pageLimit ≤ maxPageSize) :
    (n = db.events.rows.length
        ∧ readPage sha256 plan db expected verifyAt carried persisted = leaveLoop expected carried persisted)
      ∨ ∃ j, 0 < j ∧ n + j ≤ db.events.rows.length ∧ (verifyAt ≤ n ∨ ((n + j : ℕ) : ℤ) ≤ verifyAt)
        ∧ readPage sha256 plan db expected verifyAt carried persisted =
          match foldPage sha256 plan carried (db.events.stretch n j) with
          | .error refused => .ended (.REFUSED refused)
          | .ok next => afterPage expected verifyAt persisted (n + j < db.events.rows.length) next := by
  obtain ⟨limit, hcast⟩ := Int.eq_ofNat_of_zero_le (Int.le_of_lt (Int.lt_of_lt_of_le Int.zero_lt_one hlimit.1))
  rw [hcast] at hlimit
  obtain ⟨k, hpage, hk, hsome⟩ := readEventsAfter_eq db.events n limit hn (by omega)
  rw [List.length_drop] at hk
  obtain ⟨j, hj, hclamp, hpos, hverify⟩ := clampPage_eq db.events n k verifyAt (by omega)
  unfold readPage
  rw [hposition, hcast, hpage]
  dsimp only
  rw [show ((db.events.rows.drop n).take k).map EventRow.storedEvent = db.events.stretch n k from rfl, hclamp]
  obtain rfl | hpositive := Nat.eq_zero_or_pos j
  · have hend : n = db.events.rows.length := by
      by_contra hne
      have : db.events.rows.drop n ≠ [] := by
        rw [ne_eq, List.drop_eq_nil_iff]
        omega
      exact absurd (hpos (hsome this)) (Nat.lt_irrefl 0)
    left
    exact ⟨hend, if_pos rfl⟩
  · right
    have hlength := db.events.length_stretch n j (by omega)
    refine ⟨j, hpositive, by omega, hverify, ?_⟩
    rw [if_neg (by rw [← List.length_eq_zero_iff, hlength]; omega)]
    cases foldPage sha256 plan carried (db.events.stretch n j) with
    | error refused => rfl
    | ok next =>
      have hmore : (decide (k < (db.events.rows.drop n).length) || decide (j ≠ k)) =
          decide (n + j < db.events.rows.length) := by
        rw [← Bool.decide_or, decide_eq_decide, List.length_drop]
        omega
      dsimp only [afterPage]
      rw [hlength, db.events.length_stretch n k (by omega), hmore]

/-- What the walk carries is the fold of the ledger up to its position. -/
structure Carries (origin : ProjectionState) (t : EventTable) (carried : Progress) (n : ℕ) : Prop where
  position : carried.position = n
  within : n ≤ t.rows.length
  fold : ∃ s, foldThrough plan.reducers plan.upcaster origin t n = .ok s ∧ carried.state = canonicalState s
    ∧ carried.digest = stateDigest sha256 s

variable {sha256 plan} {origin : ProjectionState} {carried : Progress} {n : ℕ}

theorem Carries.start {request : ProjectionRebuildRequest} (hplan : RebuildPlanOf sha256 plan request) (t : EventTable) :
    Carries sha256 plan (request.state.getD []) t ⟨plan.originDigest, 0, 0, plan.originState⟩ 0 :=
  ⟨rfl, Nat.zero_le _, _, foldThrough_zero _ _ _ _, hplan.originState, hplan.originDigest⟩

theorem Carries.extends {t t' : EventTable} (hc : Carries sha256 plan origin t carried n) (h : t.Extends t') :
    Carries sha256 plan origin t' carried n := by
  refine ⟨hc.position, hc.within.trans h.length_le, ?_⟩
  rw [foldThrough_extends plan.reducers plan.upcaster origin h n hc.within]
  exact hc.fold

/-- A page whose fold is accepted leaves the fold of the ledger up to its end. -/
theorem Carries.foldPage_ok {t : EventTable} (hblind : KeyOrderBlind plan.reducers)
    (hc : Carries sha256 plan origin t carried n) (j : ℕ) (hj : 0 < j) (hle : n + j ≤ t.rows.length) (next : Progress)
    (h : foldPage sha256 plan carried (t.stretch n j) = .ok next) : Carries sha256 plan origin t next (n + j) := by
  unfold foldPage at h
  split at h
  · cases h
  rename_i folded hfolded
  obtain rfl := Except.ok.inj h
  obtain ⟨-, -, hfold, hcheckpoint⟩ := (foldProjection_plain_iff ..).mp hfolded
  obtain ⟨s, hs, hstate, -⟩ := hc.fold
  have hresume := foldThrough_resume plan.upcaster origin hblind t n j hle s carried.state hs
    (by rw [hstate, canonicalState_idem])
  rw [hfold] at hresume
  obtain ⟨r, hr, hnormal⟩ := except_map_ok _ _ _ hresume.symm
  refine ⟨?_, hle, r, hr, hnormal, stateDigest_congr sha256 hnormal⟩
  rw [hcheckpoint, t.stretch_last n j hle hj, Option.getD_some]

/-- A page of an orderly ledger is folded when the ledger can be folded up to its end. -/
theorem Carries.foldPage_eq {t : EventTable} (hblind : KeyOrderBlind plan.reducers)
    (hc : Carries sha256 plan origin t carried n) (ht : Orderly t) (j : ℕ) (hle : n + j ≤ t.rows.length)
    (hfold : ∃ r, foldThrough plan.reducers plan.upcaster origin t ((n + j : ℕ) : ℤ) = .ok r) :
    ∃ next, foldPage sha256 plan carried (t.stretch n j) = .ok next := by
  obtain ⟨s, hs, hstate, -⟩ := hc.fold
  obtain ⟨r, hr⟩ := hfold
  have hresume := foldThrough_resume plan.upcaster origin hblind t n j hle s carried.state hs
    (by rw [hstate, canonicalState_idem])
  rw [hr] at hresume
  obtain ⟨r', hr', -⟩ := except_map_ok _ _ _ hresume
  have hsub : (t.stretch n j).Sublist t.storedEvents :=
    ((List.take_sublist _ _).trans (List.drop_sublist _ _)).map EventRow.storedEvent
  have horder : InOrder carried.position (t.stretch n j) := ⟨fun e he => ht.plain e (hsub.subset he),
    fun e he => by rw [hc.position]; exact (t.mem_stretch n j hle e he).1, ht.follows.sublist hsub⟩
  have hfolded := (foldProjection_plain_iff carried.position (t.stretch n j) plan.reducers carried.state plan.upcaster
    ⟨_, r'⟩).mpr ⟨by rw [hc.position]; omega, horder, hr', rfl⟩
  unfold foldPage
  rw [hfolded]
  exact ⟨_, rfl⟩

end Page

/-! ### One write -/

section Persist
variable (db : Database) (name : JsString) (expected : Expectation) (position : ℤ) (digest : JsString)

/-- The row is not ahead of the position, and at the position it holds the digest. -/
def Behind (row : ProjectionRow) : Prop :=
  row.lastAppliedPosition ≤ position ∧ (row.lastAppliedPosition = position → row.stateDigest = some digest)

theorem durableConflict_eq_none :
    durableConflict (readDurable db name) position digest = none ↔
      ∀ row, db.projections.get name = some row → Behind position digest row := by
  unfold readDurable durableConflict
  cases hget : db.projections.get name with
  | none => exact ⟨fun _ _ h => (by cases h), fun _ => rfl⟩
  | some row =>
    rw [Option.map_some, Option.bind_some]
    dsimp only
    constructor
    · intro h r hr
      obtain rfl := Option.some.inj hr
      split at h
      · cases h
      rename_i hahead
      split at h
      · cases h
      rename_i hdigest
      exact ⟨not_lt.mp hahead, fun hposition => not_not.mp fun hne => hdigest ⟨hposition, hne⟩⟩
    · intro h
      obtain ⟨hle, hdigest⟩ := h row rfl
      rw [if_neg (not_lt.mpr hle), if_neg fun hboth => hboth.2 (hdigest hboth.1)]

/-- A write of the walk goes through when the row is the expected one, or there is none, and it does not move back. -/
theorem persist_cases :
    (ExpectedRow db.projections name expected.position expected.digest
        ∧ (∀ row, db.projections.get name = some row → Behind position digest row)
        ∧ persist db name expected position digest =
          .ok ({ db with projections := db.projections.set name ⟨position, some digest⟩ }, ⟨some digest, position⟩))
      ∨ ((¬ ExpectedRow db.projections name expected.position expected.digest
          ∨ ¬ ∀ row, db.projections.get name = some row → Behind position digest row)
        ∧ ∃ refused, persist db name expected position digest = .error refused) := by
  unfold persist
  cases hconflict : durableConflict (readDurable db name) position digest with
  | some detail =>
    refine Or.inr ⟨Or.inr fun hall => ?_, _, rfl⟩
    rw [(durableConflict_eq_none db name position digest).mpr hall] at hconflict
    cases hconflict
  | none =>
    have hbehind := (durableConflict_eq_none db name position digest).mp hconflict
    obtain ⟨hexpected, hupsert⟩ | ⟨hother, hupsert⟩ :=
      upsertProjection_cases db.projections name position digest expected.position expected.digest
    · rw [hupsert]
      exact Or.inl ⟨hexpected, hbehind, rfl⟩
    · rw [hupsert]
      exact Or.inr ⟨Or.inl hother, _, rfl⟩

end Persist

end MoeNG.Projections
