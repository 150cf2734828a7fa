import MoeNG.Projections.Agreement

/-!
# A rebuild among other writers

Between two steps of a walk others may append events, relay messages, and write
rows of rebuilds of their own. A row that somebody else changes is later than
the one the walk expects, and stays so.
-/

namespace MoeNG.Projections
open MoeNG.Kernel MoeNG.Lib MoeNG.Store

/-! ### Steps and the steps of others -/

inductive Move where
  | walk
  | append (row : EventRow) (size : RecordSize)
  | relay (request : OutboxRelayRequest)
  | persist (name : JsString) (expected : Expectation) (position : ℤ) (digest : JsString)

/-- Whether another writer changed the row since the walk first read it, and the rows that the walk itself wrote. -/
structure Race where
  db : Database
  walk : Walk
  changed : Bool
  writes : List ProjectionRow

/-- What the walk is about to write, and over what. -/
def Walk.writing : Walk → Option (Expectation × Progress)
  | .write expected _ carried _ => some (expected, carried)
  | .close expected carried => some (expected, carried)
  | _ => none

section Race
variable (sha256 : List Byte → JsString) (plan : RebuildPlan)

/-- The row that a step of the walk leaves, if it writes one. -/
def wrote (db : Database) (stage : Walk) : List ProjectionRow :=
  match stage.writing with
  | none => []
  | some (expected, carried) =>
    match persist db plan.name expected carried.position carried.digest with
    | .error _ => []
    | .ok (next, _) => (next.projections.get plan.name).toList

/-- What another writer does to the tables. A write that is refused does nothing. -/
def foreign (db : Database) : Move → Database
  | .walk => db
  | .append row size =>
    match db.events.insert row size with
    | .error _ => db
    | .ok events => { db with events := events }
  | .relay request => (relayMessage sha256 db request).1
  | .persist name expected position digest =>
    match persist db name expected position digest with
    | .error _ => db
    | .ok (next, _) => next

def Walk.isStart : Walk → Bool
  | .start => true
  | _ => false

def raceStep (race : Race) (move : Move) : Race :=
  match move with
  | .walk =>
    let (db, walk) := walkStep sha256 plan race.db race.walk
    ⟨db, walk, race.changed && !race.walk.isStart, race.writes ++ wrote plan race.db race.walk⟩
  | other =>
    let db := foreign sha256 race.db other
    ⟨db, race.walk, race.changed || db.projections.get plan.name ≠ race.db.projections.get plan.name, race.writes⟩

def raceStart (db : Database) : Race := ⟨db, .start, false, []⟩

/-! ### What others do to the row -/

/-- The row is left alone, or is replaced by a later one with a digest. -/
def Advanced (before after : Option ProjectionRow) : Prop :=
  after = before ∨ ∃ row, after = some row ∧ row.stateDigest ≠ none
    ∧ ∀ r, before = some r → r.lastAppliedPosition < row.lastAppliedPosition

theorem relay_advanced (db : Database) (request : OutboxRelayRequest) (name : JsString) :
    db.events.Extends (relayMessage sha256 db request).1.events
      ∧ Advanced (db.projections.get name) ((relayMessage sha256 db request).1.projections.get name) := by
  obtain ⟨heq, -⟩ | ⟨plan, written, next, receipt, events, folded, applied, heq, hrun⟩ := relayMessage_cases sha256 db request
  · rw [heq]
    exact ⟨.refl _, .inl rfl⟩
  rw [heq]
  obtain ⟨hwritten, -, -⟩ := writeCommitEffects_ok _ _ _ _ _ _ hrun.commits
  refine ⟨?_, ?_⟩
  · dsimp only
    rw [hrun.effect.events]
    exact ⟨_, hwritten.rows.symm⟩
  · dsimp only
    rw [hrun.effect.projections, OrdMap.get_set, hwritten.projections]
    split
    · rename_i hname
      refine Or.inr ⟨_, rfl, Option.some_ne_none _, fun row hrow => ?_⟩
      obtain ⟨-, horder, -, hcheckpoint⟩ := (foldProjection_plain_iff ..).mp hrun.effect.fold
      rw [hname, ← hwritten.projections] at hrow
      obtain ⟨hposition, -⟩ := hrun.effect.prior row hrow
      cases hlast : events.getLast? with
      | none => exact absurd (List.getLast?_eq_none_iff.mp hlast) (materializeEvents_ne_nil _ _ _ _ hrun.materialized)
      | some last =>
        rw [hlast, Option.map_some, Option.getD_some] at hcheckpoint
        rw [hposition, hcheckpoint]
        exact horder.behind last (List.mem_of_getLast? hlast)
    · exact Or.inl rfl

theorem persist_advanced (db next : Database) (written : Expectation) (name : JsString) (expected : Expectation)
    (position : ℤ) (digest : JsString) (key : JsString) (h : persist db name expected position digest = .ok (next, written)) :
    next.events = db.events ∧ Advanced (db.projections.get key) (next.projections.get key) := by
  obtain ⟨-, hbehind, heq⟩ | ⟨-, refused, heq⟩ := persist_cases db name expected position digest
  · rw [heq] at h
    obtain ⟨rfl, -⟩ := Prod.mk.inj (Except.ok.inj h)
    refine ⟨rfl, ?_⟩
    dsimp only
    rw [OrdMap.get_set]
    split
    · rename_i hname
      subst hname
      cases hrow : db.projections.get key with
      | none => exact Or.inr ⟨_, rfl, Option.some_ne_none _, fun r hr => by cases hr⟩
      | some row =>
        obtain ⟨hle, hsame⟩ := hbehind row hrow
        obtain hlt | hposition := hle.lt_or_eq
        · refine Or.inr ⟨_, rfl, Option.some_ne_none _, fun r hr => ?_⟩
          obtain rfl := Option.some.inj hr
          exact hlt
        · rw [← hposition, ← hsame hposition]
          exact Or.inl rfl
    · exact Or.inl rfl
  · rw [heq] at h
    cases h

theorem foreign_advanced (db : Database) (move : Move) (name : JsString) :
    db.events.Extends (foreign sha256 db move).events
      ∧ Advanced (db.projections.get name) ((foreign sha256 db move).projections.get name) := by
  unfold foreign
  cases move with
  | walk => exact ⟨.refl _, .inl rfl⟩
  | append row size =>
    dsimp only
    split
    · exact ⟨.refl _, .inl rfl⟩
    · rename_i events hinsert
      exact ⟨⟨_, (insert_ok _ _ _ _ hinsert).1.symm⟩, .inl rfl⟩
  | relay request => exact relay_advanced sha256 db request name
  | persist key expected position digest =>
    dsimp only
    split
    · exact ⟨.refl _, .inl rfl⟩
    · rename_i next written hpersist
      obtain ⟨hevents, hadvanced⟩ := persist_advanced db next written key expected position digest name hpersist
      rw [hevents]
      exact ⟨.refl _, hadvanced⟩

/-! ### What holds at every point of the walk -/

/-- The row as the walk expects it, or as another writer left it. -/
def Expects (race : Race) (expected : Expectation) : Prop :=
  if race.changed then
    ∃ row, race.db.projections.get plan.name = some row ∧ row.stateDigest ≠ none
      ∧ (expected.digest = none ∨ expected.position < row.lastAppliedPosition)
  else (race.db.projections.get plan.name = none ∧ expected = originExpectation)
    ∨ race.db.projections.get plan.name = some ⟨expected.position, expected.digest⟩

/-- The row is the fold of the ledger up to its position. -/
def Certified (origin : ProjectionState) (t : EventTable) (row : ProjectionRow) : Prop :=
  ∃ n : ℕ, row.lastAppliedPosition = n ∧ n ≤ t.rows.length
    ∧ ∃ s, foldThrough plan.reducers plan.upcaster origin t n = .ok s ∧ row.stateDigest = some (stateDigest sha256 s)

variable (origin : ProjectionState)

/-- What the walk relies on before each of its steps. -/
def Stage (race : Race) : Walk → Prop
  | .start => True
  | .read expected verifyAt carried persisted =>
    (∃ n, Carries sha256 plan origin race.db.events carried n) ∧ Expects plan race expected
      ∧ (persisted = true → verifyAt ≤ carried.position
        ∧ race.writes.getLast? = some ⟨carried.position, some carried.digest⟩)
  | .write expected verifyAt carried _ =>
    (∃ n, Carries sha256 plan origin race.db.events carried n) ∧ Expects plan race expected
      ∧ verifyAt ≤ carried.position
  | .close expected carried =>
    (∃ n, Carries sha256 plan origin race.db.events carried n) ∧ Expects plan race expected
  | .ended (.REBUILT r) =>
    (∃ n, Carries sha256 plan origin race.db.events ⟨r.stateDigest, r.pages, r.checkpoint, r.state⟩ n)
      ∧ race.writes.getLast? = some ⟨r.checkpoint, some r.stateDigest⟩
  | .ended _ => True

structure Racing (race : Race) : Prop where
  stage : Stage sha256 plan origin race race.walk
  writes : ∀ row ∈ race.writes, Certified sha256 plan origin race.db.events row

variable {sha256 plan origin}

theorem Carries.certified {t : EventTable} {carried : Progress} {n : ℕ} (hc : Carries sha256 plan origin t carried n) :
    Certified sha256 plan origin t ⟨carried.position, some carried.digest⟩ := by
  obtain ⟨s, hs, -, hdigest⟩ := hc.fold
  exact ⟨n, hc.position, hc.within, s, hs, congrArg some hdigest⟩

theorem Certified.extends {t t' : EventTable} {row : ProjectionRow} (hrow : Certified sha256 plan origin t row)
    (h : t.Extends t') : Certified sha256 plan origin t' row := by
  obtain ⟨n, hposition, hn, s, hs, hdigest⟩ := hrow
  refine ⟨n, hposition, hn.trans h.length_le, s, ?_, hdigest⟩
  rw [foldThrough_extends plan.reducers plan.upcaster origin h n hn, hs]

/-- A write of another keeps the row expected, or makes it one that no write of the walk finds. -/
theorem Expects.advanced {race after : Race} {expected : Expectation} (h : Expects plan race expected)
    (hadvanced : Advanced (race.db.projections.get plan.name) (after.db.projections.get plan.name))
    (hchanged : after.changed =
      (race.changed || decide (after.db.projections.get plan.name ≠ race.db.projections.get plan.name))) :
    Expects plan after expected := by
  unfold Expects at h ⊢
  obtain hsame | ⟨row, hrow, hdigest, hlater⟩ := hadvanced
  · rw [hchanged, hsame]
    simpa using h
  · have hmoved : after.changed = true := by
      rw [hchanged, Bool.or_eq_true, decide_eq_true_eq]
      right
      intro hsame
      rw [hrow] at hsame
      exact absurd (hlater row hsame.symm) (lt_irrefl _)
    rw [if_pos hmoved]
    refine ⟨row, hrow, hdigest, ?_⟩
    split at h
    · obtain ⟨r, hr, -, hexpected⟩ := h
      obtain hnone | hless := hexpected
      · exact Or.inl hnone
      · exact Or.inr (hless.trans (hlater r hr))
    · obtain ⟨-, rfl⟩ | hr := h
      · exact Or.inl rfl
      · exact Or.inr (hlater _ hr)

/-- A row that another writer changed is not the one the walk expects. -/
theorem Expects.refuses {race : Race} {expected : Expectation} (h : Expects plan race expected)
    (hchanged : race.changed = true) :
    ¬ ExpectedRow race.db.projections plan.name expected.position expected.digest := by
  unfold Expects at h
  rw [if_pos hchanged] at h
  obtain ⟨row, hrow, hdigest, hexpected⟩ := h
  intro hall
  obtain ⟨hposition, hsame⟩ := hall row hrow
  obtain hnone | hless := hexpected
  · exact hdigest (hsame.trans hnone)
  · omega

theorem Racing.foreign {race after : Race} (h : Racing sha256 plan origin race)
    (hextends : race.db.events.Extends after.db.events)
    (hadvanced : Advanced (race.db.projections.get plan.name) (after.db.projections.get plan.name))
    (hchanged : after.changed =
      (race.changed || decide (after.db.projections.get plan.name ≠ race.db.projections.get plan.name)))
    (hwalk : after.walk = race.walk) (hwrites : after.writes = race.writes) : Racing sha256 plan origin after := by
  obtain ⟨hstage, hcertified⟩ := h
  constructor
  · rw [hwalk]
    cases hw : race.walk with
    | start => trivial
    | read expected verifyAt carried persisted =>
      rw [hw] at hstage
      obtain ⟨⟨n, hc⟩, hexpects, hpersisted⟩ := hstage
      refine ⟨⟨n, hc.extends hextends⟩, hexpects.advanced hadvanced hchanged, fun hp => ?_⟩
      rw [hwrites]
      exact hpersisted hp
    | write expected verifyAt carried more =>
      rw [hw] at hstage
      obtain ⟨⟨n, hc⟩, hexpects, hpassed⟩ := hstage
      exact ⟨⟨n, hc.extends hextends⟩, hexpects.advanced hadvanced hchanged, hpassed⟩
    | close expected carried =>
      rw [hw] at hstage
      obtain ⟨⟨n, hc⟩, hexpects⟩ := hstage
      exact ⟨⟨n, hc.extends hextends⟩, hexpects.advanced hadvanced hchanged⟩
    | ended result =>
      cases result with
      | REBUILT r =>
        rw [hw] at hstage
        obtain ⟨⟨n, hc⟩, hlast⟩ := hstage
        refine ⟨⟨n, hc.extends hextends⟩, ?_⟩
        rw [hwrites]
        exact hlast
      | REFUSED refused => trivial
      | threw e => trivial
  · rw [hwrites]
    exact fun row hrow => (hcertified row hrow).extends hextends

/-! ### The steps of the walk -/

theorem Expects.persist {race : Race} {expected : Expectation} (h : Expects plan race expected) (position : ℤ)
    (digest : JsString) :
    (race.changed = false ∧ MoeNG.Projections.persist race.db plan.name expected position digest =
        .ok ({ race.db with projections := race.db.projections.set plan.name ⟨position, some digest⟩ },
          ⟨some digest, position⟩))
      ∨ ∃ refused, MoeNG.Projections.persist race.db plan.name expected position digest = .error refused := by
  obtain ⟨hexpected, -, heq⟩ | ⟨-, hrefused⟩ := persist_cases race.db plan.name expected position digest
  · left
    refine ⟨?_, heq⟩
    by_contra hchanged
    exact h.refuses (by simpa using hchanged) hexpected
  · exact Or.inr hrefused

/-- Leaving the loop ends the walk on its last write, or closes it with one. -/
theorem stage_leaveLoop {race : Race} {expected : Expectation} {carried : Progress} {persisted : Bool} {n : ℕ}
    (hc : Carries sha256 plan origin race.db.events carried n) (he : Expects plan race expected)
    (hp : persisted = true → race.writes.getLast? = some ⟨carried.position, some carried.digest⟩) :
    Stage sha256 plan origin race (leaveLoop expected carried persisted) := by
  unfold leaveLoop
  split
  · rename_i hpersisted
    exact ⟨⟨n, hc⟩, hp hpersisted⟩
  · exact ⟨⟨n, hc⟩, he⟩

theorem stage_readPage {race : Race} {expected : Expectation} {verifyAt : ℤ} {carried : Progress} {persisted : Bool}
    (hblind : KeyOrderBlind plan.reducers) (hlimit : 1 ≤ plan.pageLimit ∧ plan.pageLimit ≤ maxPageSize)
    (h : Stage sha256 plan origin race (.read expected verifyAt carried persisted)) :
    Stage sha256 plan origin race (readPage sha256 plan race.db expected verifyAt carried persisted) := by
  obtain ⟨⟨n, hc⟩, he, hp⟩ := h
  obtain ⟨-, heq⟩ | ⟨j, hj, hle, -, heq⟩ :=
    readPage_eq sha256 plan race.db expected verifyAt carried persisted n hc.position hc.within hlimit
  · rw [heq]
    exact stage_leaveLoop hc he fun hpersisted => (hp hpersisted).2
  rw [heq]
  cases hfold : foldPage sha256 plan carried (race.db.events.stretch n j) with
  | error refused => trivial
  | ok next =>
    have hnext := hc.foldPage_ok hblind j hj hle next hfold
    dsimp only [afterPage]
    split
    · rename_i hpassed
      exact ⟨⟨_, hnext⟩, he, hpassed⟩
    · rename_i hbehind
      -- once the walk has written, every page ends at or behind the checkpoint it verifies at
      have hfirst : persisted ≠ true := by
        intro hpersisted
        have hpassed := (hp hpersisted).1
        have hposition := hc.position
        have hnextPosition := hnext.position
        omega
      split
      · exact ⟨⟨_, hnext⟩, he, fun hpersisted => absurd hpersisted hfirst⟩
      · exact stage_leaveLoop hnext he fun hpersisted => absurd hpersisted hfirst

variable (sha256) in
/-- A step that writes goes through, or ends the walk and leaves the tables as they are. -/
theorem raceStep_writing {race : Race} {expected : Expectation} {carried : Progress}
    (hwriting : race.walk.writing = some (expected, carried)) (he : Expects plan race expected) :
    (race.changed = false ∧ ∃ walk, raceStep sha256 plan race .walk =
          ⟨{ race.db with
              projections := race.db.projections.set plan.name ⟨carried.position, some carried.digest⟩ },
            walk, false, race.writes ++ [⟨carried.position, some carried.digest⟩]⟩
        ∧ (walk = rebuilt carried ∨ ∃ verifyAt more, race.walk = .write expected verifyAt carried more
          ∧ walk = .read ⟨some carried.digest, carried.position⟩ verifyAt carried true))
      ∨ ∃ refused, raceStep sha256 plan race .walk = { race with walk := .ended (.REFUSED refused) } := by
  obtain ⟨db, walk, changed, writes⟩ := race
  obtain ⟨rfl, hpersist⟩ | ⟨refused, hpersist⟩ := he.persist carried.position carried.digest
  · refine Or.inl ⟨rfl, ?_⟩
    cases walk with
    | start => cases hwriting
    | read _ _ _ _ => cases hwriting
    | ended _ => cases hwriting
    | write e verifyAt c more =>
      obtain ⟨rfl, rfl⟩ := Prod.mk.inj (Option.some.inj hwriting)
      refine ⟨if more then .read ⟨some c.digest, c.position⟩ verifyAt c true else rebuilt c, ?_, ?_⟩
      · dsimp only [raceStep, walkStep, wrote, Walk.writing, Walk.isStart]
        rw [hpersist]
        simp
      · cases more with
        | true => exact Or.inr ⟨verifyAt, true, rfl, rfl⟩
        | false => exact Or.inl rfl
    | close e c =>
      obtain ⟨rfl, rfl⟩ := Prod.mk.inj (Option.some.inj hwriting)
      refine ⟨rebuilt c, ?_, Or.inl rfl⟩
      dsimp only [raceStep, walkStep, wrote, Walk.writing, Walk.isStart]
      rw [hpersist]
      simp
  · refine Or.inr ⟨refused, ?_⟩
    cases walk with
    | start => cases hwriting
    | read _ _ _ _ => cases hwriting
    | ended _ => cases hwriting
    | write e verifyAt c more =>
      obtain ⟨rfl, rfl⟩ := Prod.mk.inj (Option.some.inj hwriting)
      dsimp only [raceStep, walkStep, wrote, Walk.writing, Walk.isStart]
      rw [hpersist]
      simp
    | close e c =>
      obtain ⟨rfl, rfl⟩ := Prod.mk.inj (Option.some.inj hwriting)
      dsimp only [raceStep, walkStep, wrote, Walk.writing, Walk.isStart]
      rw [hpersist]
      simp

theorem Certified.append {t : EventTable} {writes : List ProjectionRow}
    (h : ∀ row ∈ writes, Certified sha256 plan origin t row) {row : ProjectionRow}
    (hrow : Certified sha256 plan origin t row) : ∀ r ∈ writes ++ [row], Certified sha256 plan origin t r := by
  intro r hr
  obtain hr | hr := List.mem_append.mp hr
  · exact h r hr
  · obtain rfl := List.mem_singleton.mp hr
    exact hrow

/-- A write keeps what holds of the walk: it goes on from the row it wrote, or it ends. -/
theorem Racing.writing {race : Race} {expected : Expectation} {carried : Progress} {n : ℕ}
    (h : Racing sha256 plan origin race) (hwriting : race.walk.writing = some (expected, carried))
    (hc : Carries sha256 plan origin race.db.events carried n) (he : Expects plan race expected)
    (hpassed : ∀ verifyAt more, race.walk = .write expected verifyAt carried more → verifyAt ≤ carried.position) :
    Racing sha256 plan origin (raceStep sha256 plan race .walk) := by
  obtain ⟨-, walk, heq, hwalk⟩ | ⟨refused, heq⟩ := raceStep_writing sha256 hwriting he
  · rw [heq]
    refine ⟨?_, Certified.append h.writes hc.certified⟩
    obtain rfl | ⟨verifyAt, more, hwrite, rfl⟩ := hwalk
    · exact ⟨⟨n, hc⟩, List.getLast?_concat⟩
    · refine ⟨⟨n, hc⟩, Or.inr ?_, fun _ => ⟨hpassed verifyAt more hwrite, List.getLast?_concat⟩⟩
      simp
  · rw [heq]
    exact ⟨trivial, h.writes⟩

/-- One step of the walk keeps what holds of it. -/
theorem Racing.walk {race : Race} {request : ProjectionRebuildRequest} (hblind : KeyOrderBlind plan.reducers)
    (hplan : RebuildPlanOf sha256 plan request) (h : Racing sha256 plan (request.state.getD []) race) :
    Racing sha256 plan (request.state.getD []) (raceStep sha256 plan race .walk) := by
  obtain ⟨hstage, hcertified⟩ := h
  cases hw : race.walk with
  | start =>
    have heq : raceStep sha256 plan race .walk =
        ⟨race.db, (walkStep sha256 plan race.db .start).2, false, race.writes⟩ := by
      simp [raceStep, hw, walkStep, wrote, Walk.writing, Walk.isStart]
    rw [heq]
    refine ⟨⟨⟨0, Carries.start hplan race.db.events⟩, ?_, nofun⟩, hcertified⟩
    unfold Expects readDurable
    rw [if_neg Bool.false_ne_true]
    cases hrow : race.db.projections.get plan.name with
    | none => exact Or.inl ⟨rfl, rfl⟩
    | some row => exact Or.inr rfl
  | read expected verifyAt carried persisted =>
    have heq : raceStep sha256 plan race .walk =
        { race with walk := readPage sha256 plan race.db expected verifyAt carried persisted } := by
      simp [raceStep, hw, walkStep, wrote, Walk.writing, Walk.isStart]
    rw [hw] at hstage
    have hnext := stage_readPage hblind hplan.pageLimit hstage
    rw [heq]
    refine ⟨?_, hcertified⟩
    dsimp only
    generalize readPage sha256 plan race.db expected verifyAt carried persisted = stage at hnext
    cases stage with
    | ended result => cases result <;> exact hnext
    | start => exact hnext
    | read _ _ _ _ => exact hnext
    | write _ _ _ _ => exact hnext
    | close _ _ => exact hnext
  | write expected verifyAt carried more =>
    have hwriting : race.walk.writing = some (expected, carried) := by
      rw [hw]
      rfl
    have hall : Racing sha256 plan (request.state.getD []) race := ⟨hstage, hcertified⟩
    rw [hw] at hstage
    obtain ⟨⟨n, hc⟩, he, hpassed⟩ := hstage
    refine hall.writing hwriting hc he fun v m hsame => ?_
    rw [hw] at hsame
    injection hsame with _ hv
    rw [← hv]
    exact hpassed
  | close expected carried =>
    have hwriting : race.walk.writing = some (expected, carried) := by
      rw [hw]
      rfl
    have hall : Racing sha256 plan (request.state.getD []) race := ⟨hstage, hcertified⟩
    rw [hw] at hstage
    obtain ⟨⟨n, hc⟩, he⟩ := hstage
    refine hall.writing hwriting hc he fun v m hsame => ?_
    rw [hw] at hsame
    cases hsame
  | ended result =>
    have heq : raceStep sha256 plan race .walk = race := by
      obtain ⟨db, walk, changed, writes⟩ := race
      obtain rfl : walk = .ended result := hw
      simp [raceStep, walkStep, wrote, Walk.writing, Walk.isStart]
    rw [heq]
    exact ⟨hstage, hcertified⟩

theorem Racing.step {race : Race} {request : ProjectionRebuildRequest} (hblind : KeyOrderBlind plan.reducers)
    (hplan : RebuildPlanOf sha256 plan request) (h : Racing sha256 plan (request.state.getD []) race) (move : Move) :
    Racing sha256 plan (request.state.getD []) (raceStep sha256 plan race move) := by
  cases move with
  | walk => exact h.walk hblind hplan
  | append row size =>
    obtain ⟨hextends, hadvanced⟩ := foreign_advanced sha256 race.db (.append row size) plan.name
    exact h.foreign hextends hadvanced rfl rfl rfl
  | relay message =>
    obtain ⟨hextends, hadvanced⟩ := foreign_advanced sha256 race.db (.relay message) plan.name
    exact h.foreign hextends hadvanced rfl rfl rfl
  | persist name expected position digest =>
    obtain ⟨hextends, hadvanced⟩ := foreign_advanced sha256 race.db (.persist name expected position digest) plan.name
    exact h.foreign hextends hadvanced rfl rfl rfl

theorem Racing.start (origin : ProjectionState) (db : Database) : Racing sha256 plan origin (raceStart db) where
  stage := trivial
  writes := nofun

theorem racing_run {request : ProjectionRebuildRequest} (hblind : KeyOrderBlind plan.reducers)
    (hplan : RebuildPlanOf sha256 plan request) (db : Database) (moves : List Move) :
    Racing sha256 plan (request.state.getD []) (run (raceStep sha256 plan) (raceStart db) moves) :=
  run_invariant _ (Racing sha256 plan (request.state.getD [])) (fun _ move h => h.step hblind hplan move) _
    (Racing.start _ db) moves

/-- A step of the walk never moves the row back. -/
theorem walkStep_forward (db : Database) (stage : Walk) (row : ProjectionRow)
    (hrow : db.projections.get plan.name = some row) :
    ∃ after, (walkStep sha256 plan db stage).1.projections.get plan.name = some after
      ∧ row.lastAppliedPosition ≤ after.lastAppliedPosition := by
  have hpersist (expected : Expectation) (carried : Progress) (next : Database) (written : Expectation)
      (h : persist db plan.name expected carried.position carried.digest = .ok (next, written)) :
      ∃ after, next.projections.get plan.name = some after ∧ row.lastAppliedPosition ≤ after.lastAppliedPosition := by
    obtain ⟨-, hsame | ⟨after, hafter, -, hlater⟩⟩ := persist_advanced db next written _ _ _ _ plan.name h
    · exact ⟨row, hsame.trans hrow, le_rfl⟩
    · exact ⟨after, hafter, (hlater row hrow).le⟩
  cases stage with
  | start => exact ⟨row, hrow, le_rfl⟩
  | read expected verifyAt carried persisted => exact ⟨row, hrow, le_rfl⟩
  | ended result => exact ⟨row, hrow, le_rfl⟩
  | write expected verifyAt carried more =>
    dsimp only [walkStep]
    split
    · exact ⟨row, hrow, le_rfl⟩
    · rename_i next written h
      exact hpersist expected carried next written h
  | close expected carried =>
    dsimp only [walkStep]
    split
    · exact ⟨row, hrow, le_rfl⟩
    · rename_i next written h
      exact hpersist expected carried next written h

variable (sha256 plan origin) in
/-- What no order of steps breaks. -/
structure RaceSafe (race : Race) : Prop where
  certified : ∀ row ∈ race.writes, Certified sha256 plan origin race.db.events row
  forward : ∀ row, race.db.projections.get plan.name = some row →
    ∃ after, (raceStep sha256 plan race .walk).db.projections.get plan.name = some after
      ∧ row.lastAppliedPosition ≤ after.lastAppliedPosition
  refused : race.changed = true → ∀ expected carried, race.walk.writing = some (expected, carried) →
    ∃ refused, raceStep sha256 plan race .walk = { race with walk := .ended (.REFUSED refused) }
  rebuilt : ∀ r, race.walk = .ended (.REBUILT r) →
    (∃ s, foldThrough plan.reducers plan.upcaster origin race.db.events r.checkpoint = .ok s
        ∧ r.state = canonicalState s ∧ r.stateDigest = stateDigest sha256 s)
      ∧ race.writes.getLast? = some ⟨r.checkpoint, some r.stateDigest⟩

theorem Racing.expects {race : Race} (h : Racing sha256 plan origin race) (expected : Expectation) (carried : Progress)
    (hwriting : race.walk.writing = some (expected, carried)) : Expects plan race expected := by
  have hstage := h.stage
  cases hw : race.walk with
  | start => rw [hw] at hwriting; cases hwriting
  | read _ _ _ _ => rw [hw] at hwriting; cases hwriting
  | ended _ => rw [hw] at hwriting; cases hwriting
  | write e v c m =>
    rw [hw] at hwriting hstage
    obtain ⟨rfl, rfl⟩ := Prod.mk.inj (Option.some.inj hwriting)
    exact hstage.2.1
  | close e c =>
    rw [hw] at hwriting hstage
    obtain ⟨rfl, rfl⟩ := Prod.mk.inj (Option.some.inj hwriting)
    exact hstage.2

/-- In every order of the steps of a walk and of other writers. -/
theorem rebuild_race_safe (request : ProjectionRebuildRequest) (hplan : planRebuild sha256 request = .ok plan)
    (hblind : KeyOrderBlind request.reducers) (db : Database) (moves : List Move) :
    RaceSafe sha256 plan (request.state.getD []) (run (raceStep sha256 plan) (raceStart db) moves) := by
  have hof := planRebuild_ok sha256 plan request hplan
  have hplanBlind : KeyOrderBlind plan.reducers := by
    rw [hof.reducers]
    exact hblind
  have hracing := racing_run hplanBlind hof db moves
  generalize run (raceStep sha256 plan) (raceStart db) moves = race at hracing
  refine ⟨hracing.writes, fun row hrow => walkStep_forward race.db race.walk row hrow,
    fun hchanged expected carried hwriting => ?_, fun r hended => ?_⟩
  · obtain ⟨hunchanged, -⟩ | hrefused := raceStep_writing sha256 hwriting (hracing.expects _ _ hwriting)
    · rw [hchanged] at hunchanged
      cases hunchanged
    · exact hrefused
  · have hstage := hracing.stage
    rw [hended] at hstage
    obtain ⟨⟨n, hc⟩, hlast⟩ := hstage
    obtain ⟨s, hs, hstate, hdigest⟩ := hc.fold
    rw [← show r.checkpoint = n from hc.position] at hs
    exact ⟨⟨s, hs, hstate, hdigest⟩, hlast⟩

end Race

/-! ### The two commands rebuilt under another name -/

def lastEventAgain : Projection := { lastEvent with name := lit "last-event-again" }
def firstKeyAgain : Projection := { firstKey with name := lit "first-key-again" }

def Projection.plan (p : Projection) (pageLimit : ℤ) : RebuildPlan :=
  ⟨p.name, stateDigest knownSha256 p.origin, canonicalState p.origin, pageLimit, p.reducers, p.upcaster⟩

theorem planRebuild_lastEventAgain :
    planRebuild knownSha256 (lastEventAgain.rebuild (some 1)) = .ok (lastEventAgain.plan 1) := by
  unfold planRebuild
  rw [show requireIdentifier (lastEventAgain.rebuild (some 1)).name "name" = .ok lastEventAgain.name by decide +kernel]
  rfl

/-- Another rebuild tries to insert the row of the origin between the two writes of the walk. -/
theorem lastEventAgain_race :
    (run (raceStep knownSha256 (lastEventAgain.plan 1))
        (raceStart (run (relayed knownSha256 lastEvent) lastEvent.fresh [firstInbound, secondInbound]).db)
        [.walk, .walk, .walk, .persist lastEventAgain.name originExpectation 0 (stateDigest knownSha256 []), .walk,
          .walk]).writes =
      [⟨1, some (stateDigest knownSha256 (lastState (lit "event-1")))⟩,
        ⟨2, some (stateDigest knownSha256 (lastState (lit "event-2")))⟩]
      ∧ RaceSafe knownSha256 (lastEventAgain.plan 1) [] (run (raceStep knownSha256 (lastEventAgain.plan 1))
        (raceStart (run (relayed knownSha256 lastEvent) lastEvent.fresh [firstInbound, secondInbound]).db)
        [.walk, .walk, .walk, .persist lastEventAgain.name originExpectation 0 (stateDigest knownSha256 []), .walk,
          .walk]) :=
  ⟨by decide +kernel,
    rebuild_race_safe (lastEventAgain.rebuild (some 1)) planRebuild_lastEventAgain lastEvent_blind _ _⟩

/-- A walk in pages of one event certifies another row than the fold of the ledger has. -/
theorem firstKeyAgain_race :
    planRebuild knownSha256 (firstKeyAgain.rebuild (some 1)) = .ok (firstKeyAgain.plan 1)
      ∧ (run (raceStep knownSha256 (firstKeyAgain.plan 1))
          (raceStart (run (relayed knownSha256 firstKey) firstKey.fresh [firstInbound, secondInbound]).db)
          [.walk, .walk, .walk, .walk, .walk]).writes.getLast? =
        some ⟨2, some (lit "10a03b2c9a48c7c69af0de2ae66cd5fd404ed85b2575c97b7fb733d1af89bdbf")⟩
      ∧ (foldThrough firstKey.reducers firstKey.upcaster firstKey.origin
          (run (relayed knownSha256 firstKey) firstKey.fresh [firstInbound, secondInbound]).db.events 2).toOption.map
          (stateDigest knownSha256) =
        some (lit "1d5f4c4868711b9ccd69e3b6a87865368d134cf45083f95f4f6bb56c6cbcd599") := by
  refine ⟨?_, by decide +kernel, by decide +kernel⟩
  unfold planRebuild
  rw [show requireIdentifier (firstKeyAgain.rebuild (some 1)).name "name" = .ok firstKeyAgain.name by decide +kernel]
  rfl

end MoeNG.Projections
