import Mathlib.Logic.Function.Basic
import MoeNG.Supervisor.EffectRun

/-!
# Racing clients of one effect (`EFFECT_CALLER_CONTRACT`, `effect-kernel.ts:20-25`)

A client reads the records, has one reducer answer on what it read, and commits
an accepted successor under compare-and-set on the versions it read. Other
clients may commit in between.
-/

namespace MoeNG.Supervisor
open MoeNG.Kernel MoeNG.Lib

/-! ### Clients -/

inductive Client (nfc : JsString → JsString) where
  | idle
  | holding (snapshot : Records nfc)
  | proposing (snapshot : Records nfc) (call : Call) (successor : Successor nfc)

inductive RaceMove where
  | read (client : ℕ)
  | call (client : ℕ) (call : Call)
  | commit (client : ℕ)

/-- One committed successor, with the records it replaced. -/
structure Committed (nfc : JsString → JsString) where
  before : Records nfc
  call : Call
  successor : Successor nfc

def Committed.after {nfc : JsString → JsString} (entry : Committed nfc) : Records nfc := install entry.before entry.successor

structure EffectRace (nfc : JsString → JsString) where
  records : Records nfc
  clients : ℕ → Client nfc
  log : List (Committed nfc)

section Race
variable {nfc : JsString → JsString} (sha256 : List Byte → Digest)

/-- The versions that the commit of a successor compares. -/
def unchanged (snapshot current : Records nfc) : Successor nfc → Bool
  | .intent _ => current.intent.version = snapshot.intent.version
  | .activation _ => current.intent.version = snapshot.intent.version ∧ current.attempt.version = snapshot.attempt.version
  | .grant _ => current.grant.map ActivationGrant.version = snapshot.grant.map ActivationGrant.version

def EffectRace.put (race : EffectRace nfc) (client : ℕ) (state : Client nfc) : EffectRace nfc :=
  { race with clients := Function.update race.clients client state }

def raceStep (race : EffectRace nfc) : RaceMove → EffectRace nfc
  | .read client => race.put client (.holding race.records)
  | .call client call =>
    match race.clients client with
    | .holding snapshot =>
      match reduce sha256 snapshot call with
      | some successor => race.put client (.proposing snapshot call successor)
      | none => race.put client .idle
    | _ => race
  | .commit client =>
    match race.clients client with
    | .proposing snapshot call successor =>
      if unchanged snapshot race.records successor then
        { (race.put client .idle) with
          records := install race.records successor
          log := race.log ++ [⟨race.records, call, successor⟩] }
      else race.put client .idle
    | _ => race

def raceStart (start : Records nfc) : EffectRace nfc := ⟨start, fun _ => .idle, []⟩

/-! ### What a client read is behind what is stored -/

/-- Every record is the stored one or an earlier one with a smaller version. -/
structure Behind (snapshot current : Records nfc) : Prop where
  intent : snapshot.intent = current.intent ∨ snapshot.intent.version < current.intent.version
  attempt : snapshot.attempt = current.attempt ∨ snapshot.attempt.version < current.attempt.version
  grant : ∀ grant ∈ snapshot.grant, ∃ held ∈ current.grant, grant = held ∨ grant.version < held.version

theorem Behind.refl (records : Records nfc) : Behind records records :=
  ⟨.inl rfl, .inl rfl, fun grant hgrant => ⟨grant, hgrant, .inl rfl⟩⟩

theorem Behind.trans {a b c : Records nfc} (hab : Behind a b) (hbc : Behind b c) : Behind a c := by
  refine ⟨?_, ?_, fun grant hgrant => ?_⟩
  · rcases hab.intent with h | h
    · rw [h]
      exact hbc.intent
    · rcases hbc.intent with h' | h'
      · exact .inr (h' ▸ h)
      · exact .inr (h.trans h')
  · rcases hab.attempt with h | h
    · rw [h]
      exact hbc.attempt
    · rcases hbc.attempt with h' | h'
      · exact .inr (h' ▸ h)
      · exact .inr (h.trans h')
  · obtain ⟨held, hheld, h⟩ := hab.grant grant hgrant
    obtain ⟨last, hlast, h'⟩ := hbc.grant held hheld
    refine ⟨last, hlast, ?_⟩
    rcases h with rfl | h
    · exact h'
    · rcases h' with rfl | h'
      · exact .inr h
      · exact .inr (h.trans h')

theorem Moves.behind {start records : Records nfc} (hs : Supervised sha256 start records) (call : Call)
    (successor : Successor nfc) (h : Moves sha256 records call successor) : Behind records (install records successor) := by
  cases h with
  | command command kind target below admitted inactive other cancels =>
    exact ⟨.inr (Int.lt_succ _), .inl rfl, fun grant hgrant => ⟨grant, hgrant, .inl rfl⟩⟩
  | tombstone tombstone below before =>
    exact ⟨.inr (Int.lt_succ _), .inl rfl, fun grant hgrant => ⟨grant, hgrant, .inl rfl⟩⟩
  | activate input commit activates =>
    refine ⟨.inr ?_, .inr ?_, fun grant hgrant => ?_⟩
    · show _ < commit.intent.version
      rw [activates.intentAfter]
      exact Int.lt_succ _
    · show _ < commit.attempt.version
      rw [activates.attemptAfter]
      exact Int.lt_succ _
    · have hsome : records.grant.isSome := by
        rw [hgrant]
        rfl
      exact absurd (activates.launching.symm.trans (hs.granted.mpr hsome)) (by decide)
  | consume wrapperIdentity grant held unused =>
    refine ⟨.inl rfl, .inl rfl, fun other hother => ⟨_, rfl, .inr ?_⟩⟩
    obtain rfl := Option.some.inj (held.symm.trans hother)
    exact Int.lt_succ _

/-! ### A commit is the call on what is stored -/

theorem reduce_congr (snapshot current : Records nfc) (call : Call) (successor : Successor nfc)
    (h : reduce sha256 snapshot call = some successor) (hbehind : Behind snapshot current)
    (hunchanged : unchanged snapshot current successor = true) : reduce sha256 current call = some successor := by
  cases call with
  | command command =>
    obtain ⟨next, result, houtcome, rfl⟩ := LifecycleOutcome.successor_some _ _ h
    have hversion : current.intent.version = snapshot.intent.version := by simpa [unchanged] using hunchanged
    have hsame : snapshot.intent = current.intent := hbehind.intent.resolve_right (by omega)
    rw [← h, reduce, reduce, hsame]
  | tombstone tombstone =>
    obtain ⟨next, result, houtcome, rfl⟩ := LifecycleOutcome.successor_some _ _ h
    have hversion : current.intent.version = snapshot.intent.version := by simpa [unchanged] using hunchanged
    have hsame : snapshot.intent = current.intent := hbehind.intent.resolve_right (by omega)
    rw [← h, reduce, reduce, hsame]
  | activate input =>
    obtain ⟨commit, houtcome, rfl⟩ := ActivationOutcome.successor_some _ _ h
    have hversions : current.intent.version = snapshot.intent.version ∧ current.attempt.version = snapshot.attempt.version := by
      simpa [unchanged] using hunchanged
    have hintent : snapshot.intent = current.intent := hbehind.intent.resolve_right (by omega)
    have hattempt : snapshot.attempt = current.attempt := hbehind.attempt.resolve_right (by omega)
    rw [← h, reduce, reduce, activationRequest, activationRequest, hintent, hattempt]
  | consume wrapperIdentity =>
    obtain ⟨grant, hgrant, hconsume⟩ := Option.bind_eq_some_iff.mp h
    obtain ⟨next, houtcome, rfl⟩ := GrantOutcome.successor_some _ _ hconsume
    obtain ⟨held, hheld, hsame⟩ := hbehind.grant grant hgrant
    have hversion : held.version = grant.version := by
      have hmap : current.grant.map ActivationGrant.version = snapshot.grant.map ActivationGrant.version := by
        simpa [unchanged] using hunchanged
      rw [Option.mem_def.mp hheld, hgrant] at hmap
      exact Option.some.inj hmap
    obtain rfl := hsame.resolve_right (by omega)
    rw [reduce, Option.mem_def.mp hheld, Option.bind_some]
    exact hconsume

/-! ### What a race has committed -/

/-- What is left of an activation in the records: the intent may have settled, and the grant may be used. -/
structure Installed (commit : ActivationCommit nfc) (records : Records nfc) : Prop where
  attempt : records.attempt = commit.attempt
  running : records.attempt.state = .RUNNING
  intent : records.intent.state = .ACTIVE → records.intent = commit.intent
  grant : ∃ grant, records.grant = some grant ∧ grant.grantId = commit.grant.grantId
    ∧ grant.intentId = commit.grant.intentId ∧ grant.wrapperIdentity = commit.grant.wrapperIdentity
  derives : Derives sha256 commit.intent commit.attempt commit.grant commit.activationDigest

def Withdrawn (records : Records nfc) : Prop :=
  records.attempt.state = .LAUNCH_REQUESTED ∧ records.intent.state ∈ withdrawnStates

theorem Activates.installed {intent : EffectIntent nfc} {attempt : AttemptSlice nfc} {commit : ActivationCommit nfc}
    (h : Activates sha256 intent attempt commit) : Installed sha256 commit ⟨commit.intent, commit.attempt,
      some commit.grant⟩ where
  attempt := rfl
  running := by
    show commit.attempt.state = _
    rw [h.attemptAfter]
  intent _ := rfl
  grant := ⟨commit.grant, rfl, rfl, rfl, rfl⟩
  derives := h.derives

/-- After an activation there is no second one, no tombstone and no cancellation. -/
theorem Installed.moves {start records : Records nfc} {commit : ActivationCommit nfc} (h : Installed sha256 commit records)
    (hs : Supervised sha256 start records) (call : Call) (successor : Successor nfc)
    (hmoves : Moves sha256 records call successor) :
    Installed sha256 commit (install records successor) ∧ call.isActivation = false ∧ call.isTombstone = false
      ∧ call.isCancel = false := by
  have hrunning := hs.runningState h.running
  cases hmoves with
  | command command kind target below admitted inactive other cancels =>
    have hafter := admits_running _ _ _ admitted hrunning inactive
    refine ⟨⟨h.attempt, h.running, fun hactive => ?_, h.grant, h.derives⟩, rfl, rfl, ?_⟩
    · have htarget : target = .ACTIVE := hactive
      rw [htarget] at admitted
      exact absurd (admits_active _ _ admitted) other
    · rw [← Bool.not_eq_true]
      exact fun hcancel => hafter.2 (cancels.mp hcancel)
  | tombstone tombstone below before =>
    exact absurd (h.running.symm.trans (hs.pre_launching sha256 before)) (by decide)
  | activate input next activates => exact absurd (h.running.symm.trans activates.launching) (by decide)
  | consume wrapperIdentity grant held unused =>
    obtain ⟨held', hheld', hid, hintent, hwrapper⟩ := h.grant
    obtain rfl := Option.some.inj (held.symm.trans hheld')
    exact ⟨⟨h.attempt, h.running, h.intent, ⟨_, rfl, hid, hintent, hwrapper⟩, h.derives⟩, rfl, rfl, rfl⟩

/-- After a tombstone or a cancellation there is no activation. -/
theorem Withdrawn.moves {start records : Records nfc} (h : Withdrawn records) (hs : Supervised sha256 start records)
    (call : Call) (successor : Successor nfc) (hmoves : Moves sha256 records call successor) :
    Withdrawn (install records successor) ∧ call.isActivation = false := by
  cases hmoves with
  | command command kind target below admitted inactive other cancels =>
    exact ⟨⟨h.1, admits_withdrawn _ _ _ admitted h.2⟩, rfl⟩
  | tombstone tombstone below before => exact ⟨⟨h.1, by show EffectState.CANCELLED ∈ withdrawnStates; decide⟩, rfl⟩
  | activate input commit activates =>
    have harmed := h.2
    rw [activates.armed] at harmed
    exact absurd harmed (by decide)
  | consume wrapperIdentity grant held unused =>
    have hsome : records.grant.isSome := by
      rw [held]
      rfl
    exact absurd ((hs.granted.mpr hsome).symm.trans h.1) (by decide)

theorem Moves.withdraws {start records : Records nfc} (hs : Supervised sha256 start records) (call : Call)
    (successor : Successor nfc) (hmoves : Moves sha256 records call successor)
    (hcall : call.isTombstone = true ∨ call.isCancel = true) : Withdrawn (install records successor) := by
  cases hmoves with
  | command command kind target below admitted inactive other cancels =>
    rcases hcall with htombstone | hcancel
    · cases htombstone
    · obtain rfl := cancels.mp hcancel
      obtain ⟨rfl, hsource⟩ := admits_cancel _ _ admitted
      have hpre := hsource.resolve_right fun hactive => inactive ⟨hactive, rfl⟩
      exact ⟨hs.pre_launching sha256 hpre, by show EffectState.CANCEL_REQUESTED ∈ withdrawnStates; decide⟩
  | tombstone tombstone below before =>
    exact ⟨hs.pre_launching sha256 before, by show EffectState.CANCELLED ∈ withdrawnStates; decide⟩
  | activate input commit activates => rcases hcall with h | h <;> cases h
  | consume wrapperIdentity grant held unused => rcases hcall with h | h <;> cases h

/-! ### The invariant of a race -/

def Client.Sound (start current : Records nfc) : Client nfc → Prop
  | .idle => True
  | .holding snapshot => Supervised sha256 start snapshot ∧ Behind snapshot current
  | .proposing snapshot call successor =>
    Behind snapshot current ∧ reduce sha256 snapshot call = some successor

structure Raced (start : Records nfc) (race : EffectRace nfc) : Prop where
  supervised : Supervised sha256 start race.records
  clients : ∀ client, (race.clients client).Sound sha256 start race.records
  entries : ∀ entry ∈ race.log, Supervised sha256 start entry.before
    ∧ Moves sha256 entry.before entry.call entry.successor
  linear : race.records = run (supervise sha256) start (race.log.map Committed.call)
  versions : race.records.intent.version
    = start.intent.version + race.log.countP fun entry => entry.call.movesIntent
  idle : race.records.attempt.state = .LAUNCH_REQUESTED → (race.log.countP fun entry => entry.call.isActivation) = 0
  once : (race.log.countP fun entry => entry.call.isActivation) ≤ 1
  installed : ∀ entry ∈ race.log, ∀ commit, entry.successor = .activation commit → Installed sha256 commit race.records
  withdrawn : ∀ entry ∈ race.log, entry.call.isTombstone = true ∨ entry.call.isCancel = true → Withdrawn race.records

theorem Client.Sound.behind {start current next : Records nfc} {client : Client nfc}
    (h : client.Sound sha256 start current) (hbehind : Behind current next) : client.Sound sha256 start next := by
  cases client with
  | idle => trivial
  | holding snapshot => exact ⟨h.1, h.2.trans hbehind⟩
  | proposing snapshot call successor => exact ⟨h.1.trans hbehind, h.2⟩

theorem put_sound {start current : Records nfc} {clients : ℕ → Client nfc} (h : ∀ c, (clients c).Sound sha256 start current)
    (client : ℕ) (state : Client nfc) (hstate : state.Sound sha256 start current) (c : ℕ) :
    (Function.update clients client state c).Sound sha256 start current := by
  by_cases hc : c = client
  · subst hc
    rw [Function.update_self]
    exact hstate
  · rw [Function.update_of_ne hc]
    exact h c

theorem Raced.put {start : Records nfc} {race : EffectRace nfc} (h : Raced sha256 start race) (client : ℕ) (state : Client nfc)
    (hstate : state.Sound sha256 start race.records) : Raced sha256 start (race.put client state) :=
  { h with clients := put_sound sha256 h.clients client state hstate }

theorem Moves.movesIntent {records : Records nfc} {call : Call} {successor : Successor nfc}
    (h : Moves sha256 records call successor) :
    (install records successor).intent.version = records.intent.version + if call.movesIntent then 1 else 0 := by
  cases h with
  | command => rfl
  | tombstone => rfl
  | activate input commit activates =>
    show commit.intent.version = _
    rw [activates.intentAfter]
    rfl
  | consume => exact (Int.add_zero _).symm

theorem Moves.attempt {records : Records nfc} {call : Call} {successor : Successor nfc}
    (h : Moves sha256 records call successor) (hcall : call.isActivation = false) :
    (install records successor).attempt = records.attempt := by
  cases h with
  | activate => cases hcall
  | _ => rfl

theorem Moves.activation {records : Records nfc} {call : Call} {commit : ActivationCommit nfc}
    (h : Moves sha256 records call (.activation commit)) :
    call.isActivation = true ∧ Activates sha256 records.intent records.attempt commit := by
  cases h with
  | activate input commit activates => exact ⟨rfl, activates⟩

theorem Moves.activation_of {records : Records nfc} {call : Call} {successor : Successor nfc}
    (h : Moves sha256 records call successor) (hcall : call.isActivation = true) :
    ∃ commit, successor = .activation commit ∧ Activates sha256 records.intent records.attempt commit := by
  cases h with
  | activate input commit activates => exact ⟨commit, rfl, activates⟩
  | _ => cases hcall

/-- One commit on top of a race. -/
theorem Raced.commit {start : Records nfc} {race : EffectRace nfc} (h : Raced sha256 start race) (client : ℕ) (call : Call)
    (successor : Successor nfc) (hreduce : reduce sha256 race.records call = some successor) :
    Raced sha256 start
      { (race.put client .idle) with
        records := install race.records successor
        log := race.log ++ [⟨race.records, call, successor⟩] } := by
  have hmoves := reduce_moves sha256 race.records h.supervised.parses call successor hreduce
  have hbehind := hmoves.behind sha256 h.supervised
  refine ⟨h.supervised.moves sha256 call successor hmoves, ?_, ?_, ?_, ?_, ?_, ?_, ?_, ?_⟩
  · exact fun c => Client.Sound.behind sha256 (put_sound sha256 h.clients client .idle trivial c) hbehind
  · intro entry hentry
    rcases List.mem_append.mp hentry with hold | hnew
    · exact h.entries entry hold
    · obtain rfl := List.mem_singleton.mp hnew
      exact ⟨h.supervised, hmoves⟩
  · rw [List.map_append, run_append, ← h.linear]
    show _ = supervise sha256 race.records call
    rw [supervise, hreduce]
  · show (install race.records successor).intent.version = _
    rw [hmoves.movesIntent, h.versions, List.countP_append, List.countP_singleton]
    push_cast
    omega
  · intro hlaunching
    have hnot : call.isActivation = false := by
      rw [← Bool.not_eq_true]
      intro hcall
      obtain ⟨commit, rfl, hactivates⟩ := hmoves.activation_of sha256 hcall
      have hstate : commit.attempt.state = .RUNNING := by rw [hactivates.attemptAfter]
      exact absurd (hstate.symm.trans hlaunching) (by decide)
    have hbefore : race.records.attempt.state = .LAUNCH_REQUESTED := by
      rw [← hmoves.attempt sha256 hnot]
      exact hlaunching
    rw [List.countP_append, List.countP_singleton, h.idle hbefore, hnot]
    rfl
  · rw [List.countP_append, List.countP_singleton]
    dsimp only
    split
    · rename_i hcall
      obtain ⟨commit, _, hactivates⟩ := hmoves.activation_of sha256 hcall
      rw [h.idle hactivates.launching]
    · exact h.once
  · intro entry hentry commit hcommit
    rcases List.mem_append.mp hentry with hold | hnew
    · exact ((h.installed entry hold commit hcommit).moves sha256 h.supervised call successor hmoves).1
    · obtain rfl := List.mem_singleton.mp hnew
      obtain rfl : successor = .activation commit := hcommit
      exact (hmoves.activation sha256).2.installed sha256
  · intro entry hentry hcall
    rcases List.mem_append.mp hentry with hold | hnew
    · exact ((h.withdrawn entry hold hcall).moves sha256 h.supervised call successor hmoves).1
    · obtain rfl := List.mem_singleton.mp hnew
      exact hmoves.withdraws sha256 h.supervised call successor hcall

theorem Raced.step {start : Records nfc} {race : EffectRace nfc} (h : Raced sha256 start race) (move : RaceMove) :
    Raced sha256 start (raceStep sha256 race move) := by
  cases move with
  | read client => exact h.put sha256 client _ ⟨h.supervised, Behind.refl _⟩
  | call client call =>
    have hclient := h.clients client
    unfold raceStep
    dsimp only
    split
    · rename_i snapshot hholding
      rw [hholding] at hclient
      split
      · rename_i successor hreduce
        exact h.put sha256 client _ ⟨hclient.2, hreduce⟩
      · exact h.put sha256 client _ trivial
    · exact h
  | commit client =>
    have hclient := h.clients client
    unfold raceStep
    dsimp only
    split
    · rename_i snapshot call successor hproposing
      rw [hproposing] at hclient
      split
      · rename_i hunchanged
        exact h.commit sha256 client call successor
          (reduce_congr sha256 snapshot race.records call successor hclient.2 hclient.1 hunchanged)
      · exact h.put sha256 client _ trivial
    · exact h

theorem run_raced (start : Records nfc) (h : Fresh start) (moves : List RaceMove) :
    Raced sha256 start (run (raceStep sha256) (raceStart start) moves) := by
  refine run_invariant (raceStep sha256) (Raced sha256 start) (fun _ move hr => hr.step sha256 move) (raceStart start) ?_ moves
  exact ⟨h.supervised sha256, fun _ => trivial, fun _ hentry => absurd hentry List.not_mem_nil, rfl, (Int.add_zero _).symm,
    fun _ => rfl, Nat.zero_le _, fun _ hentry => absurd hentry List.not_mem_nil, fun _ hentry => absurd hentry List.not_mem_nil⟩

/-! ### Start against cancel -/

/-- The records are read back as they were written. -/
structure ReadsBack (records : Records nfc) : Prop where
  intent : parseEffectIntent nfc records.intent.toValue = some records.intent
  attempt : parseAttemptSlice nfc records.attempt.toValue = some records.attempt
  grant : ∀ grant ∈ records.grant, parseActivationGrant nfc grant.toValue = some grant

theorem Records.Parses.readsBack {records : Records nfc} (h : records.Parses) : ReadsBack records :=
  ⟨parseEffectIntent_toValue _ h.intent, parseAttemptSlice_toValue _ h.attempt,
    fun grant hgrant => parseActivationGrant_toValue grant (h.grant grant hgrant)⟩

def EffectRace.activated (race : EffectRace nfc) : Prop := ∃ entry ∈ race.log, entry.call.isActivation = true

structure StartCancelLaw (start : Records nfc) (race : EffectRace nfc) : Prop where
  parses : ∀ entry ∈ race.log, ReadsBack entry.after
  increments : ∀ entry ∈ race.log,
    entry.after.intent.version = entry.before.intent.version + if entry.call.movesIntent then 1 else 0
  versions : race.records.intent.version = start.intent.version + race.log.countP fun entry => entry.call.movesIntent
  linear : race.records = run (supervise sha256) start (race.log.map Committed.call)
  once : (race.log.countP fun entry => entry.call.isActivation) ≤ 1
  exclusive : race.activated → ∀ entry ∈ race.log, entry.call.isTombstone = false ∧ entry.call.isCancel = false
  undisturbed : race.activated → ∀ (next : EffectIntent nfc) (result : Option (EffectResult nfc)),
    applyEffectCommand sha256 race.records.intent.toValue ClientCommand.requestCancel.toValue ≠ .transitioned next result
  drains : race.records.intent.state = .ACTIVE → race.records.intent.version < maxSupervisorCount →
    applyEffectCommand sha256 race.records.intent.toValue ClientCommand.requestCancel.toValue = .mustDrain race.records.intent
  coherent : race.activated → race.records.intent.state = .ACTIVE →
    ∃ entry ∈ race.log, ∃ commit grant, entry.successor = .activation commit ∧ race.records.grant = some grant
      ∧ validateActivationCommit nfc sha256 race.records.intent.toValue race.records.attempt.toValue grant.toValue
        = .coherent commit.activationDigest

theorem Raced.activation {start : Records nfc} {race : EffectRace nfc} (h : Raced sha256 start race)
    (hactivated : race.activated) :
    ∃ entry ∈ race.log, ∃ commit, entry.successor = .activation commit ∧ Installed sha256 commit race.records := by
  obtain ⟨entry, hentry, hcall⟩ := hactivated
  obtain ⟨commit, hcommit, _⟩ := (h.entries entry hentry).2.activation_of sha256 hcall
  exact ⟨entry, hentry, commit, hcommit, h.installed entry hentry commit hcommit⟩

theorem Raced.exclusive {start : Records nfc} {race : EffectRace nfc} (h : Raced sha256 start race) (hactivated : race.activated)
    (entry : Committed nfc) (hentry : entry ∈ race.log) :
    entry.call.isTombstone = false ∧ entry.call.isCancel = false := by
  obtain ⟨_, _, commit, _, hinstalled⟩ := h.activation sha256 hactivated
  have hnot : ¬ (entry.call.isTombstone = true ∨ entry.call.isCancel = true) := fun hcall =>
    absurd (hinstalled.running.symm.trans (h.withdrawn entry hentry hcall).1) (by decide)
  push Not at hnot
  exact ⟨Bool.not_eq_true _ ▸ hnot.1, Bool.not_eq_true _ ▸ hnot.2⟩

theorem Raced.undisturbed {start : Records nfc} {race : EffectRace nfc} (h : Raced sha256 start race)
    (hactivated : race.activated) (next : EffectIntent nfc) (result : Option (EffectResult nfc)) :
    applyEffectCommand sha256 race.records.intent.toValue ClientCommand.requestCancel.toValue ≠ .transitioned next result := by
  intro houtcome
  obtain ⟨_, _, commit, _, hinstalled⟩ := h.activation sha256 hactivated
  have hreduce : reduce sha256 race.records (.command .requestCancel) = some (.intent next) := by
    rw [reduce, houtcome]
    rfl
  have hmoves := reduce_moves sha256 race.records h.supervised.parses _ _ hreduce
  exact absurd (hinstalled.moves sha256 h.supervised _ _ hmoves).2.2.2 (by decide)

theorem applyEffectCommand_drains (intent : EffectIntent nfc) (hcount : isCount intent.version = true)
    (hactive : intent.state = .ACTIVE) (hbelow : intent.version < maxSupervisorCount) :
    applyEffectCommand sha256 intent.toValue ClientCommand.requestCancel.toValue = .mustDrain intent := by
  unfold applyEffectCommand
  rw [parseEffectIntent_toValue intent hcount,
    show parseCommandInput ClientCommand.requestCancel.toValue = some (.simple .requestCancel) from rfl]
  dsimp only
  rw [if_neg (by omega), hactive, if_neg (by decide), if_pos ⟨rfl, rfl⟩]

theorem Raced.coherent {start : Records nfc} {race : EffectRace nfc} (h : Raced sha256 start race) (hactivated : race.activated)
    (hactive : race.records.intent.state = .ACTIVE) :
    ∃ entry ∈ race.log, ∃ commit grant, entry.successor = .activation commit ∧ race.records.grant = some grant
      ∧ validateActivationCommit nfc sha256 race.records.intent.toValue race.records.attempt.toValue grant.toValue
        = .coherent commit.activationDigest := by
  obtain ⟨entry, hentry, commit, hcommit, hinstalled⟩ := h.activation sha256 hactivated
  obtain ⟨grant, hgrant, hid, hintent, hwrapper⟩ := hinstalled.grant
  have hderives : Derives sha256 race.records.intent race.records.attempt grant commit.activationDigest := by
    have hd := hinstalled.derives
    rw [hinstalled.intent hactive, hinstalled.attempt]
    refine ⟨hd.attemptIntent, hd.attemptAggregate, hintent.trans hd.grantIntent, ?_, ?_⟩
    · rw [hwrapper]
      exact hd.digest
    · rw [hid]
      exact hd.grantId
  exact ⟨entry, hentry, commit, grant, hcommit, hgrant,
    hderives.coherent sha256 h.supervised.parses.intent h.supervised.parses.attempt (h.supervised.parses.grant grant hgrant)
      hactive hinstalled.running⟩

theorem start_cancel_law (start : Records nfc) (h : Fresh start) (moves : List RaceMove) :
    StartCancelLaw sha256 start (run (raceStep sha256) (raceStart start) moves) := by
  have hraced := run_raced sha256 start h moves
  refine ⟨fun entry hentry => ?_, fun entry hentry => ?_, hraced.versions, hraced.linear, hraced.once,
    hraced.exclusive sha256, hraced.undisturbed sha256, fun hactive hbelow => ?_, hraced.coherent sha256⟩
  · obtain ⟨hbefore, hmoves⟩ := hraced.entries entry hentry
    exact (hbefore.moves sha256 entry.call entry.successor hmoves).parses.readsBack
  · exact (hraced.entries entry hentry).2.movesIntent
  · exact applyEffectCommand_drains sha256 _ hraced.supervised.parses.intent hactive hbelow

end Race

/-! ### An activation, a cancellation and a tombstone on one armed effect -/

def sampleMoves : List RaceMove := [
  .read 0, .call 0 (.command .claim), .commit 0, .read 1, .call 1 (.command .arm), .commit 1,
  .read 0, .read 1, .read 2, .call 0 (.activate sampleActivation), .call 1 (.command .requestCancel),
  .call 2 (.tombstone sampleTombstone.toValue), .commit 0, .commit 1, .commit 2,
  .read 1, .call 1 (.consume (.string (lit "wrapper-1"))), .commit 1]

def sampleRace : EffectRace id := run (raceStep sampleSha256) (raceStart sampleRecords) sampleMoves

theorem start_cancel_law_contended :
    (sampleRace.log.map fun entry => (entry.call.isActivation, entry.after.intent.version))
        = [(false, 1), (false, 2), (true, 3), (false, 3)]
      ∧ sampleRace.records.intent.state = .ACTIVE ∧ StartCancelLaw sampleSha256 sampleRecords sampleRace := by
  have hrun : (sampleRace.log.map fun entry => (entry.call.isActivation, entry.after.intent.version))
      = [(false, 1), (false, 2), (true, 3), (false, 3)] ∧ sampleRace.records.intent.state = .ACTIVE := by decide +kernel
  exact ⟨hrun.1, hrun.2, start_cancel_law sampleSha256 sampleRecords sampleRecords_fresh sampleMoves⟩

end MoeNG.Supervisor
