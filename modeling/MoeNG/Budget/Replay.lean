import MoeNG.Budget.AccountInvariant

/-!
# Ledger replay (`budget/budget-account-replay.ts`)

Replay rebuilds each command from the entries it emitted and runs the live
transition on it, then insists that the transition emits the same entries
again. It is compared with live application in both directions: a live history
replays to the live state, and whatever replays is a live history.
-/

namespace MoeNG.Budget
open MoeNG.Kernel MoeNG.Lib
open Account

/-! ### The replayer (`budget-account-replay.ts:23-148`) -/

namespace Replay

def versionOf (state : BudgetLedgerState) (accountId : JsString) : Option ℤ := (find state accountId).map (·.version)

def ownerOf (state : BudgetLedgerState) (accountId : JsString) : Option JsString :=
  (find state accountId).map (·.ownerRef)

def applyClose (state : BudgetLedgerState) (first : BudgetLedgerEntry) : BudgetLedgerResult :=
  let accountId := first.fromRef.getD []
  closeBudgetAccount state ⟨accountId, (versionOf state accountId).getD (-1)⟩

def movementCommand (state : BudgetLedgerState) (first : BudgetLedgerEntry) (group : List BudgetLedgerEntry) :
    BudgetMovementCommand :=
  let allocating : Bool := first.kind = .ALLOCATED
  let parentAccountId := (if allocating then first.fromRef else first.toRef).getD []
  let childAccountId := (if allocating then first.toRef else first.fromRef).getD []
  { parentAccountId := parentAccountId
    childAccountId := childAccountId
    childOwnerRef := (first.ownerRef.or (ownerOf state childAccountId)).getD []
    expectedParentVersion := (versionOf state parentAccountId).getD (-1)
    expectedChildVersion := versionOf state childAccountId
    amounts := group.map fun entry => ⟨entry.meter, entry.amount⟩ }

def applyMovementGroup (state : BudgetLedgerState) (first : BudgetLedgerEntry) (group : List BudgetLedgerEntry) :
    BudgetLedgerResult :=
  if first.kind = .ALLOCATED then allocateToChild state (movementCommand state first group)
  else returnToParent state (movementCommand state first group)

-- a non-empty group, given by its first entry and the rest
def applyCanonicalGroup (state : BudgetLedgerState) (first : BudgetLedgerEntry) (rest : List BudgetLedgerEntry) :
    BudgetLedgerResult :=
  let group := first :: rest
  if group.any fun entry => entry.kind ≠ first.kind then
    refuseMalformedBudgetReplay state "replay group mixes entry kinds"
  else if group.any fun entry => entry.kind = .ROOT_OPENED then
    refuseMalformedBudgetReplay state "replay repeats the root delta"
  else if first.kind ≠ .CLOSED ∧
      (group.any fun entry => entry.fromRef ≠ first.fromRef ∨ entry.toRef ≠ first.toRef) = true then
    refuseMalformedBudgetReplay state "replay group spans more than one movement"
  else
    match if first.kind = .CLOSED then applyClose state first else applyMovementGroup state first group with
    | .fail state issues => .fail state issues
    | .accept applied =>
      if applied.entries.drop state.entries.length = group then .accept applied
      else refuseMalformedBudgetReplay state "replay group differs from the canonical delta"

def replayGroups (state : BudgetLedgerState) : List (List BudgetLedgerEntry) → BudgetLedgerResult
  | [] => .accept state
  | [] :: groups => replayGroups state groups
  | (first :: rest) :: groups =>
    match applyCanonicalGroup state first rest with
    | .fail state issues => .fail state issues
    | .accept applied => replayGroups applied groups

end Replay

open Replay

def replayBudgetLedger (authorization : BudgetAuthorization) (commands : List (List BudgetLedgerEntry)) :
    BudgetLedgerResult :=
  match openBudgetRoot authorization with
  | .fail state issues => .fail state issues
  | .accept opened =>
    match commands with
    | [] => refuseMalformedBudgetReplay opened "replay root differs from authorization"
    | rootGroup :: groups =>
      if opened.entries = rootGroup then replayGroups opened groups
      else refuseMalformedBudgetReplay opened "replay root differs from authorization"

/-! ### Live histories -/

/-- The entries each command appended, one group per command. -/
def liveGroups (s : BudgetLedgerState) : List BudgetCommand → List (List BudgetLedgerEntry)
  | [] => []
  | c :: rest => (ledgerStep s c).entries.drop s.entries.length :: liveGroups (ledgerStep s c) rest

/-! ### A live command is rebuilt from its entries -/

theorem applyMovement_owner (s : BudgetLedgerState) (command : BudgetMovementCommand) (kind : MovementKind)
    (r : BudgetAccountRecord) (owner : JsString) (hfind : find s command.childAccountId = some r)
    (howner : isRef owner = true) (hgiven : isRef command.childOwnerRef = true) :
    applyMovement s { command with childOwnerRef := owner } kind = applyMovement s command kind := by
  unfold applyMovement
  simp only [howner, hgiven, hfind, Option.getD_some]
  rfl

section Forward
variable {authorization : BudgetAuthorization} {s s' : BudgetLedgerState} {command : BudgetMovementCommand}
  {kind : MovementKind} {parent child : BudgetAccountRecord}

theorem movementEntries_cons (start : ℕ) (fresh : Bool) (e : BudgetMeterAmount) (es : List BudgetMeterAmount)
    (h : command.amounts = e :: es) :
    ∃ first rest, movementEntries start command kind fresh = first :: rest
      ∧ first.kind = kind.entryKind
      ∧ first.fromRef = some (if kind = .ALLOCATED then command.parentAccountId else command.childAccountId)
      ∧ first.toRef = some (if kind = .ALLOCATED then command.childAccountId else command.parentAccountId)
      ∧ first.ownerRef = (if fresh then some command.childOwnerRef else none) := by
  unfold movementEntries
  rw [h, List.mapIdx_cons]
  exact ⟨_, _, rfl, rfl, rfl, rfl, rfl⟩

theorem movementEntries_mem (start : ℕ) (fresh : Bool) (entry : BudgetLedgerEntry)
    (h : entry ∈ movementEntries start command kind fresh) :
    entry.kind = kind.entryKind
      ∧ entry.fromRef = some (if kind = .ALLOCATED then command.parentAccountId else command.childAccountId)
      ∧ entry.toRef = some (if kind = .ALLOCATED then command.childAccountId else command.parentAccountId) := by
  unfold movementEntries at h
  obtain ⟨i, hi, rfl⟩ := List.mem_mapIdx.mp h
  exact ⟨rfl, rfl, rfl⟩

theorem movementEntries_amounts (start : ℕ) (fresh : Bool) :
    (movementEntries start command kind fresh).map (fun entry => (⟨entry.meter, entry.amount⟩ : BudgetMeterAmount)) =
      command.amounts := by
  unfold movementEntries
  apply List.ext_getElem?
  intro i
  rw [List.getElem?_map, List.getElem?_mapIdx]
  cases command.amounts[i]? <;> rfl

theorem MovementAccepted.rebuilt (hs : LedgerInv authorization s)
    (h : MovementAccepted s s' command kind parent child) (first : BudgetLedgerEntry) (group : List BudgetLedgerEntry)
    (hgroup : group = movementEntries s.entries.length command kind (find s command.childAccountId).isNone)
    (hkind : first.kind = kind.entryKind)
    (hfrom : first.fromRef = some (if kind = .ALLOCATED then command.parentAccountId else command.childAccountId))
    (hto : first.toRef = some (if kind = .ALLOCATED then command.childAccountId else command.parentAccountId))
    (howner : first.ownerRef =
      if (find s command.childAccountId).isNone then some command.childOwnerRef else none) :
    ∃ owner, isRef owner = true ∧ movementCommand s first group = { command with childOwnerRef := owner }
      ∧ (find s command.childAccountId = none → owner = command.childOwnerRef) := by
  have hamounts : (group.map fun entry => (⟨entry.meter, entry.amount⟩ : BudgetMeterAmount)) = command.amounts := by
    rw [hgroup]
    exact movementEntries_amounts _ _
  have hparentRef : (if decide (first.kind = .ALLOCATED) then first.fromRef else first.toRef) =
      some command.parentAccountId := by
    rw [hkind, hfrom, hto]
    cases kind <;> rfl
  have hchildRef : (if decide (first.kind = .ALLOCATED) then first.toRef else first.fromRef) =
      some command.childAccountId := by
    rw [hkind, hfrom, hto]
    cases kind <;> rfl
  refine ⟨(first.ownerRef.or (ownerOf s command.childAccountId)).getD [], ?_, ?_, ?_⟩
  · rw [howner]
    unfold ownerOf
    cases hf : find s command.childAccountId with
    | none => exact h.ownerRef
    | some r => exact hs.owners r (find_mem s _ r hf)
  · unfold movementCommand
    dsimp only
    rw [hparentRef, hchildRef, hamounts]
    unfold Replay.versionOf
    rw [Option.getD_some, Option.getD_some, h.parentFound, Option.map_some, Option.getD_some, ← h.versions.1,
      ← h.versions.2]
  · intro hf
    rw [howner, hf]
    rfl

theorem MovementAccepted.replayed (hs : LedgerInv authorization s)
    (h : MovementAccepted s s' command kind parent child) (happly : applyMovement s command kind = .accept s') :
    ∃ first rest, s'.entries.drop s.entries.length = first :: rest
      ∧ applyCanonicalGroup s first rest = .accept s' := by
  have hadded : s'.entries.drop s.entries.length =
      movementEntries s.entries.length command kind (find s command.childAccountId).isNone := by
    rw [h.state]
    exact List.drop_left
  cases ham : command.amounts with
  | nil =>
    have hlen := h.amounts.1
    simp [ham] at hlen
  | cons e es =>
    obtain ⟨first, rest, hcons, hkind, hfrom, hto, howner⟩ := @movementEntries_cons command kind s.entries.length
      (find s command.childAccountId).isNone e es ham
    refine ⟨first, rest, hadded.trans hcons, ?_⟩
    have hall : ∀ entry ∈ first :: rest, entry.kind = first.kind ∧ entry.fromRef = first.fromRef
        ∧ entry.toRef = first.toRef := by
      intro entry hentry
      rw [← hcons] at hentry
      obtain ⟨h1, h2, h3⟩ := movementEntries_mem _ _ entry hentry
      exact ⟨h1.trans hkind.symm, h2.trans hfrom.symm, h3.trans hto.symm⟩
    have hmixed : ((first :: rest).any fun entry => decide (entry.kind ≠ first.kind)) = false := by
      rw [List.any_eq_false]
      intro entry hentry
      simp [(hall entry hentry).1]
    have hroot : ((first :: rest).any fun entry => decide (entry.kind = .ROOT_OPENED)) = false := by
      rw [List.any_eq_false]
      intro entry hentry
      rw [(hall entry hentry).1, hkind]
      cases kind <;> decide
    have hspans : ((first :: rest).any fun entry =>
        decide (entry.fromRef ≠ first.fromRef ∨ entry.toRef ≠ first.toRef)) = false := by
      rw [List.any_eq_false]
      intro entry hentry
      simp [(hall entry hentry).2.1, (hall entry hentry).2.2]
    have hnotClosed : first.kind ≠ .CLOSED := by
      rw [hkind]
      cases kind <;> decide
    obtain ⟨owner, hownerRef, hcommand, hfresh⟩ := MovementAccepted.rebuilt hs h first (first :: rest) hcons.symm
      hkind hfrom hto howner
    -- with the child known, its owner is read from the state and no longer from the command
    have hsame : applyMovement s (movementCommand s first (first :: rest)) kind = .accept s' := by
      rw [hcommand, ← happly]
      cases hf : find s command.childAccountId with
      | none => rw [hfresh hf]
      | some r => exact applyMovement_owner s command kind r owner hf hownerRef h.ownerRef
    have hgroup : applyMovementGroup s first (first :: rest) = .accept s' := by
      unfold applyMovementGroup allocateToChild returnToParent
      rw [hkind]
      cases kind with
      | ALLOCATED => exact hsame
      | RETURNED => exact hsame
    unfold applyCanonicalGroup
    dsimp only
    rw [if_neg (by rw [hmixed]; decide), if_neg (by rw [hroot]; decide), if_neg (by rw [hspans]; simp),
      if_neg hnotClosed, hgroup]
    exact if_pos (hadded.trans hcons)

theorem CloseAccepted.replayed {close : BudgetCloseCommand} {record : BudgetAccountRecord}
    (h : CloseAccepted s s' close record) (happly : closeBudgetAccount s close = .accept s') :
    ∃ first rest, s'.entries.drop s.entries.length = first :: rest
      ∧ applyCanonicalGroup s first rest = .accept s' := by
  have hadded : s'.entries.drop s.entries.length =
      [⟨s.entries.length, .CLOSED, [], 0, some record.accountId, none, none⟩] := by
    rw [h.state]
    exact List.drop_left
  have hid : record.accountId = close.accountId := find_accountId s _ record h.found
  refine ⟨_, _, hadded, ?_⟩
  have hcommand : applyClose s ⟨s.entries.length, .CLOSED, [], 0, some record.accountId, none, none⟩ = .accept s' := by
    unfold applyClose Replay.versionOf
    dsimp only [Option.getD_some]
    rw [hid, h.found, Option.map_some, Option.getD_some, h.version]
    exact happly
  unfold applyCanonicalGroup
  dsimp only
  rw [if_neg (by simp), if_neg (by simp), if_neg (by simp), if_pos rfl, hcommand]
  exact if_pos hadded

theorem LedgerInv.replay_step (hs : LedgerInv authorization s) (c : BudgetCommand)
    (groups : List (List BudgetLedgerEntry)) :
    replayGroups s ((ledgerStep s c).entries.drop s.entries.length :: groups) =
      replayGroups (ledgerStep s c) groups := by
  unfold ledgerStep
  cases happly : applyCommand s c with
  | fail s' issues =>
    have hsame := applyCommand_fail s s' issues c happly
    have hnil : (BudgetLedgerResult.fail s' issues).state.entries.drop s.entries.length = [] := by
      rw [hsame]
      exact List.drop_length
    rw [hnil, hsame]
    rfl
  | accept s' =>
    have hstep : ∃ first rest, s'.entries.drop s.entries.length = first :: rest
        ∧ applyCanonicalGroup s first rest = .accept s' := by
      cases c with
      | allocate command =>
        obtain ⟨parent, child, hmove⟩ := applyMovement_accept s s' command .ALLOCATED happly
        exact MovementAccepted.replayed hs hmove happly
      | giveBack command =>
        obtain ⟨parent, child, hmove⟩ := applyMovement_accept s s' command .RETURNED happly
        exact MovementAccepted.replayed hs hmove happly
      | close command =>
        obtain ⟨record, hclose⟩ := closeBudgetAccount_accept s s' command happly
        exact CloseAccepted.replayed hclose happly
    obtain ⟨first, rest, hgroup, hcanonical⟩ := hstep
    show replayGroups s (s'.entries.drop s.entries.length :: groups) = replayGroups s' groups
    rw [hgroup]
    simp only [replayGroups, hcanonical]

theorem LedgerInv.replay_run (hs : LedgerInv authorization s) (commands : List BudgetCommand) :
    replayGroups s (liveGroups s commands) = .accept (Lib.run ledgerStep s commands) := by
  induction commands generalizing s with
  | nil => rfl
  | cons c rest ih =>
    unfold liveGroups
    rw [hs.replay_step c, ih (hs.step c)]
    rfl

end Forward

/-! ### Whatever replays is a live history -/

theorem applyCommand_entries (s s' : BudgetLedgerState) (c : BudgetCommand) (h : applyCommand s c = .accept s') :
    ∃ added, s'.entries = s.entries ++ added := by
  cases c with
  | allocate command =>
    obtain ⟨_, _, hmove⟩ := applyMovement_accept s s' command .ALLOCATED h
    exact ⟨_, by rw [hmove.state]⟩
  | giveBack command =>
    obtain ⟨_, _, hmove⟩ := applyMovement_accept s s' command .RETURNED h
    exact ⟨_, by rw [hmove.state]⟩
  | close command =>
    obtain ⟨_, hclose⟩ := closeBudgetAccount_accept s s' command h
    exact ⟨_, by rw [hclose.state]⟩

theorem applyCanonicalGroup_live (s s' : BudgetLedgerState) (first : BudgetLedgerEntry)
    (rest : List BudgetLedgerEntry) (h : applyCanonicalGroup s first rest = .accept s') :
    (∃ c, applyCommand s c = .accept s') ∧ s'.entries = s.entries ++ first :: rest := by
  unfold applyCanonicalGroup refuseMalformedBudgetReplay Account.fail at h
  dsimp only at h
  split at h
  · cases h
  split at h
  · cases h
  split at h
  · cases h
  split at h
  · cases h
  rename_i applied happlied
  split at h
  swap
  · cases h
  rename_i hdelta
  injection h with hs
  subst hs
  have hlive : ∃ c, applyCommand s c = .accept applied := by
    split at happlied
    · exact ⟨.close _, happlied⟩
    · unfold applyMovementGroup at happlied
      split at happlied
      · exact ⟨.allocate _, happlied⟩
      · exact ⟨.giveBack _, happlied⟩
  obtain ⟨c, hc⟩ := hlive
  obtain ⟨added, hadded⟩ := applyCommand_entries s applied c hc
  refine ⟨⟨c, hc⟩, ?_⟩
  rw [hadded, List.drop_left] at hdelta
  rw [hadded, hdelta]

theorem replayGroups_live (s s' : BudgetLedgerState) (groups : List (List BudgetLedgerEntry))
    (h : replayGroups s groups = .accept s') :
    s'.entries = s.entries ++ groups.flatten ∧ ∃ commands, s' = run ledgerStep s commands := by
  induction groups generalizing s with
  | nil =>
    injection h with hs
    subst hs
    exact ⟨by simp, [], rfl⟩
  | cons group groups ih =>
    cases group with
    | nil => exact ih s h
    | cons first rest =>
      simp only [replayGroups] at h
      split at h
      · cases h
      rename_i applied happlied
      obtain ⟨⟨c, hc⟩, hentries⟩ := applyCanonicalGroup_live s applied first rest happlied
      obtain ⟨hrest, commands, hrun⟩ := ih applied h
      refine ⟨?_, c :: commands, ?_⟩
      · rw [hrest, hentries, List.flatten_cons, List.append_assoc]
      · rw [hrun, run_cons]
        unfold ledgerStep
        rw [hc]
        rfl

/-- Budget replay equals live application. The groups of a live history replay
to exactly the live state; and any groups that replay are the entries of a
state some live commands reach. -/
theorem replay_equals_live (authorization : BudgetAuthorization) :
    (∀ start commands, openBudgetRoot authorization = .accept start →
        replayBudgetLedger authorization (start.entries :: liveGroups start commands) =
          .accept (run ledgerStep start commands))
      ∧ ∀ groups s, replayBudgetLedger authorization groups = .accept s →
          s.entries = groups.flatten
            ∧ ∃ start commands, openBudgetRoot authorization = .accept start ∧ s = run ledgerStep start commands := by
  refine ⟨fun start commands hopen => ?_, fun groups s h => ?_⟩
  · have hs := LedgerInv.opened (openBudgetRoot_accept authorization start hopen)
    unfold replayBudgetLedger
    rw [hopen]
    dsimp only
    rw [if_pos rfl]
    exact hs.replay_run commands
  · unfold replayBudgetLedger at h
    split at h
    · cases h
    rename_i opened hopen
    cases groups with
    | nil => cases h
    | cons rootGroup groups =>
      dsimp only at h
      split at h
      swap
      · cases h
      rename_i hroot
      obtain ⟨hentries, commands, hrun⟩ := replayGroups_live opened s groups h
      exact ⟨by rw [hentries, hroot, List.flatten_cons], opened, commands, hopen, hrun⟩

theorem replay_equals_live_kid :
    ∃ start, openBudgetRoot tenTokens = .accept start
      ∧ replayBudgetLedger tenTokens (start.entries :: liveGroups start fundAndClose) =
          .accept (run ledgerStep start fundAndClose)
      ∧ (liveGroups start fundAndClose).map List.length = [1, 0, 1, 1] :=
  ⟨(openBudgetRoot tenTokens).state, by decide +kernel,
    (replay_equals_live tenTokens).1 _ fundAndClose (by decide +kernel), by decide +kernel⟩

end MoeNG.Budget
