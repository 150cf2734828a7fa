import MoeNG.Budget.Account

/-!
# What an accepted ledger command did

The bucket loop in closed form, and one lemma per transition. Both movement
kinds become one: the parent's rows move by `sign` and the child's by `-sign`.
-/

namespace MoeNG.Budget
open MoeNG.Kernel MoeNG.Lib

namespace Account

/-! ### The bucket loop -/

def meterNames (rows : List BudgetMeterBuckets) : List JsString := rows.map BudgetMeterBuckets.meter

def amountAt (amounts : List BudgetMeterAmount) (meter : JsString) : ℤ :=
  OrdMap.sumAt BudgetMeterAmount.meter BudgetMeterAmount.amount amounts meter

def rowsAt (rows : List BudgetMeterBuckets) (meter : JsString) : ℤ :=
  OrdMap.sumAt BudgetMeterBuckets.meter BudgetMeterBuckets.total rows meter

def credit (sign : ℤ) (amounts : List BudgetMeterAmount) (row : BudgetMeterBuckets) : BudgetMeterBuckets :=
  { row with available := row.available + sign * amountAt amounts row.meter }

-- the amounts whose meter is not carried yet
def unknownTo (rows : List BudgetMeterBuckets) (amounts : List BudgetMeterAmount) : List BudgetMeterAmount :=
  amounts.filter fun e => e.meter ∉ meterNames rows

theorem shiftOne_mem (sign : ℤ) (e : BudgetMeterAmount) (rows : List BudgetMeterBuckets) (hrows : (meterNames rows).Nodup)
    (h : e.meter ∈ meterNames rows) : shiftOne sign e rows = rows.map (credit sign [e]) := by
  have hone : ∀ row : BudgetMeterBuckets, row.meter ≠ e.meter → credit sign [e] row = row := by
    intro row hrow
    have hne : e.meter ≠ row.meter := fun h => hrow h.symm
    simp [credit, amountAt, hne]
  induction rows with
  | nil => cases h
  | cons found rest ih =>
    obtain ⟨hfresh, hrest⟩ := List.nodup_cons.mp hrows
    unfold shiftOne
    split
    · rename_i heq
      have htail : rest.map (credit sign [e]) = rest := by
        apply map_eq_self
        intro row hrow
        refine hone row fun hm => hfresh ?_
        rw [heq, ← hm]
        exact List.mem_map_of_mem (f := BudgetMeterBuckets.meter) hrow
      rw [List.map_cons, htail]
      simp [credit, amountAt, heq]
    · rename_i hne
      have hmem : e.meter ∈ meterNames rest := by
        rcases List.mem_cons.mp h with h | h
        · exact absurd h.symm hne
        · exact h
      rw [List.map_cons, ih hrest hmem, hone found hne]

theorem shiftOne_not_mem (sign : ℤ) (e : BudgetMeterAmount) (rows : List BudgetMeterBuckets)
    (h : e.meter ∉ meterNames rows) : shiftOne sign e rows = rows ++ [zeroBucket e.meter e.amount] := by
  induction rows with
  | nil => rfl
  | cons found rest ih =>
    simp only [meterNames, List.map_cons, List.mem_cons, not_or] at h
    have hne : found.meter ≠ e.meter := fun heq => h.1 heq.symm
    unfold shiftOne
    rw [if_neg hne, ih h.2, List.cons_append]

theorem meterNames_credit (sign : ℤ) (amounts : List BudgetMeterAmount) (rows : List BudgetMeterBuckets) :
    meterNames (rows.map (credit sign amounts)) = meterNames rows := by
  unfold meterNames
  rw [List.map_map]
  rfl

theorem credit_cons (sign : ℤ) (e : BudgetMeterAmount) (amounts : List BudgetMeterAmount) (row : BudgetMeterBuckets) :
    credit sign amounts (credit sign [e] row) = credit sign (e :: amounts) row := by
  simp only [credit, amountAt, OrdMap.sumAt_cons, OrdMap.sumAt_nil, mul_add, mul_zero]
  congr 1
  omega

/-- The loop credits every carried meter once and appends the others. -/
theorem foldl_shiftOne (sign : ℤ) (amounts : List BudgetMeterAmount) (rows : List BudgetMeterBuckets)
    (hrows : (meterNames rows).Nodup) (hamounts : (amounts.map BudgetMeterAmount.meter).Nodup) :
    amounts.foldl (fun next entry => shiftOne sign entry next) rows =
      rows.map (credit sign amounts) ++ (unknownTo rows amounts).map fun e => zeroBucket e.meter e.amount := by
  induction amounts generalizing rows with
  | nil =>
    have hid : ∀ row : BudgetMeterBuckets, credit sign [] row = row := by
      intro row
      simp [credit, amountAt]
    rw [map_eq_self _ rows fun row _ => hid row]
    simp [unknownTo]
  | cons e rest ih =>
    obtain ⟨hfresh, hrest⟩ := List.nodup_cons.mp hamounts
    rw [List.foldl_cons]
    by_cases hm : e.meter ∈ meterNames rows
    · rw [shiftOne_mem sign e rows hrows hm, ih _ (by rw [meterNames_credit]; exact hrows) hrest]
      have hunknown : unknownTo (rows.map (credit sign [e])) rest = unknownTo rows (e :: rest) := by
        unfold unknownTo
        rw [meterNames_credit, List.filter_cons]
        simp [hm]
      rw [hunknown, List.map_map]
      congr 1
      exact List.map_congr_left fun row _ => credit_cons sign e rest row
    · have hnames : meterNames (rows ++ [zeroBucket e.meter e.amount]) = meterNames rows ++ [e.meter] := by
        simp [meterNames, zeroBucket]
      have hnodup : (meterNames (rows ++ [zeroBucket e.meter e.amount])).Nodup := by
        rw [hnames]
        refine List.nodup_append.mpr ⟨hrows, List.nodup_singleton _, ?_⟩
        intro a ha b hb hab
        rw [List.mem_singleton] at hb
        exact hm (hb ▸ hab ▸ ha)
      rw [shiftOne_not_mem sign e rows hm, ih _ hnodup hrest]
      have hunknown : unknownTo (rows ++ [zeroBucket e.meter e.amount]) rest = unknownTo rows rest := by
        unfold unknownTo
        apply List.filter_congr
        intro x hx
        have hne : x.meter ≠ e.meter := fun heq => hfresh (heq ▸ List.mem_map_of_mem (f := BudgetMeterAmount.meter) hx)
        rw [hnames]
        simp [hne]
      have hhead : unknownTo rows (e :: rest) = e :: unknownTo rows rest := by
        unfold unknownTo
        rw [List.filter_cons]
        simp [hm]
      have hzero : amountAt rest e.meter = 0 := OrdMap.sumAt_eq_zero _ _ _ _ hfresh
      have hlast : credit sign rest (zeroBucket e.meter e.amount) = zeroBucket e.meter e.amount := by
        simp [credit, zeroBucket, hzero]
      have hrowsEq : rows.map (credit sign rest) = rows.map (credit sign (e :: rest)) := by
        apply List.map_congr_left
        intro row hrow
        have hne : e.meter ≠ row.meter := fun heq => hm (heq ▸ List.mem_map_of_mem (f := BudgetMeterBuckets.meter) hrow)
        simp [credit, amountAt, hne]
      rw [hunknown, hhead, List.map_append, hrowsEq]
      simp [hlast]

theorem shift_eq (record : BudgetAccountRecord) (amounts : List BudgetMeterAmount) (sign : ℤ)
    (hrows : (meterNames record.meters).Nodup) (hamounts : (amounts.map BudgetMeterAmount.meter).Nodup) :
    shift record amounts sign =
      record.meters.map (credit sign amounts)
        ++ (unknownTo record.meters amounts).map fun e => zeroBucket e.meter e.amount :=
  foldl_shiftOne sign amounts record.meters hrows hamounts

section Shift
variable (record : BudgetAccountRecord) (amounts : List BudgetMeterAmount) (sign : ℤ)
  (hrows : (meterNames record.meters).Nodup) (hamounts : (amounts.map BudgetMeterAmount.meter).Nodup)
include hrows hamounts

theorem shift_names : meterNames (shift record amounts sign) =
    meterNames record.meters ++ (unknownTo record.meters amounts).map BudgetMeterAmount.meter := by
  rw [shift_eq record amounts sign hrows hamounts]
  unfold meterNames
  rw [List.map_append, List.map_map, List.map_map]
  rfl

theorem shift_names_nodup : (meterNames (shift record amounts sign)).Nodup := by
  rw [shift_names record amounts sign hrows hamounts]
  refine List.nodup_append.mpr ⟨hrows, ?_, ?_⟩
  · exact List.Nodup.sublist (List.filter_sublist.map _) hamounts
  · intro a ha b hb hab
    obtain ⟨e, he, rfl⟩ := List.mem_map.mp hb
    have hfresh := (List.mem_filter.mp he).2
    rw [decide_eq_true_eq] at hfresh
    exact hfresh (hab ▸ ha)

theorem shift_names_carried (h : ∀ e ∈ amounts, e.meter ∈ meterNames record.meters) :
    meterNames (shift record amounts sign) = meterNames record.meters := by
  have hnone : unknownTo record.meters amounts = [] := by
    unfold unknownTo
    rw [List.filter_eq_nil_iff]
    intro e he
    simp [h e he]
  rw [shift_names record amounts sign hrows hamounts, hnone]
  simp

theorem shift_credited (hpos : ∀ e ∈ amounts, 0 ≤ e.amount) (h : ∀ b ∈ record.meters, b.Nonneg) :
    ∀ b ∈ shift record amounts 1, b.Nonneg := by
  intro b hb
  rw [shift_eq record amounts 1 hrows hamounts] at hb
  rcases List.mem_append.mp hb with hb | hb
  · obtain ⟨row, hrow, rfl⟩ := List.mem_map.mp hb
    obtain ⟨ha, hr, hq, hc⟩ := h row hrow
    have hsum : 0 ≤ amountAt amounts row.meter := OrdMap.sumAt_nonneg _ _ _ _ hpos
    refine ⟨?_, hr, hq, hc⟩
    simp only [credit]
    omega
  · obtain ⟨e, he, rfl⟩ := List.mem_map.mp hb
    exact ⟨hpos e (List.mem_of_mem_filter he), le_refl 0, le_refl 0, le_refl 0⟩

theorem shift_debited (h : ∀ b ∈ record.meters, b.Nonneg)
    (hcarried : ∀ e ∈ amounts, ∃ b, bucketOf record e.meter = some b ∧ e.amount ≤ b.available) :
    ∀ b ∈ shift record amounts (-1), b.Nonneg := by
  intro b hb
  rw [shift_eq record amounts (-1) hrows hamounts] at hb
  rcases List.mem_append.mp hb with hb | hb
  · obtain ⟨row, hrow, rfl⟩ := List.mem_map.mp hb
    obtain ⟨ha, hr, hq, hc⟩ := h row hrow
    refine ⟨?_, hr, hq, hc⟩
    have hle : amountAt amounts row.meter ≤ row.available := by
      by_cases hm : row.meter ∈ amounts.map BudgetMeterAmount.meter
      · obtain ⟨e, he, hmeter⟩ := List.mem_map.mp hm
        obtain ⟨found, hfound, hle⟩ := hcarried e he
        have hrowFound : bucketOf record row.meter = some row :=
          find_key_of_mem BudgetMeterBuckets.meter record.meters hrows row hrow
        rw [hmeter, hrowFound] at hfound
        have hsum : amountAt amounts row.meter = e.amount :=
          hmeter ▸ OrdMap.sumAt_of_mem BudgetMeterAmount.meter BudgetMeterAmount.amount amounts hamounts e he
        rw [hsum, Option.some.inj hfound]
        exact hle
      · have hzero : amountAt amounts row.meter = 0 := OrdMap.sumAt_eq_zero _ _ _ _ hm
        omega
    simp only [credit]
    omega
  · obtain ⟨e, he, rfl⟩ := List.mem_map.mp hb
    obtain ⟨he, hfresh⟩ := List.mem_filter.mp he
    obtain ⟨found, hfound, _⟩ := hcarried e he
    have hmem := List.mem_of_find?_eq_some hfound
    have hmeter : found.meter = e.meter := by simpa using List.find?_some hfound
    rw [decide_eq_true_eq] at hfresh
    exact absurd (hmeter ▸ List.mem_map_of_mem (f := BudgetMeterBuckets.meter) hmem) hfresh

/-- The loop changes a meter's total by the signed amount; a fresh row is only
ever a credit. -/
theorem shift_rowsAt (h : sign = 1 ∨ ∀ e ∈ amounts, e.meter ∈ meterNames record.meters) (meter : JsString) :
    rowsAt (shift record amounts sign) meter = rowsAt record.meters meter + sign * amountAt amounts meter := by
  have hcredit : ∀ rows : List BudgetMeterBuckets, (meterNames rows).Nodup →
      rowsAt (rows.map (credit sign amounts)) meter =
        rowsAt rows meter + if meter ∈ meterNames rows then sign * amountAt amounts meter else 0 := by
    intro rows hnodup
    by_cases hm : meter ∈ meterNames rows
    · obtain ⟨row, hrow, rfl⟩ := List.mem_map.mp hm
      have hsum := OrdMap.sumAt_of_mem BudgetMeterBuckets.meter BudgetMeterBuckets.total rows hnodup row hrow
      have hsum' := OrdMap.sumAt_of_mem (fun b => (credit sign amounts b).meter)
        (fun b => (credit sign amounts b).total) rows hnodup row hrow
      unfold rowsAt
      rw [OrdMap.sumAt_map, hsum, if_pos hm]
      refine hsum'.trans ?_
      simp only [credit, BudgetMeterBuckets.total]
      omega
    · have hzero : rowsAt rows meter = 0 := OrdMap.sumAt_eq_zero _ _ _ _ hm
      rw [← meterNames_credit sign amounts rows] at hm
      have hzero' : rowsAt (rows.map (credit sign amounts)) meter = 0 := OrdMap.sumAt_eq_zero _ _ _ _ hm
      rw [meterNames_credit] at hm
      rw [if_neg hm, hzero, hzero', add_zero]
  have hfresh : rowsAt ((unknownTo record.meters amounts).map fun e => zeroBucket e.meter e.amount) meter =
      if meter ∈ meterNames record.meters then 0 else amountAt amounts meter := by
    unfold rowsAt
    rw [OrdMap.sumAt_map]
    have htotal : (fun e : BudgetMeterAmount => (zeroBucket e.meter e.amount).total) = BudgetMeterAmount.amount := by
      funext e
      simp [zeroBucket, BudgetMeterBuckets.total]
    rw [htotal]
    show OrdMap.sumAt BudgetMeterAmount.meter BudgetMeterAmount.amount (unknownTo record.meters amounts) meter = _
    unfold unknownTo amountAt OrdMap.sumAt
    rw [List.filter_filter]
    by_cases hm : meter ∈ meterNames record.meters
    · have hnil : amounts.filter (fun a => decide (a.meter = meter) && decide (a.meter ∉ meterNames record.meters)) =
          [] := by
        rw [List.filter_eq_nil_iff]
        intro e _
        simp only [Bool.and_eq_true, decide_eq_true_eq, not_and, not_not]
        intro heq
        exact heq ▸ hm
      rw [hnil, if_pos hm]
      rfl
    · have hsame : amounts.filter (fun a => decide (a.meter = meter) && decide (a.meter ∉ meterNames record.meters)) =
          amounts.filter fun a => decide (a.meter = meter) := by
        apply List.filter_congr
        intro e _
        by_cases heq : e.meter = meter
        · simp [heq, hm]
        · simp [heq]
      rw [hsame, if_neg hm]
  rw [shift_eq record amounts sign hrows hamounts]
  have happ : ∀ l r : List BudgetMeterBuckets, rowsAt (l ++ r) meter = rowsAt l meter + rowsAt r meter :=
    fun l r => OrdMap.sumAt_append _ _ l r meter
  rw [happ, hcredit record.meters hrows, hfresh]
  by_cases hm : meter ∈ meterNames record.meters
  · simp [hm]
  · rw [if_neg hm, if_neg hm]
    rcases h with h | h
    · rw [h]
      omega
    · have hzero : amountAt amounts meter = 0 := by
        refine OrdMap.sumAt_eq_zero _ _ _ _ fun hmem => hm ?_
        obtain ⟨e, he, rfl⟩ := List.mem_map.mp hmem
        exact h e he
      rw [hzero]
      omega

end Shift

/-! ### Movements -/

def MovementKind.parentSign : MovementKind → ℤ
  | .ALLOCATED => -1
  | .RETURNED => 1

def newChild (command : BudgetMovementCommand) (parent : BudgetAccountRecord) : BudgetAccountRecord :=
  ⟨command.childAccountId, command.childOwnerRef, some command.parentAccountId, parent.graphRevisionRef, 0, .OPEN, []⟩

def nextParent (command : BudgetMovementCommand) (kind : MovementKind) (parent : BudgetAccountRecord) :
    BudgetAccountRecord :=
  { parent with version := parent.version + 1,
                meters := shift parent command.amounts (MovementKind.parentSign kind) }

def nextChild (command : BudgetMovementCommand) (kind : MovementKind) (fresh : Bool) (child : BudgetAccountRecord) :
    BudgetAccountRecord :=
  { child with version := if fresh then 0 else child.version + 1,
               meters := shift child command.amounts (-MovementKind.parentSign kind) }

def movedAccounts (accounts : List BudgetAccountRecord) (p c : BudgetAccountRecord) : List BudgetAccountRecord :=
  accounts.map fun r => if r.accountId = p.accountId then p else if r.accountId = c.accountId then c else r

def movementEntries (start : ℕ) (command : BudgetMovementCommand) (kind : MovementKind) (fresh : Bool) :
    List BudgetLedgerEntry :=
  command.amounts.mapIdx fun index e =>
    ⟨start + index, kind.entryKind, e.meter, e.amount,
      some (if kind = .ALLOCATED then command.parentAccountId else command.childAccountId),
      some (if kind = .ALLOCATED then command.childAccountId else command.parentAccountId),
      if fresh then some command.childOwnerRef else none⟩

/-- Everything an accepted movement checked and did. -/
structure MovementAccepted (s s' : BudgetLedgerState) (command : BudgetMovementCommand) (kind : MovementKind)
    (parent child : BudgetAccountRecord) : Prop where
  parentFound : find s command.parentAccountId = some parent
  childEq : child = (find s command.childAccountId).getD (newChild command parent)
  parentRef : isRef command.parentAccountId = true
  childRef : isRef command.childAccountId = true
  ownerRef : isRef command.childOwnerRef = true
  distinct : command.parentAccountId ≠ command.childAccountId
  amounts : 0 < command.amounts.length ∧ command.amounts.length ≤ maxBudgetMeters
    ∧ ∀ e ∈ command.amounts, isRef e.meter = true ∧ isSafeCount e.amount = true ∧ e.amount ≠ 0
  names : (command.amounts.map BudgetMeterAmount.meter).Nodup
  versions : command.expectedParentVersion = parent.version
    ∧ command.expectedChildVersion = (find s command.childAccountId).map (·.version)
  ceilings : parent.version < maxBudgetVersion
    ∧ ((find s command.childAccountId).map (·.version)).getD 0 < maxBudgetVersion
  bound : ∀ r, find s command.childAccountId = some r → r.parentRef = some command.parentAccountId
  parentOpen : parent.state = .OPEN
  childOpen : child.state = .OPEN
  fresh : find s command.childAccountId = none → kind = .ALLOCATED
  source : ∀ e ∈ command.amounts,
    ∃ b, bucketOf (if kind = .ALLOCATED then parent else child) e.meter = some b ∧ e.amount ≤ b.available
  sink : kind = .RETURNED → ∀ e ∈ command.amounts, (bucketOf parent e.meter).isSome = true
  ceiling : (shift (if kind = .ALLOCATED then child else parent) command.amounts 1).length ≤ maxBudgetMeters
  state : s' = { s with
    accounts := movedAccounts s.accounts (nextParent command kind parent)
        (nextChild command kind (find s command.childAccountId).isNone child)
      ++ (if (find s command.childAccountId).isNone then
            [nextChild command kind (find s command.childAccountId).isNone child] else [])
    entries := s.entries ++ movementEntries s.entries.length command kind (find s command.childAccountId).isNone }

theorem find_accountId (s : BudgetLedgerState) (id : JsString) (r : BudgetAccountRecord) (h : find s id = some r) :
    r.accountId = id := by
  simpa using List.find?_some h

theorem bucketOf_enough (r : BudgetAccountRecord) (e : BudgetMeterAmount) (hsome : (bucketOf r e.meter).isNone = false)
    (h : ¬ ((bucketOf r e.meter).map (·.available)).getD 0 < e.amount) :
    ∃ b, bucketOf r e.meter = some b ∧ e.amount ≤ b.available := by
  cases hb : bucketOf r e.meter with
  | none => simp [hb] at hsome
  | some b =>
    rw [hb] at h
    exact ⟨b, rfl, not_lt.mp h⟩

theorem moveUnits_accept (s s' : BudgetLedgerState) (command : BudgetMovementCommand) (kind : MovementKind)
    (existing : Option BudgetAccountRecord) (child source sink : BudgetAccountRecord)
    (h : moveUnits s command kind existing child source sink = .accept s') :
    (∀ e ∈ command.amounts, ∃ b, bucketOf source e.meter = some b ∧ e.amount ≤ b.available)
      ∧ (kind = .RETURNED → ∀ e ∈ command.amounts, (bucketOf sink e.meter).isSome = true)
      ∧ (shift sink command.amounts 1).length ≤ maxBudgetMeters
      ∧ commitMovement s command kind existing child source sink = .accept s' := by
  unfold moveUnits at h
  split at h
  · cases h
  rename_i hmeter
  split at h
  · cases h
  rename_i hshort
  have hknown : ∀ e ∈ command.amounts, (bucketOf source e.meter).isNone = false
      ∧ (kind = .RETURNED → (bucketOf sink e.meter).isNone = false) := by
    intro e he
    have hone := List.any_eq_false.mp (Bool.eq_false_iff.mpr hmeter) e he
    simp only [Bool.or_eq_true, Bool.and_eq_true, decide_eq_true_eq, not_or, not_and, Bool.not_eq_true] at hone
    exact hone
  have henough : ∀ e ∈ command.amounts, ¬ ((bucketOf source e.meter).map (·.available)).getD 0 < e.amount := by
    intro e he
    have hone := List.any_eq_false.mp (Bool.eq_false_iff.mpr hshort) e he
    rw [decide_eq_true_eq] at hone
    exact hone
  refine ⟨fun e he => bucketOf_enough source e (hknown e he).1 (henough e he), ?_, ?_, h⟩
  · intro hkind e he
    rw [← Option.not_isNone, (hknown e he).2 hkind]
    rfl
  · unfold commitMovement at h
    dsimp only at h
    split at h
    · cases h
    · rename_i hceiling
      exact not_lt.mp hceiling

theorem commitMovement_allocated (s s' : BudgetLedgerState) (command : BudgetMovementCommand)
    (existing : Option BudgetAccountRecord) (parent child : BudgetAccountRecord)
    (hparent : parent.accountId = command.parentAccountId) (hchild : child.accountId = command.childAccountId)
    (howner : existing = none → child.ownerRef = command.childOwnerRef)
    (h : commitMovement s command .ALLOCATED existing child parent child = .accept s') :
    s' = { s with
      accounts := movedAccounts s.accounts (nextParent command .ALLOCATED parent)
          (nextChild command .ALLOCATED existing.isNone child)
        ++ (if existing.isNone then [nextChild command .ALLOCATED existing.isNone child] else [])
      entries := s.entries ++ movementEntries s.entries.length command .ALLOCATED existing.isNone } := by
  unfold commitMovement at h
  dsimp only at h
  split at h
  · cases h
  · injection h with hs
    rw [← hs]
    unfold movedAccounts movementEntries nextParent nextChild
    cases existing with
    | none => simp [MovementKind.parentSign, hparent, hchild, howner rfl]
    | some r => simp [MovementKind.parentSign, hparent, hchild]

theorem commitMovement_returned (s s' : BudgetLedgerState) (command : BudgetMovementCommand)
    (r parent child : BudgetAccountRecord)
    (hparent : parent.accountId = command.parentAccountId) (hchild : child.accountId = command.childAccountId)
    (h : commitMovement s command .RETURNED (some r) child child parent = .accept s') :
    s' = { s with
      accounts := movedAccounts s.accounts (nextParent command .RETURNED parent)
          (nextChild command .RETURNED false child) ++ []
      entries := s.entries ++ movementEntries s.entries.length command .RETURNED false } := by
  unfold commitMovement at h
  dsimp only at h
  split at h
  · cases h
  · injection h with hs
    rw [← hs]
    unfold movedAccounts movementEntries nextParent nextChild
    simp [MovementKind.parentSign, hparent, hchild]

theorem applyMovement_accept (s s' : BudgetLedgerState) (command : BudgetMovementCommand) (kind : MovementKind)
    (h : applyMovement s command kind = .accept s') :
    ∃ parent child, MovementAccepted s s' command kind parent child := by
  unfold applyMovement at h
  dsimp only at h
  split at h
  · cases h
  rename_i hshape
  split at h
  · cases h
  rename_i hdup
  split at h
  · cases h
  rename_i parent hparent
  split at h
  · cases h
  rename_i hunknown
  split at h
  · cases h
  rename_i hcount
  split at h
  · cases h
  rename_i hstale
  split at h
  · cases h
  rename_i hbound
  split at h
  · cases h
  rename_i hopen
  simp only [Bool.or_eq_true, Bool.not_eq_true', decide_eq_true_eq, not_or, Bool.not_eq_false, ge_iff_le, not_le,
    ne_eq, not_not, Bool.not_eq_true, Bool.and_eq_true, not_and, gt_iff_lt,
      not_lt] at hshape hdup hunknown hcount hstale hbound hopen
  obtain ⟨⟨⟨⟨⟨⟨⟨hpid, hcid⟩, howner⟩, hlen⟩, hmax⟩, hpv⟩, hcv⟩, hamounts⟩ := hshape
  obtain ⟨⟨hne, hnames⟩, hidentity⟩ := hdup
  have hparentId := find_accountId s _ parent hparent
  have heach : ∀ e ∈ command.amounts, isRef e.meter = true ∧ isSafeCount e.amount = true ∧ e.amount ≠ 0 := by
    intro e he
    have hone := List.any_eq_false.mp hamounts e he
    simp only [Bool.or_eq_true, Bool.not_eq_true', decide_eq_true_eq, not_or, Bool.not_eq_false] at hone
    exact ⟨hone.1.1, hone.1.2, hone.2⟩
  have hdistinct := (hasDuplicates_eq_false _).mp hnames
  cases hfind : find s command.childAccountId with
  | none =>
    rw [hfind] at h hunknown hcount
    have hcvNone : command.expectedChildVersion = none := by
      cases hv : command.expectedChildVersion with
      | none => rfl
      | some v => simp [hv] at hunknown
    cases kind with
    | ALLOCATED =>
      obtain ⟨hsource, _, hceiling, hcommit⟩ := moveUnits_accept _ _ _ _ _ _ _ _ h
      have hstate := commitMovement_allocated s s' command none parent (newChild command parent) hparentId rfl
        (fun _ => rfl) hcommit
      refine ⟨parent, newChild command parent, hparent, by rw [hfind]; rfl, hpid, hcid, howner, hne,
        ⟨Nat.pos_of_ne_zero hlen, hmax, heach⟩, hdistinct, ⟨hstale.1.symm, by rw [hcvNone, hfind]; rfl⟩,
        hfind ▸ hcount, ?_, hopen.1, rfl, fun _ => rfl, hsource, ?_, hceiling, hfind ▸ hstate⟩
      · intro r hr
        rw [hfind] at hr
        cases hr
      · intro hkind
        cases hkind
    | RETURNED =>
      -- a child that does not exist carries no meter to return
      obtain ⟨hsource, _, _, _⟩ := moveUnits_accept _ _ _ _ _ _ _ _ h
      cases ham : command.amounts with
      | nil => simp [ham] at hlen
      | cons e rest =>
        obtain ⟨b, hb, _⟩ := hsource e (by simp [ham])
        simp [bucketOf] at hb
  | some r =>
    rw [hfind] at h hidentity hcount hstale hbound hopen
    have hchildId := find_accountId s _ r hfind
    have hcvSome : command.expectedChildVersion = some r.version := by
      cases hv : command.expectedChildVersion with
      | none => simp [hv] at hidentity
      | some v =>
        simp only [hv, Option.any_some, decide_eq_false_iff_not, not_not] at hstale
        rw [hstale.2]
    simp only [Option.any_some, decide_eq_false_iff_not, not_not] at hbound hopen
    cases kind with
    | ALLOCATED =>
      obtain ⟨hsource, hsink, hceiling, hcommit⟩ := moveUnits_accept _ _ _ _ _ _ _ _ h
      have hstate := commitMovement_allocated s s' command (some r) parent r hparentId hchildId
        (fun hnone => by cases hnone) hcommit
      refine ⟨parent, r, hparent, by rw [hfind]; rfl, hpid, hcid, howner, hne,
        ⟨Nat.pos_of_ne_zero hlen, hmax, heach⟩, hdistinct, ⟨hstale.1.symm, by rw [hcvSome, hfind]; rfl⟩,
        hfind ▸ hcount, ?_, hopen.1, hopen.2, fun _ => rfl, hsource, ?_, hceiling, hfind ▸ hstate⟩
      · intro r' hr
        rw [hfind] at hr
        exact Option.some.inj hr ▸ hbound
      · intro hkind
        cases hkind
    | RETURNED =>
      obtain ⟨hsource, hsink, hceiling, hcommit⟩ := moveUnits_accept _ _ _ _ _ _ _ _ h
      have hstate := commitMovement_returned s s' command r parent r hparentId hchildId hcommit
      refine ⟨parent, r, hparent, by rw [hfind]; rfl, hpid, hcid, howner, hne,
        ⟨Nat.pos_of_ne_zero hlen, hmax, heach⟩, hdistinct, ⟨hstale.1.symm, by rw [hcvSome, hfind]; rfl⟩,
        hfind ▸ hcount, ?_, hopen.1, hopen.2, ?_, hsource, hsink, hceiling, hfind ▸ hstate⟩
      · intro r' hr
        rw [hfind] at hr
        exact Option.some.inj hr ▸ hbound
      · intro hnone
        rw [hfind] at hnone
        cases hnone

/-! ### Closing and opening -/

structure CloseAccepted (s s' : BudgetLedgerState) (command : BudgetCloseCommand) (record : BudgetAccountRecord) :
    Prop where
  found : find s command.accountId = some record
  ref : isRef command.accountId = true
  ceiling : record.version < maxBudgetVersion
  version : record.version = command.expectedVersion
  drained : ∀ m ∈ record.meters, m.available = 0 ∧ m.reserved = 0 ∧ m.quarantined = 0
  children : ∀ r ∈ s.accounts, r.parentRef = some record.accountId → r.state = .CLOSED
  notClosed : record.state ≠ .CLOSED
  state : s' = { s with
    accounts := s.accounts.map fun r =>
      if r.accountId = record.accountId then { record with version := record.version + 1, state := .CLOSED } else r
    entries := s.entries ++ [⟨s.entries.length, .CLOSED, [], 0, some record.accountId, none, none⟩] }

theorem closeBudgetAccount_accept (s s' : BudgetLedgerState) (command : BudgetCloseCommand)
    (h : closeBudgetAccount s command = .accept s') : ∃ record, CloseAccepted s s' command record := by
  unfold closeBudgetAccount at h
  split at h
  · cases h
  rename_i hshape
  split at h
  · cases h
  rename_i record hfound
  split at h
  · cases h
  rename_i hceiling
  split at h
  · cases h
  rename_i hversion
  dsimp only at h
  split at h
  · cases h
  rename_i hlegal
  simp only [Bool.or_eq_true, Bool.not_eq_true', decide_eq_true_eq, not_or, Bool.not_eq_false] at hshape hlegal
  obtain ⟨⟨hnotClosed, hdrained⟩, hchildren⟩ := hlegal
  injection h with hs
  refine ⟨record, hfound, hshape.1, not_le.mp hceiling, not_not.mp hversion, ?_, ?_, hnotClosed, hs.symm⟩
  · intro m hm
    exact of_decide_eq_true (List.all_eq_true.mp hdrained m hm)
  · intro r hr hparent
    have hone := List.all_eq_true.mp hchildren r hr
    simp only [Bool.or_eq_true, decide_eq_true_eq] at hone
    rcases hone with hne | hclosed
    · exact absurd hparent hne
    · exact hclosed

structure RootOpened (authorization : BudgetAuthorization) (s : BudgetLedgerState) : Prop where
  ownerRef : isRef authorization.ownerRef = true
  amounts : ∀ e ∈ authorization.amounts, 0 ≤ e.amount
  names : (authorization.amounts.map BudgetMeterAmount.meter).Nodup
  state : s =
    { rootAccountId := authorization.rootAccountId, authorized := authorization.amounts, overrun := []
      accounts := [⟨authorization.rootAccountId, authorization.ownerRef, none, authorization.graphRevisionRef, 0,
        .OPEN, authorization.amounts.map fun e => zeroBucket e.meter e.amount⟩]
      entries := authorization.amounts.mapIdx fun index entry =>
        ⟨index, .ROOT_OPENED, entry.meter, entry.amount, none, some authorization.rootAccountId,
          some authorization.ownerRef⟩ }

theorem openBudgetRoot_accept (authorization : BudgetAuthorization) (s : BudgetLedgerState)
    (h : openBudgetRoot authorization = .accept s) : RootOpened authorization s := by
  unfold openBudgetRoot at h
  dsimp only at h
  split at h
  · cases h
  rename_i hrefs
  split at h
  · cases h
  rename_i hshape
  simp only [Bool.or_eq_true, Bool.not_eq_true', not_or, Bool.not_eq_false, Bool.not_eq_true] at hrefs hshape
  injection h with hs
  refine ⟨hrefs.1.2, fun e he => ?_, (hasDuplicates_eq_false _).mp hshape.2, hs.symm⟩
  have hone := List.any_eq_false.mp hshape.1.2 e he
  simp only [Bool.or_eq_true, Bool.not_eq_true', not_or, Bool.not_eq_false] at hone
  exact isSafeCount_nonneg _ hone.2

/-! ### Refusals -/

section Refusal
variable (s s' : BudgetLedgerState) (issues : List BudgetAccountIssue)

theorem fail_state (code : BudgetAccountIssueCode) (message : String)
    (h : fail s code message = .fail s' issues) : s' = s := by
  injection h with hs _
  exact hs.symm

theorem moveUnits_fail (command : BudgetMovementCommand) (kind : MovementKind) (existing : Option BudgetAccountRecord)
    (child source sink : BudgetAccountRecord)
    (h : moveUnits s command kind existing child source sink = .fail s' issues) : s' = s := by
  unfold moveUnits at h
  split at h
  · exact fail_state s s' issues _ _ h
  split at h
  · exact fail_state s s' issues _ _ h
  unfold commitMovement at h
  dsimp only at h
  split at h
  · exact fail_state s s' issues _ _ h
  · cases h

theorem applyMovement_fail (command : BudgetMovementCommand) (kind : MovementKind)
    (h : applyMovement s command kind = .fail s' issues) : s' = s := by
  have hfail := fail_state s s' issues
  unfold applyMovement at h
  dsimp only at h
  split at h
  · exact hfail _ _ h
  split at h
  · exact hfail _ _ h
  split at h
  · exact hfail _ _ h
  split at h
  · exact hfail _ _ h
  split at h
  · exact hfail _ _ h
  split at h
  · exact hfail _ _ h
  split at h
  · exact hfail _ _ h
  split at h
  · exact hfail _ _ h
  split at h
  · exact moveUnits_fail s s' issues _ _ _ _ _ _ h
  · exact moveUnits_fail s s' issues _ _ _ _ _ _ h

theorem closeBudgetAccount_fail (command : BudgetCloseCommand) (h : closeBudgetAccount s command = .fail s' issues) :
    s' = s := by
  have hfail := fail_state s s' issues
  unfold closeBudgetAccount at h
  dsimp only at h
  split at h
  · exact hfail _ _ h
  split at h
  · exact hfail _ _ h
  split at h
  · exact hfail _ _ h
  split at h
  · exact hfail _ _ h
  split at h
  · exact hfail _ _ h
  · cases h

theorem applyCommand_fail (c : BudgetCommand) (h : applyCommand s c = .fail s' issues) : s' = s := by
  cases c with
  | allocate command => exact applyMovement_fail s s' issues command .ALLOCATED h
  | giveBack command => exact applyMovement_fail s s' issues command .RETURNED h
  | close command => exact closeBudgetAccount_fail s s' issues command h

end Refusal

end Account

end MoeNG.Budget
