import MoeNG.Budget.AccountSpec
import MoeNG.Lib.Run
import Mathlib.Logic.Relation

/-!
# Budget tree conservation

Every accepted ledger command rewrites existing accounts in place and appends
at most one new child (`LedgerAdvance`). The tree invariant is kept by any such
step: units are conserved meter by meter, parents come before their children
and carry their meters, and a closed account is drained, final and has only
closed children.
-/

namespace MoeNG.Budget
open MoeNG.Kernel MoeNG.Lib
open Account

/-! ### The invariant -/

def totalAt (accounts : List BudgetAccountRecord) (meter : JsString) : ℤ :=
  (accounts.map fun r => rowsAt r.meters meter).sum

def BudgetAccountRecord.Drained (r : BudgetAccountRecord) : Prop :=
  ∀ m ∈ r.meters, m.available = 0 ∧ m.reserved = 0 ∧ m.quarantined = 0

structure LedgerInv (authorization : BudgetAuthorization) (s : BudgetLedgerState) : Prop where
  ids : (s.accounts.map BudgetAccountRecord.accountId).Nodup
  root : ∃ r, s.accounts[0]? = some r ∧ r.accountId = authorization.rootAccountId ∧ r.parentRef = none
    ∧ meterNames r.meters = authorization.amounts.map BudgetMeterAmount.meter
  tree : ∀ i r, s.accounts[i]? = some r → 0 < i →
    ∃ j q, j < i ∧ s.accounts[j]? = some q ∧ r.parentRef = some q.accountId
      ∧ meterNames r.meters ⊆ meterNames q.meters
  names : ∀ r ∈ s.accounts, (meterNames r.meters).Nodup
  nonneg : ∀ r ∈ s.accounts, ∀ b ∈ r.meters, b.Nonneg
  drained : ∀ r ∈ s.accounts, r.state = .CLOSED → r.Drained
  children : ∀ r ∈ s.accounts, r.state = .CLOSED →
    ∀ c ∈ s.accounts, c.parentRef = some r.accountId → c.state = .CLOSED
  totals : ∀ meter, totalAt s.accounts meter = amountAt authorization.amounts meter
  sequence : ∀ (i : ℕ) (e : BudgetLedgerEntry), s.entries[i]? = some e → e.sequence = i
  owners : ∀ r ∈ s.accounts, isRef r.ownerRef = true
  versions : ∀ r ∈ s.accounts, 0 ≤ r.version

/-! ### What one accepted command does -/

structure LedgerAdvance (s s' : BudgetLedgerState) (rep : BudgetAccountRecord → BudgetAccountRecord)
    (fresh : Option BudgetAccountRecord) : Prop where
  accounts : s'.accounts = s.accounts.map rep ++ fresh.toList
  keeps : ∀ r ∈ s.accounts, (rep r).accountId = r.accountId ∧ (rep r).parentRef = r.parentRef
    ∧ (rep r).ownerRef = r.ownerRef ∧ r.version ≤ (rep r).version
  closed : ∀ r ∈ s.accounts, r.state = .CLOSED → rep r = r
  rootNames : ∀ r ∈ s.accounts, r.parentRef = none → meterNames (rep r).meters = meterNames r.meters
  inherits : ∀ r ∈ s.accounts, ∀ q ∈ s.accounts, r.parentRef = some q.accountId →
    meterNames r.meters ⊆ meterNames q.meters → meterNames (rep r).meters ⊆ meterNames (rep q).meters
  names : ∀ r ∈ s.accounts, (meterNames (rep r).meters).Nodup
  nonneg : ∀ r ∈ s.accounts, ∀ b ∈ (rep r).meters, b.Nonneg
  states : ∀ r ∈ s.accounts, (rep r).state = r.state
    ∨ (fresh = none ∧ (rep r).Drained ∧ ∀ c ∈ s.accounts, c.parentRef = some r.accountId → c.state = .CLOSED)
  fresh : ∀ c, fresh = some c → c.accountId ∉ s.accounts.map BudgetAccountRecord.accountId
    ∧ (meterNames c.meters).Nodup ∧ (∀ b ∈ c.meters, b.Nonneg) ∧ c.state = .OPEN ∧ isRef c.ownerRef = true
    ∧ 0 ≤ c.version ∧ ∃ q ∈ s.accounts, c.parentRef = some q.accountId ∧ q.state = .OPEN
      ∧ meterNames c.meters ⊆ meterNames (rep q).meters
  totals : ∀ meter, totalAt s'.accounts meter = totalAt s.accounts meter
  entries : ∃ added, s'.entries = s.entries ++ added
    ∧ ∀ (i : ℕ) (e : BudgetLedgerEntry), added[i]? = some e → e.sequence = (s.entries.length : ℤ) + i

section Advance
variable {authorization : BudgetAuthorization} {s s' : BudgetLedgerState}
  {rep : BudgetAccountRecord → BudgetAccountRecord} {fresh : Option BudgetAccountRecord}

theorem LedgerAdvance.mem (h : LedgerAdvance s s' rep fresh) (r' : BudgetAccountRecord) (hr : r' ∈ s'.accounts) :
    (∃ r ∈ s.accounts, rep r = r') ∨ fresh = some r' := by
  rw [h.accounts] at hr
  rcases List.mem_append.mp hr with hr | hr
  · exact .inl (List.mem_map.mp hr)
  · exact .inr (by simpa using hr)

theorem LedgerAdvance.kept (h : LedgerAdvance s s' rep fresh) (r : BudgetAccountRecord) (hr : r ∈ s.accounts)
    (hclosed : r.state = .CLOSED) : r ∈ s'.accounts := by
  rw [h.accounts]
  exact List.mem_append_left _ (List.mem_map.mpr ⟨r, hr, h.closed r hr hclosed⟩)

theorem LedgerAdvance.at_old (h : LedgerAdvance s s' rep fresh) (i : ℕ) (r : BudgetAccountRecord)
    (hr : s.accounts[i]? = some r) : s'.accounts[i]? = some (rep r) := by
  have hlt := (List.getElem?_eq_some_iff.mp hr).1
  rw [h.accounts, List.getElem?_append_left (by simpa using hlt), List.getElem?_map, hr]
  rfl

theorem LedgerAdvance.at_cases (h : LedgerAdvance s s' rep fresh) (i : ℕ) (r' : BudgetAccountRecord)
    (hr : s'.accounts[i]? = some r') :
    (∃ r, s.accounts[i]? = some r ∧ rep r = r') ∨ (i = s.accounts.length ∧ fresh = some r') := by
  rw [h.accounts] at hr
  by_cases hlt : i < s.accounts.length
  · rw [List.getElem?_append_left (by simpa using hlt), List.getElem?_map] at hr
    obtain ⟨r, hr, hrep⟩ := Option.map_eq_some_iff.mp hr
    exact .inl ⟨r, hr, hrep⟩
  · rw [List.getElem?_append_right (by simpa using hlt), List.length_map] at hr
    cases hf : fresh with
    | none => simp [hf] at hr
    | some c =>
      rw [hf, Option.toList_some] at hr
      have hlt' := (List.getElem?_eq_some_iff.mp hr).1
      rw [List.length_singleton] at hlt'
      have hi : i = s.accounts.length := by omega
      subst hi
      simp only [Nat.sub_self, List.getElem?_cons_zero, Option.some.injEq] at hr
      exact .inr ⟨rfl, by rw [hr]⟩

theorem LedgerInv.ids_advance (hs : LedgerInv authorization s) (h : LedgerAdvance s s' rep fresh) :
    (s'.accounts.map BudgetAccountRecord.accountId).Nodup := by
  have hmap : (s.accounts.map rep).map BudgetAccountRecord.accountId = s.accounts.map BudgetAccountRecord.accountId := by
    rw [List.map_map]
    exact List.map_congr_left fun r hr => (h.keeps r hr).1
  rw [h.accounts, List.map_append, hmap]
  cases hf : fresh with
  | none =>
    rw [Option.toList_none, List.map_nil, List.append_nil]
    exact hs.ids
  | some c =>
    refine List.nodup_append.mpr ⟨hs.ids, List.nodup_singleton _, ?_⟩
    intro a ha b hb hab
    rw [Option.toList_some, List.map_singleton, List.mem_singleton] at hb
    exact (h.fresh c hf).1 (hb ▸ hab ▸ ha)

theorem LedgerInv.tree_advance (hs : LedgerInv authorization s) (h : LedgerAdvance s s' rep fresh) (i : ℕ)
    (r' : BudgetAccountRecord) (hr' : s'.accounts[i]? = some r') (hi : 0 < i) :
    ∃ j q, j < i ∧ s'.accounts[j]? = some q ∧ r'.parentRef = some q.accountId
      ∧ meterNames r'.meters ⊆ meterNames q.meters := by
  rcases h.at_cases i r' hr' with ⟨r, hr, rfl⟩ | ⟨rfl, hf⟩
  · obtain ⟨j, q, hj, hq, hparent, hnames⟩ := hs.tree i r hr hi
    have hrmem := List.mem_of_getElem? hr
    have hqmem := List.mem_of_getElem? hq
    refine ⟨j, rep q, hj, h.at_old j q hq, ?_, h.inherits r hrmem q hqmem hparent hnames⟩
    rw [(h.keeps r hrmem).2.1, (h.keeps q hqmem).1]
    exact hparent
  · obtain ⟨_, _, _, _, _, _, q, hq, hparent, _, hnames⟩ := h.fresh r' hf
    obtain ⟨j, hj, hget⟩ := List.mem_iff_getElem.mp hq
    refine ⟨j, rep q, hj, h.at_old j q (List.getElem?_eq_some_iff.mpr ⟨hj, hget⟩), ?_, hnames⟩
    rw [(h.keeps q hq).1]
    exact hparent

theorem LedgerInv.children_advance (hs : LedgerInv authorization s) (h : LedgerAdvance s s' rep fresh)
    (r' : BudgetAccountRecord) (hr' : r' ∈ s'.accounts) (hclosed : r'.state = .CLOSED) :
    r'.Drained ∧ ∀ c ∈ s'.accounts, c.parentRef = some r'.accountId → c.state = .CLOSED := by
  rcases h.mem r' hr' with ⟨r, hr, rfl⟩ | hf
  swap
  · have hopen := (h.fresh r' hf).2.2.2.1
    rw [hopen] at hclosed
    cases hclosed
  -- an old child of `r` is closed already, whichever of the two ways `r` is closed
  have hold : (rep r).Drained ∧ (∀ c ∈ s.accounts, c.parentRef = some r.accountId → c.state = .CLOSED)
      ∧ (fresh = none ∨ r.state = .CLOSED) := by
    rcases h.states r hr with hsame | ⟨hnone, hdrained, hchildren⟩
    · rw [hsame] at hclosed
      rw [h.closed r hr hclosed]
      exact ⟨hs.drained r hr hclosed, hs.children r hr hclosed, .inr hclosed⟩
    · exact ⟨hdrained, hchildren, .inl hnone⟩
  refine ⟨hold.1, fun c' hc' hparent => ?_⟩
  rw [(h.keeps r hr).1] at hparent
  rcases h.mem c' hc' with ⟨c, hc, rfl⟩ | hf
  · rw [(h.keeps c hc).2.1] at hparent
    have hcclosed := hold.2.1 c hc hparent
    rw [h.closed c hc hcclosed]
    exact hcclosed
  · obtain ⟨_, _, _, _, _, _, q, hq, hqparent, hqopen, _⟩ := h.fresh c' hf
    rcases hold.2.2 with hnone | hrclosed
    · rw [hnone] at hf
      cases hf
    · -- the new child's parent is open, so it is not the closed account
      have hid : q.accountId = r.accountId := Option.some.inj (hqparent.symm.trans hparent)
      have heq : q = r := List.inj_on_of_nodup_map hs.ids hq hr hid
      rw [heq, hrclosed] at hqopen
      cases hqopen

theorem LedgerInv.advance (hs : LedgerInv authorization s) (h : LedgerAdvance s s' rep fresh) :
    LedgerInv authorization s' := by
  refine ⟨hs.ids_advance h, ?_, hs.tree_advance h, ?_, ?_, ?_, ?_, ?_, ?_, ?_, ?_⟩
  · obtain ⟨r, hget, hid, hparent, hnames⟩ := hs.root
    have hr := List.mem_of_getElem? hget
    refine ⟨rep r, h.at_old 0 r hget, (h.keeps r hr).1.trans hid, (h.keeps r hr).2.1.trans hparent, ?_⟩
    rw [h.rootNames r hr hparent]
    exact hnames
  · intro r' hr'
    rcases h.mem r' hr' with ⟨r, hr, rfl⟩ | hf
    · exact h.names r hr
    · exact (h.fresh r' hf).2.1
  · intro r' hr'
    rcases h.mem r' hr' with ⟨r, hr, rfl⟩ | hf
    · exact h.nonneg r hr
    · exact (h.fresh r' hf).2.2.1
  · exact fun r' hr hclosed => (hs.children_advance h r' hr hclosed).1
  · exact fun r' hr hclosed => (hs.children_advance h r' hr hclosed).2
  · exact fun meter => (h.totals meter).trans (hs.totals meter)
  · obtain ⟨added, hadded, hseq⟩ := h.entries
    intro i e he
    rw [hadded] at he
    by_cases hlt : i < s.entries.length
    · rw [List.getElem?_append_left hlt] at he
      exact hs.sequence i e he
    · rw [List.getElem?_append_right (not_lt.mp hlt)] at he
      have hone := hseq _ e he
      omega
  · intro r' hr'
    rcases h.mem r' hr' with ⟨r, hr, rfl⟩ | hf
    · rw [(h.keeps r hr).2.2.1]
      exact hs.owners r hr
    · exact (h.fresh r' hf).2.2.2.2.1
  · intro r' hr'
    rcases h.mem r' hr' with ⟨r, hr, rfl⟩ | hf
    · exact le_trans (hs.versions r hr) (h.keeps r hr).2.2.2
    · exact (h.fresh r' hf).2.2.2.2.2.1

end Advance

/-! ### Movements advance the ledger -/

namespace Account

theorem find_mem (s : BudgetLedgerState) (id : JsString) (r : BudgetAccountRecord) (h : find s id = some r) :
    r ∈ s.accounts :=
  List.mem_of_find?_eq_some h

theorem find_none (s : BudgetLedgerState) (id : JsString) (h : find s id = none) :
    id ∉ s.accounts.map BudgetAccountRecord.accountId := by
  intro hmem
  obtain ⟨r, hr, rfl⟩ := List.mem_map.mp hmem
  have hnone := List.find?_eq_none.mp h r hr
  simp at hnone

theorem bucketOf_names (r : BudgetAccountRecord) (meter : JsString) (h : (bucketOf r meter).isSome = true) :
    meter ∈ meterNames r.meters := by
  obtain ⟨b, hb⟩ := Option.isSome_iff_exists.mp h
  have hmeter : b.meter = meter := by simpa using List.find?_some hb
  exact hmeter ▸ List.mem_map_of_mem (f := BudgetMeterBuckets.meter) (List.mem_of_find?_eq_some hb)

section Movement
variable {authorization : BudgetAuthorization} {s s' : BudgetLedgerState} {command : BudgetMovementCommand}
  {kind : MovementKind} {parent child : BudgetAccountRecord}

theorem MovementAccepted.child_cases (h : MovementAccepted s s' command kind parent child) :
    find s command.childAccountId = some child
      ∨ (find s command.childAccountId = none ∧ child = newChild command parent) := by
  have heq := h.childEq
  cases hf : find s command.childAccountId with
  | none =>
    rw [hf] at heq
    exact .inr ⟨rfl, heq⟩
  | some r =>
    rw [hf] at heq
    exact .inl (by rw [heq]; rfl)

theorem MovementAccepted.childId (h : MovementAccepted s s' command kind parent child) :
    child.accountId = command.childAccountId := by
  rcases h.child_cases with hf | ⟨_, rfl⟩
  · exact find_accountId s _ child hf
  · rfl

theorem MovementAccepted.parentId (h : MovementAccepted s s' command kind parent child) :
    parent.accountId = command.parentAccountId :=
  find_accountId s _ parent h.parentFound

theorem MovementAccepted.childParent (h : MovementAccepted s s' command kind parent child) :
    child.parentRef = some parent.accountId := by
  rw [h.parentId]
  rcases h.child_cases with hf | ⟨_, rfl⟩
  · exact h.bound child hf
  · rfl

theorem MovementAccepted.childNames (hs : LedgerInv authorization s) (h : MovementAccepted s s' command kind parent child) :
    (meterNames child.meters).Nodup ∧ (∀ b ∈ child.meters, b.Nonneg) ∧ 0 ≤ child.version
      ∧ isRef child.ownerRef = true := by
  rcases h.child_cases with hf | ⟨_, rfl⟩
  · have hmem := find_mem s _ child hf
    exact ⟨hs.names child hmem, hs.nonneg child hmem, hs.versions child hmem, hs.owners child hmem⟩
  · exact ⟨List.nodup_nil, (fun b hb => by cases hb), le_refl 0, h.ownerRef⟩

theorem MovementAccepted.amounts_nonneg (h : MovementAccepted s s' command kind parent child) :
    ∀ e ∈ command.amounts, 0 ≤ e.amount :=
  fun e he => isSafeCount_nonneg _ (h.amounts.2.2 e he).2.1

/-- The parent carries every moved meter, whichever way the units go. -/
theorem MovementAccepted.parentCarries (h : MovementAccepted s s' command kind parent child) :
    ∀ e ∈ command.amounts, e.meter ∈ meterNames parent.meters := by
  intro e he
  cases hkind : kind with
  | ALLOCATED =>
    obtain ⟨b, hb, _⟩ := h.source e he
    rw [if_pos hkind] at hb
    exact bucketOf_names parent e.meter (by rw [hb]; rfl)
  | RETURNED => exact bucketOf_names parent e.meter (h.sink hkind e he)

structure Side (before after : List BudgetMeterBuckets) (amounts : List BudgetMeterAmount) (sign : ℤ) : Prop where
  names : (meterNames after).Nodup
  grows : meterNames before ⊆ meterNames after
  bounded : ∀ meter ∈ meterNames after,
    meter ∈ meterNames before ∨ meter ∈ amounts.map BudgetMeterAmount.meter
  nonneg : ∀ b ∈ after, b.Nonneg
  total : ∀ meter, rowsAt after meter = rowsAt before meter + sign * amountAt amounts meter

theorem side_of_shift (r : BudgetAccountRecord) (amounts : List BudgetMeterAmount) (sign : ℤ)
    (hnames : (meterNames r.meters).Nodup) (hamounts : (amounts.map BudgetMeterAmount.meter).Nodup)
    (hsign : sign = 1 ∨ ∀ e ∈ amounts, e.meter ∈ meterNames r.meters)
    (hnonneg : ∀ b ∈ shift r amounts sign, b.Nonneg) : Side r.meters (shift r amounts sign) amounts sign := by
  have heq := shift_names r amounts sign hnames hamounts
  refine ⟨shift_names_nodup r amounts sign hnames hamounts, ?_, ?_, hnonneg,
    shift_rowsAt r amounts sign hnames hamounts hsign⟩
  · rw [heq]
    exact List.subset_append_left _ _
  · intro meter hm
    rw [heq] at hm
    rcases List.mem_append.mp hm with hm | hm
    · exact .inl hm
    · obtain ⟨e, he, rfl⟩ := List.mem_map.mp hm
      exact .inr (List.mem_map_of_mem (f := BudgetMeterAmount.meter) (List.mem_of_mem_filter he))

theorem MovementAccepted.parentSide (hs : LedgerInv authorization s) (h : MovementAccepted s s' command kind parent child) :
    Side parent.meters (nextParent command kind parent).meters command.amounts (MovementKind.parentSign kind) := by
  have hmem := find_mem s _ parent h.parentFound
  have hnames := hs.names parent hmem
  refine side_of_shift parent command.amounts _ hnames h.names (.inr h.parentCarries) ?_
  cases hkind : kind with
  | ALLOCATED =>
    refine shift_debited parent command.amounts hnames h.names (hs.nonneg parent hmem) fun e he => ?_
    have hsource := h.source e he
    rw [if_pos hkind] at hsource
    exact hsource
  | RETURNED => exact shift_credited parent command.amounts hnames h.names h.amounts_nonneg (hs.nonneg parent hmem)

theorem MovementAccepted.childSide (hs : LedgerInv authorization s) (h : MovementAccepted s s' command kind parent child)
    (fresh : Bool) :
    Side child.meters (nextChild command kind fresh child).meters command.amounts (-MovementKind.parentSign kind) := by
  obtain ⟨hnames, hnonneg, _, _⟩ := h.childNames hs
  cases hkind : kind with
  | ALLOCATED =>
    exact side_of_shift child command.amounts 1 hnames h.names (.inl rfl)
      (shift_credited child command.amounts hnames h.names h.amounts_nonneg hnonneg)
  | RETURNED =>
    have hsource : ∀ e ∈ command.amounts, ∃ b, bucketOf child e.meter = some b ∧ e.amount ≤ b.available := by
      intro e he
      have hsource := h.source e he
      rw [if_neg (by rw [hkind]; decide)] at hsource
      exact hsource
    refine side_of_shift child command.amounts (-1) hnames h.names (.inr fun e he => ?_)
      (shift_debited child command.amounts hnames h.names hnonneg hsource)
    obtain ⟨b, hb, _⟩ := hsource e he
    exact bucketOf_names child e.meter (by rw [hb]; rfl)

theorem MovementAccepted.parentNames (hs : LedgerInv authorization s) (h : MovementAccepted s s' command kind parent child) :
    meterNames (nextParent command kind parent).meters = meterNames parent.meters :=
  shift_names_carried parent command.amounts _ (hs.names parent (find_mem s _ parent h.parentFound)) h.names
    h.parentCarries

/-- One account record after the movement. -/
def movedRecord (p c r : BudgetAccountRecord) : BudgetAccountRecord :=
  if r.accountId = p.accountId then p else if r.accountId = c.accountId then c else r

theorem MovementAccepted.moved_cases (hs : LedgerInv authorization s) (h : MovementAccepted s s' command kind parent child)
    (fresh : Bool) (r : BudgetAccountRecord) (hr : r ∈ s.accounts) :
    (r = parent ∧ movedRecord (nextParent command kind parent) (nextChild command kind fresh child) r =
        nextParent command kind parent)
      ∨ (r = child ∧ find s command.childAccountId = some child
        ∧ movedRecord (nextParent command kind parent) (nextChild command kind fresh child) r =
          nextChild command kind fresh child)
      ∨ (r ≠ parent ∧ r ≠ child
        ∧ movedRecord (nextParent command kind parent) (nextChild command kind fresh child) r = r) := by
  have hne : parent.accountId ≠ child.accountId := by
    rw [h.parentId, h.childId]
    exact h.distinct
  unfold movedRecord
  by_cases hp : r.accountId = parent.accountId
  · have heq : r = parent := List.inj_on_of_nodup_map hs.ids hr (find_mem s _ parent h.parentFound) hp
    exact .inl ⟨heq, if_pos hp⟩
  · by_cases hc : r.accountId = child.accountId
    · rcases h.child_cases with hf | ⟨hf, _⟩
      · have heq : r = child := List.inj_on_of_nodup_map hs.ids hr (find_mem s _ child hf) hc
        exact .inr (.inl ⟨heq, hf, by
          show (if r.accountId = parent.accountId then _ else if r.accountId = child.accountId then _ else r) = _
          rw [if_neg hp, if_pos hc]⟩)
      · refine absurd (List.mem_map_of_mem (f := BudgetAccountRecord.accountId) hr) ?_
        rw [hc, h.childId]
        exact find_none s _ hf
    · refine .inr (.inr ⟨fun e => hp (by rw [e]), fun e => hc (by rw [e]), ?_⟩)
      show (if r.accountId = parent.accountId then _ else if r.accountId = child.accountId then _ else r) = r
      rw [if_neg hp, if_neg hc]

theorem totalAt_append (l r : List BudgetAccountRecord) (meter : JsString) :
    totalAt (l ++ r) meter = totalAt l meter + totalAt r meter := by
  simp [totalAt]

/-- The units a movement takes from one side are the units the other gains. -/
theorem MovementAccepted.totals (hs : LedgerInv authorization s) (h : MovementAccepted s s' command kind parent child)
    (meter : JsString) : totalAt s'.accounts meter = totalAt s.accounts meter := by
  have hne : parent.accountId ≠ child.accountId := by
    rw [h.parentId, h.childId]
    exact h.distinct
  have hparentMem := find_mem s _ parent h.parentFound
  have hp := (h.parentSide hs).total meter
  have hc := (h.childSide hs (find s command.childAccountId).isNone).total meter
  rw [neg_mul] at hc
  -- the rewrite is two replacements by key, one after the other
  have htwo : ∀ p c : BudgetAccountRecord, p.accountId = parent.accountId → c.accountId = child.accountId →
      movedAccounts s.accounts p c =
        (s.accounts.map fun r => if r.accountId = parent.accountId then p else r).map
          fun r => if r.accountId = child.accountId then c else r := by
    intro p c hpid hcid
    unfold movedAccounts
    rw [List.map_map, hpid, hcid]
    apply List.map_congr_left
    intro r _
    by_cases hr : r.accountId = parent.accountId
    · have hpc : p.accountId ≠ child.accountId := by
        rw [hpid]
        exact hne
      simp [hr, hpc]
    · simp [hr]
  have hids : ∀ p : BudgetAccountRecord, p.accountId = parent.accountId →
      (s.accounts.map fun r => if r.accountId = parent.accountId then p else r).map BudgetAccountRecord.accountId =
        s.accounts.map BudgetAccountRecord.accountId := by
    intro p hpid
    rw [List.map_map]
    apply List.map_congr_left
    intro r _
    by_cases hr : r.accountId = parent.accountId
    · simp [hr, hpid]
    · simp [hr]
  have hfirst : totalAt (s.accounts.map fun r =>
      if r.accountId = parent.accountId then nextParent command kind parent else r) meter =
      totalAt s.accounts meter + rowsAt (nextParent command kind parent).meters meter - rowsAt parent.meters meter :=
    sum_map_update BudgetAccountRecord.accountId (fun r => rowsAt r.meters meter) s.accounts hs.ids parent _ hparentMem
  rw [h.state]
  dsimp only
  rw [totalAt_append, htwo (nextParent command kind parent) (nextChild command kind _ child) rfl rfl]
  rcases h.child_cases with hf | ⟨hf, hnew⟩
  · have hchildMem : child ∈ s.accounts.map fun r =>
        if r.accountId = parent.accountId then nextParent command kind parent else r := by
      refine List.mem_map.mpr ⟨child, find_mem s _ child hf, ?_⟩
      rw [if_neg fun e => hne e.symm]
    have hsecond := sum_map_update BudgetAccountRecord.accountId (fun r => rowsAt r.meters meter) _
      (by rw [hids (nextParent command kind parent) rfl]; exact hs.ids) child
      (nextChild command kind (find s command.childAccountId).isNone child) hchildMem
    have hzero : totalAt (if (find s command.childAccountId).isNone = true then
        [nextChild command kind (find s command.childAccountId).isNone child] else []) meter = 0 := by
      rw [hf]
      rfl
    rw [hzero]
    unfold totalAt at hfirst ⊢
    omega
  · have hnot : child.accountId ∉ (s.accounts.map fun r =>
        if r.accountId = parent.accountId then nextParent command kind parent else r).map
          BudgetAccountRecord.accountId := by
      rw [hids (nextParent command kind parent) rfl, h.childId]
      exact find_none s _ hf
    rw [map_update_of_not_mem BudgetAccountRecord.accountId _ _ _ hnot, hfirst]
    have hchildZero : rowsAt child.meters meter = 0 := by
      rw [hnew]
      rfl
    have hone : totalAt (if (find s command.childAccountId).isNone = true then
        [nextChild command kind (find s command.childAccountId).isNone child] else []) meter =
        rowsAt (nextChild command kind (find s command.childAccountId).isNone child).meters meter := by
      rw [hf]
      simp [totalAt]
    rw [hone]
    omega

theorem movementEntries_sequence (start : ℕ) (fresh : Bool) (i : ℕ) (e : BudgetLedgerEntry)
    (h : (movementEntries start command kind fresh)[i]? = some e) : e.sequence = (start : ℤ) + i := by
  unfold movementEntries at h
  rw [List.getElem?_mapIdx] at h
  obtain ⟨amount, _, rfl⟩ := Option.map_eq_some_iff.mp h
  rfl

theorem MovementAccepted.advance (hs : LedgerInv authorization s)
    (h : MovementAccepted s s' command kind parent child) :
    LedgerAdvance s s'
      (movedRecord (nextParent command kind parent)
        (nextChild command kind (find s command.childAccountId).isNone child))
      (if (find s command.childAccountId).isNone then
        some (nextChild command kind (find s command.childAccountId).isNone child) else none) := by
  have hcases := h.moved_cases hs (find s command.childAccountId).isNone
  have hpmem := find_mem s _ parent h.parentFound
  have hpside := h.parentSide hs
  have hcside := h.childSide hs (find s command.childAccountId).isNone
  have hpnames := h.parentNames hs
  obtain ⟨hcnames, hcnonneg, hcversion, hcowner⟩ := h.childNames hs
  -- the child's meters are its own or the parent's
  have hcbounded : ∀ q : List JsString, meterNames child.meters ⊆ q → meterNames parent.meters ⊆ q →
      meterNames (nextChild command kind (find s command.childAccountId).isNone child).meters ⊆ q := by
    intro q hchild hparent meter hm
    rcases hcside.bounded meter hm with hm | hm
    · exact hchild hm
    · obtain ⟨e, he, rfl⟩ := List.mem_map.mp hm
      exact hparent (h.parentCarries e he)
  refine ⟨?_, ?_, ?_, ?_, ?_, ?_, ?_, ?_, ?_, h.totals hs, ?_⟩
  · rw [h.state]
    dsimp only
    unfold movedAccounts movedRecord
    cases hf : find s command.childAccountId with
    | none => rfl
    | some r => rfl
  · intro r hr
    rcases hcases r hr with ⟨rfl, hrep⟩ | ⟨rfl, hf, hrep⟩ | ⟨_, _, hrep⟩
    · rw [hrep]
      refine ⟨rfl, rfl, rfl, ?_⟩
      simp only [nextParent]
      omega
    · rw [hrep, hf]
      refine ⟨rfl, rfl, rfl, ?_⟩
      simp [nextChild]
    · rw [hrep]
      exact ⟨rfl, rfl, rfl, le_refl _⟩
  · intro r hr hclosed
    rcases hcases r hr with ⟨rfl, _⟩ | ⟨rfl, _, _⟩ | ⟨_, _, hrep⟩
    · rw [h.parentOpen] at hclosed
      cases hclosed
    · rw [h.childOpen] at hclosed
      cases hclosed
    · exact hrep
  · intro r hr hroot
    rcases hcases r hr with ⟨rfl, hrep⟩ | ⟨rfl, _, _⟩ | ⟨_, _, hrep⟩
    · rw [hrep]
      exact hpnames
    · rw [h.childParent] at hroot
      cases hroot
    · rw [hrep]
  · intro r hr q hq hparent hsub
    have hq' : meterNames q.meters ⊆ meterNames (movedRecord (nextParent command kind parent)
        (nextChild command kind (find s command.childAccountId).isNone child) q).meters := by
      rcases hcases q hq with ⟨rfl, hrep⟩ | ⟨rfl, _, hrep⟩ | ⟨_, _, hrep⟩
      · rw [hrep]
        exact hpside.grows
      · rw [hrep]
        exact hcside.grows
      · rw [hrep]
        exact fun _ hm => hm
    rcases hcases r hr with ⟨rfl, hrep⟩ | ⟨rfl, _, hrep⟩ | ⟨_, _, hrep⟩
    · rw [hrep, hpnames]
      exact fun _ hm => hq' (hsub hm)
    · -- the named parent is the moved child's own parent
      have hid : q.accountId = parent.accountId := Option.some.inj (hparent.symm.trans h.childParent)
      have heq : q = parent := List.inj_on_of_nodup_map hs.ids hq hpmem hid
      rw [hrep]
      exact hcbounded _ (fun _ hm => hq' (hsub hm)) (heq ▸ hq')
    · rw [hrep]
      exact fun _ hm => hq' (hsub hm)
  · intro r hr
    rcases hcases r hr with ⟨rfl, hrep⟩ | ⟨rfl, _, hrep⟩ | ⟨_, _, hrep⟩
    · rw [hrep]
      exact hpside.names
    · rw [hrep]
      exact hcside.names
    · rw [hrep]
      exact hs.names r hr
  · intro r hr
    rcases hcases r hr with ⟨rfl, hrep⟩ | ⟨rfl, _, hrep⟩ | ⟨_, _, hrep⟩
    · rw [hrep]
      exact hpside.nonneg
    · rw [hrep]
      exact hcside.nonneg
    · rw [hrep]
      exact hs.nonneg r hr
  · intro r hr
    rcases hcases r hr with ⟨rfl, hrep⟩ | ⟨rfl, _, hrep⟩ | ⟨_, _, hrep⟩
    · rw [hrep]
      exact .inl rfl
    · rw [hrep]
      exact .inl rfl
    · rw [hrep]
      exact .inl rfl
  · intro c hc
    rcases h.child_cases with hf | ⟨hf, hnew⟩
    · rw [hf] at hc
      cases hc
    · have hceq : nextChild command kind (find s command.childAccountId).isNone child = c := by
        rw [if_pos (by rw [hf]; rfl)] at hc
        exact Option.some.inj hc
      rw [← hceq]
      refine ⟨?_, hcside.names, hcside.nonneg, h.childOpen, hcowner, ?_, parent, hpmem, h.childParent, h.parentOpen, ?_⟩
      · show child.accountId ∉ _
        rw [h.childId]
        exact find_none s _ hf
      · rw [hf]
        exact le_refl 0
      · rcases hcases parent hpmem with ⟨_, hrep⟩ | ⟨heq, hf', _⟩ | ⟨hne, _, _⟩
        · rw [hrep, hpnames]
          exact hcbounded _ (by rw [hnew]; exact List.nil_subset _) (fun _ hm => hm)
        · rw [hf] at hf'
          cases hf'
        · exact absurd rfl hne
  · exact ⟨_, by rw [h.state], movementEntries_sequence _ _⟩

end Movement

/-! ### Closing advances the ledger -/

theorem CloseAccepted.advance {authorization : BudgetAuthorization} {s s' : BudgetLedgerState}
    {command : BudgetCloseCommand} {record : BudgetAccountRecord} (hs : LedgerInv authorization s)
    (h : CloseAccepted s s' command record) :
    LedgerAdvance s s' (fun r => if r.accountId = record.accountId then
      { record with version := record.version + 1, state := .CLOSED } else r) none := by
  have hmem := find_mem s _ record h.found
  have hcases : ∀ r ∈ s.accounts, r = record ∨ (r.accountId ≠ record.accountId) := by
    intro r hr
    by_cases hid : r.accountId = record.accountId
    · exact .inl (List.inj_on_of_nodup_map hs.ids hr hmem hid)
    · exact .inr hid
  have hmeters : ∀ r ∈ s.accounts, (if r.accountId = record.accountId then
      { record with version := record.version + 1, state := BudgetAccountState.CLOSED } else r).meters = r.meters := by
    intro r hr
    rcases hcases r hr with rfl | hne
    · rw [if_pos rfl]
    · rw [if_neg hne]
  refine ⟨?_, ?_, ?_, ?_, ?_, ?_, ?_, ?_, ?_, ?_, ?_⟩
  · rw [h.state, Option.toList_none, List.append_nil]
  · intro r hr
    rcases hcases r hr with rfl | hne
    · rw [if_pos rfl]
      refine ⟨rfl, rfl, rfl, ?_⟩
      dsimp only
      omega
    · rw [if_neg hne]
      exact ⟨rfl, rfl, rfl, le_refl _⟩
  · intro r hr hclosed
    rcases hcases r hr with rfl | hne
    · exact absurd hclosed h.notClosed
    · rw [if_neg hne]
  · intro r hr _
    rw [hmeters r hr]
  · intro r hr q hq _ hsub
    rw [hmeters r hr, hmeters q hq]
    exact hsub
  · intro r hr
    rw [hmeters r hr]
    exact hs.names r hr
  · intro r hr
    rw [hmeters r hr]
    exact hs.nonneg r hr
  · intro r hr
    rcases hcases r hr with rfl | hne
    · rw [if_pos rfl]
      exact .inr ⟨rfl, h.drained, h.children⟩
    · rw [if_neg hne]
      exact .inl rfl
  · intro c hc
    cases hc
  · intro meter
    rw [h.state]
    unfold totalAt
    rw [List.map_map]
    congr 1
    apply List.map_congr_left
    intro r hr
    show rowsAt (if r.accountId = record.accountId then _ else r).meters meter = _
    rw [hmeters r hr]
  · refine ⟨_, by rw [h.state], fun i e he => ?_⟩
    have hlt := (List.getElem?_eq_some_iff.mp he).1
    rw [List.length_singleton] at hlt
    have hi : i = 0 := by omega
    subst hi
    simp only [List.getElem?_cons_zero, Option.some.injEq] at he
    rw [← he]
    simp

end Account

/-! ### Whole runs -/

def ledgerStep (s : BudgetLedgerState) (c : BudgetCommand) : BudgetLedgerState := (applyCommand s c).state

section Runs
variable {authorization : BudgetAuthorization} {s s' : BudgetLedgerState}

theorem LedgerInv.accepted (hs : LedgerInv authorization s) (c : BudgetCommand) (h : applyCommand s c = .accept s') :
    ∃ rep fresh, LedgerAdvance s s' rep fresh := by
  cases c with
  | allocate command =>
    obtain ⟨parent, child, hmove⟩ := applyMovement_accept s s' command .ALLOCATED h
    exact ⟨_, _, hmove.advance hs⟩
  | giveBack command =>
    obtain ⟨parent, child, hmove⟩ := applyMovement_accept s s' command .RETURNED h
    exact ⟨_, _, hmove.advance hs⟩
  | close command =>
    obtain ⟨record, hclose⟩ := closeBudgetAccount_accept s s' command h
    exact ⟨_, _, hclose.advance hs⟩

/-- A command either advances the ledger or leaves it alone. -/
theorem LedgerInv.step_cases (hs : LedgerInv authorization s) (c : BudgetCommand) :
    ledgerStep s c = s ∨ ∃ rep fresh, LedgerAdvance s (ledgerStep s c) rep fresh := by
  unfold ledgerStep
  cases h : applyCommand s c with
  | accept s' => exact .inr (hs.accepted c h)
  | fail s' issues => exact .inl (applyCommand_fail s s' issues c h)

theorem LedgerInv.step (c : BudgetCommand) (hs : LedgerInv authorization s) :
    LedgerInv authorization (ledgerStep s c) := by
  rcases hs.step_cases c with heq | ⟨rep, fresh, hadvance⟩
  · rw [heq]
    exact hs
  · exact hs.advance hadvance

theorem LedgerInv.run (hs : LedgerInv authorization s) (commands : List BudgetCommand) :
    LedgerInv authorization (run ledgerStep s commands) :=
  run_invariant ledgerStep (LedgerInv authorization) (fun _ c h => h.step c) s hs commands

theorem LedgerInv.closed_forever (hs : LedgerInv authorization s) (commands : List BudgetCommand)
    (r : BudgetAccountRecord) (hr : r ∈ s.accounts) (hclosed : r.state = .CLOSED) :
    r ∈ (Lib.run ledgerStep s commands).accounts := by
  induction commands generalizing s with
  | nil => exact hr
  | cons c rest ih =>
    refine ih (hs.step c) ?_
    rcases hs.step_cases c with heq | ⟨rep, fresh, hadvance⟩
    · rw [heq]
      exact hr
    · exact hadvance.kept r hr hclosed

theorem LedgerInv.opened (h : RootOpened authorization s) : LedgerInv authorization s := by
  have hnames : meterNames (authorization.amounts.map fun e => zeroBucket e.meter e.amount) =
      authorization.amounts.map BudgetMeterAmount.meter := by
    unfold meterNames
    rw [List.map_map]
    rfl
  have hone : ∀ r ∈ s.accounts, r = ⟨authorization.rootAccountId, authorization.ownerRef, none,
      authorization.graphRevisionRef, 0, .OPEN, authorization.amounts.map fun e => zeroBucket e.meter e.amount⟩ := by
    intro r hr
    rw [h.state] at hr
    exact List.mem_singleton.mp hr
  refine ⟨?_, ?_, ?_, ?_, ?_, ?_, ?_, ?_, ?_, ?_, ?_⟩
  · rw [h.state]
    exact List.nodup_singleton _
  · rw [h.state]
    exact ⟨_, rfl, rfl, rfl, hnames⟩
  · intro i r hr hi
    rw [h.state] at hr
    have hlt := (List.getElem?_eq_some_iff.mp hr).1
    rw [List.length_singleton] at hlt
    omega
  · intro r hr
    rw [hone r hr, hnames]
    exact h.names
  · intro r hr b hb
    rw [hone r hr] at hb
    obtain ⟨e, he, rfl⟩ := List.mem_map.mp hb
    exact ⟨h.amounts e he, le_refl 0, le_refl 0, le_refl 0⟩
  · intro r hr hclosed
    rw [hone r hr] at hclosed
    cases hclosed
  · intro r hr hclosed
    rw [hone r hr] at hclosed
    cases hclosed
  · intro meter
    rw [h.state]
    unfold totalAt rowsAt amountAt
    rw [List.map_singleton, List.sum_singleton, OrdMap.sumAt_map]
    have htotal : (fun e : BudgetMeterAmount => (zeroBucket e.meter e.amount).total) = BudgetMeterAmount.amount := by
      funext e
      simp [zeroBucket, BudgetMeterBuckets.total]
    rw [htotal]
    rfl
  · intro i e he
    rw [h.state] at he
    dsimp only at he
    rw [List.getElem?_mapIdx] at he
    obtain ⟨amount, _, rfl⟩ := Option.map_eq_some_iff.mp he
    rfl
  · intro r hr
    rw [hone r hr]
    exact h.ownerRef
  · intro r hr
    rw [hone r hr]

/-! ### Derived totals -/

/-- Every account carries authorized meters only. -/
theorem LedgerInv.names_authorized (hs : LedgerInv authorization s) (i : ℕ) (r : BudgetAccountRecord)
    (hr : s.accounts[i]? = some r) :
    meterNames r.meters ⊆ authorization.amounts.map BudgetMeterAmount.meter := by
  induction i using Nat.strong_induction_on generalizing r with
  | _ i ih =>
    rcases Nat.eq_zero_or_pos i with hi | hi
    · obtain ⟨root, hroot, _, _, hnames⟩ := hs.root
      rw [hi, hroot] at hr
      rw [← Option.some.inj hr, hnames]
      exact fun _ hm => hm
    · obtain ⟨j, q, hj, hq, _, hsub⟩ := hs.tree i r hr hi
      exact fun _ hm => ih j hj q hq (hsub hm)

def subtreeTally (accounts : List BudgetAccountRecord) : OrdMap JsString ℤ :=
  OrdMap.tally BudgetMeterBuckets.meter BudgetMeterBuckets.total (accounts.flatMap (·.meters))

theorem subtree_fold_eq_tally (accounts : List BudgetAccountRecord) (m : OrdMap JsString ℤ) :
    accounts.foldl
        (fun totals r => OrdMap.tallyInto BudgetMeterBuckets.meter BudgetMeterBuckets.total totals r.meters) m =
      OrdMap.tallyInto BudgetMeterBuckets.meter BudgetMeterBuckets.total m (accounts.flatMap (·.meters)) := by
  induction accounts generalizing m with
  | nil => rfl
  | cons r rest ih =>
    rw [List.foldl_cons, ih, List.flatMap_cons]
    unfold OrdMap.tallyInto
    rw [List.foldl_append]

theorem sumAt_flatMap (accounts : List BudgetAccountRecord) (meter : JsString) :
    OrdMap.sumAt BudgetMeterBuckets.meter BudgetMeterBuckets.total (accounts.flatMap (·.meters)) meter =
      totalAt accounts meter := by
  induction accounts with
  | nil => rfl
  | cons r rest ih =>
    rw [List.flatMap_cons, OrdMap.sumAt_append, ih]
    simp [totalAt, rowsAt]

theorem LedgerInv.tally_perm (hs : LedgerInv authorization s)
    (hauth : (authorization.amounts.map BudgetMeterAmount.meter).Nodup) :
    ((subtreeTally s.accounts).entries.map fun e => (⟨e.1, e.2⟩ : BudgetMeterAmount)).Perm authorization.amounts := by
  have hnodup : ((subtreeTally s.accounts).entries.map fun e => (⟨e.1, e.2⟩ : BudgetMeterAmount)).Nodup := by
    apply List.Nodup.of_map BudgetMeterAmount.meter
    rw [List.map_map]
    exact (subtreeTally s.accounts).nodup
  rw [List.perm_ext_iff_of_nodup hnodup (List.Nodup.of_map _ hauth)]
  intro a
  have hentry := OrdMap.mem_entries_tally BudgetMeterBuckets.meter BudgetMeterBuckets.total
    (s.accounts.flatMap (·.meters)) a.meter a.amount
  rw [sumAt_flatMap, hs.totals a.meter] at hentry
  have hmap : a ∈ (subtreeTally s.accounts).entries.map (fun e => (⟨e.1, e.2⟩ : BudgetMeterAmount)) ↔
      (a.meter, a.amount) ∈ (subtreeTally s.accounts).entries := by
    constructor
    · intro h
      obtain ⟨e, he, rfl⟩ := List.mem_map.mp h
      exact he
    · intro h
      exact List.mem_map.mpr ⟨_, h, rfl⟩
  rw [hmap, subtreeTally, hentry]
  -- the meters of the tree are exactly the authorized ones
  have hkeys : a.meter ∈ (s.accounts.flatMap (·.meters)).map BudgetMeterBuckets.meter ↔
      a.meter ∈ authorization.amounts.map BudgetMeterAmount.meter := by
    constructor
    · intro h
      obtain ⟨b, hb, hmeter⟩ := List.mem_map.mp h
      obtain ⟨r, hr, hbr⟩ := List.mem_flatMap.mp hb
      obtain ⟨i, hi, hget⟩ := List.mem_iff_getElem.mp hr
      refine hs.names_authorized i r (List.getElem?_eq_some_iff.mpr ⟨hi, hget⟩) ?_
      exact hmeter ▸ List.mem_map_of_mem (f := BudgetMeterBuckets.meter) hbr
    · intro h
      obtain ⟨root, hroot, _, _, hnames⟩ := hs.root
      rw [← hnames] at h
      obtain ⟨b, hb, hmeter⟩ := List.mem_map.mp h
      exact List.mem_map.mpr ⟨b, List.mem_flatMap.mpr ⟨root, List.mem_of_getElem? hroot, hb⟩, hmeter⟩
  rw [hkeys]
  constructor
  · rintro ⟨hm, hamount⟩
    obtain ⟨e, he, hmeter⟩ := List.mem_map.mp hm
    have hsum : amountAt authorization.amounts e.meter = e.amount :=
      OrdMap.sumAt_of_mem BudgetMeterAmount.meter BudgetMeterAmount.amount _ hauth e he
    have heq : a = e := by
      cases a
      cases e
      simp_all
    exact heq ▸ he
  · intro ha
    refine ⟨List.mem_map_of_mem (f := BudgetMeterAmount.meter) ha, ?_⟩
    exact (OrdMap.sumAt_of_mem BudgetMeterAmount.meter BudgetMeterAmount.amount _ hauth a ha).symm

theorem LedgerInv.derived (hs : LedgerInv authorization s)
    (hauth : (authorization.amounts.map BudgetMeterAmount.meter).Nodup) :
    deriveSubtreeTotals s = authorization.amounts.mergeSort fun left right => left.meter ≤ right.meter := by
  have htally : deriveSubtreeTotals s = ((subtreeTally s.accounts).entries.map
      fun e => (⟨e.1, e.2⟩ : BudgetMeterAmount)).mergeSort fun left right => left.meter ≤ right.meter := by
    unfold deriveSubtreeTotals
    dsimp only
    rw [subtree_fold_eq_tally]
    rfl
  rw [htally]
  have hperm := hs.tally_perm hauth
  exact mergeSort_key_perm BudgetMeterAmount.meter hperm fun a ha b hb => List.inj_on_of_nodup_map hauth ha hb

def ChildOf (s : BudgetLedgerState) (c p : BudgetAccountRecord) : Prop :=
  c ∈ s.accounts ∧ p ∈ s.accounts ∧ c.parentRef = some p.accountId

theorem LedgerInv.descendants (hs : LedgerInv authorization s) (r d : BudgetAccountRecord) (hr : r ∈ s.accounts)
    (hclosed : r.state = .CLOSED) (h : Relation.TransGen (ChildOf s) d r) : d.state = .CLOSED := by
  induction h using Relation.TransGen.head_induction_on with
  | single hchild => exact hs.children r hr hclosed _ hchild.1 hchild.2.2
  | head hchild _ ih => exact hs.children _ hchild.2.1 ih _ hchild.1 hchild.2.2

end Runs

/-- Budget tree conservation: along every run of live commands, accepted or
refused, the derived subtree totals are the authorized amounts, the accounts
form a tree rooted at the root account, and closed accounts stay as they are. -/
theorem ledger_conserves_budget_tree (authorization : BudgetAuthorization) (start : BudgetLedgerState)
    (hopen : openBudgetRoot authorization = .accept start) (commands : List BudgetCommand) :
    let s := run ledgerStep start commands
    deriveSubtreeTotals s = authorization.amounts.mergeSort (fun left right => left.meter ≤ right.meter)
      ∧ (∀ r ∈ s.accounts, (∀ b ∈ r.meters, b.Nonneg) ∧ (r.meters.map BudgetMeterBuckets.meter).Nodup)
      ∧ (s.accounts.map BudgetAccountRecord.accountId).Nodup
      ∧ (∃ root, s.accounts[0]? = some root ∧ root.accountId = authorization.rootAccountId ∧ root.parentRef = none)
      ∧ (∀ i r, s.accounts[i]? = some r → 0 < i →
          ∃ j q, j < i ∧ s.accounts[j]? = some q ∧ r.parentRef = some q.accountId
            ∧ r.meters.map BudgetMeterBuckets.meter ⊆ q.meters.map BudgetMeterBuckets.meter)
      ∧ (∀ r ∈ s.accounts, r.state = .CLOSED →
          (∀ m ∈ r.meters, m.available = 0 ∧ m.reserved = 0 ∧ m.quarantined = 0)
            ∧ (∀ more, find (run ledgerStep s more) r.accountId = some r)
            ∧ ∀ d, Relation.TransGen (ChildOf s) d r → d.state = .CLOSED)
      ∧ ∀ (i : ℕ) (e : BudgetLedgerEntry), s.entries[i]? = some e → e.sequence = i := by
  intro s
  have hroot := openBudgetRoot_accept authorization start hopen
  have hs : LedgerInv authorization s := (LedgerInv.opened hroot).run commands
  refine ⟨hs.derived hroot.names, fun r hr => ⟨hs.nonneg r hr, hs.names r hr⟩, hs.ids, ?_, hs.tree, ?_, hs.sequence⟩
  · obtain ⟨root, hget, hid, hparent, _⟩ := hs.root
    exact ⟨root, hget, hid, hparent⟩
  · intro r hr hclosed
    refine ⟨hs.drained r hr hclosed, fun more => ?_, fun d hd => hs.descendants r d hr hclosed hd⟩
    have hkept := hs.closed_forever more r hr hclosed
    exact find_key_of_mem BudgetAccountRecord.accountId _ (hs.run more).ids r hkept

-- a child funded with 4 of 10 units, drained and closed
def tenTokens : BudgetAuthorization := ⟨lit "root", lit "owner", lit "g1", [⟨lit "tokens", 10⟩]⟩

def fundAndClose : List BudgetCommand := [
  .allocate ⟨lit "root", lit "kid", lit "owner2", 0, none, [⟨lit "tokens", 4⟩]⟩,
  .allocate ⟨lit "root", lit "kid", lit "owner2", 0, none, [⟨lit "tokens", 4⟩]⟩,
  .giveBack ⟨lit "root", lit "kid", lit "owner2", 1, some 0, [⟨lit "tokens", 4⟩]⟩,
  .close ⟨lit "kid", 1⟩]

theorem ledger_conserves_budget_tree_kid :
    ∃ start, openBudgetRoot tenTokens = .accept start
      ∧ ((run ledgerStep start fundAndClose).accounts.map fun r => (r.accountId, r.state)) =
          [(lit "root", .OPEN), (lit "kid", .CLOSED)]
      ∧ deriveSubtreeTotals (run ledgerStep start fundAndClose) =
          tenTokens.amounts.mergeSort fun left right => left.meter ≤ right.meter := by
  refine ⟨(openBudgetRoot tenTokens).state, by decide +kernel, by decide +kernel, ?_⟩
  exact (ledger_conserves_budget_tree tenTokens _ (by decide +kernel) fundAndClose).1

end MoeNG.Budget
