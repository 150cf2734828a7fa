import MoeNG.Fairness.Rotation
import MoeNG.Lib.Run

/-!
# What one rotation does to the queues

Only the head of a queue holds credit, never more than its weight. A round sets
every head to its weight; a service takes one unit and hands the rest on.
-/

namespace MoeNG.Fairness
open MoeNG.Kernel MoeNG.Lib

/-! ### Lanes and credit -/

abbrev lane (entries : List FairnessRingQueueEntry) (resourceId : JsString) : List FairnessRingQueueEntry :=
  queue FairnessRingQueueEntry.resourceId entries resourceId

def laneCredit : List FairnessRingQueueEntry → ℤ
  | [] => 0
  | head :: _ => head.deficitCounter

def credit (entries : List FairnessRingQueueEntry) (resourceId : JsString) : ℤ := laneCredit (lane entries resourceId)

def LaneOk (weight : ℤ) : List FairnessRingQueueEntry → Prop
  | [] => True
  | head :: rest => 0 ≤ head.deficitCounter ∧ head.deficitCounter ≤ weight ∧ ∀ e ∈ rest, e.deficitCounter = 0

/-- Only heads hold credit, at most one round's share. -/
def CreditInv (ring : FairnessRing) : Prop :=
  ∀ resourceId, LaneOk (weightOf ring resourceId) (lane ring.entries resourceId)

/-- What the validated request promises about the ring. -/
structure RingFacts (ring : FairnessRing) : Prop where
  nodup : (ring.resources.map FairnessRingResource.resourceId).Nodup
  weights : ∀ r ∈ ring.resources, isCount r.weight = true
  declared : ∀ e ∈ ring.entries, e.resourceId ∈ ring.resources.map FairnessRingResource.resourceId
  floor : ∀ e ∈ ring.entries, 1 ≤ weightOf ring e.resourceId

variable (ring : FairnessRing)

theorem weightOf_mem (h : (ring.resources.map FairnessRingResource.resourceId).Nodup)
    (r : FairnessRingResource) (hr : r ∈ ring.resources) : weightOf ring r.resourceId = r.weight := by
  unfold weightOf
  rw [find_key_of_mem FairnessRingResource.resourceId ring.resources h r hr]
  rfl

theorem weightOf_count (h : RingFacts ring) (resourceId : JsString) :
    0 ≤ weightOf ring resourceId ∧ weightOf ring resourceId ≤ maxAuthorityCount := by
  unfold weightOf
  cases hfind : ring.resources.find? fun each => each.resourceId = resourceId with
  | none => exact ⟨le_rfl, by decide⟩
  | some r =>
    have hcount := h.weights r (List.mem_of_find?_eq_some hfind)
    simpa [isCount] using hcount

theorem LaneOk.credit_nonneg {weight : ℤ} {l : List FairnessRingQueueEntry} (h : LaneOk weight l) :
    0 ≤ laneCredit l := by
  cases l with
  | nil => exact le_rfl
  | cons head rest => exact h.1

theorem LaneOk.credit_le {weight : ℤ} {l : List FairnessRingQueueEntry} (h : LaneOk weight l) (hw : 0 ≤ weight) :
    laneCredit l ≤ weight := by
  cases l with
  | nil => exact hw
  | cons head rest => exact h.2.1

/-! ### Heads -/

theorem queueHead_some (entries : List FairnessRingQueueEntry) (resourceId : JsString)
    (head : QueueHead) (h : queueHead ring entries resourceId = some head) :
    head.resourceId = resourceId ∧ head.weight = weightOf ring resourceId
      ∧ headIndex FairnessRingQueueEntry.resourceId entries resourceId = some head.index
      ∧ (lane entries resourceId).head? = some head.entry := by
  simp only [queueHead, Option.bind_eq_bind, Option.pure_def, Option.bind_eq_some_iff, Option.some.injEq] at h
  obtain ⟨index, hindex, entry, hentry, rfl⟩ := h
  exact ⟨rfl, rfl, hindex, (getElem?_headIndex _ _ _ _ hindex).symm.trans hentry⟩

theorem queueHead_exists (entries : List FairnessRingQueueEntry) (resourceId : JsString)
    (entry : FairnessRingQueueEntry) (h : (lane entries resourceId).head? = some entry) :
    ∃ head, queueHead ring entries resourceId = some head ∧ head.entry = entry := by
  cases hindex : headIndex FairnessRingQueueEntry.resourceId entries resourceId with
  | none =>
    rw [lane, (headIndex_eq_none _ _ _).mp hindex] at h
    cases h
  | some index =>
    have hget := (getElem?_headIndex _ _ _ _ hindex).trans h
    refine ⟨⟨resourceId, weightOf ring resourceId, index, entry⟩, ?_, rfl⟩
    simp [queueHead, hindex, hget]

theorem mem_queueHeads (entries : List FairnessRingQueueEntry) (head : QueueHead) : head ∈ queueHeads ring entries ↔
      head.resourceId ∈ ring.resources.map FairnessRingResource.resourceId
        ∧ queueHead ring entries head.resourceId = some head := by
  unfold queueHeads orderedResourceIds
  rw [List.mem_filterMap]
  constructor
  · rintro ⟨resourceId, hmem, hhead⟩
    obtain ⟨rfl, -⟩ := queueHead_some ring entries resourceId head hhead
    exact ⟨(List.mem_insertionSort _).mp hmem, hhead⟩
  · rintro ⟨hmem, hhead⟩
    exact ⟨head.resourceId, (List.mem_insertionSort _).mpr hmem, hhead⟩

theorem queueHeads_pairwise (h : RingFacts ring) (entries : List FairnessRingQueueEntry) :
    (queueHeads ring entries).Pairwise fun a b => a.resourceId < b.resourceId := by
  have hsorted : (orderedResourceIds ring).Pairwise (· ≤ ·) := List.pairwise_insertionSort _ _
  have hnodup : (orderedResourceIds ring).Nodup := (List.perm_insertionSort _ _).nodup_iff.mpr h.nodup
  have hlt : (orderedResourceIds ring).Pairwise (· < ·) :=
    (hsorted.and hnodup).imp fun hab => lt_of_le_of_ne hab.1 hab.2
  refine List.Pairwise.filterMap _ ?_ hlt
  intro a b hab x hx y hy
  obtain ⟨rfl, -⟩ := queueHead_some ring entries a x hx
  obtain ⟨rfl, -⟩ := queueHead_some ring entries b y hy
  exact hab

theorem headState_congr (inputs : FairnessRotationInputs) (a b : QueueHead) (hid : a.resourceId = b.resourceId)
    (hitem : a.entry.workItemId = b.entry.workItemId) : headState a inputs = headState b inputs := by
  unfold headState
  rw [hid, hitem]

/-! ### A service -/

/-- The queue behind a served head, with the residual on its new head. -/
def carry (residual : ℤ) : List FairnessRingQueueEntry → List FairnessRingQueueEntry
  | [] => []
  | successor :: rest => { successor with deficitCounter := residual } :: rest

theorem safeAdd_count (left right : ℤ) (hleft : 0 ≤ left) (hright : 0 ≤ right) (h : left + right ≤ maxAuthorityCount) :
    safeAdd left right = some (left + right) := by
  unfold safeAdd
  dsimp only
  rw [if_pos]
  unfold maxAuthorityCount at *
  refine ⟨⟨?_, ?_⟩, h⟩
  · have : 0 ≤ maxSafeInteger := by decide
    omega
  · omega

theorem dequeue_lane (entries : List FairnessRingQueueEntry) (head : QueueHead)
    (hhead : queueHead ring entries head.resourceId = some head) (rest : List FairnessRingQueueEntry)
    (hlane : lane entries head.resourceId = head.entry :: rest) (hrest : ∀ e ∈ rest, e.deficitCounter = 0)
    (hpos : 1 ≤ head.entry.deficitCounter) (hmax : head.entry.deficitCounter ≤ maxAuthorityCount) :
    ∃ served, dequeue entries head = .ok served
      ∧ ∀ r, lane served r = if r = head.resourceId then carry (head.entry.deficitCounter - 1) rest else lane entries r := by
  obtain ⟨-, -, hindex, -⟩ := queueHead_some ring entries _ head hhead
  have herase : ∀ r, lane (entries.eraseIdx head.index) r = if r = head.resourceId then rest else lane entries r := by
    intro r
    rw [lane, queue_eraseIdx_head _ _ _ _ hindex, ← lane, hlane]
    rfl
  have hself : lane (entries.eraseIdx head.index) head.resourceId = rest := by rw [herase, if_pos rfl]
  unfold dequeue
  dsimp only
  cases hnext : headIndex FairnessRingQueueEntry.resourceId (entries.eraseIdx head.index) head.resourceId with
  | none =>
    have hnil : rest = [] := by
      rw [← hself]
      exact (headIndex_eq_none _ _ _).mp hnext
    subst hnil
    exact ⟨_, rfl, herase⟩
  | some nextIndex =>
    have hget := getElem?_headIndex _ _ _ _ hnext
    cases rest with
    | nil =>
      rw [← lane, hself] at hget
      have hnone := (headIndex_eq_none FairnessRingQueueEntry.resourceId _ _).mpr hself
      rw [hnext] at hnone
      cases hnone
    | cons successor rest =>
      rw [← lane, hself, List.head?_cons] at hget
      have hzero : successor.deficitCounter = 0 := hrest successor (List.mem_cons_self ..)
      dsimp only
      by_cases hresidual : head.entry.deficitCounter - fairnessServiceCost = 0
      · rw [if_pos hresidual]
        refine ⟨_, rfl, fun r => ?_⟩
        rw [herase]
        have hkeep : carry (head.entry.deficitCounter - 1) (successor :: rest) = successor :: rest := by
          unfold carry fairnessServiceCost at *
          rw [hresidual, ← hzero]
        rw [hkeep]
      · rw [if_neg hresidual, hget]
        dsimp only
        rw [safeAdd_count _ _ (by omega) (by unfold fairnessServiceCost; omega)
          (by unfold fairnessServiceCost; omega)]
        refine ⟨_, rfl, fun r => ?_⟩
        have hid : successor.resourceId = head.resourceId := by
          refine key_of_mem_queue FairnessRingQueueEntry.resourceId (entries.eraseIdx head.index) _ _ ?_
          rw [← lane, hself]
          exact List.mem_cons_self ..
        have hset := queue_set_head FairnessRingQueueEntry.resourceId _ _ _ hnext
          { successor with deficitCounter := successor.deficitCounter + (head.entry.deficitCounter - fairnessServiceCost) }
          hid r
        rw [lane, hset, ← lane, ← lane, hself, herase]
        split
        · rw [hzero, Int.zero_add]
          rfl
        · rfl

/-! ### A round -/

/-- What a round needs to know about a head that is about to be credited. -/
structure Creditable (ring : FairnessRing) (inputs : FairnessRotationInputs) (entries : List FairnessRingQueueEntry)
    (head : QueueHead) : Prop where
  queued : queueHead ring entries head.resourceId = some head
  weight_nonneg : 0 ≤ head.weight
  weight_le : head.weight ≤ maxAuthorityCount
  spent : headState head inputs = .SERVABLE → head.entry.deficitCounter = 0

theorem creditHead_ok (inputs : FairnessRotationInputs) (entries : List FairnessRingQueueEntry)
    (head : QueueHead) (h : Creditable ring inputs entries head) :
    creditHead inputs entries head = .ok (entries.set head.index { head.entry with deficitCounter := head.weight }) := by
  unfold creditHead
  split
  · rfl
  · rename_i hservable
    have hzero := h.spent (not_not.mp hservable)
    have hle := h.weight_le
    rw [safeAdd_count _ _ hzero.ge h.weight_nonneg (by omega), hzero, Int.zero_add]

theorem queueHead_key (entries : List FairnessRingQueueEntry) (head : QueueHead)
    (h : queueHead ring entries head.resourceId = some head) : head.entry.resourceId = head.resourceId := by
  obtain ⟨-, -, -, hhead⟩ := queueHead_some ring entries _ head h
  exact key_of_mem_queue _ _ _ _ (List.mem_of_head? hhead)

theorem credited_lane (entries : List FairnessRingQueueEntry) (head : QueueHead)
    (h : queueHead ring entries head.resourceId = some head) (r : JsString) :
    lane (entries.set head.index { head.entry with deficitCounter := head.weight }) r =
      if r = head.resourceId then { head.entry with deficitCounter := head.weight } :: (lane entries r).tail
      else lane entries r := by
  obtain ⟨-, -, hindex, -⟩ := queueHead_some ring entries _ head h
  rw [lane, @queue_set_head _ _ _ FairnessRingQueueEntry.resourceId _ _ _ hindex
    { head.entry with deficitCounter := head.weight } (queueHead_key ring entries head h) r]
  by_cases hr : r = head.resourceId
  · rw [if_pos hr, if_pos hr, hr]
  · rw [if_neg hr, if_neg hr]

theorem queueHead_credited (entries : List FairnessRingQueueEntry) (head : QueueHead)
    (h : queueHead ring entries head.resourceId = some head) (r : JsString) (hr : r ≠ head.resourceId) :
    queueHead ring (entries.set head.index { head.entry with deficitCounter := head.weight }) r =
      queueHead ring entries r := by
  obtain ⟨-, -, hindex, -⟩ := queueHead_some ring entries _ head h
  have hsame := @headIndex_set_head _ _ _ FairnessRingQueueEntry.resourceId _ _ _ hindex
    { head.entry with deficitCounter := head.weight } (queueHead_key ring entries head h) r
  unfold queueHead
  rw [hsame]
  cases hi : headIndex FairnessRingQueueEntry.resourceId entries r with
  | none => rfl
  | some i =>
    have hnew := getElem?_headIndex _ _ _ _ (hsame.trans hi)
    have hold := getElem?_headIndex _ _ _ _ hi
    have hlane := credited_lane ring entries head h r
    rw [if_neg hr] at hlane
    rw [← lane, hlane] at hnew
    simp only [Option.bind_eq_bind, Option.bind_some, hnew, hold]

theorem advanceRound_ok (inputs : FairnessRotationInputs) (heads : List QueueHead)
    (entries : List FairnessRingQueueEntry) (hheads : ∀ head ∈ heads, Creditable ring inputs entries head)
    (hpairwise : heads.Pairwise fun a b => a.resourceId < b.resourceId) :
    ∃ credited, advanceRound heads entries inputs = .ok credited
      ∧ (∀ head ∈ heads, lane credited head.resourceId =
          { head.entry with deficitCounter := head.weight } :: (lane entries head.resourceId).tail)
      ∧ ∀ r, r ∉ heads.map QueueHead.resourceId → lane credited r = lane entries r := by
  induction heads generalizing entries with
  | nil => exact ⟨entries, rfl, nofun, fun _ _ => rfl⟩
  | cons head rest ih =>
    have hhead := hheads head (List.mem_cons_self ..)
    obtain ⟨hfirst, hrest⟩ := List.pairwise_cons.mp hpairwise
    have hother : ∀ other ∈ rest, other.resourceId ≠ head.resourceId := fun other ho => (hfirst other ho).ne'
    obtain ⟨credited, hok, hin, hout⟩ := ih
      (entries.set head.index { head.entry with deficitCounter := head.weight }) (fun other ho => by
        have hc := hheads other (List.mem_cons_of_mem _ ho)
        exact { hc with
          queued := (queueHead_credited ring entries head hhead.queued _ (hother other ho)).trans hc.queued }) hrest
    refine ⟨credited, ?_, ?_, ?_⟩
    · unfold advanceRound at hok ⊢
      rw [List.foldlM_cons, creditHead_ok ring inputs entries head hhead]
      exact hok
    · intro other ho
      obtain rfl | ho := List.mem_cons.mp ho
      · have hfresh : other.resourceId ∉ rest.map QueueHead.resourceId := by
          intro hmem
          obtain ⟨x, hx, hxe⟩ := List.mem_map.mp hmem
          exact hother x hx hxe
        rw [hout _ hfresh, credited_lane ring entries other hhead.queued, if_pos rfl]
      · rw [hin other ho, credited_lane ring entries head hhead.queued, if_neg (hother other ho)]
    · intro r hr
      rw [List.map_cons, List.mem_cons, not_or] at hr
      rw [hout r hr.2, credited_lane ring entries head hhead.queued, if_neg hr.1]

/-! ### Picking -/

theorem pick_some (heads : List QueueHead) (inputs : FairnessRotationInputs) (chosen : QueueHead)
    (h : pick heads inputs = some chosen) :
    chosen ∈ heads ∧ headState chosen inputs = .SERVABLE ∧ 1 ≤ chosen.entry.deficitCounter := by
  have hp := List.find?_some h
  simp only [decide_eq_true_eq] at hp
  exact ⟨List.mem_of_find?_eq_some h, hp.1, hp.2⟩

theorem pick_none (heads : List QueueHead) (inputs : FairnessRotationInputs) (h : pick heads inputs = none)
    (head : QueueHead) (hmem : head ∈ heads) (hservable : headState head inputs = .SERVABLE) :
    head.entry.deficitCounter < 1 := by
  have hp := List.find?_eq_none.mp h head hmem
  simp only [decide_eq_true_eq, not_and] at hp
  exact not_le.mp (hp hservable)

theorem pick_first (heads : List QueueHead) (inputs : FairnessRotationInputs) (chosen : QueueHead)
    (hpairwise : heads.Pairwise fun a b => a.resourceId < b.resourceId) (h : pick heads inputs = some chosen)
    (head : QueueHead) (hmem : head ∈ heads) (hservable : headState head inputs = .SERVABLE)
    (hcredit : 1 ≤ head.entry.deficitCounter) (hne : chosen.resourceId ≠ head.resourceId) :
    chosen.resourceId < head.resourceId := by
  obtain ⟨-, before, after, rfl, hbefore⟩ := List.find?_eq_some_iff_append.mp h
  obtain hin | hin := List.mem_append.mp hmem
  · have hskip := hbefore head hin
    simp only [Bool.not_eq_true', decide_eq_false_iff_not, not_and] at hskip
    exact absurd hcredit (hskip hservable)
  · obtain rfl | hin := List.mem_cons.mp hin
    · exact absurd rfl hne
    · exact (List.pairwise_cons.mp (List.pairwise_append.mp hpairwise).2.1).1 head hin

/-! ### One turn -/

def RotationOutcome.selects (o : RotationOutcome) (resourceId : JsString) : Bool :=
  match o.selection with
  | some selection => selection.resourceId = resourceId
  | none => false

def ServableHead (inputs : FairnessRotationInputs) (resourceId : JsString) : Prop :=
  ∃ head ∈ queueHeads inputs.ring inputs.ring.entries,
    head.resourceId = resourceId ∧ headState head inputs = .SERVABLE

/-- A turn that serves `r` although `q` could be served: `q` keeps its credit
and `r` comes first, or a round was due and `q` has just been credited. -/
def Overtakes (inputs : FairnessRotationInputs) (o : RotationOutcome) (r q : JsString) : Prop :=
  (o.roundsAdvanced = 0 ∧ credit o.ring.entries q = credit inputs.ring.entries q ∧
      (1 ≤ credit inputs.ring.entries q → r < q))
    ∨ (o.roundsAdvanced = 1 ∧ credit inputs.ring.entries q = 0 ∧ 1 ≤ credit o.ring.entries q ∧ r < q)

structure Turn (inputs : FairnessRotationInputs) (o : RotationOutcome) : Prop where
  resources : o.ring.resources = inputs.ring.resources
  rounds : o.roundsAdvanced ≤ 1
  inv : CreditInv o.ring
  spends : ∀ r, credit o.ring.entries r + (if o.selects r then 1 else 0) ≤
    if o.roundsAdvanced = 0 then credit inputs.ring.entries r else weightOf inputs.ring r
  progress : ∀ q, ServableHead inputs q → o.disposition = .SELECTED
    ∧ ∃ r ∈ inputs.ring.resources.map FairnessRingResource.resourceId,
        o.selects r = true ∧ (r ≠ q → Overtakes inputs o r q)

theorem lane_of_head (entries : List FairnessRingQueueEntry) (head : QueueHead)
    (h : queueHead ring entries head.resourceId = some head) :
    lane entries head.resourceId = head.entry :: (lane entries head.resourceId).tail := by
  obtain ⟨-, -, -, hhead⟩ := queueHead_some ring entries _ head h
  exact List.eq_cons_of_mem_head? hhead

theorem credit_of_head (entries : List FairnessRingQueueEntry) (head : QueueHead)
    (h : queueHead ring entries head.resourceId = some head) :
    credit entries head.resourceId = head.entry.deficitCounter := by
  unfold credit
  rw [lane_of_head ring entries head h]
  rfl

/-- The effect of serving a head that holds credit. -/
structure Served (ring : FairnessRing) (entries served : List FairnessRingQueueEntry) (chosen : QueueHead) : Prop where
  inv : CreditInv { ring with entries := served }
  others : ∀ r, r ≠ chosen.resourceId → credit served r = credit entries r
  spends : credit served chosen.resourceId + 1 ≤ credit entries chosen.resourceId

theorem serve_ok (inputs : FairnessRotationInputs) (hfacts : RingFacts inputs.ring)
    (entries : List FairnessRingQueueEntry) (hinv : CreditInv { inputs.ring with entries := entries })
    (chosen : QueueHead) (hqueued : queueHead inputs.ring entries chosen.resourceId = some chosen)
    (hcredit : 1 ≤ chosen.entry.deficitCounter) (roundsAdvanced : ℕ) :
    ∃ served, serve inputs entries chosen roundsAdvanced =
        .ok (outcome .SELECTED (some ⟨chosen.entry.workItemId, chosen.resourceId⟩) inputs.ring served roundsAdvanced)
      ∧ Served inputs.ring entries served chosen := by
  have hlane := lane_of_head inputs.ring entries chosen hqueued
  have hok := hinv chosen.resourceId
  change LaneOk (weightOf inputs.ring chosen.resourceId) (lane entries chosen.resourceId) at hok
  rw [hlane] at hok
  have hweight := weightOf_count inputs.ring hfacts chosen.resourceId
  have hmax : chosen.entry.deficitCounter ≤ maxAuthorityCount := hok.2.1.trans hweight.2
  obtain ⟨served, hserved, hlanes⟩ := dequeue_lane inputs.ring entries chosen hqueued _ hlane hok.2.2 hcredit hmax
  refine ⟨served, ?_, ?_, ?_, ?_⟩
  · unfold serve
    rw [hserved]
    rfl
  · intro r
    change LaneOk (weightOf inputs.ring r) (lane served r)
    rw [hlanes]
    split
    · rename_i hr
      subst hr
      unfold carry
      split
      · trivial
      · rename_i successor rest htail
        rw [htail] at hok
        have hle := hok.2.1
        refine ⟨?_, ?_, fun e he => hok.2.2 e (List.mem_cons_of_mem _ he)⟩ <;> dsimp only <;> omega
    · exact hinv r
  · intro r hr
    unfold credit
    rw [hlanes, if_neg hr]
  · rw [credit_of_head inputs.ring entries chosen hqueued]
    unfold credit
    rw [hlanes, if_pos rfl]
    unfold carry
    split <;> simp only [laneCredit] <;> omega

/-- The effect of a round: every head holds exactly its weight. -/
structure Credited (ring : FairnessRing) (entries credited : List FairnessRingQueueEntry) : Prop where
  inv : CreditInv { ring with entries := credited }
  heads : ∀ head ∈ queueHeads ring entries, ∃ next ∈ queueHeads ring credited,
    next.resourceId = head.resourceId ∧ next.entry = { head.entry with deficitCounter := head.weight }

theorem advanceRound_credits (inputs : FairnessRotationInputs) (hfacts : RingFacts inputs.ring)
    (hinv : CreditInv inputs.ring)
    (hpick : pick (queueHeads inputs.ring inputs.ring.entries) inputs = none) :
    ∃ credited, advanceRound (queueHeads inputs.ring inputs.ring.entries) inputs.ring.entries inputs = .ok credited
      ∧ Credited inputs.ring inputs.ring.entries credited := by
  have hcreditable : ∀ head ∈ queueHeads inputs.ring inputs.ring.entries,
      Creditable inputs.ring inputs inputs.ring.entries head := by
    intro head hmem
    have hqueued := ((mem_queueHeads _ _ _).mp hmem).2
    obtain ⟨-, hw, -, -⟩ := queueHead_some _ _ _ _ hqueued
    have hweight := weightOf_count inputs.ring hfacts head.resourceId
    have hok := hinv head.resourceId
    rw [lane_of_head _ _ _ hqueued] at hok
    refine ⟨hqueued, hw ▸ hweight.1, hw ▸ hweight.2, fun hservable => ?_⟩
    have hlt := pick_none _ inputs hpick head hmem hservable
    have hge := hok.1
    omega
  obtain ⟨credited, hok, hin, hout⟩ := advanceRound_ok inputs.ring inputs _ _ hcreditable
    (queueHeads_pairwise inputs.ring hfacts _)
  refine ⟨credited, hok, fun r => ?_, fun head hmem => ?_⟩
  · change LaneOk (weightOf inputs.ring r) (lane credited r)
    by_cases hr : r ∈ (queueHeads inputs.ring inputs.ring.entries).map QueueHead.resourceId
    · obtain ⟨head, hmem, rfl⟩ := List.mem_map.mp hr
      have hc := hcreditable head hmem
      obtain ⟨-, hw, -, -⟩ := queueHead_some _ _ _ _ hc.queued
      have hlane := hinv head.resourceId
      rw [lane_of_head _ _ _ hc.queued] at hlane
      rw [hin head hmem]
      exact ⟨hc.weight_nonneg, hw.le, hlane.2.2⟩
    · rw [hout r hr]
      exact hinv r
  · have hmem' := (mem_queueHeads _ _ _).mp hmem
    have hlane : (lane credited head.resourceId).head? = some { head.entry with deficitCounter := head.weight } := by
      rw [hin head hmem]
      rfl
    obtain ⟨next, hnext, hentry⟩ := queueHead_exists inputs.ring credited head.resourceId _ hlane
    obtain ⟨hid, -⟩ := queueHead_some _ _ _ _ hnext
    exact ⟨next, (mem_queueHeads _ _ _).mpr ⟨hid ▸ hmem'.1, hid.symm ▸ hnext⟩, hid, hentry⟩

theorem Served.spends_le {ring : FairnessRing} {entries served : List FairnessRingQueueEntry} {chosen : QueueHead}
    (h : Served ring entries served chosen) (r : JsString) :
    credit served r + (if decide (chosen.resourceId = r) = true then 1 else 0) ≤ credit entries r := by
  by_cases hr : chosen.resourceId = r
  · subst hr
    simpa using h.spends
  · simp [hr, h.others r (Ne.symm hr)]

theorem Served.turn {inputs : FairnessRotationInputs} {served : List FairnessRingQueueEntry} {chosen : QueueHead}
    (h : Served inputs.ring inputs.ring.entries served chosen) (hfacts : RingFacts inputs.ring)
    (hpick : pick (queueHeads inputs.ring inputs.ring.entries) inputs = some chosen) :
    Turn inputs (outcome .SELECTED (some ⟨chosen.entry.workItemId, chosen.resourceId⟩) inputs.ring served 0) := by
  refine ⟨rfl, Nat.zero_le 1, h.inv, fun r => h.spends_le r, fun q hq => ⟨rfl, chosen.resourceId, ?_, decide_eq_true rfl, ?_⟩⟩
  · exact ((mem_queueHeads _ _ _).mp (pick_some _ _ _ hpick).1).1
  · intro hne
    obtain ⟨head, hmem, rfl, hservable⟩ := hq
    refine .inl ⟨rfl, h.others _ (Ne.symm hne), fun hcredit => ?_⟩
    rw [credit_of_head _ _ _ ((mem_queueHeads _ _ _).mp hmem).2] at hcredit
    exact pick_first _ inputs chosen (queueHeads_pairwise _ hfacts _) hpick head hmem hservable hcredit hne

theorem head_weight_pos {ring : FairnessRing} (hfacts : RingFacts ring) (head : QueueHead)
    (hmem : head ∈ queueHeads ring ring.entries) : 1 ≤ head.weight := by
  have hqueued := ((mem_queueHeads _ _ _).mp hmem).2
  obtain ⟨-, hw, -, hhead⟩ := queueHead_some _ _ _ _ hqueued
  have hentry : head.entry ∈ ring.entries := (List.mem_filter.mp (List.mem_of_head? hhead)).1
  rw [hw, ← queueHead_key _ _ _ hqueued]
  exact hfacts.floor _ hentry

/-- After a round a servable head is servable still, with its full share. -/
theorem Credited.servable {inputs : FairnessRotationInputs} {credited : List FairnessRingQueueEntry}
    (h : Credited inputs.ring inputs.ring.entries credited) (hfacts : RingFacts inputs.ring) (head : QueueHead)
    (hmem : head ∈ queueHeads inputs.ring inputs.ring.entries) (hservable : headState head inputs = .SERVABLE) :
    ∃ next ∈ queueHeads inputs.ring credited, next.resourceId = head.resourceId
      ∧ headState next inputs = .SERVABLE ∧ 1 ≤ next.entry.deficitCounter := by
  obtain ⟨next, hnext, hid, hentry⟩ := h.heads head hmem
  refine ⟨next, hnext, hid, ?_, ?_⟩
  · rw [headState_congr inputs next head hid (by rw [hentry])]
    exact hservable
  · rw [hentry]
    exact head_weight_pos hfacts head hmem

theorem Served.turn_after_round {inputs : FairnessRotationInputs} {credited served : List FairnessRingQueueEntry}
    {chosen : QueueHead} (hinv : CreditInv inputs.ring) (hfacts : RingFacts inputs.ring)
    (hidle : pick (queueHeads inputs.ring inputs.ring.entries) inputs = none)
    (hround : Credited inputs.ring inputs.ring.entries credited) (h : Served inputs.ring credited served chosen)
    (hpick : pick (queueHeads inputs.ring credited) inputs = some chosen) :
    Turn inputs (outcome .SELECTED (some ⟨chosen.entry.workItemId, chosen.resourceId⟩) inputs.ring served 1) := by
  refine ⟨rfl, le_rfl, h.inv, fun r => ?_, fun q hq => ⟨rfl, chosen.resourceId, ?_, decide_eq_true rfl, ?_⟩⟩
  · exact (h.spends_le r).trans (LaneOk.credit_le (hround.inv r) (weightOf_count inputs.ring hfacts r).1)
  · exact ((mem_queueHeads _ _ _).mp (pick_some _ _ _ hpick).1).1
  · intro hne
    obtain ⟨head, hmem, rfl, hservable⟩ := hq
    obtain ⟨next, hnext, hid, hstate, hcredit⟩ := hround.servable hfacts head hmem hservable
    have hqueued := ((mem_queueHeads _ _ _).mp hmem).2
    have hspent := pick_none _ inputs hidle head hmem hservable
    have hnonneg := LaneOk.credit_nonneg (hinv head.resourceId)
    have hold : credit inputs.ring.entries head.resourceId = head.entry.deficitCounter := credit_of_head _ _ _ hqueued
    have hnew : credit credited next.resourceId = next.entry.deficitCounter :=
      credit_of_head _ _ _ ((mem_queueHeads _ _ _).mp hnext).2
    refine .inr ⟨rfl, ?_, ?_, ?_⟩
    · change 0 ≤ credit inputs.ring.entries head.resourceId at hnonneg
      omega
    · change 1 ≤ credit served head.resourceId
      rw [h.others _ (Ne.symm hne), ← hid, hnew]
      exact hcredit
    · rw [← hid] at hne ⊢
      exact pick_first _ inputs chosen (queueHeads_pairwise _ hfacts _) hpick next hnext hstate hcredit hne

theorem selectFrom_turn (inputs : FairnessRotationInputs) (hfacts : RingFacts inputs.ring)
    (hinv : CreditInv inputs.ring) : ∃ o, selectFrom inputs = .ok o ∧ Turn inputs o := by
  unfold selectFrom
  dsimp only
  cases hpick : pick (queueHeads inputs.ring inputs.ring.entries) inputs with
  | some chosen =>
    obtain ⟨hmem, -, hcredit⟩ := pick_some _ _ _ hpick
    obtain ⟨served, hok, hserved⟩ := serve_ok inputs hfacts _ hinv chosen ((mem_queueHeads _ _ _).mp hmem).2 hcredit 0
    exact ⟨_, hok, hserved.turn hfacts hpick⟩
  | none =>
    dsimp only
    split
    · obtain ⟨credited, hround, hcredited⟩ := advanceRound_credits inputs hfacts hinv hpick
      rw [hround]
      dsimp only [bind, Except.bind]
      cases hnext : pick (queueHeads inputs.ring credited) inputs with
      | some chosen =>
        obtain ⟨hmem, -, hcredit⟩ := pick_some _ _ _ hnext
        obtain ⟨served, hok, hserved⟩ := serve_ok inputs hfacts _ hcredited.inv chosen
          ((mem_queueHeads _ _ _).mp hmem).2 hcredit 1
        exact ⟨_, hok, hserved.turn_after_round hinv hfacts hpick hcredited hnext⟩
      | none =>
        refine ⟨_, rfl, rfl, le_rfl, hcredited.inv, fun r => ?_, fun q hq => ?_⟩
        · change credit credited r + 0 ≤ weightOf inputs.ring r
          rw [Int.add_zero]
          exact LaneOk.credit_le (hcredited.inv r) (weightOf_count inputs.ring hfacts r).1
        · obtain ⟨head, hmem, rfl, hservable⟩ := hq
          obtain ⟨next, hmem', -, hstate, hcredit⟩ := hcredited.servable hfacts head hmem hservable
          have hlt := pick_none _ inputs hnext next hmem' hstate
          omega
    · rename_i hempty
      refine ⟨_, rfl, rfl, Nat.zero_le 1, hinv, fun r => ?_, fun q hq => ?_⟩
      · change credit inputs.ring.entries r + 0 ≤ credit inputs.ring.entries r
        rw [Int.add_zero]
      · obtain ⟨head, hmem, -⟩ := hq
        exact absurd (List.length_pos_of_mem hmem) hempty

end MoeNG.Fairness
