import Mathlib.Data.List.Forall2
import MoeNG.Fairness.Starvation

/-!
# Rotation on queues, not on positions

Two rings that hold the same queues in different interleavings are rotated
alike. Heads are matched up to their position; each operation acts on a queue
by its head.
-/

namespace MoeNG.Fairness
open MoeNG.Kernel MoeNG.Lib

/-! ### Matching results -/

def SameResult {α β : Type} (related : α → β → Prop) : FairnessResult α → FairnessResult β → Prop
  | .ok a, .ok b => related a b
  | .error refusal, .error refusal' => refusal = refusal'
  | _, _ => False

theorem SameResult.bind {α β γ δ : Type} {related : α → β → Prop} {related' : γ → δ → Prop} {a : FairnessResult α}
    {b : FairnessResult β} {f : α → FairnessResult γ} {g : β → FairnessResult δ} (h : SameResult related a b)
    (hfg : ∀ x y, related x y → SameResult related' (f x) (g y)) : SameResult related' (a >>= f) (b >>= g) := by
  cases a with
  | error e =>
    cases b with
    | error e' => exact h
    | ok y => exact h.elim
  | ok x =>
    cases b with
    | error e' => exact h.elim
    | ok y => exact hfg x y h

theorem SameResult.ite {α β : Type} {related : α → β → Prop} {c : Prop} [Decidable c] {a a' : FairnessResult α}
    {b b' : FairnessResult β} (h : c → SameResult related a b) (h' : ¬ c → SameResult related a' b') :
    SameResult related (if c then a else a') (if c then b else b') := by
  split
  · exact h ‹_›
  · exact h' ‹_›

abbrev SameLanes (entries entries' : List FairnessRingQueueEntry) : Prop :=
  SameQueues FairnessRingQueueEntry.resourceId entries entries'

structure SameHead (head head' : QueueHead) : Prop where
  resourceId : head'.resourceId = head.resourceId
  weight : head'.weight = head.weight
  entry : head'.entry = head.entry

/-- What two requests share when only the order of their lists differs. -/
structure Reordered (inputs inputs' : FairnessRotationInputs) : Prop where
  order : orderedResourceIds inputs'.ring = orderedResourceIds inputs.ring
  weights : ∀ resourceId, weightOf inputs'.ring resourceId = weightOf inputs.ring resourceId
  items : ∀ workItemId, (inputs'.items.find? fun item => item.workItemId = workItemId) =
    inputs.items.find? fun item => item.workItemId = workItemId
  capacities : ∀ resourceId, (inputs'.capacities.find? fun c => c.resourceId = resourceId) =
    inputs.capacities.find? fun c => c.resourceId = resourceId
  lanes : SameLanes inputs.ring.entries inputs'.ring.entries
  nodup : (inputs.ring.entries.map FairnessRingQueueEntry.workItemId).Nodup
  nodup' : (inputs'.ring.entries.map FairnessRingQueueEntry.workItemId).Nodup
  forcedHead : inputs'.forcedHead = inputs.forcedHead
  totalInFlight : inputs'.totalInFlight = inputs.totalInFlight
  revisedCapUnits : inputs'.revisedCapUnits = inputs.revisedCapUnits

/-! ### Heads -/

def Placed (entries : List FairnessRingQueueEntry) (head : QueueHead) : Prop :=
  headIndex FairnessRingQueueEntry.resourceId entries head.resourceId = some head.index
    ∧ head.entry.resourceId = head.resourceId

theorem queueHeads_placed (ring : FairnessRing) (entries : List FairnessRingQueueEntry) (head : QueueHead)
    (h : head ∈ queueHeads ring entries) : Placed entries head := by
  have hqueued := ((mem_queueHeads ring entries head).mp h).2
  exact ⟨(queueHead_some ring entries _ head hqueued).2.2.1, queueHead_key ring entries head hqueued⟩

variable {inputs inputs' : FairnessRotationInputs}

theorem Reordered.queueHead (h : Reordered inputs inputs') {entries entries' : List FairnessRingQueueEntry}
    (hlanes : SameLanes entries entries') (resourceId : JsString) :
    Option.Rel SameHead (queueHead inputs.ring entries resourceId) (queueHead inputs'.ring entries' resourceId) := by
  unfold Fairness.queueHead
  cases hindex : headIndex FairnessRingQueueEntry.resourceId entries resourceId with
  | none =>
    rw [hlanes.headIndex_none _ resourceId hindex]
    exact .none
  | some i =>
    obtain ⟨i', hindex', hget⟩ := hlanes.headIndex _ resourceId i hindex
    rw [hindex']
    simp only [Option.bind_eq_bind, Option.bind_some, hget]
    cases entries[i]? with
    | none => exact .none
    | some entry => exact .some ⟨rfl, h.weights resourceId, rfl⟩

theorem Reordered.queueHeads (h : Reordered inputs inputs') {entries entries' : List FairnessRingQueueEntry}
    (hlanes : SameLanes entries entries') :
    List.Forall₂ SameHead (queueHeads inputs.ring entries) (queueHeads inputs'.ring entries') := by
  unfold Fairness.queueHeads
  rw [h.order]
  refine List.rel_filterMap (R := Eq) ?_ (List.forall₂_refl _)
  rintro r _ rfl
  exact h.queueHead hlanes r

theorem Reordered.headState (h : Reordered inputs inputs') {head head' : QueueHead} (hsame : SameHead head head') :
    headState head' inputs' = headState head inputs := by
  unfold Fairness.headState
  rw [hsame.resourceId, hsame.entry, h.capacities, h.items]

theorem Reordered.pick (h : Reordered inputs inputs') {heads heads' : List QueueHead}
    (hsame : List.Forall₂ SameHead heads heads') : Option.Rel SameHead (pick heads inputs) (pick heads' inputs') := by
  unfold Fairness.pick
  induction hsame with
  | nil => exact .none
  | @cons head head' rest rest' hhead _ ih =>
    rw [List.find?_cons, List.find?_cons, h.headState hhead, hhead.entry]
    split
    · exact .some hhead
    · exact ih

theorem Reordered.idleDisposition (h : Reordered inputs inputs') {heads heads' : List QueueHead}
    (hsame : List.Forall₂ SameHead heads heads') : idleDisposition heads' inputs' = idleDisposition heads inputs := by
  have hany : (heads'.any fun head => Fairness.headState head inputs' = .CAPACITY_BLOCKED) =
      heads.any fun head => Fairness.headState head inputs = .CAPACITY_BLOCKED := by
    induction hsame with
    | nil => rfl
    | cons hhead _ ih => rw [List.any_cons, List.any_cons, h.headState hhead, ih]
  unfold Fairness.idleDisposition
  rw [hany]

/-! ### A round -/

/-- What one credit writes into a head. -/
def creditedEntry (inputs : FairnessRotationInputs) (head : QueueHead) : FairnessResult FairnessRingQueueEntry :=
  if headState head inputs ≠ .SERVABLE then .ok { head.entry with deficitCounter := head.weight }
  else
    match safeAdd head.entry.deficitCounter head.weight with
    | none =>
      .error (ringRefusal .FAIRNESS_CONTRACT_INVALID_COUNTER
        "advancing a round would push a deficit past the safe counter range" [head.entry.workItemId, head.resourceId])
    | some next => .ok { head.entry with deficitCounter := next }

theorem creditHead_eq (inputs : FairnessRotationInputs) (entries : List FairnessRingQueueEntry) (head : QueueHead) :
    creditHead inputs entries head = (creditedEntry inputs head).map fun entry => entries.set head.index entry := by
  unfold creditHead creditedEntry
  split
  · rfl
  · cases safeAdd head.entry.deficitCounter head.weight with
    | none => rfl
    | some next => rfl

theorem creditedEntry_resourceId (inputs : FairnessRotationInputs) (head : QueueHead) (entry : FairnessRingQueueEntry)
    (h : creditedEntry inputs head = .ok entry) : entry.resourceId = head.entry.resourceId := by
  unfold creditedEntry at h
  split at h
  · cases h
    rfl
  · split at h
    · cases h
    · cases h
      rfl

theorem Reordered.creditedEntry (h : Reordered inputs inputs') {head head' : QueueHead} (hsame : SameHead head head') :
    creditedEntry inputs' head' = creditedEntry inputs head := by
  unfold Fairness.creditedEntry
  rw [h.headState hsame, hsame.entry, hsame.weight, hsame.resourceId]

theorem Placed.set_head {entries : List FairnessRingQueueEntry} {head other : QueueHead} (h : Placed entries head)
    (hother : Placed entries other) (entry : FairnessRingQueueEntry) (hentry : entry.resourceId = head.resourceId) :
    Placed (entries.set head.index entry) other :=
  ⟨(headIndex_set_head FairnessRingQueueEntry.resourceId _ _ _ h.1 entry hentry _).trans hother.1, hother.2⟩

theorem Reordered.advanceRound (h : Reordered inputs inputs') {heads heads' : List QueueHead}
    (hsame : List.Forall₂ SameHead heads heads') (entries entries' : List FairnessRingQueueEntry)
    (hplaced : ∀ head ∈ heads, Placed entries head) (hplaced' : ∀ head ∈ heads', Placed entries' head)
    (hlanes : SameLanes entries entries') :
    SameResult SameLanes (advanceRound heads entries inputs) (advanceRound heads' entries' inputs') := by
  unfold Fairness.advanceRound
  induction hsame generalizing entries entries' with
  | nil => exact hlanes
  | @cons head head' rest rest' hhead _ ih =>
    obtain ⟨hfirst, hrest⟩ := List.forall_mem_cons.mp hplaced
    obtain ⟨hfirst', hrest'⟩ := List.forall_mem_cons.mp hplaced'
    rw [List.foldlM_cons, List.foldlM_cons, creditHead_eq, creditHead_eq, h.creditedEntry hhead]
    cases hcredited : Fairness.creditedEntry inputs head with
    | error refusal => exact rfl
    | ok entry =>
      have hid : entry.resourceId = head.resourceId := (creditedEntry_resourceId _ _ _ hcredited).trans hfirst.2
      have hid' : entry.resourceId = head'.resourceId := hid.trans hhead.resourceId.symm
      refine ih _ _ (fun other ho => hfirst.set_head (hrest other ho) entry hid)
        (fun other ho => hfirst'.set_head (hrest' other ho) entry hid') ?_
      refine hlanes.set_head _ head.resourceId _ _ hfirst.1 ?_ entry hid
      rw [← hhead.resourceId]
      exact hfirst'.1

/-! ### A service -/

theorem dequeue_same {head head' : QueueHead} (hsame : SameHead head head')
    {entries entries' : List FairnessRingQueueEntry} (hplaced : Placed entries head) (hplaced' : Placed entries' head')
    (hlanes : SameLanes entries entries') : SameResult SameLanes (dequeue entries head) (dequeue entries' head') := by
  have hindex' : headIndex FairnessRingQueueEntry.resourceId entries' head.resourceId = some head'.index := by
    rw [← hsame.resourceId]
    exact hplaced'.1
  have hremaining := hlanes.eraseIdx_head _ head.resourceId _ _ hplaced.1 hindex'
  unfold dequeue
  rw [hsame.entry, hsame.resourceId]
  dsimp only
  cases hnext : headIndex FairnessRingQueueEntry.resourceId (entries.eraseIdx head.index) head.resourceId with
  | none =>
    rw [hremaining.headIndex_none _ _ hnext]
    exact hremaining
  | some next =>
    obtain ⟨next', hnext', hget⟩ := hremaining.headIndex _ _ _ hnext
    rw [hnext']
    dsimp only
    split
    · exact hremaining
    · rw [hget]
      cases hsuccessor : (entries.eraseIdx head.index)[next]? with
      | none => exact hremaining
      | some successor =>
        dsimp only
        cases safeAdd successor.deficitCounter (head.entry.deficitCounter - fairnessServiceCost) with
        | none => exact rfl
        | some carried =>
          have hlane := (getElem?_headIndex _ _ _ _ hnext).symm.trans hsuccessor
          have hid : successor.resourceId = head.resourceId :=
            key_of_mem_queue _ _ _ _ (List.mem_of_head? hlane)
          exact hremaining.set_head _ _ _ _ hnext hnext' _ hid

/-! ### Outcomes -/

/-- Who waits in a queue, holding how much credit. -/
def queueSequence (entries : List FairnessRingQueueEntry) (resourceId : JsString) : List (JsString × ℤ) :=
  (lane entries resourceId).map fun entry => (entry.workItemId, entry.deficitCounter)

structure SameOutcome (o o' : RotationOutcome) : Prop where
  disposition : o'.disposition = o.disposition
  selection : o'.selection = o.selection
  roundsAdvanced : o'.roundsAdvanced = o.roundsAdvanced
  queues : ∀ resourceId, queueSequence o'.ring.entries resourceId = queueSequence o.ring.entries resourceId

theorem outcome_same (disposition : RotationDisposition) (selection : Option RotationSelection) (ring ring' : FairnessRing)
    {entries entries' : List FairnessRingQueueEntry} (hlanes : SameLanes entries entries') (rounds : ℕ) :
    SameOutcome (outcome disposition selection ring entries rounds) (outcome disposition selection ring' entries' rounds) :=
  ⟨rfl, rfl, rfl, fun r => congrArg (List.map _) (hlanes r).symm⟩

theorem serve_same {head head' : QueueHead} (hsame : SameHead head head')
    {entries entries' : List FairnessRingQueueEntry} (hplaced : Placed entries head) (hplaced' : Placed entries' head')
    (hlanes : SameLanes entries entries') (rounds : ℕ) :
    SameResult SameOutcome (serve inputs entries head rounds) (serve inputs' entries' head' rounds) := by
  unfold serve
  refine (dequeue_same hsame hplaced hplaced' hlanes).bind fun served served' hserved => ?_
  rw [hsame.entry, hsame.resourceId]
  exact outcome_same _ _ _ _ hserved rounds

theorem pick_placed (ring : FairnessRing) (entries : List FairnessRingQueueEntry) (inputs : FairnessRotationInputs)
    (chosen : QueueHead) (h : pick (Fairness.queueHeads ring entries) inputs = some chosen) : Placed entries chosen :=
  queueHeads_placed ring entries chosen (pick_some _ _ _ h).1

theorem Reordered.selectFrom (h : Reordered inputs inputs') :
    SameResult SameOutcome (selectFrom inputs) (selectFrom inputs') := by
  have hheads := h.queueHeads h.lanes
  have hpick := h.pick hheads
  unfold Fairness.selectFrom
  dsimp only
  cases hchosen : Fairness.pick (Fairness.queueHeads inputs.ring inputs.ring.entries) inputs with
  | some chosen =>
    cases hchosen' : Fairness.pick (Fairness.queueHeads inputs'.ring inputs'.ring.entries) inputs' with
    | none => rw [hchosen, hchosen'] at hpick; cases hpick
    | some chosen' =>
      rw [hchosen, hchosen'] at hpick
      cases hpick with
      | some hsame =>
        exact serve_same hsame (pick_placed _ _ _ _ hchosen) (pick_placed _ _ _ _ hchosen') h.lanes 0
  | none =>
    cases hchosen' : Fairness.pick (Fairness.queueHeads inputs'.ring inputs'.ring.entries) inputs' with
    | some chosen' => rw [hchosen, hchosen'] at hpick; cases hpick
    | none =>
      dsimp only
      rw [← hheads.length_eq]
      split
      · refine (h.advanceRound hheads _ _ (queueHeads_placed _ _) (queueHeads_placed _ _) h.lanes).bind
          fun credited credited' hcredited => ?_
        have hnext := h.queueHeads hcredited
        have hagain := h.pick hnext
        cases hround : Fairness.pick (Fairness.queueHeads inputs.ring credited) inputs with
        | some next =>
          cases hround' : Fairness.pick (Fairness.queueHeads inputs'.ring credited') inputs' with
          | none => rw [hround, hround'] at hagain; cases hagain
          | some next' =>
            rw [hround, hround'] at hagain
            cases hagain with
            | some hsame =>
              exact serve_same hsame (pick_placed _ _ _ _ hround) (pick_placed _ _ _ _ hround') hcredited 1
        | none =>
          cases hround' : Fairness.pick (Fairness.queueHeads inputs'.ring credited') inputs' with
          | some next' => rw [hround, hround'] at hagain; cases hagain
          | none =>
            dsimp only
            rw [h.idleDisposition hnext]
            exact outcome_same _ _ _ _ hcredited 1
      · rw [h.idleDisposition hheads]
        exact outcome_same _ _ _ _ h.lanes 0

/-! ### Forced heads -/

theorem eraseIdx_eq_filter {A K : Type} [DecidableEq K] (key : A → K) (l : List A) (hl : (l.map key).Nodup) (k : K)
    (i : ℕ) (hi : (l.findIdx? fun a => key a = k) = some i) : l.eraseIdx i = l.filter fun a => key a ≠ k := by
  induction l generalizing i with
  | nil => cases hi
  | cons a rest ih =>
    obtain ⟨hfresh, hrest⟩ := List.nodup_cons.mp hl
    rw [List.findIdx?_cons] at hi
    by_cases ha : key a = k
    · rw [if_pos (decide_eq_true ha)] at hi
      cases hi
      subst ha
      have hkeep : rest.filter (fun b => key b ≠ key a) = rest :=
        List.filter_eq_self.mpr fun b hb =>
          decide_eq_true fun hkey : key b = key a => hfresh (hkey ▸ List.mem_map_of_mem hb)
      rw [List.eraseIdx_cons_zero, List.filter_cons, hkeep]
      simp
    · rw [if_neg (by simpa using ha)] at hi
      obtain ⟨j, hj, rfl⟩ := Option.map_eq_some_iff.mp hi
      rw [List.eraseIdx_cons_succ, ih hrest j hj, List.filter_cons, if_pos (decide_eq_true ha)]

theorem getElem?_findIdx {A : Type} (p : A → Bool) (l : List A) (i : ℕ) (hi : l.findIdx? p = some i) :
    ∃ a ∈ l, p a = true ∧ l[i]? = some a := by
  obtain ⟨hlt, hp, -⟩ := List.findIdx?_eq_some_iff_getElem.mp hi
  exact ⟨l[i], List.getElem_mem hlt, hp, List.getElem?_eq_getElem hlt⟩

/-- The same forced entry is found in both rings, and both lose it. -/
theorem Reordered.forced (h : Reordered inputs inputs') (forcedHead : JsString) (i : ℕ)
    (hi : (inputs.ring.entries.findIdx? fun each => each.workItemId = forcedHead) = some i) :
    ∃ i' entry, (inputs'.ring.entries.findIdx? fun each => each.workItemId = forcedHead) = some i'
      ∧ inputs.ring.entries[i]? = some entry ∧ inputs'.ring.entries[i']? = some entry
      ∧ SameLanes (inputs.ring.entries.eraseIdx i) (inputs'.ring.entries.eraseIdx i') := by
  obtain ⟨entry, hmem, hkey, hget⟩ := getElem?_findIdx _ _ _ hi
  have hmem' := (h.lanes.mem_iff _ entry).mp hmem
  cases hi' : inputs'.ring.entries.findIdx? fun each => each.workItemId = forcedHead with
  | none =>
    have hnone := List.findIdx?_eq_none_iff.mp hi' entry hmem'
    rw [hkey] at hnone
    cases hnone
  | some i' =>
    obtain ⟨entry', hmem'', hkey', hget'⟩ := getElem?_findIdx _ _ _ hi'
    have hsame : entry' = entry := by
      refine List.inj_on_of_nodup_map h.nodup' hmem'' hmem' ?_
      exact (of_decide_eq_true hkey').trans (of_decide_eq_true hkey).symm
    refine ⟨i', entry, rfl, hget, hsame ▸ hget', ?_⟩
    rw [eraseIdx_eq_filter FairnessRingQueueEntry.workItemId _ h.nodup _ _ hi,
      eraseIdx_eq_filter FairnessRingQueueEntry.workItemId _ h.nodup' _ _ hi']
    exact h.lanes.filter _ _

theorem Reordered.forcedSelection (h : Reordered inputs inputs') (forcedHead : JsString) :
    SameResult SameOutcome (forcedSelection inputs forcedHead) (forcedSelection inputs' forcedHead) := by
  unfold Fairness.forcedSelection
  cases hi : inputs.ring.entries.findIdx? fun each => each.workItemId = forcedHead with
  | none =>
    have hnone : (inputs'.ring.entries.findIdx? fun each => each.workItemId = forcedHead) = none :=
      List.findIdx?_eq_none_iff.mpr fun entry hentry =>
        List.findIdx?_eq_none_iff.mp hi entry ((h.lanes.mem_iff _ entry).mpr hentry)
    rw [hnone]
    exact rfl
  | some i =>
    obtain ⟨i', entry, hi', hget, hget', hlanes⟩ := h.forced forcedHead i hi
    rw [hi']
    dsimp only
    rw [hget, hget']
    dsimp only
    rw [h.capacities, h.items]
    refine SameResult.ite (fun _ => rfl) fun _ => SameResult.ite (fun _ => rfl) fun _ => ?_
    exact outcome_same _ _ _ _ hlanes 0

theorem Reordered.atBound (h : Reordered inputs inputs') (message : String) :
    SameResult SameOutcome (atBound inputs message) (atBound inputs' message) := by
  unfold Fairness.atBound
  rw [h.forcedHead]
  split
  · exact rfl
  · exact outcome_same _ _ _ _ h.lanes 0

/-- `rotateOnce` after its request is validated. -/
def rotateInputs (inputs : FairnessRotationInputs) : FairnessResult RotationOutcome :=
  if inputs.totalInFlight ≥ fairnessDimensionCeiling then
    Fairness.atBound inputs "a forced head cannot be admitted at the per-dimension ceiling"
  else if atRevisedCap inputs then
    Fairness.atBound inputs "a forced head cannot be admitted at the revised cap"
  else
    match inputs.forcedHead with
    | some forcedHead => Fairness.forcedSelection inputs forcedHead
    | none => Fairness.selectFrom inputs

theorem rotateOnce_accepted (value : Value) (inputs : FairnessRotationInputs)
    (h : validateRotationRequest value = .ok inputs) : rotateOnce value = rotateInputs inputs := by
  unfold rotateOnce rotateInputs
  rw [h]
  rfl

theorem Reordered.rotateInputs (h : Reordered inputs inputs') :
    SameResult SameOutcome (rotateInputs inputs) (rotateInputs inputs') := by
  have hcap : atRevisedCap inputs' = atRevisedCap inputs := by
    unfold atRevisedCap
    rw [h.revisedCapUnits, h.totalInFlight]
  unfold Fairness.rotateInputs
  rw [h.totalInFlight, hcap, h.forcedHead]
  split
  · exact h.atBound _
  · split
    · exact h.atBound _
    · split
      · exact h.forcedSelection _
      · exact h.selectFrom

end MoeNG.Fairness
