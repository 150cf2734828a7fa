import Mathlib.Algebra.Order.BigOperators.Group.List
import MoeNG.Fairness.RotationSpec

/-!
# Rotation over whole histories

The ring is carried from call to call. Between calls the environment may append
entries without credit and hand in whatever work items, capacities and cap
revision it likes.
-/

namespace MoeNG.Fairness
open MoeNG.Kernel MoeNG.Lib

/-! ### What validation promises -/

theorem orRefuse_ok {α : Type} (read : Option α) (refusal : Refusal) (a : α) (h : orRefuse read refusal = .ok a) :
    read = some a := by
  cases read with
  | none => cases h
  | some b => rw [Except.ok.inj h]

theorem validateRingResource_count (v : Value) (r : FairnessRingResource) (h : validateRingResource v = .ok r) :
    isCount r.weight = true := by
  simp only [validateRingResource, ↓except_bind_iff] at h
  obtain ⟨_, _, _, _, weight, hweight, h⟩ := h
  cases h
  exact isCount_of_countOf _ _ (orRefuse_ok _ _ _ hweight)

theorem readResourcesAfter_ok (seen : List JsString) (items : List Value) (declared : List FairnessRingResource)
    (h : readResourcesAfter seen items = .ok declared) :
    (declared.map FairnessRingResource.resourceId).Nodup
      ∧ (∀ r ∈ declared, r.resourceId ∉ seen) ∧ ∀ r ∈ declared, isCount r.weight = true := by
  induction items generalizing seen declared with
  | nil =>
    cases h
    exact ⟨List.nodup_nil, nofun, nofun⟩
  | cons raw rest ih =>
    obtain ⟨resource, hresource, h⟩ := except_bind_ok _ _ _ h
    split at h
    · cases h
    rename_i hfresh
    obtain ⟨others, hothers, h⟩ := except_bind_ok _ _ _ h
    cases h
    obtain ⟨hnodup, hnew, hcount⟩ := ih _ _ hothers
    refine ⟨List.nodup_cons.mpr ⟨fun hmem => ?_, hnodup⟩, fun r hr => ?_, fun r hr => ?_⟩
    · obtain ⟨r, hr, hid⟩ := List.mem_map.mp hmem
      exact hnew r hr (hid ▸ by simp)
    · obtain rfl | hr := List.mem_cons.mp hr
      · exact hfresh
      · exact fun hmem => hnew r hr (List.mem_append_left _ hmem)
    · obtain rfl | hr := List.mem_cons.mp hr
      · exact validateRingResource_count raw _ hresource
      · exact hcount r hr

theorem checkEntriesAfter_ok (declared : List JsString) (placements : List (JsString × JsString))
    (entries : List FairnessRingQueueEntry) (h : checkEntriesAfter declared placements entries = .ok ()) :
    ∀ e ∈ entries, e.resourceId ∈ declared := by
  induction entries generalizing placements with
  | nil => nofun
  | cons entry rest ih =>
    unfold checkEntriesAfter at h
    split at h
    · cases h
    rename_i hdeclared
    split at h
    · split at h <;> cases h
    · intro e he
      obtain rfl | he := List.mem_cons.mp he
      · exact not_not.mp hdeclared
      · exact ih _ h e he

theorem validateRing_ok (v : Value) (ring : FairnessRing) (h : validateRing v = .ok ring) :
    (ring.resources.map FairnessRingResource.resourceId).Nodup ∧ (∀ r ∈ ring.resources, isCount r.weight = true)
      ∧ ∀ e ∈ ring.entries, e.resourceId ∈ ring.resources.map FairnessRingResource.resourceId := by
  simp only [validateRing, ↓except_bind_iff] at h
  obtain ⟨_, _, _, _, _, _, resources, hresources, _, _, entries, _, _, hcheck, h⟩ := h
  cases h
  obtain ⟨_, _, hresources⟩ := except_bind_ok _ _ _ hresources
  obtain ⟨hnodup, -, hcount⟩ := readResourcesAfter_ok _ _ _ hresources
  refine ⟨hnodup, hcount, ?_⟩
  unfold checkEntries at hcheck
  split at hcheck
  · cases hcheck
  · exact checkEntriesAfter_ok _ _ _ hcheck

theorem validateRotationRequest_facts (v : Value) (inputs : FairnessRotationInputs)
    (h : validateRotationRequest v = .ok inputs) : RingFacts inputs.ring := by
  simp only [validateRotationRequest, ↓except_bind_iff] at h
  obtain ⟨_, _, ring, hring, items, _, _, hplacements, _, _, _, _, _, _, _, _, h⟩ := h
  cases h
  obtain ⟨hnodup, hcount, hdeclared⟩ := validateRing_ok _ _ hring
  refine ⟨hnodup, hcount, hdeclared, fun e he => ?_⟩
  obtain ⟨_, _, hfloor⟩ := except_bind_ok _ _ _ hplacements
  split at hfloor
  · cases hfloor
  rename_i hnone
  obtain ⟨r, hr, hid⟩ := List.mem_map.mp (hdeclared e he)
  have hp := List.find?_eq_none.mp hnone r hr
  simp only [decide_eq_true_eq, not_and, List.any_eq_true, fairnessServiceCost] at hp
  rw [← hid, weightOf_mem ring hnodup r hr]
  by_contra hlt
  exact hp (by omega) ⟨e, he, hid.symm⟩

/-! ### A ring read back -/

def FairnessRingResource.toValue (r : FairnessRingResource) : Value :=
  recordOf [("resourceId", .string r.resourceId), ("weight", .number (.integer r.weight))]

def FairnessRingQueueEntry.toValue (e : FairnessRingQueueEntry) : Value :=
  recordOf [("workItemId", .string e.workItemId), ("resourceId", .string e.resourceId),
    ("deficitCounter", .number (.integer e.deficitCounter))]

def FairnessRing.toValue (ring : FairnessRing) : Value :=
  recordOf [("ringId", .string ring.ringId), ("dimensionId", .string ring.dimensionId),
    ("resources", .array (ring.resources.map FairnessRingResource.toValue)),
    ("entries", .array (ring.entries.map FairnessRingQueueEntry.toValue))]

theorem identityOf_string (s t : JsString) (h : identityOf (.string s) = some t) : t = s := by
  change (if isGraphKey s then some s else none) = some t at h
  split at h
  · exact (Option.some.inj h).symm
  · cases h

theorem countOf_number (z n : ℤ) (h : countOf (.number (.integer z)) = some n) : n = z := by
  change (if isCount z then some z else none) = some n at h
  split at h
  · exact (Option.some.inj h).symm
  · cases h

theorem validateRingResource_toValue (r r' : FairnessRingResource) (h : validateRingResource r.toValue = .ok r') :
    r' = r := by
  have hread : exactRecord r.toValue resourceKeys = some _ :=
    exactRecord_recordOf _ (show (resourceKeys.map lit).Nodup by decide)
  simp only [validateRingResource, ↓except_bind_iff] at h
  obtain ⟨parsed, hparsed, id, hid, weight, hweight, h⟩ := h
  obtain rfl := Option.some.inj (hread.symm.trans (orRefuse_ok _ _ _ hparsed))
  cases h
  simp only [Fields.field_cons, String.reduceEq, if_true, if_false] at hid hweight
  rw [identityOf_string _ _ (orRefuse_ok _ _ _ hid), countOf_number _ _ (orRefuse_ok _ _ _ hweight)]

theorem readEntry_toValue (e e' : FairnessRingQueueEntry) (h : readEntry e.toValue = .ok e') : e' = e := by
  have hread : exactRecord e.toValue entryKeys = some _ :=
    exactRecord_recordOf _ (show (entryKeys.map lit).Nodup by decide)
  simp only [readEntry, ↓except_bind_iff] at h
  obtain ⟨parsed, hparsed, item, hitem, id, hid, deficit, hdeficit, h⟩ := h
  obtain rfl := Option.some.inj (hread.symm.trans (orRefuse_ok _ _ _ hparsed))
  cases h
  simp only [Fields.field_cons, String.reduceEq, if_true, if_false] at hitem hid hdeficit
  rw [identityOf_string _ _ (orRefuse_ok _ _ _ hitem), identityOf_string _ _ (orRefuse_ok _ _ _ hid),
    countOf_number _ _ (orRefuse_ok _ _ _ hdeficit)]

theorem readResourcesAfter_toValue (seen : List JsString) (l l' : List FairnessRingResource)
    (h : readResourcesAfter seen (l.map FairnessRingResource.toValue) = .ok l') : l' = l := by
  induction l generalizing seen l' with
  | nil =>
    cases h
    rfl
  | cons r rest ih =>
    obtain ⟨resource, hresource, h⟩ := except_bind_ok _ _ _ h
    split at h
    · cases h
    obtain ⟨others, hothers, h⟩ := except_bind_ok _ _ _ h
    cases h
    rw [validateRingResource_toValue r resource hresource, ih _ _ hothers]

theorem readEntries_toValue (l l' : List FairnessRingQueueEntry)
    (h : (l.map FairnessRingQueueEntry.toValue).mapM readEntry = .ok l') : l' = l := by
  induction l generalizing l' with
  | nil =>
    cases h
    rfl
  | cons e rest ih =>
    rw [List.map_cons, List.mapM_cons] at h
    obtain ⟨entry, hentry, h⟩ := except_bind_ok _ _ _ h
    obtain ⟨others, hothers, h⟩ := except_bind_ok _ _ _ h
    cases h
    rw [readEntry_toValue e entry hentry, ih _ hothers]

theorem readFairnessItems_array (items items' : List Value) (layer : Layer) (field : String)
    (h : readFairnessItems (.array items) layer field = .ok items') : items' = items := by
  unfold readFairnessItems at h
  dsimp only at h
  split at h
  · cases h
  · exact (Except.ok.inj h).symm

theorem validateRing_toValue (ring ring' : FairnessRing) (h : validateRing ring.toValue = .ok ring') :
    ring' = ring := by
  have hread : exactRecord ring.toValue ringKeys = some _ :=
    exactRecord_recordOf _ (show (ringKeys.map lit).Nodup by decide)
  simp only [validateRing, ↓except_bind_iff] at h
  obtain ⟨parsed, hparsed, id, hid, dimension, hdimension, resources, hresources, raw, hraw, entries, hentries, _, _, h⟩ := h
  obtain rfl := Option.some.inj (hread.symm.trans (orRefuse_ok _ _ _ hparsed))
  cases h
  simp only [Fields.field_cons, String.reduceEq, if_true, if_false] at hid hdimension hresources hraw
  obtain ⟨items, hitems, hresources⟩ := except_bind_ok _ _ _ hresources
  obtain rfl := readFairnessItems_array _ _ _ _ hitems
  obtain rfl := readFairnessItems_array _ _ _ _ hraw
  rw [identityOf_string _ _ (orRefuse_ok _ _ _ hid), identityOf_string _ _ (orRefuse_ok _ _ _ hdimension),
    readResourcesAfter_toValue _ _ _ hresources, readEntries_toValue _ _ hentries]

/-! ### Histories -/

structure RotationCall where
  appended : List (JsString × JsString)
  workItems : Value
  capacities : Value
  capRevision : Value

def freshEntries (appended : List (JsString × JsString)) : List FairnessRingQueueEntry :=
  appended.map fun e => ⟨e.1, e.2, 0⟩

def FairnessRing.append (ring : FairnessRing) (appended : List (JsString × JsString)) : FairnessRing :=
  { ring with entries := ring.entries ++ freshEntries appended }

def RotationCall.request (c : RotationCall) (ring : FairnessRing) : Value :=
  recordOf [("ring", (ring.append c.appended).toValue), ("workItems", c.workItems), ("capacities", c.capacities),
    ("forcedHead", .null), ("capRevision", c.capRevision)]

def rotate (ring : FairnessRing) (c : RotationCall) : FairnessResult RotationOutcome := rotateOnce (c.request ring)

def rotationStep (ring : FairnessRing) (c : RotationCall) : FairnessRing :=
  match rotate ring c with
  | .ok o => o.ring
  | .error _ => ring.append c.appended

/-- The request is valid, below both bounds, and the head of `q` can be served. -/
def Servable (q : JsString) (ring : FairnessRing) (c : RotationCall) : Prop :=
  ∃ inputs, validateRotationRequest (c.request ring) = .ok inputs
    ∧ inputs.totalInFlight < fairnessDimensionCeiling ∧ atRevisedCap inputs = false ∧ ServableHead inputs q

instance (inputs : FairnessRotationInputs) (q : JsString) : Decidable (ServableHead inputs q) :=
  inferInstanceAs (Decidable (∃ head ∈ queueHeads inputs.ring inputs.ring.entries, _))

instance (q : JsString) (ring : FairnessRing) (c : RotationCall) : Decidable (Servable q ring c) :=
  match h : validateRotationRequest (c.request ring) with
  | .ok inputs =>
    decidable_of_iff
      (inputs.totalInFlight < fairnessDimensionCeiling ∧ atRevisedCap inputs = false ∧ ServableHead inputs q)
      ⟨fun hs => ⟨inputs, h, hs⟩, fun ⟨_, hok, hs⟩ => by
        obtain rfl := Except.ok.inj (h.symm.trans hok)
        exact hs⟩
  | .error _ => isFalse fun ⟨_, hok, _⟩ => nomatch h.symm.trans hok

def selectsSome (ring : FairnessRing) (c : RotationCall) : Prop :=
  ∃ o, rotate ring c = .ok o ∧ o.disposition = .SELECTED

def selects (r : JsString) (ring : FairnessRing) (c : RotationCall) : Bool :=
  match rotate ring c with
  | .ok o => o.selects r
  | .error _ => false

def advances (ring : FairnessRing) (c : RotationCall) : Bool :=
  match rotate ring c with
  | .ok o => o.roundsAdvanced = 1
  | .error _ => false

def weightSum (ring : FairnessRing) (keep : JsString → Bool) : ℤ :=
  ((ring.resources.filter fun r => keep r.resourceId).map FairnessRingResource.weight).sum

def starvationBound (ring : FairnessRing) (q : JsString) : ℤ :=
  weightSum ring (fun r => r ≠ q) + weightSum ring (fun r => r < q) + 1

/-! ### One call -/

theorem lane_append (ring : FairnessRing) (appended : List (JsString × JsString)) (r : JsString) :
    ∃ fresh, lane (ring.append appended).entries r = lane ring.entries r ++ fresh ∧ ∀ e ∈ fresh, e.deficitCounter = 0 := by
  refine ⟨lane (freshEntries appended) r, queue_append .., fun e he => ?_⟩
  obtain ⟨x, -, rfl⟩ := List.mem_map.mp (List.mem_filter.mp he).1
  rfl

theorem CreditInv.append {ring : FairnessRing} (h : CreditInv ring) (hw : ∀ r, 0 ≤ weightOf ring r)
    (appended : List (JsString × JsString)) : CreditInv (ring.append appended) := by
  intro r
  change LaneOk (weightOf ring r) _
  have hlane := h r
  obtain ⟨fresh, happend, hfresh⟩ := lane_append ring appended r
  rw [happend]
  cases hold : lane ring.entries r with
  | nil =>
    cases fresh with
    | nil => trivial
    | cons e rest =>
      have he := hfresh e (List.mem_cons_self ..)
      exact ⟨he.ge, he ▸ hw r, fun s hs => hfresh s (List.mem_cons_of_mem _ hs)⟩
  | cons e rest =>
    rw [hold] at hlane
    refine ⟨hlane.1, hlane.2.1, fun s hs => ?_⟩
    obtain hs | hs := List.mem_append.mp hs
    · exact hlane.2.2 s hs
    · exact hfresh s hs

theorem credit_append (ring : FairnessRing) (appended : List (JsString × JsString)) (r : JsString) :
    credit (ring.append appended).entries r = credit ring.entries r := by
  obtain ⟨fresh, happend, hfresh⟩ := lane_append ring appended r
  unfold credit
  rw [happend]
  cases lane ring.entries r with
  | nil =>
    cases fresh with
    | nil => rfl
    | cons e rest => exact hfresh e (List.mem_cons_self ..)
  | cons e rest => rfl

theorem request_inputs (ring : FairnessRing) (c : RotationCall) (inputs : FairnessRotationInputs)
    (h : validateRotationRequest (c.request ring) = .ok inputs) :
    inputs.ring = ring.append c.appended ∧ inputs.forcedHead = none := by
  have hread : exactRecord (c.request ring) requestKeys = some _ :=
    exactRecord_recordOf _ (show (requestKeys.map lit).Nodup by decide)
  simp only [validateRotationRequest, ↓except_bind_iff] at h
  obtain ⟨parsed, hparsed, ring', hring, _, _, _, _, _, _, _, _, _, _, forced, hforced, h⟩ := h
  obtain rfl := Option.some.inj (hread.symm.trans (orRefuse_ok _ _ _ hparsed))
  cases h
  simp only [Fields.field_cons, String.reduceEq, if_true, if_false] at hring hforced
  exact ⟨validateRing_toValue _ _ hring, (Except.ok.inj hforced).symm⟩

/-- What any accepted call does to the ring. -/
structure CallEffect (ring : FairnessRing) (o : RotationOutcome) : Prop where
  resources : o.ring.resources = ring.resources
  rounds : o.roundsAdvanced ≤ 1
  inv : CreditInv o.ring
  spends : ∀ r, credit o.ring.entries r + (if o.selects r then 1 else 0) ≤
    if o.roundsAdvanced = 0 then credit ring.entries r else weightOf ring r

theorem rotate_effect (ring : FairnessRing) (hinv : CreditInv ring) (hw : ∀ r, 0 ≤ weightOf ring r) (c : RotationCall)
    (inputs : FairnessRotationInputs) (h : validateRotationRequest (c.request ring) = .ok inputs) :
    ∃ o, rotate ring c = .ok o ∧ CallEffect ring o
      ∧ (inputs.totalInFlight < fairnessDimensionCeiling → atRevisedCap inputs = false → Turn inputs o) := by
  obtain ⟨hring, hforced⟩ := request_inputs ring c inputs h
  have hfacts := validateRotationRequest_facts _ _ h
  have happend : CreditInv inputs.ring := hring ▸ hinv.append hw c.appended
  have hcredit : ∀ r, credit inputs.ring.entries r = credit ring.entries r := fun r => by rw [hring, credit_append]
  have hresources : inputs.ring.resources = ring.resources := by
    rw [hring]
    rfl
  have hidle : ∀ message, ∃ o, atBound inputs message = .ok o ∧ CallEffect ring o := by
    intro message
    unfold atBound
    rw [hforced]
    refine ⟨_, rfl, hresources, Nat.zero_le 1, happend, fun r => ?_⟩
    change credit inputs.ring.entries r + 0 ≤ credit ring.entries r
    rw [hcredit, Int.add_zero]
  unfold rotate rotateOnce
  rw [h]
  dsimp only [bind, Except.bind]
  split
  · rename_i hceiling
    obtain ⟨o, ho, heffect⟩ := hidle "a forced head cannot be admitted at the per-dimension ceiling"
    exact ⟨o, ho, heffect, fun hlt => absurd hceiling (not_le.mpr hlt)⟩
  split
  · rename_i hcap
    obtain ⟨o, ho, heffect⟩ := hidle "a forced head cannot be admitted at the revised cap"
    refine ⟨o, ho, heffect, fun _ hfalse => ?_⟩
    rw [hcap] at hfalse
    cases hfalse
  rw [hforced]
  obtain ⟨o, ho, hturn⟩ := selectFrom_turn inputs hfacts happend
  refine ⟨o, ho, ⟨hturn.resources.trans hresources, hturn.rounds, hturn.inv, fun r => ?_⟩, fun _ _ => hturn⟩
  have hs := hturn.spends r
  rw [hcredit, hring] at hs
  exact hs

/-- What holds of the ring after any history. -/
structure HistoryInv (start ring : FairnessRing) : Prop where
  resources : ring.resources = start.resources
  weights : ∀ r, 0 ≤ weightOf ring r
  credits : CreditInv ring

theorem weightOf_congr (ring ring' : FairnessRing) (h : ring'.resources = ring.resources) (r : JsString) :
    weightOf ring' r = weightOf ring r := by
  unfold weightOf
  rw [h]

theorem rotate_ok_inputs (ring : FairnessRing) (c : RotationCall) (o : RotationOutcome) (h : rotate ring c = .ok o) :
    ∃ inputs, validateRotationRequest (c.request ring) = .ok inputs := by
  obtain ⟨inputs, hinputs, -⟩ := except_bind_ok _ _ _ h
  exact ⟨inputs, hinputs⟩

theorem HistoryInv.effect {start ring : FairnessRing} (h : HistoryInv start ring) (c : RotationCall)
    (o : RotationOutcome) (ho : rotate ring c = .ok o) : CallEffect ring o := by
  obtain ⟨inputs, hinputs⟩ := rotate_ok_inputs ring c o ho
  obtain ⟨o', ho', heffect, -⟩ := rotate_effect ring h.credits h.weights c inputs hinputs
  obtain rfl : o' = o := Except.ok.inj (ho'.symm.trans ho)
  exact heffect

theorem HistoryInv.step {start ring : FairnessRing} (h : HistoryInv start ring) (c : RotationCall) :
    HistoryInv start (rotationStep ring c) := by
  unfold rotationStep
  cases ho : rotate ring c with
  | ok o =>
    have heffect := h.effect c o ho
    exact ⟨heffect.resources.trans h.resources, fun r => weightOf_congr _ _ heffect.resources r ▸ h.weights r,
      heffect.inv⟩
  | error e => exact ⟨h.resources, h.weights, h.credits.append h.weights c.appended⟩

theorem historyInv_start (value : Value) (ring : FairnessRing) (h : validateRing value = .ok ring)
    (hzero : ∀ e ∈ ring.entries, e.deficitCounter = 0) : HistoryInv ring ring := by
  have hweights : ∀ r, 0 ≤ weightOf ring r := by
    intro r
    unfold weightOf
    cases hfind : ring.resources.find? fun each => each.resourceId = r with
    | none => exact le_rfl
    | some resource =>
      have hcount := (validateRing_ok value ring h).2.1 resource (List.mem_of_find?_eq_some hfind)
      simp only [isCount, decide_eq_true_eq] at hcount
      exact hcount.1
  refine ⟨rfl, hweights, fun r => ?_⟩
  have hlane : ∀ e ∈ lane ring.entries r, e.deficitCounter = 0 := fun e he => hzero e (List.mem_filter.mp he).1
  cases hl : lane ring.entries r with
  | nil => trivial
  | cons e rest =>
    rw [hl] at hlane
    have he := hlane e (List.mem_cons_self ..)
    exact ⟨he.ge, he ▸ hweights r, fun s hs => hlane s (List.mem_cons_of_mem _ hs)⟩

/-! ### The share of one round -/

theorem HistoryInv.spends {start ring : FairnessRing} (h : HistoryInv start ring) (r : JsString) (c : RotationCall) :
    credit (rotationStep ring c).entries r + (if selects r ring c then 1 else 0) ≤
      if advances ring c then weightOf ring r else credit ring.entries r := by
  unfold rotationStep selects advances
  cases ho : rotate ring c with
  | ok o =>
    have heffect := h.effect c o ho
    have hs := heffect.spends r
    have hrounds := heffect.rounds
    dsimp only
    by_cases hzero : o.roundsAdvanced = 0
    · rw [if_pos hzero] at hs
      have hquiet : (if decide (o.roundsAdvanced = 1) = true then weightOf ring r else credit ring.entries r) =
          credit ring.entries r := by simp [hzero]
      exact hs.trans_eq hquiet.symm
    · rw [if_neg hzero] at hs
      have hone : o.roundsAdvanced = 1 := by omega
      rw [if_pos (decide_eq_true hone)]
      exact hs
  | error e =>
    dsimp only
    rw [credit_append]
    simp

theorem HistoryInv.count_le_credit {start ring : FairnessRing} (h : HistoryInv start ring) (r : JsString)
    (calls : List RotationCall) (hquiet : Along rotationStep (fun ring c => advances ring c = false) ring calls) :
    (countAlong rotationStep (selects r) ring calls : ℤ) ≤ credit ring.entries r := by
  induction calls generalizing ring with
  | nil => exact LaneOk.credit_nonneg (h.credits r)
  | cons c rest ih =>
    have hs := h.spends r c
    rw [hquiet.1] at hs
    have hrest := ih (h.step c) hquiet.2
    rw [countAlong]
    simp only [Bool.false_eq_true, if_false] at hs
    split at hs <;> rename_i hsel <;> simp only [hsel, if_true, if_false, Bool.false_eq_true] <;> push_cast <;> omega

theorem HistoryInv.count_le_weight {start ring : FairnessRing} (h : HistoryInv start ring) (r : JsString)
    (c : RotationCall) (calls : List RotationCall)
    (hquiet : Along rotationStep (fun ring c => advances ring c = false) (rotationStep ring c) calls) :
    (countAlong rotationStep (selects r) ring (c :: calls) : ℤ) ≤ weightOf start r := by
  have hs := h.spends r c
  have hrest := (h.step c).count_le_credit r calls hquiet
  have hcredit := LaneOk.credit_le (h.credits r) (h.weights r)
  change credit ring.entries r ≤ _ at hcredit
  rw [weightOf_congr _ _ h.resources] at hs hcredit
  rw [countAlong]
  have hle : (if advances ring c then weightOf start r else credit ring.entries r) ≤ weightOf start r := by
    split
    · exact le_rfl
    · exact hcredit
  split at hs <;> rename_i hsel <;> simp only [hsel, if_true, if_false, Bool.false_eq_true] <;> push_cast <;> omega

/-! ### The wait of one resource -/

def creditSum (ring : FairnessRing) (keep : JsString → Bool) : ℤ :=
  ((ring.resources.filter fun r => keep r.resourceId).map fun r => credit ring.entries r.resourceId).sum

/-- How many more calls may pass `q` over: the credit ahead of it, and a full
round ahead of it when its own credit is spent. -/
def wait (q : JsString) (ring : FairnessRing) : ℤ :=
  if credit ring.entries q = 0 then creditSum ring (fun r => r ≠ q) + weightSum ring (fun r => r < q) + 1
  else creditSum ring (fun r => r < q) + 1

theorem HistoryInv.credit_nonneg {start ring : FairnessRing} (h : HistoryInv start ring) (r : JsString) :
    0 ≤ credit ring.entries r := LaneOk.credit_nonneg (h.credits r)

theorem HistoryInv.creditSum_nonneg {start ring : FairnessRing} (h : HistoryInv start ring) (keep : JsString → Bool) :
    0 ≤ creditSum ring keep := by
  refine List.sum_nonneg fun z hz => ?_
  obtain ⟨r, -, rfl⟩ := List.mem_map.mp hz
  exact h.credit_nonneg _

/-- One selection among the resources counted takes at least one unit out of the sum. -/
theorem sum_spent {A : Type} (l : List A) (new old : A → ℤ) (chosen : A → Bool)
    (hle : ∀ x ∈ l, new x + (if chosen x then 1 else 0) ≤ old x) (hex : ∃ x ∈ l, chosen x = true) :
    (l.map new).sum < (l.map old).sum := by
  refine List.sum_lt_sum new old (fun x hx => ?_) ?_
  · have hx' := hle x hx
    split at hx' <;> omega
  · obtain ⟨x, hx, hchosen⟩ := hex
    have hx' := hle x hx
    rw [if_pos hchosen] at hx'
    exact ⟨x, hx, by omega⟩

theorem HistoryInv.servable_turn {start ring : FairnessRing} (h : HistoryInv start ring) (q : JsString) (c : RotationCall)
    (hservable : Servable q ring c) :
    ∃ inputs o, rotate ring c = .ok o ∧ inputs.ring = ring.append c.appended ∧ CallEffect ring o ∧ Turn inputs o
      ∧ ServableHead inputs q := by
  obtain ⟨inputs, hinputs, hceiling, hcap, hhead⟩ := hservable
  obtain ⟨o, ho, heffect, hturn⟩ := rotate_effect ring h.credits h.weights c inputs hinputs
  exact ⟨inputs, o, ho, (request_inputs ring c inputs hinputs).1, heffect, hturn hceiling hcap, hhead⟩

theorem HistoryInv.selectsSome {start ring : FairnessRing} (h : HistoryInv start ring) (q : JsString) (c : RotationCall)
    (hservable : Servable q ring c) :
    Fairness.selectsSome ring c := by
  obtain ⟨inputs, o, ho, -, -, hturn, hhead⟩ := h.servable_turn q c hservable
  exact ⟨o, ho, (hturn.progress q hhead).1⟩

section Wait
variable {start ring : FairnessRing} (hnodup : (start.resources.map FairnessRingResource.resourceId).Nodup)
  (h : HistoryInv start ring)
include hnodup h

theorem HistoryInv.weight_mem (r : FairnessRingResource) (hr : r ∈ ring.resources) :
    weightOf ring r.resourceId = r.weight := by
  rw [weightOf_congr _ _ h.resources]
  exact weightOf_mem start hnodup r (h.resources ▸ hr)

theorem HistoryInv.creditSum_le (keep : JsString → Bool) : creditSum ring keep ≤ weightSum ring keep := by
  refine List.sum_le_sum fun r hr => ?_
  rw [← h.weight_mem hnodup r (List.mem_filter.mp hr).1]
  exact LaneOk.credit_le (h.credits _) (h.weights _)

theorem HistoryInv.weightSum_nonneg (keep : JsString → Bool) : 0 ≤ weightSum ring keep :=
  (h.creditSum_nonneg keep).trans (h.creditSum_le hnodup keep)

theorem HistoryInv.wait_pos (q : JsString) : 0 < wait q ring := by
  have h1 := h.creditSum_nonneg fun r => r ≠ q
  have h2 := h.creditSum_nonneg fun r => r < q
  have h3 := h.weightSum_nonneg hnodup fun r => r < q
  unfold wait
  split <;> omega

theorem HistoryInv.wait_le (q : JsString) : wait q ring ≤ starvationBound start q := by
  have h1 := h.creditSum_le hnodup fun r => r ≠ q
  have h2 := h.creditSum_le hnodup fun r => r < q
  have h3 := h.weightSum_nonneg hnodup fun r => r ≠ q
  have hsame : starvationBound start q = starvationBound ring q := by
    unfold starvationBound weightSum
    rw [h.resources]
  rw [hsame]
  unfold wait starvationBound
  split <;> omega

theorem HistoryInv.wait_drops (q : JsString) (c : RotationCall) (hservable : Servable q ring c)
    (hmiss : ¬ selects q ring c = true) : wait q (rotationStep ring c) < wait q ring := by
  obtain ⟨inputs, o, ho, hring, heffect, hturn, hhead⟩ := h.servable_turn q c hservable
  obtain ⟨-, r, hr, hselects, hover⟩ := hturn.progress q hhead
  have hstep : rotationStep ring c = o.ring := by
    unfold rotationStep
    rw [ho]
  have hne : r ≠ q := by
    rintro rfl
    unfold selects at hmiss
    rw [ho] at hmiss
    exact hmiss hselects
  have hresources : inputs.ring.resources = ring.resources := by rw [hring]; rfl
  have hcredit : credit inputs.ring.entries q = credit ring.entries q := by rw [hring, credit_append]
  have hweightSum : ∀ keep, weightSum o.ring keep = weightSum ring keep := by
    intro keep
    unfold weightSum
    rw [heffect.resources]
  obtain ⟨chosen, hchosen, rfl⟩ := List.mem_map.mp (hresources ▸ hr)
  -- the credits summed over any set of resources that holds the chosen one drop
  have hsum : ∀ (keep : JsString → Bool) (old : FairnessRingResource → ℤ), keep chosen.resourceId = true →
      (∀ x ∈ ring.resources, credit o.ring.entries x.resourceId + (if o.selects x.resourceId then 1 else 0) ≤ old x) →
      creditSum o.ring keep < ((ring.resources.filter fun r => keep r.resourceId).map old).sum := by
    intro keep old hkeep hle
    unfold creditSum
    rw [heffect.resources]
    exact sum_spent _ _ old (fun x => o.selects x.resourceId) (fun x hx => hle x (List.mem_filter.mp hx).1)
      ⟨chosen, List.mem_filter.mpr ⟨hchosen, hkeep⟩, hselects⟩
  rw [hstep]
  obtain ⟨hrounds, hkept, hfirst⟩ | ⟨hrounds, hspent, hfull, hlt⟩ := hover hne
  · have hle : ∀ x ∈ ring.resources,
        credit o.ring.entries x.resourceId + (if o.selects x.resourceId then 1 else 0) ≤
          credit ring.entries x.resourceId := by
      intro x _
      have hs := heffect.spends x.resourceId
      rw [if_pos hrounds] at hs
      exact hs
    rw [hcredit] at hkept hfirst
    unfold wait
    rw [hkept, hweightSum]
    split
    · have hdrop := hsum (fun r => r ≠ q) _ (by simpa using hne) hle
      change _ < creditSum ring (fun r => r ≠ q) at hdrop
      omega
    · have hpos : 1 ≤ credit ring.entries q := by
        have := h.credit_nonneg q
        omega
      have hdrop := hsum (fun r => r < q) _ (by simpa using hfirst hpos) hle
      change _ < creditSum ring (fun r => r < q) at hdrop
      omega
  · have hround : ¬ o.roundsAdvanced = 0 := by omega
    have hle : ∀ x ∈ ring.resources,
        credit o.ring.entries x.resourceId + (if o.selects x.resourceId then 1 else 0) ≤ x.weight := by
      intro x hx
      have hs := heffect.spends x.resourceId
      rw [if_neg hround, h.weight_mem hnodup x hx] at hs
      exact hs
    have hdrop := hsum (fun r => r < q) _ (by simpa using hlt) hle
    change _ < weightSum ring (fun r => r < q) at hdrop
    have hnonneg := h.creditSum_nonneg fun r => r ≠ q
    unfold wait
    rw [if_neg (by omega), if_pos (hcredit.symm.trans hspent)]
    omega

end Wait

/-- Rotation starvation bound. After any history from a validated ring without
credit: while the head of `q` can be served and no bound is reached, every call
selects, and `q` itself is served before the bound is used up; and from one
advanced round to the next no resource is selected more often than its weight. -/
theorem rotation_starvation_bound (value : Value) (start : FairnessRing) (hvalid : validateRing value = .ok start)
    (hzero : ∀ e ∈ start.entries, e.deficitCounter = 0) (history : List RotationCall) :
    (∀ q stretch, Along rotationStep (Servable q) (run rotationStep start history) stretch →
        Along rotationStep selectsSome (run rotationStep start history) stretch
          ∧ (starvationBound start q ≤ stretch.length →
              ∃ (k : ℕ) (c : RotationCall), (k : ℤ) < starvationBound start q ∧ stretch[k]? = some c
                ∧ selects q (run rotationStep start (history ++ stretch.take k)) c = true))
      ∧ ∀ r c calls,
          Along rotationStep (fun ring c => advances ring c = false)
            (rotationStep (run rotationStep start history) c) calls →
          (countAlong rotationStep (selects r) (run rotationStep start history) (c :: calls) : ℤ) ≤
            weightOf start r := by
  have hstart := historyInv_start value start hvalid hzero
  have hnodup := (validateRing_ok value start hvalid).1
  have hrun : HistoryInv start (run rotationStep start history) :=
    run_invariant rotationStep (HistoryInv start) (fun _ c h => h.step c) start hstart history
  refine ⟨fun q stretch hstretch => ⟨?_, fun hlength => ?_⟩, fun r c calls hquiet => hrun.count_le_weight r c calls hquiet⟩
  · exact Along.imp rotationStep (HistoryInv start) (fun _ c h => h.step c) (fun _ c h hs => h.selectsSome q c hs) _ hrun
      stretch hstretch
  · have hle := hrun.wait_le hnodup q
    obtain ⟨k, c, hk, hc, hhit⟩ := Along.hit rotationStep (wait q) (fun ring c => selects q ring c = true)
      (HistoryInv start) (fun _ c h => h.step c) (fun _ h => h.wait_pos hnodup q)
      (fun _ c h hs hmiss => h.wait_drops hnodup q c hs hmiss) _ hrun stretch hstretch (hle.trans hlength)
    exact ⟨k, c, hk.trans_le hle, hc, by rw [run_append]; exact hhit⟩

def cpuItem (id resourceId : String) : Value :=
  recordOf [("workItemId", .string (lit id)), ("dimensionId", .string (lit "d")), ("priority", .string (lit "P1")),
    ("resourceId", .string (lit resourceId)),
    ("dispatchability", recordOf [("state", .string (lit "DISPATCHABLE")), ("observationRef", .string (lit "o"))])]

def cpuCapacity (resourceId : String) : Value :=
  recordOf [("resourceId", .string (lit resourceId)), ("capacityUnits", .number (.integer 4)),
    ("inFlightUnits", .number (.integer 1))]

def cpuRing : FairnessRing :=
  ⟨lit "r", lit "d", [⟨lit "g", 1⟩, ⟨lit "c", 1⟩], [⟨lit "g1", lit "g", 0⟩, ⟨lit "c1", lit "c", 0⟩, ⟨lit "g2", lit "g", 0⟩]⟩

-- an item arrives on the favoured queue before the call
def cpuCall (fresh : String) : RotationCall :=
  ⟨[(lit fresh, lit "c")],
    .array ([("g1", "g"), ("g2", "g"), ("c1", "c"), ("c2", "c"), ("c3", "c"), ("c4", "c")].map fun item =>
      cpuItem item.1 item.2),
    .array [cpuCapacity "c", cpuCapacity "g"], .null⟩

def cpuStretch : List RotationCall := [cpuCall "c2", cpuCall "c3", cpuCall "c4"]

theorem rotation_starvation_bound_gpu :
    validateRing cpuRing.toValue = .ok cpuRing
      ∧ Along rotationStep (Servable (lit "g")) cpuRing cpuStretch
      ∧ ∃ (k : ℕ) (c : RotationCall), (k : ℤ) < 3 ∧ cpuStretch[k]? = some c
          ∧ selects (lit "g") (run rotationStep cpuRing (cpuStretch.take k)) c = true := by
  have hvalid : validateRing cpuRing.toValue = .ok cpuRing := by decide +kernel
  have hbound : starvationBound cpuRing (lit "g") = 3 := by decide +kernel
  have hstretch : Along rotationStep (Servable (lit "g")) cpuRing cpuStretch := by decide +kernel
  obtain ⟨-, hserved⟩ := (rotation_starvation_bound cpuRing.toValue cpuRing hvalid (by decide +kernel) []).1 _ _ hstretch
  exact ⟨hvalid, hstretch, hbound ▸ hserved hbound.le⟩

end MoeNG.Fairness
