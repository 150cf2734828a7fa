import MoeNG.Fairness.Serialization

/-!
# Requests up to the order of their lists

The validators read each list item by item and refuse repeated keys, so what a
request is validated to depends on the order of its resources, work items and
capacities only by a permutation, and on the order of its entries only by the
interleaving of the queues.
-/

namespace MoeNG.Fairness
open MoeNG.Kernel MoeNG.Lib

/-! ### Requests as they arrive -/

structure RawRequest where
  ringId : Value
  dimensionId : Value
  resources : List Value
  entries : List Value
  workItems : List Value
  capacities : List Value
  forcedHead : Value
  capRevision : Value

def arrayOf : Value → Option (List Value)
  | .array items => some items
  | _ => none

def rawRequestOf (value : Value) : Option RawRequest := do
  let request ← exactRecord value requestKeys
  let ring ← exactRecord (request.field "ring") ringKeys
  let resources ← arrayOf (ring.field "resources")
  let entries ← arrayOf (ring.field "entries")
  let workItems ← arrayOf (request.field "workItems")
  let capacities ← arrayOf (request.field "capacities")
  pure ⟨ring.field "ringId", ring.field "dimensionId", resources, entries, workItems, capacities,
    request.field "forcedHead", request.field "capRevision"⟩

/-- The queue a raw entry waits in. -/
def queuedOn (entry : Value) : Option JsString := do
  let parsed ← exactRecord entry entryKeys
  identityOf (parsed.field "resourceId")

def rawQueue (entries : List Value) (resourceId : JsString) : List Value :=
  entries.filter fun entry => queuedOn entry = some resourceId

structure Reserialized (raw raw' : RawRequest) : Prop where
  ringId : raw'.ringId = raw.ringId
  dimensionId : raw'.dimensionId = raw.dimensionId
  resources : raw'.resources.Perm raw.resources
  entries : ∀ resourceId, rawQueue raw'.entries resourceId = rawQueue raw.entries resourceId
  workItems : raw'.workItems.Perm raw.workItems
  capacities : raw'.capacities.Perm raw.capacities
  forcedHead : raw'.forcedHead = raw.forcedHead
  capRevision : raw'.capRevision = raw.capRevision

/-! ### Readers that refuse repeated keys -/

theorem read_distinct {A K : Type} (parse : Value → FairnessResult A) (key : A → K)
    (read : List K → List Value → FairnessResult (List A)) (hnil : ∀ seen, read seen [] = .ok [])
    (hcons : ∀ seen raw rest out, read seen (raw :: rest) = .ok out → ∃ a others, parse raw = .ok a ∧ key a ∉ seen
      ∧ read (seen ++ [key a]) rest = .ok others ∧ out = a :: others)
    (seen : List K) (items : List Value) (out : List A) (h : read seen items = .ok out) :
    out = items.filterMap (fun raw => (parse raw).toOption) ∧ (out.map key).Nodup ∧ ∀ a ∈ out, key a ∉ seen := by
  induction items generalizing seen out with
  | nil =>
    obtain rfl : [] = out := Except.ok.inj ((hnil seen).symm.trans h)
    exact ⟨rfl, List.nodup_nil, nofun⟩
  | cons raw rest ih =>
    obtain ⟨a, others, hparse, hfresh, hothers, rfl⟩ := hcons seen raw rest out h
    obtain ⟨hread, hnodup, hnew⟩ := ih _ _ hothers
    refine ⟨?_, List.nodup_cons.mpr ⟨fun hmem => ?_, hnodup⟩, List.forall_mem_cons.mpr ⟨hfresh, fun b hb hmem => ?_⟩⟩
    · rw [List.filterMap_cons_some (b := a) (by rw [hparse]; rfl), ← hread]
    · obtain ⟨b, hb, hkey⟩ := List.mem_map.mp hmem
      exact hnew b hb (hkey ▸ List.mem_append_right _ (List.mem_singleton_self _))
    · exact hnew b hb (List.mem_append_left _ hmem)

theorem readResourcesAfter_distinct (items : List Value) (out : List FairnessRingResource)
    (h : readResourcesAfter [] items = .ok out) :
    out = items.filterMap (fun raw => (validateRingResource raw).toOption)
      ∧ (out.map FairnessRingResource.resourceId).Nodup := by
  obtain ⟨hread, hnodup, -⟩ := read_distinct validateRingResource FairnessRingResource.resourceId readResourcesAfter
    (fun _ => rfl) (fun seen raw rest out h => by
      obtain ⟨resource, hresource, h⟩ := except_bind_ok _ _ _ h
      split at h
      · cases h
      obtain ⟨others, hothers, h⟩ := except_bind_ok _ _ _ h
      cases h
      exact ⟨resource, others, hresource, ‹_›, hothers, rfl⟩) [] items out h
  exact ⟨hread, hnodup⟩

theorem readWorkItemsAfter_distinct (dimensionId : JsString) (items : List Value) (out : List FairnessWorkItem)
    (h : readWorkItemsAfter dimensionId [] items = .ok out) :
    out = items.filterMap (fun raw => (validateWorkItem raw).toOption)
      ∧ (out.map FairnessWorkItem.workItemId).Nodup := by
  obtain ⟨hread, hnodup, -⟩ := read_distinct validateWorkItem FairnessWorkItem.workItemId
    (readWorkItemsAfter dimensionId) (fun _ => rfl) (fun seen raw rest out h => by
      obtain ⟨item, hitem, h⟩ := except_bind_ok _ _ _ h
      split at h
      · cases h
      split at h
      · cases h
      obtain ⟨others, hothers, h⟩ := except_bind_ok _ _ _ h
      cases h
      exact ⟨item, others, hitem, ‹_›, hothers, rfl⟩) [] items out h
  exact ⟨hread, hnodup⟩

theorem readCapacitiesAfter_distinct (ring : FairnessRing) (items : List Value) (out : List FairnessResourceCapacity)
    (h : readCapacitiesAfter ring [] items = .ok out) :
    out = items.filterMap (fun raw => (validateResourceCapacity raw).toOption)
      ∧ (out.map FairnessResourceCapacity.resourceId).Nodup := by
  obtain ⟨hread, hnodup, -⟩ := read_distinct validateResourceCapacity FairnessResourceCapacity.resourceId
    (readCapacitiesAfter ring) (fun _ => rfl) (fun seen raw rest out h => by
      obtain ⟨capacity, hcapacity, h⟩ := except_bind_ok _ _ _ h
      split at h
      · cases h
      split at h
      · cases h
      obtain ⟨others, hothers, h⟩ := except_bind_ok _ _ _ h
      cases h
      exact ⟨capacity, others, hcapacity, ‹_›, hothers, rfl⟩) [] items out h
  exact ⟨hread, hnodup⟩

theorem readEntries_ok (items : List Value) (entries : List FairnessRingQueueEntry)
    (h : items.mapM readEntry = .ok entries) :
    entries = items.filterMap (fun raw => (readEntry raw).toOption)
      ∧ ∀ raw ∈ items, ∃ entry, readEntry raw = .ok entry := by
  induction items generalizing entries with
  | nil =>
    cases h
    exact ⟨rfl, nofun⟩
  | cons raw rest ih =>
    rw [List.mapM_cons] at h
    obtain ⟨entry, hentry, h⟩ := except_bind_ok _ _ _ h
    obtain ⟨others, hothers, h⟩ := except_bind_ok _ _ _ h
    cases h
    obtain ⟨rfl, hall⟩ := ih others hothers
    exact ⟨by rw [List.filterMap_cons_some (b := entry) (by rw [hentry]; rfl)],
      List.forall_mem_cons.mpr ⟨⟨entry, hentry⟩, hall⟩⟩

theorem readEntry_queuedOn (raw : Value) (entry : FairnessRingQueueEntry) (h : readEntry raw = .ok entry) :
    queuedOn raw = some entry.resourceId := by
  simp only [readEntry, ↓except_bind_iff] at h
  obtain ⟨parsed, hparsed, item, _, resource, hresource, _, _, h⟩ := h
  cases h
  exact Option.bind_eq_some_iff.mpr ⟨parsed, orRefuse_ok _ _ _ hparsed, orRefuse_ok _ _ _ hresource⟩

theorem lane_readEntries (items : List Value) (entries : List FairnessRingQueueEntry)
    (h : items.mapM readEntry = .ok entries) (resourceId : JsString) :
    lane entries resourceId = (rawQueue items resourceId).filterMap fun raw => (readEntry raw).toOption := by
  obtain ⟨rfl, hall⟩ := readEntries_ok items entries h
  clear h
  unfold lane queue rawQueue
  induction items with
  | nil => rfl
  | cons raw rest ih =>
    obtain ⟨⟨entry, hentry⟩, hrest⟩ := List.forall_mem_cons.mp hall
    have hread : (readEntry raw).toOption = some entry := by rw [hentry]; rfl
    rw [List.filterMap_cons_some (f := fun raw => (readEntry raw).toOption) hread, List.filter_cons, List.filter_cons,
      readEntry_queuedOn raw entry hentry, ih hrest]
    by_cases hr : entry.resourceId = resourceId
    · rw [if_pos (decide_eq_true hr), if_pos (decide_eq_true (congrArg some hr)),
        List.filterMap_cons_some (f := fun raw => (readEntry raw).toOption) hread]
    · rw [if_neg (by simpa using hr), if_neg (by simpa using hr)]

theorem checkEntriesAfter_nodup (declared : List JsString) (placements : List (JsString × JsString))
    (entries : List FairnessRingQueueEntry) (h : checkEntriesAfter declared placements entries = .ok ()) :
    (entries.map FairnessRingQueueEntry.workItemId).Nodup
      ∧ ∀ e ∈ entries, e.workItemId ∉ placements.map Prod.fst := by
  induction entries generalizing placements with
  | nil => exact ⟨List.nodup_nil, nofun⟩
  | cons entry rest ih =>
    unfold checkEntriesAfter at h
    split at h
    · cases h
    split at h
    · split at h <;> cases h
    rename_i hnone
    obtain ⟨hnodup, hnew⟩ := ih _ h
    refine ⟨List.nodup_cons.mpr ⟨fun hmem => ?_, hnodup⟩, List.forall_mem_cons.mpr ⟨fun hmem => ?_, fun e he hmem => ?_⟩⟩
    · obtain ⟨e, he, hid⟩ := List.mem_map.mp hmem
      exact hnew e he (by simp [hid])
    · obtain ⟨p, hp, hid⟩ := List.mem_map.mp hmem
      exact List.find?_eq_none.mp hnone p hp (decide_eq_true hid)
    · exact hnew e he (by rw [List.map_append]; exact List.mem_append_left _ hmem)

theorem sumInFlightFrom_ok (total sum : ℤ) (capacities : List FairnessResourceCapacity)
    (h : sumInFlightFrom total capacities = .ok sum) :
    sum = total + (capacities.map FairnessResourceCapacity.inFlightUnits).sum := by
  induction capacities generalizing total with
  | nil =>
    cases h
    simp
  | cons capacity rest ih =>
    unfold sumInFlightFrom at h
    split at h
    · cases h
    rename_i next hnext
    unfold safeAdd at hnext
    dsimp only at hnext
    split at hnext
    · rw [ih next h, ← Option.some.inj hnext, List.map_cons, List.sum_cons, Int.add_assoc]
    · cases hnext

/-- The revised cap is read off the revision alone. -/
def revisedCapOf : Value → Option ℤ
  | .null => none
  | value => (validateCapRevision value).toOption.map FairnessCapRevision.toCapUnits

theorem checkCapRevision_ok (value : Value) (ring : FairnessRing) (totalInFlight : ℤ) (cap : Option ℤ)
    (h : checkCapRevision value ring totalInFlight = .ok cap) : cap = revisedCapOf value := by
  unfold checkCapRevision at h
  split at h
  · cases h
    rfl
  · obtain ⟨revision, hrevision, h⟩ := except_bind_ok _ _ _ h
    split at h
    · cases h
    split at h
    · cases h
    split at h
    · cases h
    cases h
    unfold revisedCapOf
    split
    · contradiction
    · rw [hrevision]
      rfl

/-! ### What an accepted request was read from -/

structure ReadFrom (raw : RawRequest) (inputs : FairnessRotationInputs) : Prop where
  resources : inputs.ring.resources = raw.resources.filterMap fun r => (validateRingResource r).toOption
  resource_ids : (inputs.ring.resources.map FairnessRingResource.resourceId).Nodup
  lanes : ∀ resourceId, lane inputs.ring.entries resourceId =
    (rawQueue raw.entries resourceId).filterMap fun entry => (readEntry entry).toOption
  entry_ids : (inputs.ring.entries.map FairnessRingQueueEntry.workItemId).Nodup
  items : inputs.items = raw.workItems.filterMap fun item => (validateWorkItem item).toOption
  item_ids : (inputs.items.map FairnessWorkItem.workItemId).Nodup
  capacities : inputs.capacities = raw.capacities.filterMap fun c => (validateResourceCapacity c).toOption
  capacity_ids : (inputs.capacities.map FairnessResourceCapacity.resourceId).Nodup
  totalInFlight : inputs.totalInFlight = (inputs.capacities.map FairnessResourceCapacity.inFlightUnits).sum
  revisedCapUnits : inputs.revisedCapUnits = revisedCapOf raw.capRevision
  forcedHead : readForcedHead raw.forcedHead = .ok inputs.forcedHead

theorem readFairnessItems_ok (value : Value) (layer : Layer) (field : String) (items : List Value)
    (h : readFairnessItems value layer field = .ok items) : value = .array items := by
  unfold readFairnessItems at h
  split at h
  · split at h
    · cases h
    · cases h
      rfl
  · cases h

theorem readFairnessItems_arrayOf (value : Value) (layer : Layer) (field : String) (items : List Value)
    (h : readFairnessItems value layer field = .ok items) : arrayOf value = some items := by
  rw [readFairnessItems_ok value layer field items h]
  rfl

theorem validateRing_readFrom (value : Value) (ring : FairnessRing) (h : validateRing value = .ok ring) :
    ∃ fields resources entries, exactRecord value ringKeys = some fields
      ∧ arrayOf (fields.field "resources") = some resources ∧ arrayOf (fields.field "entries") = some entries
      ∧ readResourcesAfter [] resources = .ok ring.resources ∧ entries.mapM readEntry = .ok ring.entries
      ∧ (ring.entries.map FairnessRingQueueEntry.workItemId).Nodup := by
  simp only [validateRing, ↓except_bind_iff] at h
  obtain ⟨fields, hfields, _, _, _, _, _, hresources, rawEntries, hrawEntries, _, hentries, _, hcheck, h⟩ := h
  cases h
  obtain ⟨rawResources, hrawResources, hresources⟩ := except_bind_ok _ _ _ hresources
  unfold checkEntries at hcheck
  split at hcheck
  · cases hcheck
  exact ⟨fields, rawResources, rawEntries, orRefuse_ok _ _ _ hfields, readFairnessItems_arrayOf _ _ _ _ hrawResources,
    readFairnessItems_arrayOf _ _ _ _ hrawEntries, hresources, hentries, (checkEntriesAfter_nodup _ _ _ hcheck).1⟩

theorem validateWorkItemSet_readFrom (value : Value) (dimensionId : JsString) (items : List FairnessWorkItem)
    (h : validateWorkItemSet value dimensionId = .ok items) :
    ∃ raw, arrayOf value = some raw ∧ readWorkItemsAfter dimensionId [] raw = .ok items := by
  unfold validateWorkItemSet at h
  split at h
  · cases h
  obtain ⟨raw, hraw, h⟩ := except_bind_ok _ _ _ h
  exact ⟨raw, readFairnessItems_arrayOf _ _ _ _ hraw, h⟩

theorem readCapacities_readFrom (value : Value) (ring : FairnessRing) (capacities : List FairnessResourceCapacity)
    (h : readCapacities value ring = .ok capacities) :
    ∃ raw, arrayOf value = some raw ∧ readCapacitiesAfter ring [] raw = .ok capacities := by
  obtain ⟨raw, hraw, h⟩ := except_bind_ok _ _ _ h
  obtain ⟨byResource, hread, h⟩ := except_bind_ok _ _ _ h
  split at h
  · cases h
  cases h
  exact ⟨raw, readFairnessItems_arrayOf _ _ _ _ hraw, hread⟩

theorem validateRotationRequest_readFrom (value : Value) (inputs : FairnessRotationInputs)
    (h : validateRotationRequest value = .ok inputs) :
    ∃ raw, rawRequestOf value = some raw ∧ ReadFrom raw inputs := by
  simp only [validateRotationRequest, ↓except_bind_iff] at h
  obtain ⟨request, hrequest, ring, hring, items, hitems, _, _, capacities, hcapacities, total, htotal, cap, hcap,
    forcedHead, hforced, h⟩ := h
  cases h
  obtain ⟨fields, rawResources, rawEntries, hfields, hrawResources, hrawEntries, hresources, hentries, hids⟩ :=
    validateRing_readFrom _ ring hring
  obtain ⟨rawItems, hrawItems, hitems⟩ := validateWorkItemSet_readFrom _ _ items hitems
  obtain ⟨rawCapacities, hrawCapacities, hcapacities⟩ := readCapacities_readFrom _ ring capacities hcapacities
  refine ⟨⟨fields.field "ringId", fields.field "dimensionId", rawResources, rawEntries, rawItems, rawCapacities,
    request.field "forcedHead", request.field "capRevision"⟩, ?_, ?_⟩
  · simp only [rawRequestOf, orRefuse_ok _ _ _ hrequest, hfields, hrawResources, hrawEntries, hrawItems, hrawCapacities,
      Option.bind_eq_bind, Option.bind_some, Option.pure_def]
  · obtain ⟨hread, hresourceIds⟩ := readResourcesAfter_distinct _ _ hresources
    obtain ⟨hreadItems, hitemIds⟩ := readWorkItemsAfter_distinct _ _ _ hitems
    obtain ⟨hreadCapacities, hcapacityIds⟩ := readCapacitiesAfter_distinct _ _ _ hcapacities
    exact {
      resources := hread
      resource_ids := hresourceIds
      lanes := lane_readEntries rawEntries ring.entries hentries
      entry_ids := hids
      items := hreadItems
      item_ids := hitemIds
      capacities := hreadCapacities
      capacity_ids := hcapacityIds
      totalInFlight := by rw [sumInFlightFrom_ok _ _ _ htotal, Int.zero_add]
      revisedCapUnits := checkCapRevision_ok _ _ _ _ hcap
      forcedHead := hforced }

/-! ### Reserialized requests -/

theorem ReadFrom.reordered {raw raw' : RawRequest} {inputs inputs' : FairnessRotationInputs} (h : ReadFrom raw inputs)
    (h' : ReadFrom raw' inputs') (hraw : Reserialized raw raw') : Reordered inputs inputs' := by
  have hresources : inputs'.ring.resources.Perm inputs.ring.resources := by
    rw [h.resources, h'.resources]
    exact hraw.resources.filterMap _
  have hitems : inputs'.items.Perm inputs.items := by
    rw [h.items, h'.items]
    exact hraw.workItems.filterMap _
  have hcapacities : inputs'.capacities.Perm inputs.capacities := by
    rw [h.capacities, h'.capacities]
    exact hraw.capacities.filterMap _
  refine ⟨?_, fun r => ?_, fun id => ?_, fun r => ?_, fun r => ?_, h.entry_ids, h'.entry_ids, ?_, ?_, ?_⟩
  · unfold orderedResourceIds
    refine List.Perm.eq_of_pairwise' (r := (· ≤ ·)) (List.pairwise_insertionSort _ _) (List.pairwise_insertionSort _ _) ?_
    exact ((List.perm_insertionSort _ _).trans (hresources.map _)).trans (List.perm_insertionSort _ _).symm
  · unfold weightOf
    rw [find_key_perm FairnessRingResource.resourceId hresources h.resource_ids]
  · exact find_key_perm FairnessWorkItem.workItemId hitems h.item_ids id
  · exact find_key_perm FairnessResourceCapacity.resourceId hcapacities h.capacity_ids r
  · change lane inputs.ring.entries r = lane inputs'.ring.entries r
    rw [h.lanes, h'.lanes, hraw.entries]
  · have hforced := h'.forcedHead
    rw [hraw.forcedHead, h.forcedHead] at hforced
    exact (Except.ok.inj hforced).symm
  · rw [h.totalInFlight, h'.totalInFlight]
    exact (hcapacities.map _).sum_eq
  · rw [h.revisedCapUnits, h'.revisedCapUnits, hraw.capRevision]

/-- Two accepted requests that differ only in the order of their lists are rotated alike. -/
theorem rotation_serialization_free (value value' : Value) (raw raw' : RawRequest) (hraw : rawRequestOf value = some raw)
    (hraw' : rawRequestOf value' = some raw') (hsame : Reserialized raw raw') (inputs inputs' : FairnessRotationInputs)
    (haccepted : validateRotationRequest value = .ok inputs) (haccepted' : validateRotationRequest value' = .ok inputs') :
    SameResult SameOutcome (rotateOnce value) (rotateOnce value') := by
  obtain ⟨_, hread, hfrom⟩ := validateRotationRequest_readFrom value inputs haccepted
  obtain ⟨_, hread', hfrom'⟩ := validateRotationRequest_readFrom value' inputs' haccepted'
  obtain rfl := Option.some.inj (hraw.symm.trans hread)
  obtain rfl := Option.some.inj (hraw'.symm.trans hread')
  rw [rotateOnce_accepted value inputs haccepted, rotateOnce_accepted value' inputs' haccepted']
  exact (hfrom.reordered hfrom' hsame).rotateInputs

def RawRequest.toValue (raw : RawRequest) : Value :=
  recordOf [("ring", recordOf [("ringId", raw.ringId), ("dimensionId", raw.dimensionId),
    ("resources", .array raw.resources), ("entries", .array raw.entries)]), ("workItems", .array raw.workItems),
    ("capacities", .array raw.capacities), ("forcedHead", raw.forcedHead), ("capRevision", raw.capRevision)]

theorem rawRequestOf_toValue (raw : RawRequest) : rawRequestOf raw.toValue = some raw := by
  have hrequest : exactRecord raw.toValue requestKeys = some _ :=
    exactRecord_recordOf _ (show (requestKeys.map lit).Nodup by decide)
  have hring : exactRecord (recordOf [("ringId", raw.ringId), ("dimensionId", raw.dimensionId),
      ("resources", .array raw.resources), ("entries", .array raw.entries)]) ringKeys = some _ :=
    exactRecord_recordOf _ (show (ringKeys.map lit).Nodup by decide)
  unfold rawRequestOf
  rw [hrequest]
  simp only [Option.bind_eq_bind, Option.bind_some, Fields.field_cons, String.reduceEq, if_true, if_false, hring,
    arrayOf, Option.pure_def]

def entryValue (workItemId resourceId : String) (deficitCounter : ℤ) : Value :=
  FairnessRingQueueEntry.toValue ⟨lit workItemId, lit resourceId, deficitCounter⟩

def resourceValue (resourceId : String) : Value := FairnessRingResource.toValue ⟨lit resourceId, 2⟩

def gpuRequest : RawRequest :=
  ⟨.string (lit "r"), .string (lit "d"), [resourceValue "g", resourceValue "c"],
    [entryValue "g1" "g" 1, entryValue "g2" "g" 0, entryValue "c1" "c" 2],
    [cpuItem "g1" "g", cpuItem "g2" "g", cpuItem "c1" "c"], [cpuCapacity "g", cpuCapacity "c"], .null, .null⟩

def gpuRequestShuffled : RawRequest :=
  ⟨.string (lit "r"), .string (lit "d"), [resourceValue "c", resourceValue "g"],
    [entryValue "g1" "g" 1, entryValue "c1" "c" 2, entryValue "g2" "g" 0],
    [cpuItem "c1" "c", cpuItem "g2" "g", cpuItem "g1" "g"], [cpuCapacity "c", cpuCapacity "g"], .null, .null⟩

theorem gpuRequest_reserialized : Reserialized gpuRequest gpuRequestShuffled := by
  refine ⟨rfl, rfl, List.Perm.swap .., fun r => ?_, ?_, List.Perm.swap .., rfl, rfl⟩
  · have hg1 : queuedOn (entryValue "g1" "g" 1) = some (lit "g") := by decide
    have hg2 : queuedOn (entryValue "g2" "g" 0) = some (lit "g") := by decide
    have hc1 : queuedOn (entryValue "c1" "c" 2) = some (lit "c") := by decide
    have hne : lit "g" ≠ lit "c" := by decide
    unfold rawQueue gpuRequest gpuRequestShuffled
    simp only [List.filter_cons, hg1, hg2, hc1, Option.some.injEq, decide_eq_true_eq]
    by_cases hg : lit "g" = r
    · subst hg
      simp [hne.symm]
    · simp [hg]
  · exact List.reverse_perm [cpuItem "g1" "g", cpuItem "g2" "g", cpuItem "c1" "c"]

theorem rotation_serialization_free_gpu :
    SameResult SameOutcome (rotateOnce gpuRequest.toValue) (rotateOnce gpuRequestShuffled.toValue)
      ∧ (rotateOnce gpuRequest.toValue).toOption.map RotationOutcome.selection = some (some ⟨lit "c1", lit "c"⟩) := by
  have haccepted : ((validateRotationRequest gpuRequest.toValue).toOption).isSome = true := by decide +kernel
  have haccepted' : ((validateRotationRequest gpuRequestShuffled.toValue).toOption).isSome = true := by decide +kernel
  cases hok : validateRotationRequest gpuRequest.toValue with
  | error refusal => rw [hok] at haccepted; cases haccepted
  | ok inputs =>
    cases hok' : validateRotationRequest gpuRequestShuffled.toValue with
    | error refusal => rw [hok'] at haccepted'; cases haccepted'
    | ok inputs' =>
      exact ⟨rotation_serialization_free _ _ _ _ (rawRequestOf_toValue _) (rawRequestOf_toValue _)
        gpuRequest_reserialized inputs inputs' hok hok', by decide +kernel⟩

end MoeNG.Fairness
