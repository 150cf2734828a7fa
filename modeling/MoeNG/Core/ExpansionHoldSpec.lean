import MoeNG.Core.ExpansionHold

/-!
# What the hold parsers give back

A parsed command, and a state built from parsed commands, parses to itself.
-/

namespace MoeNG.Core.Expansion
open MoeNG.Kernel MoeNG.Lib

/-! ### Inert values -/

theorem inertProperties_iff (properties : Obj) : inertProperties properties = true ↔ ∀ p ∈ properties, inert p.2 = true := by
  induction properties with
  | nil => simp [inertProperties]
  | cons p rest ih => simp [inertProperties, ih]

theorem inert_record (object : Obj) : inert (.record object) = true ↔ ∀ p ∈ object, inert p.2 = true := by
  rw [inert, inertProperties_iff]

theorem inert_get (object : Obj) (h : inert (.record object) = true) (key : String) (hkey : lit key ∈ object.keys) :
    inert (object.get key) = true := by
  obtain ⟨p, hp, hname⟩ := List.mem_map.mp hkey
  unfold Obj.get
  cases hfound : object.find? fun p => p.1 = lit key with
  | none => exact absurd (decide_eq_true hname) (List.find?_eq_none.mp hfound p hp)
  | some q => exact (inert_record object).mp h q (List.mem_of_find?_eq_some hfound)

theorem inert_assign (object : Obj) (key : String) (value : Value) (h : inert (.record object) = true)
    (hvalue : inert value = true) : inert (.record (object.assign key value)) = true := by
  rw [inert_record] at h ⊢
  intro p hp
  unfold Obj.assign at hp
  split at hp
  · obtain ⟨q, hq, rfl⟩ := List.mem_map.mp hp
    unfold overwritten
    split
    · exact hvalue
    · exact h q hq
  · obtain hp | hp := List.mem_append.mp hp
    · exact h p hp
    · obtain rfl := List.mem_singleton.mp hp
      exact hvalue

theorem snapshot_some (value copied : Value) (h : snapshot value = some copied) : inert value = true ∧ copied = value := by
  unfold snapshot at h
  split at h
  · rename_i hinert
    exact ⟨hinert, (Option.some.inj h).symm⟩
  · cases h

theorem snapshot_inert (value : Value) (h : inert value = true) : snapshot value = some value := if_pos h

/-! ### Parsed records -/

theorem record_some (value : Value) (keys : List String) (item : Obj) (h : record value keys = some item) :
    value = .record item ∧ item.keys.Perm (keys.map lit) := exactObject_some value keys item h

theorem mem_keys (item : Obj) (keys : List String) (h : item.keys.Perm (keys.map lit)) (key : String) (hkey : key ∈ keys) :
    lit key ∈ item.keys := h.mem_iff.mpr (List.mem_map_of_mem hkey)

theorem handoff_some (value : Value) (bound : Obj) (h : handoff value = some bound) :
    ∃ item : Obj, value = .record item ∧ item.keys.Perm (["digest", "ref"].map lit)
      ∧ hex64 (item.get "digest") = true ∧ text (item.get "ref") = true
      ∧ bound = objectOf [("digest", item.get "digest"), ("ref", item.get "ref")] := by
  unfold handoff at h
  obtain ⟨item, hitem, hbound⟩ := Option.bind_eq_some_iff.mp h
  obtain ⟨hvalue, hkeys⟩ := record_some _ _ _ hitem
  split at hbound
  · rename_i hchecks
    simp only [Bool.and_eq_true] at hchecks
    exact ⟨item, hvalue, hkeys, hchecks.1, hchecks.2, (Option.some.inj hbound).symm⟩
  · cases hbound

theorem handoff_idem (value : Value) (bound : Obj) (h : handoff value = some bound) :
    handoff (.record bound) = some bound := by
  obtain ⟨item, -, -, hdigest, href, rfl⟩ := handoff_some value bound h
  have hperm : (objectOf [("digest", item.get "digest"), ("ref", item.get "ref")]).keys.Perm (["digest", "ref"].map lit) :=
    List.Perm.of_eq (keys_objectOf _)
  have hd : (objectOf [("digest", item.get "digest"), ("ref", item.get "ref")]).get "digest" = item.get "digest" := by
    simp [objectOf, Obj.get]
  have hr : (objectOf [("digest", item.get "digest"), ("ref", item.get "ref")]).get "ref" = item.get "ref" := by
    simp +decide [objectOf, Obj.get]
  unfold handoff record
  rw [exactObject_record _ _ hperm]
  simp [hd, hr, hdigest, href]

theorem inert_handoff (value : Value) (bound : Obj) (h : handoff value = some bound) (hinert : inert value = true) :
    inert (.record bound) = true := by
  obtain ⟨item, rfl, hkeys, -, -, rfl⟩ := handoff_some value bound h
  have hd := inert_get item hinert "digest" (mem_keys item _ hkeys _ (by decide))
  have hr := inert_get item hinert "ref" (mem_keys item _ hkeys _ (by decide))
  rw [inert_record]
  intro p hp
  simp only [objectOf, List.map_cons, List.map_nil, List.mem_cons, List.not_mem_nil, or_false] at hp
  obtain rfl | rfl := hp
  · exact hd
  · exact hr

theorem assign_same (item : Obj) (keys : List String) (hperm : item.keys.Perm (keys.map lit)) (hnodup : (keys.map lit).Nodup)
    (key : String) (hkey : key ∈ keys) (value : Value) (h : item.get key = value) : item.assign key value = item := by
  rw [← h]
  exact Obj.assign_get item key (hperm.nodup_iff.mpr hnodup) (mem_keys item keys hperm key hkey)

theorem stringList_some (value : Value) (items : List Value) (h : stringList value = some items) : value = .array items := by
  unfold stringList at h
  split at h
  · split at h
    · cases h
    · rw [Option.some.inj h]
  · cases h

/-! ### Release evidence -/

theorem release_some (value : Value) (released : Obj) (h : release value = some released) :
    ∃ item disposition bound : Obj, ∃ effectRefs resourceRefs : List Value,
      value = .record item ∧ item.keys.Perm (releaseKeys.map lit)
      ∧ item.get "disposition" = .record disposition
      ∧ record (item.get "disposition") ["resumable", "strongestReason", "terminalTarget"] = some disposition
      ∧ handoff (item.get "handoff") = some bound
      ∧ stringList (item.get "terminalEffectRefs") = some effectRefs
      ∧ stringList (item.get "terminalResourceRefs") = some resourceRefs
      ∧ releaseChecks item disposition = true ∧ released = item.assign "handoff" (.record bound) := by
  simp only [release, ↓bind_some_iff] at h
  obtain ⟨item, hitem, disposition, hdisposition, bound, hbound, effectRefs, heffects, resourceRefs, hresources, h⟩ := h
  obtain ⟨hvalue, hkeys⟩ := record_some _ _ _ hitem
  have hget := (record_some _ _ _ hdisposition).1
  have hnodup : (releaseKeys.map lit).Nodup := by decide
  split at h
  · rename_i hchecks
    refine ⟨item, disposition, bound, effectRefs, resourceRefs, hvalue, hkeys, hget, hdisposition, hbound, heffects,
      hresources, hchecks, ?_⟩
    have hkept : (item.assign "handoff" (.record bound)).keys.Perm (releaseKeys.map lit) := by
      rw [Obj.keys_assign _ _ _ (mem_keys item _ hkeys _ (by decide))]
      exact hkeys
    have heffect : (item.assign "handoff" (.record bound)).get "terminalEffectRefs" = .array effectRefs := by
      rw [Obj.get_assign, if_neg (by decide)]
      exact stringList_some _ _ heffects
    have hresource : (item.assign "handoff" (.record bound)).get "terminalResourceRefs" = .array resourceRefs := by
      rw [Obj.get_assign, if_neg (by decide)]
      exact stringList_some _ _ hresources
    rw [assign_same item _ hkeys hnodup "disposition" (by decide) _ hget,
      assign_same _ _ hkept hnodup "terminalEffectRefs" (by decide) _ heffect,
      assign_same _ _ hkept hnodup "terminalResourceRefs" (by decide) _ hresource] at h
    exact (Option.some.inj h).symm
  · cases h

/-- The same item with its handoff bound reads as before. -/
theorem release_intro (item disposition bound : Obj) (effectRefs resourceRefs : List Value)
    (hkeys : item.keys.Perm (releaseKeys.map lit))
    (hdisposition : record (item.get "disposition") ["resumable", "strongestReason", "terminalTarget"] = some disposition)
    (hbound : item.get "handoff" = .record bound) (hhandoff : handoff (.record bound) = some bound)
    (heffects : stringList (item.get "terminalEffectRefs") = some effectRefs)
    (hresources : stringList (item.get "terminalResourceRefs") = some resourceRefs)
    (hchecks : releaseChecks item disposition = true) : release (.record item) = some item := by
  have hnodup : (releaseKeys.map lit).Nodup := by decide
  have hget := (record_some _ _ _ hdisposition).1
  unfold release
  rw [record, exactObject_record _ _ hkeys]
  simp only [Option.bind_eq_bind, Option.bind_some, hdisposition, hbound, hhandoff, heffects, hresources]
  rw [if_pos hchecks, assign_same item _ hkeys hnodup "disposition" (by decide) _ hget,
    assign_same item _ hkeys hnodup "handoff" (by decide) _ hbound,
    assign_same item _ hkeys hnodup "terminalEffectRefs" (by decide) _ (stringList_some _ _ heffects),
    assign_same item _ hkeys hnodup "terminalResourceRefs" (by decide) _ (stringList_some _ _ hresources)]

theorem release_idem (value : Value) (released : Obj) (h : release value = some released) :
    release (.record released) = some released := by
  obtain ⟨item, disposition, bound, effectRefs, resourceRefs, -, hkeys, -, hdisposition, hbound, heffects, hresources,
    hchecks, rfl⟩ := release_some value released h
  have hget (key : String) (hkey : lit "handoff" ≠ lit key) :
      (item.assign "handoff" (.record bound)).get key = item.get key := by
    rw [Obj.get_assign, if_neg hkey]
  refine release_intro _ disposition bound effectRefs resourceRefs ?_ ?_ ?_ (handoff_idem _ _ hbound) ?_ ?_ ?_
  · rw [Obj.keys_assign _ _ _ (mem_keys item _ hkeys _ (by decide))]
    exact hkeys
  · rw [hget _ (by decide)]
    exact hdisposition
  · rw [Obj.get_assign, if_pos rfl]
  · rw [hget _ (by decide)]
    exact heffects
  · rw [hget _ (by decide)]
    exact hresources
  · simp only [releaseChecks, releaseStrings, releaseFlags, List.all_cons, List.all_nil] at hchecks ⊢
    rw [hget "attemptRef" (by decide), hget "attemptState" (by decide), hget "leaseRef" (by decide),
      hget "leaseState" (by decide), hget "observationRef" (by decide), hget "providerSlotRef" (by decide),
      hget "providerSlotState" (by decide), hget "reason" (by decide), hget "receiptRef" (by decide),
      hget "effectsTerminal" (by decide), hget "resourcesTerminal" (by decide),
      hget "safeBoundaryObserved" (by decide), hget "truthClass" (by decide)]
    exact hchecks

theorem inert_release (value : Value) (released : Obj) (h : release value = some released) (hinert : inert value = true) :
    inert (.record released) = true := by
  obtain ⟨item, disposition, bound, effectRefs, resourceRefs, rfl, hkeys, -, -, hbound, -, -, -, rfl⟩ :=
    release_some value released h
  refine inert_assign item _ _ hinert (inert_handoff _ _ hbound ?_)
  exact inert_get item hinert _ (mem_keys item _ hkeys _ (by decide))

/-! ### Commands -/

theorem parseCreate_some (value : Value) (command : Obj) (h : parseCreate value = some command) :
    ∃ item rationale released bound : Obj, value = .record item ∧ item.keys.Perm (createKeys.map lit)
      ∧ record (item.get "rationale") ["text", "truthClass"] = some rationale
      ∧ release (item.get "release") = some released ∧ handoff (item.get "workerHandoff") = some bound
      ∧ createChecks item rationale = true
      ∧ command = (item.assign "release" (.record released)).assign "workerHandoff" (.record bound) := by
  simp only [parseCreate, ↓bind_some_iff] at h
  obtain ⟨item, hitem, rationale, hrationale, released, hreleased, bound, hbound, h⟩ := h
  obtain ⟨hvalue, hkeys⟩ := record_some _ _ _ hitem
  have hget := (record_some _ _ _ hrationale).1
  split at h
  · rename_i hchecks
    rw [assign_same item _ hkeys (by decide) "rationale" (by decide) _ hget] at h
    exact ⟨item, rationale, released, bound, hvalue, hkeys, hrationale, hreleased, hbound, hchecks,
      (Option.some.inj h).symm⟩
  · cases h

theorem parseCreate_idem (value : Value) (command : Obj) (h : parseCreate value = some command) :
    parseCreate (.record command) = some command := by
  obtain ⟨item, rationale, released, bound, -, hkeys, hrationale, hreleased, hbound, hchecks, rfl⟩ :=
    parseCreate_some value command h
  generalize hcommand : (item.assign "release" (.record released)).assign "workerHandoff" (.record bound) = command
  have hget (key : String) (hr : lit "release" ≠ lit key) (hw : lit "workerHandoff" ≠ lit key) :
      command.get key = item.get key := by
    rw [← hcommand, Obj.get_assign, if_neg hw, Obj.get_assign, if_neg hr]
  have hrelease : command.get "release" = .record released := by
    rw [← hcommand, Obj.get_assign, if_neg (by decide), Obj.get_assign, if_pos rfl]
  have hhandoff : command.get "workerHandoff" = .record bound := by
    rw [← hcommand, Obj.get_assign, if_pos rfl]
  have hperm : command.keys.Perm (createKeys.map lit) := by
    have hfirst := Obj.keys_assign item "release" (.record released) (mem_keys item _ hkeys _ (by decide))
    rw [← hcommand, Obj.keys_assign _ _ _ (hfirst ▸ mem_keys item _ hkeys _ (by decide)), hfirst]
    exact hkeys
  have hrationaleGet : command.get "rationale" = .record rationale := by
    rw [hget _ (by decide) (by decide)]
    exact (record_some _ _ _ hrationale).1
  have hchecks' : createChecks command rationale = true := by
    simp only [createChecks, commandRefs, List.all_cons, List.all_nil] at hchecks ⊢
    rw [hget "commandId" (by decide) (by decide), hget "holdId" (by decide) (by decide),
      hget "parentNodeRef" (by decide) (by decide), hget "parentRevisionRef" (by decide) (by decide),
      hget "parentRunRef" (by decide) (by decide), hget "planningRunRef" (by decide) (by decide),
      hget "deadline" (by decide) (by decide), hget "expectedVersion" (by decide) (by decide),
      hget "generation" (by decide) (by decide), hget "graphEpoch" (by decide) (by decide),
      hget "proposalBaseHash" (by decide) (by decide), hget "sourceFingerprint" (by decide) (by decide)]
    exact hchecks
  unfold parseCreate
  rw [record, exactObject_record _ _ hperm]
  simp only [Option.bind_eq_bind, Option.bind_some, hget "rationale" (by decide) (by decide), hrationale, hrelease,
    hhandoff, release_idem _ _ hreleased, handoff_idem _ _ hbound]
  rw [if_pos hchecks', assign_same command _ hperm (by decide) "rationale" (by decide) _ hrationaleGet,
    assign_same command _ hperm (by decide) "release" (by decide) _ hrelease,
    assign_same command _ hperm (by decide) "workerHandoff" (by decide) _ hhandoff]

theorem proof_some (value read : Value) (h : proof value = some read) : read = value := by
  unfold proof at h
  split at h
  · exact (Option.some.inj h).symm
  · obtain ⟨item, hitem, h⟩ := Option.bind_eq_some_iff.mp h
    split at h
    · rw [(record_some _ _ _ hitem).1]
      exact (Option.some.inj h).symm
    · cases h

theorem parseTransition_some (value : Value) (command : Obj) (h : parseTransition value = some command) :
    value = .record command ∧ command.keys.Perm (transitionKeys.map lit) := by
  unfold parseTransition at h
  obtain ⟨item, hitem, h⟩ := Option.bind_eq_some_iff.mp h
  obtain ⟨read, hread, h⟩ := Option.bind_eq_some_iff.mp h
  obtain ⟨hvalue, hkeys⟩ := record_some _ _ _ hitem
  split at h
  · rw [assign_same item _ hkeys (by decide) "terminalProof" (by decide) _ (proof_some _ _ hread).symm] at h
    obtain rfl := Option.some.inj h
    exact ⟨hvalue, hkeys⟩
  · cases h

/-- What a parsed command is: an inert object of its kind that parses to itself. -/
structure Parsed (command : ExpansionPlanningHoldCommand) : Prop where
  inert : inert (.record command.properties) = true
  again : parseCommand (.record command.properties) = some command

theorem parseCommand_parsed (value : Value) (command : ExpansionPlanningHoldCommand) (h : parseCommand value = some command) :
    Parsed command := by
  unfold parseCommand at h
  obtain ⟨base, hbase, hread⟩ := Option.bind_eq_some_iff.mp h
  obtain ⟨hinert, rfl⟩ := snapshot_some _ _ hbase
  split at hread
  · rename_i hkind
    obtain ⟨created, hcreated, rfl⟩ := Option.map_eq_some_iff.mp hread
    have hagain := parseCreate_idem _ _ hcreated
    obtain ⟨item, rationale, released, bound, rfl, hkeys, -, hreleased, hbound, -, rfl⟩ := parseCreate_some _ _ hcreated
    have hinertCreated : inert (.record ((item.assign "release" (.record released)).assign "workerHandoff"
      (.record bound))) = true := by
      refine inert_assign _ _ _ (inert_assign _ _ _ hinert ?_) ?_
      · exact inert_release _ _ hreleased (inert_get item hinert _ (mem_keys item _ hkeys _ (by decide)))
      · exact inert_handoff _ _ hbound (inert_get item hinert _ (mem_keys item _ hkeys _ (by decide)))
    have hkind' : is (prop (.record ((item.assign "release" (.record released)).assign "workerHandoff" (.record bound))) "kind")
        "graph.request_expansion" = true := by
      rw [prop, Obj.get_assign, if_neg (by decide), Obj.get_assign, if_neg (by decide)]
      exact hkind
    refine ⟨hinertCreated, ?_⟩
    unfold parseCommand ExpansionPlanningHoldCommand.properties
    simp only [snapshot_inert _ hinertCreated, Option.bind_eq_bind, Option.bind_some]
    rw [if_pos hkind', hagain, Option.map_some]
  · split at hread
    · rename_i hcreate hkind
      obtain ⟨ended, hended, rfl⟩ := Option.map_eq_some_iff.mp hread
      obtain ⟨rfl, -⟩ := parseTransition_some _ _ hended
      refine ⟨hinert, ?_⟩
      unfold parseCommand ExpansionPlanningHoldCommand.properties
      simp only [snapshot_inert _ hinert, Option.bind_eq_bind, Option.bind_some]
      rw [if_neg hcreate, if_pos hkind, hended, Option.map_some]
    · cases hread

/-! ### States -/

theorem is_iff (value : Value) (name : String) : is value name = true ↔ value = .string (lit name) := by
  unfold is strictEq
  split <;> simp_all

theorem same_refl (value : Value) : same value value = true := decide_eq_true rfl

theorem receiptCommand_receipt (command : Obj) : receiptCommand (receipt command) = some command := by
  simp [receiptCommand, receipt, prop, objectOf, Obj.get]

theorem parseReceipt_receipt (command : ExpansionPlanningHoldCommand) (h : Parsed command) :
    parseReceipt (receipt command.properties) = some command := by
  have hget : (objectOf [("command", .record command.properties)]).get "command" = .record command.properties := by
    simp [objectOf, Obj.get]
  have hperm : (objectOf [("command", .record command.properties)]).keys.Perm (["command"].map lit) :=
    List.Perm.of_eq (keys_objectOf _)
  unfold parseReceipt receipt record
  rw [exactObject_record _ _ hperm]
  simp only [Option.bind_eq_bind, Option.bind_some, hget, h.again]

/-- A creation that the reducer accepts. -/
structure Opened (creation : Obj) : Prop where
  parsed : Parsed (.create creation)
  first : strictEq (creation.get "expectedVersion") (number 0) = true
  safe : safeRelease creation = true

/-- A transition that ends the hold of a creation. -/
structure Ended (creation terminal : Obj) : Prop where
  parsed : Parsed (.transition terminal)
  second : strictEq (terminal.get "expectedVersion") (number 1) = true
  other : strictEq (creation.get "commandId") (terminal.get "commandId") = false
  target : causeTarget terminal = true
  bound : bindingsMatch (opening creation) terminal = true
  proven : terminalProofValid terminal = true

/-- What a stored state is: the hold its receipts determine. -/
inductive Hold where
  | active (creation : Obj)
  | terminal (creation transition : Obj)

def Hold.creation : Hold → Obj
  | .active creation => creation
  | .terminal creation _ => creation

def Hold.state : Hold → ExpansionPlanningHoldState
  | .active creation => opening creation
  | .terminal creation transition => ended (opening creation) (transition.get "targetLifecycle") transition

def Hold.Valid : Hold → Prop
  | .active creation => Opened creation
  | .terminal creation transition => Opened creation ∧ Ended creation transition

theorem Hold.Valid.opened {hold : Hold} (h : hold.Valid) : Opened hold.creation := by
  cases hold with
  | active creation => exact h
  | terminal creation transition => exact h.1

theorem opening_keys (creation : Obj) : (opening creation).keys = stateKeys.map lit := keys_objectOf _

theorem ended_keys (creation : Obj) (lifecycle : Value) (terminal : Obj) :
    (ended (opening creation) lifecycle terminal).keys = stateKeys.map lit := by
  unfold ended
  rw [Obj.keys_assign, Obj.keys_assign, Obj.keys_assign, opening_keys]
  · rw [opening_keys]
    decide
  · rw [Obj.keys_assign, opening_keys]
    · decide
    · rw [opening_keys]
      decide
  · rw [Obj.keys_assign, Obj.keys_assign, opening_keys]
    · decide
    · rw [opening_keys]
      decide
    · rw [Obj.keys_assign, opening_keys]
      · decide
      · rw [opening_keys]
        decide

theorem ended_get (creation : Obj) (lifecycle : Value) (terminal : Obj) (key : String) (hl : lit "lifecycle" ≠ lit key)
    (hr : lit "terminalReceipt" ≠ lit key) (hv : lit "version" ≠ lit key) :
    (ended (opening creation) lifecycle terminal).get key = (opening creation).get key := by
  unfold ended
  rw [Obj.get_assign, if_neg hv, Obj.get_assign, if_neg hr, Obj.get_assign, if_neg hl]

theorem ended_lifecycle (state : ExpansionPlanningHoldState) (lifecycle : Value) (terminal : Obj) :
    (ended state lifecycle terminal).get "lifecycle" = lifecycle := by
  unfold ended
  rw [Obj.get_assign, if_neg (by decide), Obj.get_assign, if_neg (by decide), Obj.get_assign, if_pos rfl]

theorem ended_terminalReceipt (state : ExpansionPlanningHoldState) (lifecycle : Value) (terminal : Obj) :
    (ended state lifecycle terminal).get "terminalReceipt" = receipt terminal := by
  unfold ended
  rw [Obj.get_assign, if_neg (by decide), Obj.get_assign, if_pos rfl]

theorem ended_version (state : ExpansionPlanningHoldState) (lifecycle : Value) (terminal : Obj) :
    (ended state lifecycle terminal).get "version" = number 2 := by
  unfold ended
  rw [Obj.get_assign, if_pos rfl]

theorem opening_get (creation : Obj) :
    (opening creation).get "creationReceipt" = receipt creation
      ∧ (opening creation).get "holdKind" = .string (lit "EXPANSION_PLANNING")
      ∧ (opening creation).get "lifecycle" = .string (lit "ACTIVE")
      ∧ (opening creation).get "terminalReceipt" = .null ∧ (opening creation).get "version" = number 1 := by
  refine ⟨?_, ?_, ?_, ?_, ?_⟩ <;> simp +decide [opening, objectOf, Obj.get]

/-- A cause leads to one of the three terminal lifecycles. -/
theorem causeTarget_target (command : Obj) (h : causeTarget command = true) :
    member lifecycles (command.get "targetLifecycle") = true ∧ is (command.get "targetLifecycle") "ACTIVE" = false := by
  have htarget : is (command.get "targetLifecycle") "RESOLVED" = true ∨ is (command.get "targetLifecycle") "SUPERSEDED" = true
      ∨ is (command.get "targetLifecycle") "CANCELLED" = true := by
    simp only [causeTarget, Bool.or_eq_true, Bool.and_eq_true] at h
    obtain (⟨-, h⟩ | ⟨-, h⟩) | ⟨-, h⟩ := h
    · exact .inl h
    · exact .inr (.inl h)
    · exact .inr (.inr h)
  simp only [is_iff] at htarget
  obtain h | h | h := htarget <;> rw [h] <;> decide

theorem inert_opening (creation : Obj) (h : inert (.record creation) = true) (hkeys : creation.keys.Perm (createKeys.map lit)) :
    inert (.record (opening creation)) = true := by
  have hget (key : String) (hkey : key ∈ createKeys) : inert (creation.get key) = true :=
    inert_get creation h key (mem_keys creation _ hkeys key hkey)
  have hreceipt : inert (receipt creation) = true := by
    rw [receipt, inert_record]
    intro p hp
    obtain rfl := List.mem_singleton.mp hp
    exact h
  unfold opening objectOf
  rw [inert_record]
  simp only [List.map_cons, List.map_nil, List.forall_mem_cons, List.not_mem_nil, false_implies, implies_true, and_true]
  exact ⟨hreceipt, hget _ (by decide), hget _ (by decide), hget _ (by decide), hget _ (by decide), rfl, rfl,
    hget _ (by decide), hget _ (by decide), hget _ (by decide), hget _ (by decide), hget _ (by decide),
    hget _ (by decide), hget _ (by decide), hget _ (by decide), rfl, rfl, hget _ (by decide)⟩

theorem create_keys (creation : Obj) (h : Parsed (.create creation)) : creation.keys.Perm (createKeys.map lit) := by
  have hagain : parseCommand (.record creation) = some (.create creation) := h.again
  unfold parseCommand at hagain
  obtain ⟨base, hbase, hread⟩ := Option.bind_eq_some_iff.mp hagain
  obtain ⟨-, rfl⟩ := snapshot_some _ _ hbase
  split at hread
  · obtain ⟨command, hcommand, -⟩ := Option.map_eq_some_iff.mp hread
    obtain ⟨item, rationale, released, bound, hitem, hkeys, -⟩ := parseCreate_some _ _ hcommand
    obtain rfl := Value.record.inj hitem
    exact hkeys
  · split at hread
    · obtain ⟨command, -, hsame⟩ := Option.map_eq_some_iff.mp hread
      cases hsame
    · cases hread

theorem inert_ended (creation transition : Obj) (h : Opened creation) (hended : Ended creation transition) :
    inert (.record (Hold.terminal creation transition).state) = true := by
  have hopening := inert_opening creation h.parsed.inert (create_keys creation h.parsed)
  have hreceipt : inert (receipt transition) = true := by
    rw [receipt, inert_record]
    intro p hp
    obtain rfl := List.mem_singleton.mp hp
    exact hended.parsed.inert
  have hlifecycle : inert (transition.get "targetLifecycle") = true := by
    obtain ⟨hmember, -⟩ := causeTarget_target transition hended.target
    obtain ⟨name, -, hname⟩ := List.any_eq_true.mp hmember
    rw [(is_iff _ _).mp hname]
    rfl
  show inert (.record (ended (opening creation) (transition.get "targetLifecycle") transition)) = true
  exact inert_assign _ _ _ (inert_assign _ _ _ (inert_assign _ _ _ hopening hlifecycle) hreceipt) rfl

theorem parseState_opening (creation : Obj) (h : Opened creation) :
    parseState (.record (opening creation)) = some (opening creation) := by
  obtain ⟨hreceipt, hkind, hlifecycle, hterminal, hversion⟩ := opening_get creation
  have hinert := inert_opening creation h.parsed.inert (create_keys creation h.parsed)
  have hcreation : parseReceipt (receipt creation) = some (.create creation) := parseReceipt_receipt (.create creation) h.parsed
  have hsame : (openingKeys.all fun key => same ((opening creation).get key) ((opening creation).get key)) = true :=
    List.all_eq_true.mpr fun key _ => same_refl _
  unfold parseState record
  simp only [snapshot_inert _ hinert, Option.bind_eq_bind, Option.bind_some,
    exactObject_record _ _ (List.Perm.of_eq (opening_keys creation)), hreceipt, hkind, hlifecycle, hterminal, hversion,
    hcreation, h.first, h.safe, hsame]
  rfl

theorem parseState_ended (creation transition : Obj) (h : Opened creation) (hended : Ended creation transition) :
    parseState (.record (Hold.terminal creation transition).state) = some (Hold.terminal creation transition).state := by
  obtain ⟨hreceipt, hkind, -, -, -⟩ := opening_get creation
  have hinert := inert_ended creation transition h hended
  obtain ⟨hmember, hnotActive⟩ := causeTarget_target transition hended.target
  have hcreation : parseReceipt (receipt creation) = some (.create creation) := parseReceipt_receipt (.create creation) h.parsed
  have htransition : parseReceipt (receipt transition) = some (.transition transition) :=
    parseReceipt_receipt (.transition transition) hended.parsed
  have hkeys := ended_keys creation (transition.get "targetLifecycle") transition
  have hgetReceipt := ended_get creation (transition.get "targetLifecycle") transition "creationReceipt" (by decide)
    (by decide) (by decide)
  have hgetKind := ended_get creation (transition.get "targetLifecycle") transition "holdKind" (by decide)
    (by decide) (by decide)
  have hsame : (openingKeys.all fun key =>
      same ((ended (opening creation) (transition.get "targetLifecycle") transition).get key)
        ((opening creation).get key)) = true := by
    refine List.all_eq_true.mpr fun key hkey => ?_
    have hne : lit "lifecycle" ≠ lit key ∧ lit "terminalReceipt" ≠ lit key ∧ lit "version" ≠ lit key := by
      revert key
      decide
    rw [ended_get _ _ _ _ hne.1 hne.2.1 hne.2.2]
    exact same_refl _
  have hlifecycle : strictEq (transition.get "targetLifecycle") (transition.get "targetLifecycle") = true := by
    obtain ⟨name, -, hname⟩ := List.any_eq_true.mp hmember
    rw [(is_iff _ _).mp hname]
    simp [strictEq]
  have hother : strictEq (transition.get "commandId") (creation.get "commandId") = false := by
    rw [strictEq_comm]
    exact hended.other
  unfold parseState record Hold.state
  unfold Hold.state at hinert
  simp only [snapshot_inert _ hinert, Option.bind_eq_bind, Option.bind_some,
    exactObject_record _ _ (List.Perm.of_eq hkeys), hgetReceipt, hreceipt, hgetKind, hkind, ended_lifecycle, ended_version,
    ended_terminalReceipt, hmember, hcreation, h.first, h.safe, hsame, hnotActive, htransition, hended.second, hother,
    hlifecycle, hended.target, hended.bound, hended.proven]
  rfl

theorem Hold.Valid.reparsed {hold : Hold} (h : hold.Valid) : parseState (.record hold.state) = some hold.state := by
  cases hold with
  | active creation => exact parseState_opening creation h
  | terminal creation transition => exact parseState_ended creation transition h.1 h.2

end MoeNG.Core.Expansion
