import MoeNG.Readiness.Projection

/-!
# The projection reads the frontier

A successful projection is described by the node facts and the edge states it
has read. Its lists are those of the frontier partition of the same cursor.
-/

namespace MoeNG.Readiness
open MoeNG.Kernel MoeNG.Lib MoeNG.Graph

/-! ### Reading the cursor back -/

theorem availabilityFact_value (nodeKey : JsString) (available : NodeAvailability) (h : isGraphKey nodeKey = true) :
    availabilityFact (availabilityValue nodeKey available) = some (nodeKey, available) := by
  unfold availabilityFact availabilityValue
  rw [readRecord_recordOf _ ["admissionEligible", "dispatchAvailable", "nodeKey"] rfl (by decide)]
  simp [Fields.field, graphKeyOf, boolOf, h]

section Cursor
variable (graph : ValidatedGraph) (facts : OrdMap JsString NodeReadinessFacts) (withheld : Option ReadinessWithholdReason)

def availabilities : OrdMap JsString NodeAvailability :=
  ⟨graph.nodes.map fun node => (node.nodeKey, nodeAvailability facts withheld node), by
    rw [List.map_map]
    exact graph.nodup⟩

theorem get_availabilities (node : GraphNode) (h : node ∈ graph.nodes) :
    (availabilities graph facts withheld).get node.nodeKey = some (nodeAvailability facts withheld node) :=
  OrdMap.get_of_mem_entries _ _ _ (List.mem_map_of_mem h)

theorem readCollections_cursor (hardEdgeFacts : List Value) :
    readCollections (cursorValue graph (.array hardEdgeFacts) facts withheld) = some ⟨hardEdgeFacts,
      graph.nodes.map fun node => availabilityValue node.nodeKey (nodeAvailability facts withheld node)⟩ := by
  unfold readCollections cursorValue
  rw [readRecord_recordOf _ ["hardEdgeFacts", "nodeAvailabilityFacts"] rfl (by decide)]
  simp [Fields.field]

theorem readCollections_cursor_none (value : Value) (h : ∀ items, value ≠ .array items) :
    readCollections (cursorValue graph value facts withheld) = none := by
  unfold readCollections cursorValue
  rw [readRecord_recordOf _ ["hardEdgeFacts", "nodeAvailabilityFacts"] rfl (by decide)]
  cases value with
  | array items => exact absurd rfl (h items)
  | _ => simp [Fields.field]

theorem readAvailabilityFacts_cursor :
    readAvailabilityFacts graph (graph.nodes.map fun node =>
      availabilityValue node.nodeKey (nodeAvailability facts withheld node)) = ⟨availabilities graph facts withheld, []⟩ := by
  refine (readKeyed_iff ..).mpr ⟨?_, fun p hp => ?_, (availabilities graph facts withheld).nodup⟩
  · rw [List.mapM_map]
    exact mapM_eq_some_map _ _ graph.nodes fun node hnode => availabilityFact_value _ _ (graph.nodeKeys node hnode)
  · obtain ⟨node, hnode, rfl⟩ := List.mem_map.mp hp
    exact decide_eq_true (List.mem_map_of_mem hnode)

theorem missingNodeFacts_cursor : missingNodeFacts graph (availabilities graph facts withheld) = [] := by
  rw [missingNodeFacts, List.map_eq_nil_iff, List.filter_eq_nil_iff]
  intro nodeKey hkey
  obtain ⟨node, hnode, rfl⟩ := List.mem_map.mp ((List.perm_insertionSort _ _).mem_iff.mp hkey)
  simp [OrdMap.has, get_availabilities graph facts withheld node hnode]

/-- The edge states that a successful partition has read. -/
structure EdgeStates (value : Value) (states : OrdMap JsString HardEdgeSatisfaction) : Prop where
  read : ∃ entries, value = .array entries ∧ entries.length ≤ absoluteMaxGraphTotalEdges
    ∧ Clean hardEdgeFact (fun edgeKey => edgeKey ∈ hardEdgeKeysOf graph) entries states.entries
  complete : ∀ edgeKey ∈ hardEdgeKeysOf graph, states.has edgeKey = true

theorem missingEdgeFacts_eq_nil (states : OrdMap JsString HardEdgeSatisfaction) :
    missingEdgeFacts graph states = [] ↔ ∀ edgeKey ∈ hardEdgeKeysOf graph, states.has edgeKey = true := by
  rw [missingEdgeFacts, List.map_eq_nil_iff, List.filter_eq_nil_iff]
  simp only [sortedCopy, (List.perm_insertionSort _ _).mem_iff, Bool.not_eq_true', Bool.not_eq_false]

theorem countRefusals_eq_nil (hardEdgeFactCount : ℕ) :
    countRefusals hardEdgeFactCount graph.nodes.length = [] ↔ hardEdgeFactCount ≤ absoluteMaxGraphTotalEdges := by
  have hnodes := graph.nodeLimit
  unfold countRefusals
  rw [if_neg (not_lt.mpr hnodes), List.append_nil]
  split <;> simp <;> omega

theorem partitionFrontier_of_states (value : Value) (states : OrdMap JsString HardEdgeSatisfaction)
    (h : EdgeStates graph value states) :
    partitionFrontier graph (cursorValue graph value facts withheld)
      = .ok (partition graph states (availabilities graph facts withheld)) := by
  obtain ⟨entries, rfl, hlength, hclean⟩ := h.read
  have hedges : readHardEdgeFacts graph entries = ⟨states, []⟩ := (readKeyed_iff ..).mpr hclean
  have hcount := (countRefusals_eq_nil graph entries.length).mpr hlength
  simp only [partitionFrontier, readCollections_cursor, List.length_map, hcount, hedges, readAvailabilityFacts_cursor,
    missingNodeFacts_cursor, (missingEdgeFacts_eq_nil graph states).mpr h.complete, List.append_nil, ne_eq, not_true,
    if_false]

theorem partitionFrontier_cursor (value : Value) (p : FrontierPartition)
    (h : partitionFrontier graph (cursorValue graph value facts withheld) = .ok p) :
    ∃ states, EdgeStates graph value states ∧ p = partition graph states (availabilities graph facts withheld) := by
  by_cases harray : ∃ items, value = .array items
  · obtain ⟨entries, rfl⟩ := harray
    simp only [partitionFrontier, readCollections_cursor, List.length_map, readAvailabilityFacts_cursor,
      missingNodeFacts_cursor, List.append_nil] at h
    split at h
    · cases h
    · rename_i hcount
      rw [not_not, countRefusals_eq_nil] at hcount
      split at h
      · cases h
      · rename_i hissues
        rw [not_not, List.append_eq_nil_iff] at hissues
        have hread : readHardEdgeFacts graph entries = ⟨(readHardEdgeFacts graph entries).values, []⟩ :=
          Reading.ext rfl hissues.1
        exact ⟨_, ⟨⟨entries, rfl, hcount, (readKeyed_iff ..).mp hread⟩, (missingEdgeFacts_eq_nil graph _).mp hissues.2⟩,
          (Except.ok.inj h).symm⟩
  · have hnone := readCollections_cursor_none graph facts withheld value fun items hitems => harray ⟨items, hitems⟩
    rw [partitionFrontier, hnone] at h
    cases h

end Cursor

/-! ### What a projection has read -/

structure NodeFacts (graph : ValidatedGraph) (value : Value) (facts : OrdMap JsString NodeReadinessFacts) : Prop where
  read : ∃ entries, dense value 0 = some entries
    ∧ Clean bundle (fun nodeKey => nodeKey ∈ nodeKeysOf graph) entries facts.entries
  complete : ∀ nodeKey ∈ nodeKeysOf graph, facts.has nodeKey = true

theorem missingBundles_eq_nil (graph : ValidatedGraph) (facts : OrdMap JsString NodeReadinessFacts) :
    missingBundles graph facts = [] ↔ ∀ nodeKey ∈ nodeKeysOf graph, facts.has nodeKey = true := by
  rw [missingBundles, List.map_eq_nil_iff, List.filter_eq_nil_iff]
  simp only [Bool.not_eq_true', Bool.not_eq_false]

theorem parseBundles_iff (graph : ValidatedGraph) (value : Value) (facts : OrdMap JsString NodeReadinessFacts) :
    parseBundles graph value = ⟨facts, []⟩ ↔ NodeFacts graph value facts := by
  unfold parseBundles
  cases hdense : dense value 0 with
  | none =>
    constructor
    · intro h
      cases congrArg Reading.issues h
    · intro h
      obtain ⟨entries, hentries, -⟩ := h.read
      rw [hdense] at hentries
      cases hentries
  | some entries =>
    have hclean : readBundles graph entries = ⟨facts, []⟩ ↔
        Clean bundle (fun nodeKey => nodeKey ∈ nodeKeysOf graph) entries facts.entries := readKeyed_iff ..
    dsimp only
    constructor
    · intro h
      have hvalues : (readBundles graph entries).values = facts := congrArg Reading.values h
      have hissues := congrArg Reading.issues h
      rw [List.append_eq_nil_iff, hvalues, missingBundles_eq_nil] at hissues
      exact ⟨⟨entries, hdense, hclean.mp (Reading.ext hvalues hissues.1)⟩, hissues.2⟩
    · intro h
      obtain ⟨entries', hentries, hread⟩ := h.read
      obtain rfl : entries = entries' := Option.some.inj (hdense.symm.trans hentries)
      rw [hclean.mpr hread, (missingBundles_eq_nil graph facts).mpr h.complete]
      rfl

structure Reads (graph : ValidatedGraph) (input hardEdgeFacts : Value) (facts : OrdMap JsString NodeReadinessFacts)
    (states : OrdMap JsString HardEdgeSatisfaction) : Prop where
  record : ∃ item, readRecord input ["hardEdgeFacts", "nodeFacts"] ["hardEdgeFacts", "nodeFacts"] = some item
    ∧ item.field "hardEdgeFacts" = hardEdgeFacts ∧ NodeFacts graph (item.field "nodeFacts") facts
  states : EdgeStates graph hardEdgeFacts states

def builtCursor (graph : ValidatedGraph) (hardEdgeFacts : Value) (facts : OrdMap JsString NodeReadinessFacts) :
    ReadinessCursor :=
  ⟨facts, cursorValue graph hardEdgeFacts facts (withholdReason graph facts), withholdReason graph facts⟩

def readPartition (graph : ValidatedGraph) (facts : OrdMap JsString NodeReadinessFacts)
    (states : OrdMap JsString HardEdgeSatisfaction) : FrontierPartition :=
  partition graph states (availabilities graph facts (withholdReason graph facts))

theorem projectReadiness_of_reads (graph : ValidatedGraph) (input hardEdgeFacts : Value)
    (facts : OrdMap JsString NodeReadinessFacts) (states : OrdMap JsString HardEdgeSatisfaction)
    (h : Reads graph input hardEdgeFacts facts states) :
    buildReadinessCursor graph input = .ok (builtCursor graph hardEdgeFacts facts)
      ∧ partitionFrontier graph (builtCursor graph hardEdgeFacts facts).cursor = .ok (readPartition graph facts states)
      ∧ projectReadiness graph input
        = .ok (project graph (builtCursor graph hardEdgeFacts facts) (readPartition graph facts states)) := by
  obtain ⟨item, hitem, rfl, hfacts⟩ := h.record
  have hbuilt : buildReadinessCursor graph input = .ok (builtCursor graph (item.field "hardEdgeFacts") facts) := by
    unfold buildReadinessCursor
    rw [hitem]
    dsimp only
    rw [(parseBundles_iff graph _ facts).mpr hfacts]
    rfl
  have hpartition := partitionFrontier_of_states graph facts (withholdReason graph facts) _ states h.states
  refine ⟨hbuilt, hpartition, ?_⟩
  unfold projectReadiness
  rw [hbuilt]
  dsimp only
  rw [show partitionFrontier graph (builtCursor graph (item.field "hardEdgeFacts") facts).cursor
    = .ok (readPartition graph facts states) from hpartition]

theorem reads_of_projectReadiness (graph : ValidatedGraph) (input : Value) (p : ReadinessProjection)
    (h : projectReadiness graph input = .ok p) :
    ∃ hardEdgeFacts facts states, Reads graph input hardEdgeFacts facts states := by
  unfold projectReadiness at h
  split at h
  · cases h
  · rename_i built hbuilt
    split at h
    · cases h
    · rename_i part hpart
      unfold buildReadinessCursor at hbuilt
      split at hbuilt
      · cases hbuilt
      · rename_i item hitem
        dsimp only at hbuilt
        split at hbuilt
        · cases hbuilt
        · rename_i hissues
          obtain rfl := Except.ok.inj hbuilt
          obtain ⟨states, hstates, -⟩ := partitionFrontier_cursor graph _ _ _ _ hpart
          have hfacts := (parseBundles_iff graph (item.field "nodeFacts") _).mp (Reading.ext rfl (not_not.mp hissues))
          exact ⟨item.field "hardEdgeFacts", _, states, ⟨item, hitem, rfl, hfacts⟩, hstates⟩

end MoeNG.Readiness
