import MoeNG.Readiness.Agreement

/-!
# The three layers

Each layer of a projection is the list of the nodes that pass a test on what
was read. A node without reasons passes all of them.
-/

namespace MoeNG.Readiness
open MoeNG.Kernel MoeNG.Lib MoeNG.Graph

/-! ### Lists of keys -/

section Keys
variable (graph : ValidatedGraph)

theorem mem_keysWhere (ready : GraphNode → Bool) (key : JsString) :
    key ∈ keysWhere graph ready ↔ ∃ node ∈ graph.nodes, ready node = true ∧ node.nodeKey = key := by
  simp only [keysWhere, sortedCopy, (List.perm_insertionSort _ _).mem_iff, List.mem_map, List.mem_filter, and_assoc]

theorem node_unique (a b : GraphNode) (ha : a ∈ graph.nodes) (hb : b ∈ graph.nodes) (h : a.nodeKey = b.nodeKey) : a = b :=
  List.inj_on_of_nodup_map graph.nodup ha hb h

theorem mem_keysWhere_node (ready : GraphNode → Bool) (node : GraphNode) (hnode : node ∈ graph.nodes) :
    node.nodeKey ∈ keysWhere graph ready ↔ ready node = true := by
  rw [mem_keysWhere]
  constructor
  · rintro ⟨other, hother, hready, hkey⟩
    exact node_unique graph other node hother hnode hkey ▸ hready
  · exact fun h => ⟨node, hnode, h, rfl⟩

theorem keysWhere_subset (ready ready' : GraphNode → Bool)
    (h : ∀ node ∈ graph.nodes, ready node = true → ready' node = true) : keysWhere graph ready ⊆ keysWhere graph ready' := by
  intro key hkey
  obtain ⟨node, hnode, hready, rfl⟩ := (mem_keysWhere graph ready key).mp hkey
  exact (mem_keysWhere_node graph ready' node hnode).mpr (h node hnode hready)

theorem keysWhere_congr (ready ready' : GraphNode → Bool) (h : ∀ node ∈ graph.nodes, ready node = ready' node) :
    keysWhere graph ready = keysWhere graph ready' := by
  rw [keysWhere, keysWhere, List.filter_congr h]

end Keys

theorem filter_filterMap_keys (nodes : List GraphNode) (get : GraphNode → Option NodeReadinessProjection)
    (passes : NodeReadinessProjection → Bool) (ready : GraphNode → Bool)
    (h : ∀ node ∈ nodes, ∃ n, get node = some n ∧ n.nodeKey = node.nodeKey ∧ passes n = ready node) :
    ((nodes.filterMap get).filter passes).map NodeReadinessProjection.nodeKey
      = (nodes.filter ready).map GraphNode.nodeKey := by
  induction nodes with
  | nil => rfl
  | cons node rest ih =>
    rw [List.forall_mem_cons] at h
    obtain ⟨n, hn, hkey, hpasses⟩ := h.1
    rw [List.filterMap_cons, hn]
    dsimp only
    rw [List.filter_cons, List.filter_cons, hpasses]
    split
    · rw [List.map_cons, List.map_cons, ih h.2, hkey]
    · exact ih h.2

theorem insertionSort_eq_nil {A : Type} (le : A → A → Prop) [DecidableRel le] (l : List A) :
    l.insertionSort le = [] ↔ l = [] := by
  rw [← List.length_eq_zero_iff, (List.perm_insertionSort le l).length_eq, List.length_eq_zero_iff]

/-! ### Confidence -/

theorem weaken_true (inner outer : FactConfidence) :
    weaken inner outer = .CONFIRMED_TRUE ↔ inner = .CONFIRMED_TRUE ∧ outer = .CONFIRMED_TRUE := by
  cases inner <;> cases outer <;> decide

theorem fold_true (predicates : List ReadinessPredicateFact) (codes : List CallerFactCode) :
    fold predicates codes = .CONFIRMED_TRUE ↔
      ∀ predicate ∈ predicates, predicate.code ∈ codes → predicate.confidence = .CONFIRMED_TRUE := by
  unfold fold
  dsimp only
  constructor
  · intro h predicate hmem hcode
    have hwanted : predicate ∈ predicates.filter fun predicate => predicate.code ∈ codes :=
      List.mem_filter.mpr ⟨hmem, decide_eq_true hcode⟩
    split at h
    · cases h
    · rename_i hfalse
      split at h
      · cases h
      · rename_i hunknown
        simp only [List.any_eq_true, decide_eq_true_eq, not_exists, not_and] at hfalse hunknown
        have hf := hfalse predicate hwanted
        have hu := hunknown predicate hwanted
        cases hc : predicate.confidence with
        | CONFIRMED_TRUE => rfl
        | CONFIRMED_FALSE => exact absurd hc hf
        | UNKNOWN => exact absurd hc hu
  · intro h
    have hwanted (c : FactConfidence) (hc : c ≠ .CONFIRMED_TRUE) :
        ¬ (predicates.filter fun predicate => predicate.code ∈ codes).any (fun predicate => predicate.confidence = c) = true := by
      simp only [List.any_eq_true, decide_eq_true_eq, not_exists, not_and]
      intro predicate hmem hconf
      obtain ⟨hmem, hcode⟩ := List.mem_filter.mp hmem
      exact hc (hconf ▸ h predicate hmem (of_decide_eq_true hcode))
    rw [if_neg (hwanted _ (by decide)), if_neg (hwanted _ (by decide))]

theorem mem_callerFactCodes (code : CallerFactCode) : code ∈ admissionReasonCodes ∨ code ∈ dispatchReasonCodes := by
  cases code <;> decide

/-- What `parseNodeReadinessFacts` derives from the predicates. -/
structure Folded (supplied : NodeReadinessFacts) : Prop where
  admission : supplied.admission = fold supplied.predicates admissionReasonCodes
  dispatch : supplied.dispatch = fold supplied.predicates dispatchReasonCodes

theorem parseNodeReadinessFacts_folded (input : Value) (supplied : NodeReadinessFacts)
    (h : parseNodeReadinessFacts input = some supplied) : Folded supplied := by
  simp only [parseNodeReadinessFacts, Option.bind_eq_bind, Option.bind_eq_some_iff, Option.some.injEq] at h
  obtain ⟨-, -, -, -, -, -, -, -, -, -, rfl⟩ := h
  exact ⟨rfl, rfl⟩

theorem Folded.all_true (supplied : NodeReadinessFacts) (h : Folded supplied) :
    (supplied.admission = .CONFIRMED_TRUE ∧ supplied.dispatch = .CONFIRMED_TRUE) ↔
      ∀ predicate ∈ supplied.predicates, predicate.confidence = .CONFIRMED_TRUE := by
  rw [h.admission, h.dispatch, fold_true, fold_true]
  constructor
  · rintro ⟨hadmission, hdispatch⟩ predicate hmem
    rcases mem_callerFactCodes predicate.code with hcode | hcode
    · exact hadmission predicate hmem hcode
    · exact hdispatch predicate hmem hcode
  · exact fun h => ⟨fun predicate hmem _ => h predicate hmem, fun predicate hmem _ => h predicate hmem⟩

theorem NodeFacts.folded (graph : ValidatedGraph) (value : Value) (facts : OrdMap JsString NodeReadinessFacts)
    (h : NodeFacts graph value facts) (nodeKey : JsString) (supplied : NodeReadinessFacts)
    (hget : facts.get nodeKey = some supplied) : Folded supplied := by
  obtain ⟨entries, -, hclean⟩ := h.read
  obtain ⟨entry, -, hentry⟩ := mem_of_mapM_some bundle entries facts.entries hclean.parsed _
    (facts.mem_entries_of_get nodeKey supplied hget)
  obtain ⟨parsed, hparsed, hpair⟩ := Option.map_eq_some_iff.mp hentry
  obtain rfl : parsed = supplied := congrArg Prod.snd hpair
  exact parseNodeReadinessFacts_folded entry parsed hparsed

theorem NodeFacts.get (graph : ValidatedGraph) (value : Value) (facts : OrdMap JsString NodeReadinessFacts)
    (h : NodeFacts graph value facts) (node : GraphNode) (hnode : node ∈ graph.nodes) :
    ∃ supplied, facts.get node.nodeKey = some supplied :=
  Option.isSome_iff_exists.mp (h.complete node.nodeKey (List.mem_map_of_mem hnode))

/-! ### One node -/

def admits (facts : OrdMap JsString NodeReadinessFacts) (node : GraphNode) : Bool :=
  (facts.get node.nodeKey).any fun supplied => supplied.admission = .CONFIRMED_TRUE

def dispatches (facts : OrdMap JsString NodeReadinessFacts) (node : GraphNode) : Bool :=
  (facts.get node.nodeKey).any fun supplied => supplied.dispatch = .CONFIRMED_TRUE

section Node
variable (graph : ValidatedGraph) (facts : OrdMap JsString NodeReadinessFacts)
  (states : OrdMap JsString HardEdgeSatisfaction) (node : GraphNode) (hnode : node ∈ graph.nodes)
include hnode

theorem logical_true (blocked : Option BlockedNode) :
    logicalConfidence node.executionBearing (readPartition graph facts states).logicalReady blocked node.nodeKey
      = .CONFIRMED_TRUE ↔ isLogicalReady graph states node = true := by
  have hmem : node.nodeKey ∈ (readPartition graph facts states).logicalReady ↔ isLogicalReady graph states node = true :=
    mem_keysWhere_node graph _ node hnode
  unfold logicalConfidence
  split
  · rename_i hbearing
    refine ⟨nofun, fun h => ?_⟩
    rw [isLogicalReady, Bool.and_eq_true] at h
    rw [h.1] at hbearing
    cases hbearing
  · split
    · rename_i hready
      exact ⟨fun _ => hmem.mp hready, fun _ => rfl⟩
    · rename_i hready
      refine ⟨fun h => ?_, fun h => absurd (hmem.mpr h) hready⟩
      split at h <;> cases h

theorem admission_true (supplied : NodeReadinessFacts) :
    (projectNode (readPartition graph facts states) node supplied).admission = .CONFIRMED_TRUE ↔
      isLogicalReady graph states node = true ∧ supplied.admission = .CONFIRMED_TRUE := by
  show weaken _ _ = _ ↔ _
  rw [weaken_true, logical_true graph facts states node hnode, and_comm]

theorem dispatch_true (supplied : NodeReadinessFacts) :
    (projectNode (readPartition graph facts states) node supplied).dispatch = .CONFIRMED_TRUE ↔
      isLogicalReady graph states node = true ∧ supplied.admission = .CONFIRMED_TRUE
        ∧ supplied.dispatch = .CONFIRMED_TRUE := by
  show weaken _ (projectNode (readPartition graph facts states) node supplied).admission = _ ↔ _
  rw [weaken_true, admission_true graph facts states node hnode]
  tauto

theorem blocked_find (h : node.executionBearing = true) :
    ((((readPartition graph facts states).blocked.find? fun entry => entry.nodeKey = node.nodeKey).map
      BlockedNode.reasons).getD []) = blockedReasons graph states node.nodeKey := by
  have hmem (entry : BlockedNode) : entry ∈ (readPartition graph facts states).blocked ↔
      ∃ other ∈ graph.nodes, (other.executionBearing = true ∧ blockedReasons graph states other.nodeKey ≠ [])
        ∧ (⟨other.nodeKey, blockedReasons graph states other.nodeKey⟩ : BlockedNode) = entry := by
    simp only [readPartition, partition, blockedNodes, (List.perm_insertionSort _ _).mem_iff, List.mem_map, List.mem_filter,
      Bool.and_eq_true, decide_eq_true_eq, and_assoc]
  cases hfind : (readPartition graph facts states).blocked.find? fun entry => entry.nodeKey = node.nodeKey with
  | none =>
    by_contra hne
    have hreasons : blockedReasons graph states node.nodeKey ≠ [] := fun hnil => hne hnil.symm
    have hentry := List.find?_eq_none.mp hfind _ ((hmem _).mpr ⟨node, hnode, ⟨h, hreasons⟩, rfl⟩)
    exact hentry (decide_eq_true rfl)
  | some entry =>
    obtain ⟨other, hother, -, rfl⟩ := (hmem entry).mp (List.mem_of_find?_eq_some hfind)
    have hkey : other.nodeKey = node.nodeKey := by simpa using List.find?_some hfind
    show blockedReasons graph states other.nodeKey = _
    rw [hkey]

theorem reasons_nil (supplied : NodeReadinessFacts) (hfolded : Folded supplied) :
    (projectNode (readPartition graph facts states) node supplied).reasons = [] ↔
      (projectNode (readPartition graph facts states) node supplied).dispatch = .CONFIRMED_TRUE := by
  rw [dispatch_true graph facts states node hnode, hfolded.all_true]
  show (outstanding _ _ _ _).insertionSort (fun a b => reasonLe a b) = [] ↔ _
  rw [insertionSort_eq_nil, outstanding, List.append_eq_nil_iff, List.append_eq_nil_iff, List.map_eq_nil_iff, List.map_eq_nil_iff,
    List.filter_eq_nil_iff, isLogicalReady]
  cases hbearing : node.executionBearing with
  | false => simp
  | true =>
    rw [blocked_find graph facts states node hnode hbearing]
    simp

end Node

/-! ### The lists of a projection -/

section Lists
variable (graph : ValidatedGraph) (hardEdgeFacts value : Value) (facts : OrdMap JsString NodeReadinessFacts)
  (states : OrdMap JsString HardEdgeSatisfaction) (hfacts : NodeFacts graph value facts)

def projected : ReadinessProjection := project graph (builtCursor graph hardEdgeFacts facts) (readPartition graph facts states)

theorem mem_projected_nodes (n : NodeReadinessProjection) :
    n ∈ (projected graph hardEdgeFacts facts states).nodes ↔ ∃ node ∈ graph.nodes, ∃ supplied,
      facts.get node.nodeKey = some supplied ∧ projectNode (readPartition graph facts states) node supplied = n := by
  show n ∈ (projectNodes graph (readPartition graph facts states) facts).insertionSort _ ↔ _
  simp only [(List.perm_insertionSort _ _).mem_iff, projectNodes, List.mem_filterMap, Option.map_eq_some_iff]

include hfacts

theorem projected_keys (want : NodeReadinessProjection → Bool) (p : GraphNode → Bool)
    (h : ∀ node ∈ graph.nodes, ∀ supplied, facts.get node.nodeKey = some supplied →
      want (projectNode (readPartition graph facts states) node supplied) = p node) :
    sortedCopy (((projectNodes graph (readPartition graph facts states) facts).filter want).map NodeReadinessProjection.nodeKey) =
      keysWhere graph p := by
  refine congrArg sortedCopy (filter_filterMap_keys graph.nodes _ _ _ fun node hnode => ?_)
  obtain ⟨supplied, hget⟩ := hfacts.get graph value facts node hnode
  exact ⟨_, by rw [hget]; rfl, rfl, h node hnode supplied hget⟩

theorem projected_admissionReady : (projected graph hardEdgeFacts facts states).admissionReady =
    keysWhere graph fun node => isLogicalReady graph states node && admits facts node := by
  refine projected_keys graph value facts states hfacts _ _ fun node hnode supplied hget => ?_
  rw [Bool.eq_iff_iff, decide_eq_true_eq, admission_true graph facts states node hnode, admits, hget, Bool.and_eq_true]
  simp

theorem projected_dispatchable : (projected graph hardEdgeFacts facts states).dispatchable =
    keysWhere graph fun node => isLogicalReady graph states node && admits facts node && dispatches facts node := by
  refine projected_keys graph value facts states hfacts _ _ fun node hnode supplied hget => ?_
  rw [Bool.eq_iff_iff, decide_eq_true_eq, dispatch_true graph facts states node hnode, admits, dispatches, hget,
    Bool.and_eq_true, Bool.and_eq_true]
  simp [and_assoc]

theorem mem_dispatchable (n : NodeReadinessProjection) (hn : n ∈ (projected graph hardEdgeFacts facts states).nodes) :
    n.nodeKey ∈ (projected graph hardEdgeFacts facts states).dispatchable ↔ n.dispatch = .CONFIRMED_TRUE := by
  obtain ⟨node, hnode, supplied, hget, rfl⟩ := (mem_projected_nodes graph hardEdgeFacts facts states n).mp hn
  rw [projected_dispatchable graph hardEdgeFacts value facts states hfacts, dispatch_true graph facts states node hnode]
  refine (mem_keysWhere_node graph _ node hnode).trans ?_
  simp [admits, dispatches, hget, and_assoc]

theorem projected_reasons (n : NodeReadinessProjection) (hn : n ∈ (projected graph hardEdgeFacts facts states).nodes) :
    n.reasons = [] ↔ n.nodeKey ∈ (projected graph hardEdgeFacts facts states).dispatchable := by
  rw [mem_dispatchable graph hardEdgeFacts value facts states hfacts n hn]
  obtain ⟨node, hnode, supplied, hget, rfl⟩ := (mem_projected_nodes graph hardEdgeFacts facts states n).mp hn
  exact reasons_nil graph facts states node hnode supplied (hfacts.folded graph value facts node.nodeKey supplied hget)

theorem classifyNode_ready (n : NodeReadinessProjection) (hn : n ∈ (projected graph hardEdgeFacts facts states).nodes) :
    classifyNode n = .READY_NOW ↔ n.dispatch = .CONFIRMED_TRUE ∧ n.waitCurrent = false := by
  have hnil : n.dispatch = .CONFIRMED_TRUE → n.reasons = [] := fun h =>
    (projected_reasons graph hardEdgeFacts value facts states hfacts n hn).mpr
      ((mem_dispatchable graph hardEdgeFacts value facts states hfacts n hn).mpr h)
  have hbearing : n.dispatch = .CONFIRMED_TRUE → n.executionBearing = true := by
    obtain ⟨node, hnode, supplied, -, rfl⟩ := (mem_projected_nodes graph hardEdgeFacts facts states n).mp hn
    intro h
    have hready := ((dispatch_true graph facts states node hnode supplied).mp h).1
    rw [isLogicalReady, Bool.and_eq_true] at hready
    exact hready.1
  unfold classifyNode
  constructor
  · intro h
    split at h
    · cases h
    · split at h
      · cases h
      · split at h
        · cases h
        · rename_i hwait
          split at h
          · rename_i hdispatch
            exact ⟨hdispatch, by simpa using hwait⟩
          · split at h
            · split at h <;> cases h
            · cases h
  · rintro ⟨hdispatch, hwait⟩
    simp [hbearing hdispatch, hnil hdispatch, hwait, hdispatch]

/-- Without a withheld answer, the availability that the frontier reads is the confirmed one. -/
theorem partition_lists (h : withholdReason graph facts = none) :
    (readPartition graph facts states).admissionReady = (projected graph hardEdgeFacts facts states).admissionReady
      ∧ (readPartition graph facts states).dispatchable = (projected graph hardEdgeFacts facts states).dispatchable := by
  have havailable (node : GraphNode) (hnode : node ∈ graph.nodes) (hready : isLogicalReady graph states node = true) :
      (availabilities graph facts (withholdReason graph facts)).get node.nodeKey
        = some ⟨admits facts node, dispatches facts node⟩ := by
    rw [isLogicalReady, Bool.and_eq_true] at hready
    rw [get_availabilities graph facts _ node hnode, h, nodeAvailability, hready.1]
    rfl
  rw [projected_admissionReady graph hardEdgeFacts value facts states hfacts,
    projected_dispatchable graph hardEdgeFacts value facts states hfacts]
  constructor
  · refine keysWhere_congr graph _ _ fun node hnode => ?_
    unfold isAdmissionReady
    cases hready : isLogicalReady graph states node with
    | false => rfl
    | true => simp [havailable node hnode hready]
  · refine keysWhere_congr graph _ _ fun node hnode => ?_
    unfold isDispatchable isAdmissionReady
    cases hready : isLogicalReady graph states node with
    | false => rfl
    | true => simp [havailable node hnode hready]

end Lists

end MoeNG.Readiness
