import MoeNG.Readiness.Layers

/-!
# Weaker facts

An input is changed in one place: the confidence of one caller fact, or the
state of one HARD edge. It is read again as before, with one value weaker.
-/

namespace MoeNG.Readiness
open MoeNG.Kernel MoeNG.Lib MoeNG.Graph

/-! ### Changing one place of a value -/

def editProperty (key : String) (f : Value → Value) : Value → Value
  | .record properties => .record (properties.map fun p => if p.1 = lit key then (p.1, f p.2) else p)
  | value => value

def editItem (index : ℕ) (f : Value → Value) : Value → Value
  | .array items => .array (items.modify index f)
  | value => value

def editField (key : String) (f : Value → Value) (fields : Fields) : Fields :=
  fields.map fun p => if lit p.1 = lit key then (p.1, f p.2) else p

section Edit
variable (key : String) (f : Value → Value)

theorem readRecord_edit (value : Value) (allowed required : List String) :
    readRecord (editProperty key f value) allowed required = (readRecord value allowed required).map (editField key f) := by
  cases value with
  | record properties =>
    have hname (p : JsString × Value) : (if p.1 = lit key then (p.1, f p.2) else p).1 = p.1 := by split <;> rfl
    have hfind (k : String) : (properties.map fun p => if p.1 = lit key then (p.1, f p.2) else p).find? (fun p => p.1 = lit k)
        = (properties.find? fun p => p.1 = lit k).map fun p => if p.1 = lit key then (p.1, f p.2) else p := by
      rw [List.find?_map]
      congr 2
      funext p
      simp only [Function.comp_apply, hname]
    have hfields : (allowed.filterMap fun k => ((properties.map fun p => if p.1 = lit key then (p.1, f p.2) else p).find?
          fun p => p.1 = lit k).map fun p => (k, p.2))
        = editField key f (allowed.filterMap fun k => (properties.find? fun p => p.1 = lit k).map fun p => (k, p.2)) := by
      rw [editField, List.map_filterMap]
      refine List.filterMap_congr fun k _ => ?_
      rw [hfind]
      cases hp : properties.find? fun p => p.1 = lit k with
      | none => rfl
      | some p =>
        have hk : p.1 = lit k := by simpa using List.find?_some hp
        simp only [Option.map_some, hk]
        split <;> rfl
    simp only [readRecord, editProperty, List.all_map, List.any_map, Function.comp_def, hname, hfields]
    split <;> rfl
  | _ => rfl

theorem field_edit_other (fields : Fields) (k : String) (h : lit k ≠ lit key) :
    (editField key f fields).field k = fields.field k := by
  have hfind : (editField key f fields).find? (fun p => p.1 = k) = fields.find? fun p => p.1 = k := by
    induction fields with
    | nil => rfl
    | cons p rest ih =>
      rw [editField, List.map_cons, List.find?_cons, List.find?_cons]
      by_cases hp : p.1 = k
      · simp [hp, h]
      · have hp' : (if lit p.1 = lit key then (p.1, f p.2) else p).1 ≠ k := by split <;> exact hp
        rw [decide_eq_false hp, decide_eq_false hp']
        exact ih
  rw [Fields.field, Fields.field, hfind]

theorem field_edit (fields : Fields) :
    (editField key f fields).field key = ((fields.find? fun p => p.1 = key).map fun p => f p.2).getD .undefined := by
  induction fields with
  | nil => rfl
  | cons p rest ih =>
    obtain ⟨name, value⟩ := p
    by_cases hp : name = key
    · subst hp
      simp [editField, Fields.field]
    · have hhead (x : String × Value) (hx : x.1 = name) (l : Fields) : Fields.field (x :: l) key = Fields.field l key := by
        rw [Fields.field, Fields.field, List.find?_cons, decide_eq_false (hx ▸ hp)]
      have hcons : editField key f ((name, value) :: rest)
          = (if lit name = lit key then (name, f value) else (name, value)) :: editField key f rest := rfl
      rw [hcons, hhead _ (by split <;> rfl), ih, List.find?_cons, decide_eq_false hp]

theorem field_edit_self (fields : Fields) (h : f .undefined = .undefined) :
    (editField key f fields).field key = f (fields.field key) := by
  rw [field_edit, Fields.field]
  cases fields.find? fun p => p.1 = key with
  | none => exact h.symm
  | some p => rfl

end Edit

theorem dense_edit (index : ℕ) (f : Value → Value) (value : Value) (minimum : ℕ) :
    dense (editItem index f value) minimum = (dense value minimum).map fun items => items.modify index f := by
  cases value with
  | array items =>
    simp only [dense, editItem, List.length_modify]
    split <;> rfl
  | _ => rfl

/-! ### Weakenings -/

inductive Weakening where
  | fact (bundle entry : ℕ) (confidence : FactConfidence)
  | edge (entry : ℕ) (state : HardEdgeSatisfaction)
  deriving DecidableEq

def Weakening.weak : Weakening → Bool
  | .fact _ _ confidence => confidence ≠ .CONFIRMED_TRUE
  | .edge _ state => state ≠ .SATISFIED

def weakenedFact (entry : ℕ) (confidence : FactConfidence) : Value → Value :=
  editProperty "facts" (editItem entry (editProperty "confidence" fun _ => .string (lit confidence.text)))

def weakenedEdge (state : HardEdgeSatisfaction) : Value → Value :=
  editProperty "state" fun _ => .string (lit state.text)

def weakened (input : Value) : Weakening → Value
  | .fact bundle entry confidence => editProperty "nodeFacts" (editItem bundle (weakenedFact entry confidence)) input
  | .edge entry state => editProperty "hardEdgeFacts" (editItem entry (weakenedEdge state)) input

/-! ### One caller fact -/

structure RawWeaker (raw raw' : RawReadinessFact) : Prop where
  provenance : raw'.provenance = raw.provenance
  horizonGate : raw'.horizonGate = raw.horizonGate
  confidence : claimed raw'.confidence = .CONFIRMED_TRUE → claimed raw.confidence = .CONFIRMED_TRUE

theorem parseRawFact_weakened (value : Value) (raw : RawReadinessFact) (confidence : FactConfidence)
    (hweak : confidence ≠ .CONFIRMED_TRUE) (h : parseRawFact value = some raw) :
    ∃ raw', parseRawFact (editProperty "confidence" (fun _ => .string (lit confidence.text)) value) = some raw'
      ∧ raw'.code = raw.code ∧ RawWeaker raw raw' := by
  simp only [parseRawFact, Option.bind_eq_bind, Option.bind_eq_some_iff, Option.some.injEq] at h
  obtain ⟨item, hitem, code, hcode, rfl⟩ := h
  have hother (k : String) (hk : lit k ≠ lit "confidence") := field_edit_other "confidence"
    (fun _ => .string (lit confidence.text)) item k hk
  have hclaimed : claimed ((editField "confidence" (fun _ => .string (lit confidence.text)) item).field "confidence")
      ≠ .CONFIRMED_TRUE := by
    rw [field_edit]
    cases item.find? fun p => p.1 = "confidence" with
    | none => exact nofun
    | some p =>
      show claimed (.string (lit confidence.text)) ≠ _
      cases confidence with
      | CONFIRMED_TRUE => exact absurd rfl hweak
      | CONFIRMED_FALSE => decide
      | UNKNOWN => decide
  refine ⟨⟨code, (editField "confidence" (fun _ => .string (lit confidence.text)) item).field "confidence",
    parseProvenance (item.field "provenance"), item.field "horizonGate", refOf (item.field "recoveryRef")⟩, ?_, rfl,
    rfl, rfl, fun hc => absurd hc hclaimed⟩
  rw [parseRawFact, readRecord_edit, hitem, Option.map_some]
  simp only [Option.bind_eq_bind, Option.bind_some, hother "code" (by decide), hother "provenance" (by decide),
    hother "horizonGate" (by decide), hother "recoveryRef" (by decide), hcode]

theorem classify_weaker (raw raw' : RawReadinessFact) (h : RawWeaker raw raw') (gate : DependencyGate)
    (versions : List (JsString × ℤ)) (htrue : classify raw' gate versions = .CONFIRMED_TRUE) :
    classify raw gate versions = .CONFIRMED_TRUE := by
  unfold classify at htrue ⊢
  rw [h.provenance, h.horizonGate] at htrue
  split at htrue
  · split at htrue
    · cases htrue
    · split at htrue
      · cases htrue
      · rename_i hhorizon hmoved
        rw [if_neg hhorizon, if_neg hmoved]
        exact h.confidence htrue
  · cases htrue

theorem fold_classifyAll (raw : List RawReadinessFact) (gate : DependencyGate) (versions : List (JsString × ℤ))
    (codes : List CallerFactCode) :
    fold (classifyAll raw gate versions) codes = .CONFIRMED_TRUE ↔
      ∀ code ∈ sortedCallerFactCodes, code ∈ codes → (predicateFact raw gate versions code).confidence = .CONFIRMED_TRUE := by
  rw [fold_true, classifyAll]
  exact List.forall_mem_map

theorem fold_weaker (raw raw' : List RawReadinessFact)
    (h : List.Forall₂ (fun a b => b.code = a.code ∧ RawWeaker a b) raw raw') (gate : DependencyGate)
    (versions : List (JsString × ℤ)) (codes : List CallerFactCode)
    (htrue : fold (classifyAll raw' gate versions) codes = .CONFIRMED_TRUE) :
    fold (classifyAll raw gate versions) codes = .CONFIRMED_TRUE := by
  rw [fold_classifyAll] at htrue ⊢
  intro code hcode hwanted
  have hconfidence := htrue code hcode hwanted
  have hmap (o o' : Option RawReadinessFact) (ho : Option.Rel RawWeaker o o')
      (ht : (o'.map fun fact => classify fact gate versions).getD .UNKNOWN = .CONFIRMED_TRUE) :
      (o.map fun fact => classify fact gate versions).getD .UNKNOWN = .CONFIRMED_TRUE := by
    cases ho with
    | none => cases ht
    | some hr => exact classify_weaker _ _ hr gate versions ht
  exact hmap _ _ (find_related RawReadinessFact.code RawReadinessFact.code RawWeaker raw raw' h code) hconfidence

theorem parseRawFacts_weakened (value : Value) (raw : List RawReadinessFact) (entry : ℕ) (confidence : FactConfidence)
    (hweak : confidence ≠ .CONFIRMED_TRUE) (h : parseRawFacts value = some raw) :
    ∃ raw', parseRawFacts (editItem entry (editProperty "confidence" fun _ => .string (lit confidence.text)) value) = some raw'
      ∧ List.Forall₂ (fun a b => b.code = a.code ∧ RawWeaker a b) raw raw' := by
  simp only [parseRawFacts, Option.bind_eq_bind, Option.bind_eq_some_iff] at h
  obtain ⟨entries, hentries, facts, hfacts, h⟩ := h
  split at h
  · cases h
  · rename_i hdup
    obtain rfl := Option.some.inj h
    obtain ⟨raw', hraw', hrel⟩ := mapM_modify parseRawFact _ (fun a b => b.code = a.code ∧ RawWeaker a b)
      (fun a => ⟨rfl, rfl, rfl, id⟩) (fun e a ha => parseRawFact_weakened e a confidence hweak ha) entries entry facts hfacts
    have hcodes : raw'.map RawReadinessFact.code = facts.map RawReadinessFact.code := by
      clear hfacts hraw' hdup h
      induction hrel with
      | nil => rfl
      | cons hab _ ih => rw [List.map_cons, List.map_cons, hab.1, ih]
    refine ⟨raw', ?_, hrel⟩
    rw [parseRawFacts, dense_edit, hentries, Option.map_some]
    simp only [Option.bind_eq_bind, Option.bind_some, hraw', hcodes, hdup]
    rfl

/-! ### One bundle, one edge -/

structure BundleWeaker (supplied supplied' : NodeReadinessFacts) : Prop where
  admission : supplied'.admission = .CONFIRMED_TRUE → supplied.admission = .CONFIRMED_TRUE
  dispatch : supplied'.dispatch = .CONFIRMED_TRUE → supplied.dispatch = .CONFIRMED_TRUE

theorem bundle_weakened (value : Value) (nodeKey : JsString) (supplied : NodeReadinessFacts) (entry : ℕ)
    (confidence : FactConfidence) (hweak : confidence ≠ .CONFIRMED_TRUE) (h : bundle value = some (nodeKey, supplied)) :
    ∃ supplied', bundle (weakenedFact entry confidence value) = some (nodeKey, supplied')
      ∧ BundleWeaker supplied supplied' := by
  obtain ⟨parsed, hparsed, hpair⟩ := Option.map_eq_some_iff.mp h
  cases hpair
  simp only [parseNodeReadinessFacts, Option.bind_eq_bind, Option.bind_eq_some_iff, Option.some.injEq] at hparsed
  obtain ⟨item, hitem, nodeKey, hkey, gate, hgate, versions, hversions, raw, hraw, rfl⟩ := hparsed
  obtain ⟨raw', hraw', hrel⟩ := parseRawFacts_weakened _ raw entry confidence hweak hraw
  have hother (k : String) (hk : lit k ≠ lit "facts") := field_edit_other "facts"
    (editItem entry (editProperty "confidence" fun _ => .string (lit confidence.text))) item k hk
  have hself := field_edit_self "facts"
    (editItem entry (editProperty "confidence" fun _ => .string (lit confidence.text))) item rfl
  refine ⟨⟨nodeKey, gate, classifyAll raw' gate versions, fold (classifyAll raw' gate versions) admissionReasonCodes,
    fold (classifyAll raw' gate versions) dispatchReasonCodes, currentWait gate (item.field "wait"),
    (currentWait gate (item.field "wait")).isSome⟩, ?_, fold_weaker raw raw' hrel gate versions _,
    fold_weaker raw raw' hrel gate versions _⟩
  rw [bundle, weakenedFact, parseNodeReadinessFacts, readRecord_edit, hitem, Option.map_some]
  simp only [Option.bind_eq_bind, Option.bind_some, hother "nodeKey" (by decide), hother "currentGate" (by decide),
    hother "currentFactVersions" (by decide), hother "wait" (by decide), hself, hkey, hgate, hversions, hraw',
    Option.map_some]

def EdgeWeaker (state state' : HardEdgeSatisfaction) : Prop := state' = .SATISFIED → state = .SATISFIED

theorem hardEdgeFact_weakened (value : Value) (edgeKey : JsString) (old state : HardEdgeSatisfaction)
    (hweak : state ≠ .SATISFIED) (h : hardEdgeFact value = some (edgeKey, old)) :
    ∃ state', hardEdgeFact (weakenedEdge state value) = some (edgeKey, state') ∧ EdgeWeaker old state' := by
  simp only [hardEdgeFact, Option.bind_eq_bind, Option.bind_eq_some_iff, Option.some.injEq, Prod.mk.injEq] at h
  obtain ⟨item, hitem, _, hkey, _, hstate, rfl, rfl⟩ := h
  have hother := field_edit_other "state" (fun _ => .string (lit state.text)) item "edgeKey" (by decide)
  have hself : (editField "state" (fun _ => .string (lit state.text)) item).field "state" = .string (lit state.text) := by
    rw [field_edit]
    cases hfind : item.find? fun p => p.1 = "state" with
    | none =>
      rw [Fields.field, hfind] at hstate
      cases hstate
    | some p => rfl
  have hread : oneOf HardEdgeSatisfaction.text [.SATISFIED, .UNSATISFIED, .UNKNOWN] (.string (lit state.text)) = some state := by
    cases state <;> decide
  refine ⟨state, ?_, fun h => absurd h hweak⟩
  rw [hardEdgeFact, weakenedEdge, readRecord_edit, hitem, Option.map_some]
  simp only [Option.bind_eq_bind, Option.bind_some, hother, hself, hkey, hread]

/-! ### The whole input -/

section Input
variable (graph : ValidatedGraph)

theorem NodeFacts.weakened (value : Value) (facts : OrdMap JsString NodeReadinessFacts) (h : NodeFacts graph value facts)
    (index entry : ℕ) (confidence : FactConfidence) (hweak : confidence ≠ .CONFIRMED_TRUE) :
    ∃ facts', NodeFacts graph (editItem index (weakenedFact entry confidence) value) facts'
      ∧ ∀ nodeKey, Option.Rel BundleWeaker (facts.get nodeKey) (facts'.get nodeKey) := by
  obtain ⟨entries, hentries, hclean⟩ := h.read
  obtain ⟨pairs, hpairs, hrel⟩ := hclean.modify bundle _ (weakenedFact entry confidence) BundleWeaker (fun _ => ⟨id, id⟩)
    (fun e k v he => bundle_weakened e k v entry confidence hweak he) entries facts.entries index
  have hget := get_related BundleWeaker facts ⟨pairs, hpairs.nodup⟩ hrel
  refine ⟨⟨pairs, hpairs.nodup⟩, ⟨⟨entries.modify index (weakenedFact entry confidence), ?_, hpairs⟩, fun nodeKey hkey => ?_⟩,
    hget⟩
  · rw [dense_edit, hentries, Option.map_some]
  · exact (has_related BundleWeaker facts _ nodeKey (hget nodeKey)).trans (h.complete nodeKey hkey)

theorem EdgeStates.weakened (value : Value) (states : OrdMap JsString HardEdgeSatisfaction) (h : EdgeStates graph value states)
    (index : ℕ) (state : HardEdgeSatisfaction) (hweak : state ≠ .SATISFIED) :
    ∃ states', EdgeStates graph (editItem index (weakenedEdge state) value) states'
      ∧ ∀ edgeKey, Option.Rel EdgeWeaker (states.get edgeKey) (states'.get edgeKey) := by
  obtain ⟨entries, rfl, hlength, hclean⟩ := h.read
  obtain ⟨pairs, hpairs, hrel⟩ := hclean.modify hardEdgeFact _ (weakenedEdge state) EdgeWeaker (fun _ => id)
    (fun e k v he => hardEdgeFact_weakened e k v state hweak he) entries states.entries index
  have hget := get_related EdgeWeaker states ⟨pairs, hpairs.nodup⟩ hrel
  refine ⟨⟨pairs, hpairs.nodup⟩, ⟨⟨entries.modify index (weakenedEdge state), rfl, ?_, hpairs⟩, fun edgeKey hkey => ?_⟩, hget⟩
  · rw [List.length_modify]
    exact hlength
  · exact (has_related EdgeWeaker states _ edgeKey (hget edgeKey)).trans (h.complete edgeKey hkey)

theorem Reads.weakened (input hardEdgeFacts : Value) (facts : OrdMap JsString NodeReadinessFacts)
    (states : OrdMap JsString HardEdgeSatisfaction) (h : Reads graph input hardEdgeFacts facts states) (w : Weakening)
    (hweak : w.weak = true) :
    ∃ hardEdgeFacts' facts' states', Reads graph (Readiness.weakened input w) hardEdgeFacts' facts' states'
      ∧ (∀ nodeKey, Option.Rel BundleWeaker (facts.get nodeKey) (facts'.get nodeKey))
      ∧ ∀ edgeKey, Option.Rel EdgeWeaker (states.get edgeKey) (states'.get edgeKey) := by
  obtain ⟨item, hitem, rfl, hfacts⟩ := h.record
  cases w with
  | fact index entry confidence =>
    obtain ⟨facts', hfacts', hrel⟩ := hfacts.weakened graph _ facts index entry confidence (of_decide_eq_true hweak)
    refine ⟨item.field "hardEdgeFacts", facts', states, ⟨⟨_, by rw [Readiness.weakened, readRecord_edit, hitem]; rfl, ?_, ?_⟩,
      h.states⟩, hrel, fun edgeKey => ?_⟩
    · exact field_edit_other _ _ item _ (by decide)
    · rw [field_edit_self _ _ item rfl]
      exact hfacts'
    · cases states.get edgeKey with
      | none => exact .none
      | some state => exact .some id
  | edge index state =>
    obtain ⟨states', hstates', hrel⟩ := h.states.weakened graph _ states index state (of_decide_eq_true hweak)
    refine ⟨_, facts, states', ⟨⟨_, by rw [Readiness.weakened, readRecord_edit, hitem]; rfl, ?_, ?_⟩, hstates'⟩,
      fun nodeKey => ?_, hrel⟩
    · exact field_edit_self _ _ item rfl
    · rw [field_edit_other _ _ item _ (by decide)]
      exact hfacts
    · cases facts.get nodeKey with
      | none => exact .none
      | some supplied => exact .some ⟨id, id⟩

theorem blockedReasons_nil (states : OrdMap JsString HardEdgeSatisfaction) (nodeKey : JsString) :
    blockedReasons graph states nodeKey = [] ↔
      ∀ edge ∈ incomingHard graph nodeKey, states.get edge.edgeKey = none ∨ states.get edge.edgeKey = some .SATISFIED := by
  rw [blockedReasons, insertionSort_eq_nil, List.filterMap_eq_nil_iff]
  refine forall₂_congr fun edge _ => ?_
  unfold blockedReason
  cases states.get edge.edgeKey with
  | none => simp
  | some state => cases state <;> simp

theorem isLogicalReady_weaker (states states' : OrdMap JsString HardEdgeSatisfaction)
    (h : ∀ edgeKey, Option.Rel EdgeWeaker (states.get edgeKey) (states'.get edgeKey)) (node : GraphNode)
    (hready : isLogicalReady graph states' node = true) : isLogicalReady graph states node = true := by
  rw [isLogicalReady, Bool.and_eq_true, decide_eq_true_eq, blockedReasons_nil] at hready ⊢
  refine ⟨hready.1, fun edge hedge => ?_⟩
  have hmap (o o' : Option HardEdgeSatisfaction) (ho : Option.Rel EdgeWeaker o o') (ht : o' = none ∨ o' = some .SATISFIED) :
      o = none ∨ o = some .SATISFIED := by
    cases ho with
    | none => exact .inl rfl
    | some hr => simpa using hr (by simpa using ht)
  exact hmap _ _ (h edge.edgeKey) (hready.2 edge hedge)

theorem admits_weaker (facts facts' : OrdMap JsString NodeReadinessFacts)
    (h : ∀ nodeKey, Option.Rel BundleWeaker (facts.get nodeKey) (facts'.get nodeKey)) (node : GraphNode) :
    (admits facts' node = true → admits facts node = true)
      ∧ (dispatches facts' node = true → dispatches facts node = true) := by
  unfold admits dispatches
  have hmap (o o' : Option NodeReadinessFacts) (ho : Option.Rel BundleWeaker o o') :
      ((o'.any fun supplied => supplied.admission = .CONFIRMED_TRUE) = true →
        (o.any fun supplied => supplied.admission = .CONFIRMED_TRUE) = true)
      ∧ ((o'.any fun supplied => supplied.dispatch = .CONFIRMED_TRUE) = true →
        (o.any fun supplied => supplied.dispatch = .CONFIRMED_TRUE) = true) := by
    cases ho with
    | none => exact ⟨id, id⟩
    | some hr => simpa using ⟨hr.admission, hr.dispatch⟩
  exact hmap _ _ (h node.nodeKey)

end Input

/-- A projection that is not withheld agrees with the frontier, explains its dispatchable nodes as ready, and loses
nodes only when a fact gets weaker. -/
theorem readiness_agrees (graph : ValidatedGraph) (input : Value) (p : ReadinessProjection)
    (h : projectReadiness graph input = .ok p) (hwithheld : p.withheld = none) :
    (∃ built part, buildReadinessCursor graph input = .ok built ∧ partitionFrontier graph built.cursor = .ok part
        ∧ p.partition = some part ∧ p.admissionReady = part.admissionReady ∧ p.dispatchable = part.dispatchable)
      ∧ p.dispatchable ⊆ p.admissionReady ∧ p.admissionReady ⊆ p.logicalReady
      ∧ (∀ node ∈ p.nodes, node.reasons = [] ↔ node.nodeKey ∈ p.dispatchable)
      ∧ (∃ report, explainReadiness graph p = .ok report ∧ ∀ key,
        (∃ entry ∈ report.entries, entry.nodeKey = key ∧ entry.readinessClass = .READY_NOW) ↔
          key ∈ p.dispatchable ∧ ∃ node ∈ p.nodes, node.nodeKey = key ∧ node.waitCurrent = false)
      ∧ ∀ w : Weakening, w.weak = true → ∃ p', projectReadiness graph (weakened input w) = .ok p'
        ∧ p'.logicalReady ⊆ p.logicalReady ∧ p'.admissionReady ⊆ p.admissionReady ∧ p'.dispatchable ⊆ p.dispatchable := by
  obtain ⟨hardEdgeFacts, facts, states, hreads⟩ := reads_of_projectReadiness graph input p h
  obtain ⟨hbuilt, hpart, hproject⟩ := projectReadiness_of_reads graph input hardEdgeFacts facts states hreads
  obtain rfl : projected graph hardEdgeFacts facts states = p := Except.ok.inj (hproject.symm.trans h)
  obtain ⟨item, -, -, hfacts⟩ := hreads.record
  have hnone : withholdReason graph facts = none := hwithheld
  have hlists := partition_lists graph hardEdgeFacts _ facts states hfacts hnone
  have hadmission := projected_admissionReady graph hardEdgeFacts _ facts states hfacts
  have hdispatch := projected_dispatchable graph hardEdgeFacts _ facts states hfacts
  refine ⟨⟨_, _, hbuilt, hpart, if_pos hnone, hlists.1.symm, hlists.2.symm⟩, ?_, ?_,
    projected_reasons graph hardEdgeFacts _ facts states hfacts, ⟨_, if_neg (not_not.mpr rfl), fun key => ?_⟩, fun w hw => ?_⟩
  · rw [hadmission, hdispatch]
    refine keysWhere_subset graph _ _ fun node _ hready => ?_
    rw [Bool.and_eq_true] at hready
    exact hready.1
  · rw [hadmission]
    refine keysWhere_subset graph _ _ fun node _ hready => ?_
    rw [Bool.and_eq_true] at hready
    exact hready.1
  · simp only [(List.perm_insertionSort _ _).mem_iff, List.mem_map]
    constructor
    · rintro ⟨_, ⟨node, hnode, rfl⟩, rfl, hclass⟩
      obtain ⟨htrue, hwait⟩ := (classifyNode_ready graph hardEdgeFacts _ facts states hfacts node hnode).mp hclass
      exact ⟨(mem_dispatchable graph hardEdgeFacts _ facts states hfacts node hnode).mpr htrue, node, hnode, rfl, hwait⟩
    · rintro ⟨hkey, node, hnode, rfl, hwait⟩
      have htrue := (mem_dispatchable graph hardEdgeFacts _ facts states hfacts node hnode).mp hkey
      exact ⟨_, ⟨node, hnode, rfl⟩, rfl,
        (classifyNode_ready graph hardEdgeFacts _ facts states hfacts node hnode).mpr ⟨htrue, hwait⟩⟩
  · obtain ⟨hardEdgeFacts', facts', states', hreads', hbundles, hedges⟩ :=
      hreads.weakened graph input hardEdgeFacts facts states w hw
    obtain ⟨item', -, -, hfacts'⟩ := hreads'.record
    have hlogical (node : GraphNode) := isLogicalReady_weaker graph states states' hedges node
    have hnode (node : GraphNode) := admits_weaker facts facts' hbundles node
    refine ⟨_, (projectReadiness_of_reads graph _ hardEdgeFacts' facts' states' hreads').2.2, ?_, ?_, ?_⟩
    · exact keysWhere_subset graph _ _ fun node _ hready => hlogical node hready
    · rw [hadmission]
      show (projected graph hardEdgeFacts' facts' states').admissionReady ⊆ _
      rw [projected_admissionReady graph hardEdgeFacts' _ facts' states' hfacts']
      refine keysWhere_subset graph _ _ fun node _ hready => ?_
      rw [Bool.and_eq_true] at hready ⊢
      exact ⟨hlogical node hready.1, (hnode node).1 hready.2⟩
    · rw [hdispatch]
      show (projected graph hardEdgeFacts' facts' states').dispatchable ⊆ _
      rw [projected_dispatchable graph hardEdgeFacts' _ facts' states' hfacts']
      refine keysWhere_subset graph _ _ fun node _ hready => ?_
      rw [Bool.and_eq_true, Bool.and_eq_true] at hready ⊢
      exact ⟨⟨hlogical node hready.1.1, (hnode node).1 hready.1.2⟩, (hnode node).2 hready.2⟩

def lineGraph : ValidatedGraph where
  nodes := [⟨lit "build", true⟩, ⟨lit "done", true⟩]
  edges := [⟨lit "build-done", lit "build", lit "done", .HARD⟩]
  completionNodeKey := lit "done"
  nodesSorted := by decide
  edgesSorted := by decide
  nodeKeys := by decide
  endpoints := by decide
  nodeLimit := by decide

def text (s : String) : Value := .string (lit s)

def confirmedFact (code : CallerFactCode) : Value :=
  recordOf [("code", text code.text), ("confidence", text "CONFIRMED_TRUE"),
    ("provenance", recordOf [("sourceFactRef", text "fact"), ("sourceFactVersion", .number (.integer 1)),
      ("sourceFactDigest", .string (List.replicate 64 97))]),
    ("horizonGate", text "GOAL_COMPLETION"), ("recoveryRef", .null)]

def confirmedBundle (nodeKey : String) : Value :=
  recordOf [("nodeKey", text nodeKey), ("currentGate", text "EXECUTOR_CLAIM"),
    ("facts", .array (callerFactCodes.map confirmedFact))]

def lineInput : Value :=
  recordOf [("hardEdgeFacts", .array [recordOf [("edgeKey", text "build-done"), ("state", text "UNSATISFIED")]]),
    ("nodeFacts", .array [confirmedBundle "build", confirmedBundle "done"])]

theorem readiness_agrees_line : ∃ p, projectReadiness lineGraph lineInput = .ok p ∧ p.withheld = none
    ∧ p.dispatchable = [lit "build"] ∧ p.dispatchable ⊆ p.admissionReady ∧ p.admissionReady ⊆ p.logicalReady
    ∧ ∀ w : Weakening, w.weak = true → ∃ p', projectReadiness lineGraph (weakened lineInput w) = .ok p'
      ∧ p'.dispatchable ⊆ p.dispatchable := by
  have hok : (projectReadiness lineGraph lineInput).toOption.map (fun p => (p.withheld, p.dispatchable))
      = some (none, [lit "build"]) := by decide +kernel
  cases hp : projectReadiness lineGraph lineInput with
  | error issues =>
    rw [hp] at hok
    cases hok
  | ok p =>
    rw [hp] at hok
    obtain ⟨hwithheld, hdispatchable⟩ := Prod.mk.inj (Option.some.inj hok)
    obtain ⟨-, hsub, hsub', -, -, hweak⟩ := readiness_agrees lineGraph lineInput p hp hwithheld
    refine ⟨p, rfl, hwithheld, hdispatchable, hsub, hsub', fun w hw => ?_⟩
    obtain ⟨p', hp', -, -, hdispatch⟩ := hweak w hw
    exact ⟨p', hp', hdispatch⟩

end MoeNG.Readiness
