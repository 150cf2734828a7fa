import MoeNG.Graph.EdgeRemoval

/-!
# The witness of a redundancy candidate (`redundancy.ts:28-130`)

The search of `reconstructPath` remembers where it came from; following that
back from the target gives a HARD path from the start.
-/

namespace MoeNG.Graph
open MoeNG.Kernel MoeNG.Lib

/-- A walk along HARD edges: its nodes, and the keys of its edges. -/
inductive HardWalk (graph : GraphStructureView) : JsString → List JsString → List JsString → JsString → Prop
  | nil (u : JsString) : HardWalk graph u [u] [] u
  | cons {nodes edgeKeys : List JsString} {w : JsString} (edge : GraphEdge) : edge ∈ graph.edges → edge.kind = .HARD →
    HardWalk graph edge.consumerNodeKey nodes edgeKeys w →
    HardWalk graph edge.producerNodeKey (edge.producerNodeKey :: nodes) (edge.edgeKey :: edgeKeys) w

variable {graph : GraphStructureView} {u w : JsString} {nodes edgeKeys : List JsString}

theorem HardWalk.snoc (h : HardWalk graph u nodes edgeKeys w) (edge : GraphEdge) (hedge : edge ∈ graph.edges)
    (hkind : edge.kind = .HARD) (hproducer : edge.producerNodeKey = w) :
    HardWalk graph u (nodes ++ [edge.consumerNodeKey]) (edgeKeys ++ [edge.edgeKey]) edge.consumerNodeKey := by
  induction h with
  | nil u =>
    subst hproducer
    exact HardWalk.cons edge hedge hkind (HardWalk.nil _)
  | cons first hfirst hhard _ ih => exact HardWalk.cons first hfirst hhard (ih hproducer)

/-- The start of a walk leads to the producer of each of its edges. -/
theorem HardWalk.reaches (h : HardWalk graph u nodes edgeKeys w) (edgeKey : JsString) (hkey : edgeKey ∈ edgeKeys) :
    ∃ edge ∈ graph.edges, edge.edgeKey = edgeKey ∧ graph.HardReach u edge.producerNodeKey := by
  induction h with
  | nil => cases hkey
  | cons edge hedge hkind _ ih =>
    rcases List.mem_cons.mp hkey with rfl | hkey
    · exact ⟨edge, hedge, rfl, Relation.ReflTransGen.refl⟩
    · obtain ⟨later, hlater, heq, hreach⟩ := ih hkey
      exact ⟨later, hlater, heq, Relation.ReflTransGen.head ⟨edge, hedge, hkind, rfl, rfl⟩ hreach⟩

/-! ### The search -/

def leadsTo (descendantMask : List ℕ) (target w : ℕ) : Bool := w = target || hasBit (descendantMask.getD w 0) target

/-- The heads that the search descends to. -/
def pruned (index : HardGraphIndex) (descendantMask : List ℕ) (target : ℕ) (v : ℕ) : List ℕ :=
  (index.heads v).filter (leadsTo descendantMask target)

/-- A trace knows its members, and each but the start came from an earlier one. -/
structure Traced (index : HardGraphIndex) (start : ℕ) (members : List ℕ) (trace : Trace) : Prop where
  length : trace.length = index.size
  known : ∀ x, (trace.getD x none).isSome = true ↔ x ∈ members
  origin : ∀ x, trace.getD x none = some none → x = start
  crumbs : ∀ x crumb, trace.getD x none = some (some crumb) → ⟨crumb.edgeKey, x⟩ ∈ index.outArcs crumb.node
    ∧ crumb.node ∈ members ∧ members.idxOf crumb.node < members.idxOf x

variable {index : HardGraphIndex} {descendantMask : List ℕ} {target start : ℕ} {members done queue : List ℕ} {trace : Trace}

theorem Traced.begin (h : start < index.size) :
    Traced index start [start] ((List.replicate index.size none).set start (some none)) := by
  have hget : ∀ x, ((List.replicate index.size none).set start (some none) : Trace).getD x none
      = if x = start then some none else none := by
    intro x
    rw [getD_set_eq _ _ _ _ _ (by rwa [List.length_replicate]), List.getD, List.getElem?_replicate]
    split
    · rfl
    · split <;> rfl
  refine ⟨by rw [List.length_set, List.length_replicate], fun x => ?_, fun x hx => ?_, fun x crumb hx => ?_⟩
  · rw [hget, List.mem_singleton]
    split <;> simp [*]
  · rw [hget] at hx
    split at hx
    · assumption
    · cases hx
  · rw [hget] at hx
    split at hx <;> cases hx

theorem Traced.new {node next : ℕ} {edgeKey : JsString} (h : Traced index start members trace) (hnew : next ∉ members)
    (hnext : next < index.size) (hnode : node ∈ members) (harc : ⟨edgeKey, next⟩ ∈ index.outArcs node) :
    Traced index start (members ++ [next]) (trace.set next (some (some ⟨node, edgeKey⟩))) := by
  have hget : ∀ x, (trace.set next (some (some ⟨node, edgeKey⟩))).getD x none
      = if x = next then some (some ⟨node, edgeKey⟩) else trace.getD x none := fun x =>
    getD_set_eq _ _ _ _ _ (by rw [h.length]; exact hnext)
  refine ⟨(List.length_set ..).trans h.length, fun x => ?_, fun x hx => ?_, fun x crumb hx => ?_⟩
  · rw [hget, List.mem_append, List.mem_singleton, ← h.known x]
    split <;> simp [*]
  · rw [hget] at hx
    split at hx
    · cases hx
    · exact h.origin x hx
  · rw [hget] at hx
    split at hx
    · rename_i heq
      obtain rfl := Option.some.inj (Option.some.inj hx)
      subst heq
      refine ⟨harc, List.mem_append_left _ hnode, ?_⟩
      rw [List.idxOf_append_of_mem hnode, List.idxOf_append_of_notMem hnew]
      exact Nat.lt_add_right _ (List.idxOf_lt_length_iff.mpr hnode)
    · obtain ⟨hedge, hmem, hlt⟩ := h.crumbs x crumb hx
      have hx' : x ∈ members := (h.known x).mp (by rw [hx]; rfl)
      exact ⟨hedge, List.mem_append_left _ hmem, by rwa [List.idxOf_append_of_mem hmem, List.idxOf_append_of_mem hx']⟩

structure Searching (index : HardGraphIndex) (descendantMask : List ℕ) (target start : ℕ) (done queue : List ℕ) (trace : Trace)
    (todo : List ℕ) : Prop where
  sweep : Sweep (pruned index descendantMask target) (List.range index.size) start done queue todo
  traced : Traced index start (done ++ queue) trace

theorem visitArcs_searching (node : ℕ) (arcs : List HardArc) (harcs : ∀ arc ∈ arcs, arc ∈ index.outArcs node)
    (hnode : node ∈ done)
    (queue : List ℕ) (trace : Trace)
    (h : Searching index descendantMask target start done queue trace
      ((arcs.map HardArc.nodeIndex).filter (leadsTo descendantMask target))) :
    Searching index descendantMask target start done (arcs.foldl (visitArc descendantMask target node) (queue, trace)).1
      (arcs.foldl (visitArc descendantMask target node) (queue, trace)).2 [] := by
  induction arcs generalizing queue trace with
  | nil => exact h
  | cons arc rest ih =>
    have hrest := fun a ha => harcs a (List.mem_cons_of_mem _ ha)
    rw [List.map_cons] at h
    rw [List.foldl_cons, visitArc]
    dsimp only
    have hprune : (arc.nodeIndex ≠ target && !hasBit (descendantMask.getD arc.nodeIndex 0) target) = true
        ↔ ¬ leadsTo descendantMask target arc.nodeIndex = true := by
      rw [leadsTo]
      by_cases htarget : arc.nodeIndex = target <;> simp [htarget]
    by_cases hknown : (trace.getD arc.nodeIndex none).isSome = true
    · rw [if_pos hknown]
      have hmem := (h.traced.known _).mp hknown
      refine ih hrest queue trace ⟨?_, h.traced⟩
      by_cases hkeep : leadsTo descendantMask target arc.nodeIndex = true
      · have hsweep := h.sweep
        rw [List.filter_cons_of_pos hkeep] at hsweep
        exact hsweep.old hmem
      · have hsweep := h.sweep
        rwa [List.filter_cons_of_neg hkeep] at hsweep
    · rw [if_neg hknown]
      have hnew := mt (h.traced.known arc.nodeIndex).mpr hknown
      have hsweep := h.sweep
      by_cases hkeep : leadsTo descendantMask target arc.nodeIndex = true
      · rw [if_neg fun hp => hprune.mp hp hkeep]
        rw [List.filter_cons_of_pos hkeep] at hsweep
        have hlt := List.mem_range.mp (hsweep.ahead arc.nodeIndex (List.mem_cons_self ..)).1
        refine ih hrest _ _ ⟨hsweep.new hnew, ?_⟩
        rw [← List.append_assoc]
        exact h.traced.new hnew hlt (List.mem_append_left _ hnode) (harcs arc (List.mem_cons_self ..))
      · rw [if_pos (hprune.mpr hkeep)]
        rw [List.filter_cons_of_neg hkeep] at hsweep
        exact ih hrest queue trace ⟨hsweep, h.traced⟩

/-- The search ends with the target known. -/
theorem searchTarget_spec (hindex : index.Coherent) (htarget : Reaches (pruned index descendantMask target) start target)
    (fuel : ℕ)
    (done queue : List ℕ) (trace : Trace) (hfuel : index.size ≤ fuel + done.length)
    (h : Searching index descendantMask target start done queue trace []) :
    ∃ done' queue', Searching index descendantMask target start done' queue'
      (searchTarget index descendantMask target fuel queue trace) [] ∧ target ∈ done' ++ queue' := by
  induction fuel generalizing done queue trace with
  | zero =>
    have hle := h.sweep.length_le
    rw [List.length_range] at hle
    obtain rfl : queue = [] := List.length_eq_zero_iff.mp (by omega)
    exact ⟨done, [], h, List.mem_append_left _ ((h.sweep.exact target).mpr htarget)⟩
  | succ fuel ih =>
    cases queue with
    | nil => exact ⟨done, [], h, List.mem_append_left _ ((h.sweep.exact target).mpr htarget)⟩
    | cons node queue =>
      rw [searchTarget]
      by_cases hnode : node = target
      · rw [if_pos hnode]
        exact ⟨done, node :: queue, h, List.mem_append_right _ (hnode ▸ List.mem_cons_self ..)⟩
      · rw [if_neg hnode]
        have hlt := List.mem_range.mp (h.sweep.mem node (List.mem_append_right _ (List.mem_cons_self ..)))
        have hpop := h.sweep.pop fun y hy =>
          List.mem_range.mpr (hindex.bounded node hlt y (List.mem_filter.mp hy).1)
        have hassoc : done ++ [node] ++ queue = done ++ node :: queue := by simp
        refine ih (done ++ [node]) _ _ ?_ (visitArcs_searching node (index.outArcs node) (fun _ ha => ha)
          (List.mem_append_right _ (List.mem_singleton_self node)) queue trace ⟨hpop, hassoc ▸ h.traced⟩)
        rw [List.length_append, List.length_singleton]
        omega

/-- Following a trace back from a member gives a walk to it. -/
theorem traceBack_walk (hlinked : graph.Linked)
    (h : Traced (buildHardGraphIndex graph) start members trace) (hbound : ∀ x ∈ members, x < (buildHardGraphIndex graph).size)
    (fuel x : ℕ) (hx : x ∈ members) (hfuel : members.idxOf x < fuel) :
    HardWalk graph (graph.keyAt start) ((traceBack trace fuel x).nodeIndices.reverse.map graph.keyAt)
      (traceBack trace fuel x).edgeKeys.reverse (graph.keyAt x) := by
  induction fuel generalizing x with
  | zero => exact absurd hfuel (Nat.not_lt_zero _)
  | succ fuel ih =>
    rw [traceBack]
    cases hget : trace.getD x none with
    | none =>
      have hknown := (h.known x).mpr hx
      rw [hget] at hknown
      cases hknown
    | some origin =>
      cases origin with
      | none =>
        rw [h.origin x hget]
        exact HardWalk.nil _
      | some crumb =>
        obtain ⟨harc, hmem, hlt⟩ := h.crumbs x crumb hget
        obtain ⟨edge, hedge, hproducer, heq⟩ := (mem_outArcs (hbound _ hmem) _).mp harc
        obtain ⟨hedgeMem, hkind⟩ := (mem_hardEdges edge).mp hedge
        obtain ⟨hkey, hconsumer⟩ := HardArc.mk.inj heq
        have hwalk := (ih crumb.node hmem (by omega)).snoc edge hedgeMem hkind
          (by rw [← hproducer, keyAt_place (hlinked edge hedgeMem).1])
        dsimp only
        rw [List.reverse_cons, List.reverse_cons, List.map_append, hkey, hconsumer, List.map_singleton,
          keyAt_place (hlinked edge hedgeMem).2]
        exact hwalk

/-! ### The path -/

section Path
variable (h : Sorted graph)
include h

theorem leadsTo_iff {x y : ℕ} (hx : x < (buildHardGraphIndex graph).size) :
    leadsTo (descendantMasks (buildHardGraphIndex graph) (topologicalOrder (buildHardGraphIndex graph)).order) y x = true
      ↔ Reaches (buildHardGraphIndex graph).heads x y := by
  rw [leadsTo, Bool.or_eq_true, decide_eq_true_eq, descendantMasks_spec h x hx]
  exact (Relation.reflTransGen_iff_eq_or_transGen.trans (or_congr_left eq_comm)).symm

theorem pruned_reaches {x y : ℕ} (hx : x < (buildHardGraphIndex graph).size)
    (hreach : Reaches (buildHardGraphIndex graph).heads x y) :
    Reaches (pruned (buildHardGraphIndex graph)
      (descendantMasks (buildHardGraphIndex graph) (topologicalOrder (buildHardGraphIndex graph)).order) y) x y := by
  induction hreach using Relation.ReflTransGen.head_induction_on with
  | refl => exact Relation.ReflTransGen.refl
  | head hstep hrest ih =>
    have hnext := h.coherent.bounded _ hx _ hstep
    exact Relation.ReflTransGen.head (List.mem_filter.mpr ⟨hstep, (leadsTo_iff h hnext).mpr hrest⟩) (ih hnext)

theorem reconstructPath_walk {x y : ℕ} (hx : x < (buildHardGraphIndex graph).size)
    (hreach : Reaches (buildHardGraphIndex graph).heads x y) :
    let path := reconstructPath (buildHardGraphIndex graph)
      (descendantMasks (buildHardGraphIndex graph) (topologicalOrder (buildHardGraphIndex graph)).order) x y
    HardWalk graph (graph.keyAt x) (path.nodeIndices.map graph.keyAt) path.edgeKeys (graph.keyAt y) := by
  intro path
  by_cases heq : x = y
  · have hpath : path = ⟨[x], []⟩ := if_pos heq
    rw [hpath, ← heq]
    exact HardWalk.nil _
  · obtain ⟨done, queue, hfinal, hmem⟩ := searchTarget_spec h.coherent (pruned_reaches h hx hreach) _ [] [x] _
      (Nat.le_add_right ..) ⟨Sweep.begin (List.mem_range.mpr hx), Traced.begin hx⟩
    have hbound : ∀ z ∈ done ++ queue, z < (buildHardGraphIndex graph).size := fun z hz =>
      List.mem_range.mp (hfinal.sweep.mem z hz)
    have hplace : (done ++ queue).idxOf y < (buildHardGraphIndex graph).size := by
      have hlt := List.idxOf_lt_length_iff.mpr hmem
      have hle := hfinal.sweep.length_le
      rw [List.length_append] at hlt
      rw [List.length_range] at hle
      omega
    have hwalk := traceBack_walk h.linked hfinal.traced hbound _ y hmem hplace
    have hpath : path = ⟨(traceBack _ _ y).nodeIndices.reverse, (traceBack _ _ y).edgeKeys.reverse⟩ := if_neg heq
    rw [hpath]
    exact hwalk

end Path

/-! ### The candidates -/

variable {edge : GraphEdge}

/-- The masks that an analysis of the graph hands on. -/
abbrev masksOf (graph : GraphStructureView) : List ℕ :=
  descendantMasks (buildHardGraphIndex graph) (topologicalOrder (buildHardGraphIndex graph)).order

theorem alternateArc_spec (h : Removing graph edge) (arc : HardArc)
    (harc : arc ∈ (buildHardGraphIndex graph).outArcs (graph.place edge.producerNodeKey)) :
    (arc.edgeKey ≠ edge.edgeKey && (arc.nodeIndex = graph.place edge.consumerNodeKey
        || hasBit ((masksOf graph).getD arc.nodeIndex 0) (graph.place edge.consumerNodeKey))) = true
      ↔ arc.edgeKey ≠ edge.edgeKey
        ∧ Reaches (buildHardGraphIndex graph).heads arc.nodeIndex (graph.place edge.consumerNodeKey) := by
  have hproducer := (place_lt graph _).mpr (h.sorted.linked edge h.mem).1
  have hnext := h.sorted.coherent.bounded _ hproducer arc.nodeIndex (List.mem_map_of_mem harc)
  rw [Bool.and_eq_true, decide_eq_true_eq]
  exact and_congr_right fun _ => leadsTo_iff h.sorted hnext

/-- An edge has an alternate arc exactly when its endpoints are joined without it. -/
theorem alternateArc_isSome (h : Removing graph edge) :
    (alternateArc (buildHardGraphIndex graph) (masksOf graph) edge.edgeKey (graph.place edge.producerNodeKey)
        (graph.place edge.consumerNodeKey)).isSome = true
      ↔ (graph.withoutEdge edge.edgeKey).HardBefore edge.producerNodeKey edge.consumerNodeKey := by
  obtain ⟨hproducer, hconsumer⟩ := h.sorted.linked edge h.mem
  have hlt := (place_lt graph _).mpr hproducer
  rw [alternateArc, List.find?_isSome, h.bypass_iff]
  constructor
  · rintro ⟨arc, harc, hflag⟩
    obtain ⟨hkey, hreach⟩ := (alternateArc_spec h arc harc).mp hflag
    obtain ⟨other, hother, hplace, rfl⟩ := (mem_outArcs hlt arc).mp harc
    obtain ⟨hmem, hkind⟩ := (mem_hardEdges other).mp hother
    obtain ⟨hp, hc⟩ := h.sorted.linked other hmem
    exact ⟨other, hmem, hkind, hkey, place_inj hp hproducer hplace, (reaches_place h.sorted.linked hc hconsumer).mp hreach⟩
  · rintro ⟨other, hmem, hkind, hkey, hsame, hreach⟩
    have harc : ⟨other.edgeKey, graph.place other.consumerNodeKey⟩
        ∈ (buildHardGraphIndex graph).outArcs (graph.place edge.producerNodeKey) :=
      (mem_outArcs hlt _).mpr ⟨other, (mem_hardEdges other).mpr ⟨hmem, hkind⟩, by rw [hsame], rfl⟩
    exact ⟨_, harc, (alternateArc_spec h _ harc).mpr ⟨hkey,
      (reaches_place h.sorted.linked (h.sorted.linked other hmem).2 hconsumer).mpr hreach⟩⟩

/-- What a candidate shows: its edge, and a HARD path between the endpoints that does without it. -/
structure Witnessed (graph : GraphStructureView) (edge : GraphEdge) (candidate : RedundancyCandidate) : Prop where
  edgeKey : candidate.edgeKey = edge.edgeKey
  producer : candidate.producerNodeKey = edge.producerNodeKey
  consumer : candidate.consumerNodeKey = edge.consumerNodeKey
  walk : HardWalk graph edge.producerNodeKey candidate.alternateHardPathNodeKeys candidate.alternateHardPathEdgeKeys
    edge.consumerNodeKey
  avoids : edge.edgeKey ∉ candidate.alternateHardPathEdgeKeys

theorem redundancyCandidate_witnessed (h : Removing graph edge) (candidate : RedundancyCandidate)
    (hcandidate : redundancyCandidate graph (buildHardGraphIndex graph) (masksOf graph) edge = some candidate) :
    Witnessed graph edge candidate := by
  unfold redundancyCandidate at hcandidate
  rw [if_neg (not_not_intro h.hard)] at hcandidate
  obtain ⟨arc, harc, rfl⟩ := Option.map_eq_some_iff.mp hcandidate
  have hmem := List.mem_of_find?_eq_some harc
  have hflag := List.find?_some harc
  obtain ⟨hproducer, hconsumer⟩ := h.sorted.linked edge h.mem
  have hlt := (place_lt graph _).mpr hproducer
  obtain ⟨hkey, hreach⟩ := (alternateArc_spec h arc hmem).mp hflag
  have hnext := h.sorted.coherent.bounded _ hlt arc.nodeIndex (List.mem_map_of_mem hmem)
  have hwalk := reconstructPath_walk h.sorted hnext hreach
  obtain ⟨first, hfirst, hplace, rfl⟩ := (mem_outArcs hlt arc).mp hmem
  obtain ⟨hfirstMem, hkind⟩ := (mem_hardEdges first).mp hfirst
  obtain ⟨hp, hc⟩ := h.sorted.linked first hfirstMem
  have hsame : first.producerNodeKey = edge.producerNodeKey := place_inj hp hproducer hplace
  dsimp only at hwalk
  rw [keyAt_place hc, keyAt_place hconsumer] at hwalk
  refine ⟨rfl, rfl, rfl, ?_, fun hin => ?_⟩
  · have hjoined := HardWalk.cons first hfirstMem hkind hwalk
    rw [hsame] at hjoined
    exact hjoined
  · rcases List.mem_cons.mp hin with heq | hin
    · exact hkey heq.symm
    · obtain ⟨again, hagain, heq, hback⟩ := hwalk.reaches edge.edgeKey hin
      obtain rfl := h.unique again hagain heq
      exact h.acyclic _ (Relation.TransGen.head' ⟨first, hfirstMem, hkind, hsame, rfl⟩ hback)

theorem redundancyCandidate_isSome (h : Removing graph edge) :
    (redundancyCandidate graph (buildHardGraphIndex graph) (masksOf graph) edge).isSome = true
      ↔ (graph.withoutEdge edge.edgeKey).HardBefore edge.producerNodeKey edge.consumerNodeKey := by
  unfold redundancyCandidate
  rw [if_neg (not_not_intro h.hard), ← alternateArc_isSome h, Option.isSome_map]
  rfl

end MoeNG.Graph
