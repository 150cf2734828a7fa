import MoeNG.Graph.AnalysisSpec
import MoeNG.Graph.RedundancySpec
import MoeNG.Lib.Run

/-!
# Redundancy and counterfactuals agree (`redundancy.ts:28-130`, `hard-edge-counterfactual.ts:26-160`)
-/

namespace MoeNG.Graph
open MoeNG.Kernel MoeNG.Lib

variable {graph : GraphStructureView}

/-! ### One graph -/

theorem predecessorMaximum_eq (arcs : List HardArc) (best : List ℕ) :
    predecessorMaximum arcs best = (arcs.map HardArc.nodeIndex).foldl (fun most u => max most (best.getD u 0)) 0 := by
  rw [List.foldl_map]
  rfl

theorem stageValue_spec (index : HardGraphIndex) (best : List ℕ) (v : ℕ)
    (h : ∀ u ∈ index.tails v, Heaviest index.tails index.execution u (best.getD u 0)) :
    Heaviest index.tails index.execution v (predecessorMaximum (index.inArcs v) best + index.execution v) := by
  obtain ⟨hbound, hfound⟩ := foldl_max_spec (fun u => best.getD u 0) (index.tails v)
  rw [HardGraphIndex.tails, ← predecessorMaximum_eq] at hbound hfound
  rw [Nat.add_comm]
  exact Heaviest.step (fun u => best.getD u 0) h _ hbound hfound

/-- The stage count of a sorted graph is the greatest number of execution-bearing nodes on its HARD paths. -/
theorem structuralStageCount_spec (h : Sorted graph) :
    ∃ count, structuralStageCount (buildHardGraphIndex graph) = .ok count ∧ MaxStages graph count := by
  have hvalue := foldl_set_spec 0
    (fun best v => predecessorMaximum ((buildHardGraphIndex graph).inArcs v) best + (buildHardGraphIndex graph).execution v)
    (Heaviest (buildHardGraphIndex graph).tails (buildHardGraphIndex graph).execution) h.nodup
    (fun u hu => (h.mem_order u).mp hu) h.behind_tails (fun best u _ hbest => stageValue_spec _ best u hbest)
  obtain ⟨-, hall, hfound⟩ := foldl_set_max
    (fun best v => predecessorMaximum ((buildHardGraphIndex graph).inArcs v) best + (buildHardGraphIndex graph).execution v)
    h.nodup (List.replicate (buildHardGraphIndex graph).size 0)
    (fun u hu => by rw [List.length_replicate]; exact (h.mem_order u).mp hu) 0
  refine ⟨_, by rw [structuralStageCount]; exact if_pos h.acyclic, fun path hpath => ?_, ?_⟩
  · by_cases hnil : path = []
    · rw [hnil]
      exact Nat.zero_le _
    · obtain ⟨v, rest, hv, htrail, hweight⟩ := trail_of_path h.linked h.distinct hpath hnil
      have hmem := (h.mem_order v).mpr hv
      rw [hweight]
      exact ((hvalue v hmem).bound rest htrail).trans (hall v hmem)
  · rcases hfound with hzero | ⟨v, hmem, heq⟩
    · exact ⟨[], ⟨nofun, List.isChain_nil⟩, hzero.symm⟩
    · obtain ⟨rest, htrail, hsum⟩ := (hvalue v hmem).attained
      obtain ⟨hpath, hcount⟩ := path_of_trail h.linked h.distinct ((h.mem_order v).mp hmem) htrail
      exact ⟨_, hpath, hcount.trans (hsum.trans heq)⟩

/-! ### The search for another path -/

theorem scanForTarget_spec {index : HardGraphIndex} {size start : ℕ} {done : List ℕ} (target : ℕ) (arcs : List HardArc)
    (queue : List ℕ) (seen : List Bool)
    (h : Marked index.heads size start done queue seen (arcs.map HardArc.nodeIndex)) :
    match scanForTarget target arcs (queue, seen) with
    | none => target ∈ arcs.map HardArc.nodeIndex
    | some (queue', seen') => target ∉ arcs.map HardArc.nodeIndex ∧ Marked index.heads size start done queue' seen' [] := by
  induction arcs generalizing queue seen with
  | nil => exact ⟨List.not_mem_nil, h⟩
  | cons arc rest ih =>
    rw [scanForTarget]
    by_cases hfound : arc.nodeIndex = target
    · rw [if_pos hfound]
      exact hfound ▸ List.mem_cons_self ..
    · rw [if_neg hfound]
      have hrest := ih (reachArc (queue, seen) arc).1 (reachArc (queue, seen) arc).2 (h.arc arc)
      revert hrest
      rw [Prod.mk.eta]
      cases scanForTarget target rest (reachArc (queue, seen) arc) with
      | none => exact fun hin => List.mem_cons_of_mem _ hin
      | some state =>
        rintro ⟨hnot, hmarked⟩
        exact ⟨fun hin => (List.mem_cons.mp hin).elim (Ne.symm hfound) hnot, hmarked⟩

/-- A search that ends without the target among its heads does not lead there. -/
theorem Marked.missed {out : ℕ → List ℕ} {size start target : ℕ} {done : List ℕ} {seen : List Bool}
    (h : Marked out size start done [] seen []) (hmissed : ∀ x ∈ done, target ∉ out x) : ¬ Precedes out start target := by
  intro hpath
  obtain ⟨x, hreach, hlast⟩ := Relation.TransGen.tail'_iff.mp hpath
  exact hmissed x ((h.sweep.exact x).mpr hreach) hlast

theorem searchFor_spec {index : HardGraphIndex} (hindex : index.Coherent) {start target : ℕ} (fuel : ℕ) (done queue : List ℕ)
    (seen : List Bool) (hfuel : index.size ≤ fuel + done.length)
    (h : Marked index.heads index.size start done queue seen []) (hmissed : ∀ x ∈ done, target ∉ index.heads x) :
    searchFor index target fuel queue seen = true ↔ Precedes index.heads start target := by
  induction fuel generalizing done queue seen with
  | zero =>
    obtain rfl := h.queue_nil (by omega)
    exact ⟨nofun, fun hpath => absurd hpath (h.missed hmissed)⟩
  | succ fuel ih =>
    cases queue with
    | nil => exact ⟨nofun, fun hpath => absurd hpath (h.missed hmissed)⟩
    | cons node queue =>
      have hpop := h.pop (hindex.bounded node h.top_lt)
      have hscan := scanForTarget_spec target (index.outArcs node) queue seen hpop
      rw [searchFor]
      revert hscan
      cases scanForTarget target (index.outArcs node) (queue, seen) with
      | none =>
        intro hin
        have hnode := h.sweep.sound node (List.mem_append_right _ (List.mem_cons_self ..))
        exact ⟨fun _ => Relation.TransGen.tail' hnode hin, fun _ => rfl⟩
      | some state =>
        rintro ⟨hnot, hmarked⟩
        refine ih (done ++ [node]) _ _ ?_ hmarked fun x hx => ?_
        · rw [List.length_append, List.length_singleton]
          omega
        · rcases List.mem_append.mp hx with hx | hx
          · exact hmissed x hx
          · rw [List.mem_singleton.mp hx]
            exact hnot

theorem hardPathExists_iff (h : Sorted graph) {u v : JsString} (hu : u ∈ graph.nodes.map GraphNode.nodeKey)
    (hv : v ∈ graph.nodes.map GraphNode.nodeKey) :
    hardPathExists (buildHardGraphIndex graph) (graph.place u) (graph.place v) = true ↔ graph.HardBefore u v := by
  rw [hardPathExists, searchFor_spec h.coherent _ [] _ _ (Nat.le_add_right ..) (Marked.begin ((place_lt graph u).mpr hu)) nofun]
  exact precedes_place h.linked hu hv

theorem completionClosureIntact_iff (h : Sorted graph)
    (hcompletion : graph.completionNodeKey ∈ graph.nodes.map GraphNode.nodeKey) :
    completionClosureIntact (buildHardGraphIndex graph) = true
      ↔ ∀ node ∈ graph.nodes, node.executionBearing = true → graph.HardReach node.nodeKey graph.completionNodeKey := by
  rw [← closureOrphans_nil h.linked h.distinct hcompletion, closureOrphans, List.map_eq_nil_iff, List.filter_eq_nil_iff,
    completionClosureIntact, List.all_eq_true]
  refine forall_congr' fun i => imp_congr_right fun _ => ?_
  cases (buildHardGraphIndex graph).executionBearing.getD i false
  · simp
  · simp

/-! ### The candidates -/

variable {edge : GraphEdge}

theorem mem_candidates (graph : GraphStructureView) (index : HardGraphIndex) (masks : List ℕ) (candidate : RedundancyCandidate) :
    candidate ∈ findRedundancyCandidates graph index masks
      ↔ ∃ edge ∈ graph.edges, redundancyCandidate graph index masks edge = some candidate := by
  rw [findRedundancyCandidates, List.mem_insertionSort, List.mem_filterMap]

/-- Only a HARD edge is a candidate. -/
theorem redundancyCandidate_hard {index : HardGraphIndex} {masks : List ℕ} {candidate : RedundancyCandidate}
    (h : redundancyCandidate graph index masks edge = some candidate) : edge.kind = .HARD := by
  unfold redundancyCandidate at h
  split at h
  · cases h
  · rename_i hkind
    exact not_not.mp hkind

theorem AcceptedGraph.removing (graph : AcceptedGraph) (hmem : edge ∈ graph.edges) (hhard : edge.kind = .HARD) :
    Removing graph.toGraphStructureView edge where
  sorted := graph.sorted
  mem := hmem
  hard := hhard
  unique _ hother hkey := List.inj_on_of_nodup_map graph.accepted.acceptable.edgesDistinct hother hmem hkey

/-- What an analysis hands on to the two reports. -/
theorem analysis_reports (graph : AcceptedGraph) (frontier : Option SuppliedFrontier) (analysis : GraphStructuralAnalysis)
    (h : analyzeGraphStructure graph frontier = .ok analysis) :
    MaxStages graph.toGraphStructureView analysis.structuralStageCount
      ∧ analysis.structuralRedundancyCandidates = findRedundancyCandidates graph.toGraphStructureView
          (buildHardGraphIndex graph.toGraphStructureView) (masksOf graph.toGraphStructureView) := by
  unfold analyzeGraphStructure at h
  split at h
  · cases h
  · dsimp only at h
    rw [if_pos graph.sorted.acyclic] at h
    obtain rfl := Except.ok.inj h
    exact ⟨graph.sorted.stages, rfl⟩

/-! ### The records -/

/-- What a record says about the graph without its edge. -/
structure RecordExact (graph : GraphStructureView) (edge : GraphEdge) (record : HardEdgeCounterfactual) : Prop where
  edgeKey : record.edgeKey = edge.edgeKey
  producer : record.producerNodeKey = edge.producerNodeKey
  consumer : record.consumerNodeKey = edge.consumerNodeKey
  present : record.alternateHardPathPresent = true
    ↔ (graph.withoutEdge edge.edgeKey).HardBefore edge.producerNodeKey edge.consumerNodeKey
  stages : MaxStages (graph.withoutEdge edge.edgeKey) record.structuralStageCountWithoutEdge
  reduction : ∃ count, MaxStages graph count
    ∧ record.structuralStageReduction = (count : ℤ) - record.structuralStageCountWithoutEdge
  reduces : 0 ≤ record.structuralStageReduction
  closure : record.completionClosureIntactWithoutEdge = true ↔ ∀ node ∈ graph.nodes, node.executionBearing = true →
    (graph.withoutEdge edge.edgeKey).HardReach node.nodeKey graph.completionNodeKey
  rooted : ∀ key, key ∈ record.newlyHardRootedExecutionNodeKeys
    ↔ ExecutionRoot (graph.withoutEdge edge.edgeKey) key ∧ ¬ ExecutionRoot graph key
  bypassed : record.alternateHardPathPresent = true → record.completionClosureIntactWithoutEdge = true
    ∧ (∀ key, ExecutionRoot (graph.withoutEdge edge.edgeKey) key ↔ ExecutionRoot graph key)
    ∧ record.newlyHardRootedExecutionNodeKeys = []
    ∧ record.executionBearingHardRootCountWithoutEdge = (executionBearingHardRoots (buildHardGraphIndex graph)).length

/-- One record, for a graph in which every execution-bearing node leads to the completion. -/
theorem counterfactual_exact (h : Removing graph edge) {count : ℕ} (hcount : MaxStages graph count)
    (hcompletion : graph.completionNodeKey ∈ graph.nodes.map GraphNode.nodeKey)
    (hclosed : ∀ node ∈ graph.nodes, node.executionBearing = true → graph.HardReach node.nodeKey graph.completionNodeKey) :
    ∃ record, counterfactual graph count (executionBearingHardRoots (buildHardGraphIndex graph)) edge = .ok record
      ∧ RecordExact graph edge record := by
  have hleft := h.sorted.without edge.edgeKey
  obtain ⟨left, hleftCount, hleftMax⟩ := structuralStageCount_spec hleft
  obtain ⟨hproducer, hconsumer⟩ := h.sorted.linked edge h.mem
  have hpresent := hardPathExists_iff hleft hproducer hconsumer
  have hclosure := completionClosureIntact_iff hleft hcompletion
  have hroots := mem_roots hleft.linked hleft.distinct
  have hbaseline := mem_roots h.sorted.linked h.sorted.distinct
  refine ⟨_, by rw [counterfactual, hleftCount]; rfl, ⟨rfl, rfl, rfl, hpresent, hleftMax, ⟨count, hcount, rfl⟩, ?_, hclosure,
    fun key => ?_, fun halternate => ?_⟩⟩
  · exact Int.sub_nonneg_of_le (Int.ofNat_le.mpr (maxStages_le hcount hleftMax))
  · rw [← hroots, ← hbaseline, List.mem_filter, decide_eq_true_eq]
  · have hbypass := hpresent.mp halternate
    have hsame := h.roots_bypassed hbypass
    refine ⟨hclosure.mpr fun node hnode hbears => h.reach_bypassed hbypass (hclosed node hnode hbears), fun key => ?_, ?_, ?_⟩
    · rw [← hroots, ← hbaseline, hsame]
    · show List.filter _ _ = []
      rw [hsame, List.filter_eq_nil_iff]
      exact fun key hkey hflag => of_decide_eq_true hflag hkey
    · exact congrArg List.length hsame

theorem AcceptedGraph.record (graph : AcceptedGraph) {baseline : GraphStructuralAnalysis}
    (hbaseline : analyzeGraphStructure graph none = .ok baseline) (edge : GraphEdge)
    (hedge : edge ∈ graph.edges.filter fun edge => edge.kind = .HARD) :
    ∃ record, counterfactual graph.toGraphStructureView baseline.structuralStageCount
        (executionBearingHardRoots (buildHardGraphIndex graph.toGraphStructureView)) edge = .ok record
      ∧ edge ∈ graph.edges ∧ edge.kind = .HARD ∧ RecordExact graph.toGraphStructureView edge record := by
  obtain ⟨hmem, hflag⟩ := List.mem_filter.mp hedge
  have hhard := of_decide_eq_true hflag
  have hcompletion := graph.accepted.acceptable.completion
  obtain ⟨record, hrun, hexact⟩ := counterfactual_exact (graph.removing hmem hhard)
    (analysis_reports graph none baseline hbaseline).1
    hcompletion ((closureOrphans_nil graph.sorted.linked graph.sorted.distinct hcompletion).mp graph.accepted.closed)
  exact ⟨record, hrun, hmem, hhard, hexact⟩

theorem counterfactuals_total (graph : AcceptedGraph) : ∃ counterfactuals,
    analyzeHardEdgeCounterfactuals graph = .ok counterfactuals := by
  obtain ⟨baseline, hbaseline⟩ := (analysis_exact graph).answers
  obtain ⟨records, hrecords⟩ := forall₂_total (graph.edges.filter fun edge => edge.kind = .HARD) fun edge hedge =>
    (graph.record hbaseline edge hedge).imp fun _ h => h.1
  have hall := (except_mapM_ok_iff _ _ _).mpr hrecords
  cases hrun : analyzeHardEdgeCounterfactuals graph with
  | ok counterfactuals => exact ⟨counterfactuals, rfl⟩
  | error refusal =>
    rw [analyzeHardEdgeCounterfactuals, hbaseline] at hrun
    dsimp only [bind, Except.bind] at hrun
    rw [hall] at hrun
    cases hrun

/-- The records are those of the HARD edges, each exact. -/
theorem counterfactuals_exact (graph : AcceptedGraph) {counterfactuals : HardEdgeCounterfactualAnalysis}
    (h : analyzeHardEdgeCounterfactuals graph = .ok counterfactuals) :
    ∃ records, counterfactuals.edges.Perm records
      ∧ List.Forall₂ (fun edge record => edge ∈ graph.edges ∧ edge.kind = .HARD
        ∧ RecordExact graph.toGraphStructureView edge record)
        (graph.edges.filter fun edge => edge.kind = .HARD) records := by
  unfold analyzeHardEdgeCounterfactuals at h
  obtain ⟨baseline, hbaseline, h⟩ := except_bind_ok _ _ _ h
  obtain ⟨records, hrecords, h⟩ := except_bind_ok _ _ _ h
  obtain rfl := Except.ok.inj h
  have hall := (except_mapM_ok_iff _ _ _).mp hrecords
  have hlength := hall.length_eq
  refine ⟨records, List.perm_insertionSort .., List.forall₂_iff_zip.mpr ⟨hlength, fun {edge record} hin => ?_⟩⟩
  obtain ⟨record', hrun, hsays⟩ := graph.record hbaseline edge (List.of_mem_zip hin).1
  rwa [Except.ok.inj ((List.forall₂_zip hall hin).symm.trans hrun)]

/-! ### Agreement -/

/-- What the two reports on one graph say. -/
structure Agreement (graph : GraphStructureView) (analysis : GraphStructuralAnalysis)
    (counterfactuals : HardEdgeCounterfactualAnalysis) : Prop where
  redundant : ∀ edgeKey, edgeKey ∈ analysis.structuralRedundancyCandidates.map RedundancyCandidate.edgeKey
    ↔ ∃ edge ∈ graph.edges, edge.kind = .HARD ∧ edge.edgeKey = edgeKey
      ∧ (graph.withoutEdge edgeKey).HardBefore edge.producerNodeKey edge.consumerNodeKey
  reported : ∀ edgeKey, edgeKey ∈ analysis.structuralRedundancyCandidates.map RedundancyCandidate.edgeKey
    ↔ ∃ record ∈ counterfactuals.edges, record.edgeKey = edgeKey ∧ record.alternateHardPathPresent = true
  witnessed : ∀ candidate ∈ analysis.structuralRedundancyCandidates,
    ∃ edge ∈ graph.edges, edge.kind = .HARD ∧ Witnessed graph edge candidate
  covered : (counterfactuals.edges.map HardEdgeCounterfactual.edgeKey).Perm
    ((graph.edges.filter fun edge => edge.kind = .HARD).map GraphEdge.edgeKey)
  records : ∀ record ∈ counterfactuals.edges, ∃ edge ∈ graph.edges, edge.kind = .HARD ∧ RecordExact graph edge record

/-- Every accepted graph is reported on twice, and the reports agree. -/
structure CounterfactualLaw (graph : AcceptedGraph) : Prop where
  analysed : ∃ analysis, analyzeGraphStructure graph none = .ok analysis
  answered : ∃ counterfactuals, analyzeHardEdgeCounterfactuals graph = .ok counterfactuals
  agree : ∀ frontier analysis counterfactuals, analyzeGraphStructure graph frontier = .ok analysis →
    analyzeHardEdgeCounterfactuals graph = .ok counterfactuals →
      Agreement graph.toGraphStructureView analysis counterfactuals

theorem candidates_iff (graph : AcceptedGraph) (edgeKey : JsString) :
    edgeKey ∈ (findRedundancyCandidates graph.toGraphStructureView (buildHardGraphIndex graph.toGraphStructureView)
        (masksOf graph.toGraphStructureView)).map RedundancyCandidate.edgeKey
      ↔ ∃ edge ∈ graph.edges, edge.kind = .HARD ∧ edge.edgeKey = edgeKey
        ∧ (graph.withoutEdge edgeKey).HardBefore edge.producerNodeKey edge.consumerNodeKey := by
  rw [List.mem_map]
  constructor
  · rintro ⟨candidate, hcandidate, rfl⟩
    obtain ⟨edge, hedge, hsome⟩ := (mem_candidates _ _ _ candidate).mp hcandidate
    have hremoving := graph.removing hedge (redundancyCandidate_hard hsome)
    have hkey := (redundancyCandidate_witnessed hremoving candidate hsome).edgeKey
    refine ⟨edge, hedge, hremoving.hard, hkey.symm, ?_⟩
    rw [hkey]
    exact (redundancyCandidate_isSome hremoving).mp (by rw [hsome]; rfl)
  · rintro ⟨edge, hedge, hhard, rfl, hbypass⟩
    have hremoving := graph.removing hedge hhard
    obtain ⟨candidate, hsome⟩ := Option.isSome_iff_exists.mp ((redundancyCandidate_isSome hremoving).mpr hbypass)
    exact ⟨candidate, (mem_candidates _ _ _ candidate).mpr ⟨edge, hedge, hsome⟩,
      (redundancyCandidate_witnessed hremoving candidate hsome).edgeKey⟩

theorem redundancy_agrees (graph : AcceptedGraph) : CounterfactualLaw graph := by
  refine ⟨(analysis_exact graph).answers, counterfactuals_total graph,
    fun frontier analysis counterfactuals hanalysis hcounterfactuals => ?_⟩
  obtain ⟨records, hperm, hall⟩ := counterfactuals_exact graph hcounterfactuals
  obtain ⟨-, hcandidates⟩ := analysis_reports graph frontier analysis hanalysis
  have hredundant := candidates_iff graph
  rw [← hcandidates] at hredundant
  refine ⟨hredundant, fun edgeKey => (hredundant edgeKey).trans ⟨?_, ?_⟩, fun candidate hcandidate => ?_, ?_,
    fun record hin => ?_⟩
  · rintro ⟨edge, hedge, hhard, rfl, hbypass⟩
    obtain ⟨record, hin, -, -, hexact⟩ := forall₂_left hall edge (List.mem_filter.mpr ⟨hedge, decide_eq_true hhard⟩)
    exact ⟨record, hperm.mem_iff.mpr hin, hexact.edgeKey, hexact.present.mpr hbypass⟩
  · rintro ⟨record, hin, rfl, hpresent⟩
    obtain ⟨edge, -, hedge, hhard, hexact⟩ := forall₂_right hall record (hperm.mem_iff.mp hin)
    refine ⟨edge, hedge, hhard, hexact.edgeKey.symm, ?_⟩
    rw [hexact.edgeKey]
    exact hexact.present.mp hpresent
  · rw [hcandidates] at hcandidate
    obtain ⟨edge, hedge, hsome⟩ := (mem_candidates _ _ _ candidate).mp hcandidate
    have hhard := redundancyCandidate_hard hsome
    exact ⟨edge, hedge, hhard, redundancyCandidate_witnessed (graph.removing hedge hhard) candidate hsome⟩
  · have hkeys : List.Forall₂ (· = ·) (records.map HardEdgeCounterfactual.edgeKey)
        ((graph.edges.filter fun edge => edge.kind = .HARD).map GraphEdge.edgeKey) := by
      rw [List.forall₂_map_left_iff, List.forall₂_map_right_iff]
      exact hall.flip.imp fun _ _ h => h.2.2.edgeKey
    rw [List.forall₂_eq_eq_eq] at hkeys
    exact hkeys ▸ hperm.map _
  · obtain ⟨edge, -, hedge, hhard, hexact⟩ := forall₂_right hall record (hperm.mem_iff.mp hin)
    exact ⟨edge, hedge, hhard, hexact⟩

end MoeNG.Graph
