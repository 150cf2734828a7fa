import Mathlib.Data.List.Find
import MoeNG.Kernel.CanonicalJson
import MoeNG.Lib.TiedFold
import MoeNG.Materialization.Selection

/-!
# Selection and the order of the closure
-/

namespace MoeNG.Materialization
open MoeNG.Kernel hiding refOf digestOf countOf isCount isRef
open MoeNG.Lib MoeNG.Supervisor

variable {nfc : JsString → JsString}

/-! ### Bindings -/

theorem isSafeNumber_of_isSafeCount (z : ℤ) (h : isSafeCount z = true) : isSafeNumber z = true := by
  have hmax : 0 ≤ maxSafeInteger := by decide
  simp only [isSafeCount, isSafeNumber, decide_eq_true_eq] at h ⊢
  omega

theorem isSafeNumber_count (count : Count) : isSafeNumber count.val = true := by
  have h := count.property
  have hmax : (0 : ℤ) ≤ maxSupervisorCount ∧ maxSupervisorCount ≤ maxSafeInteger := by decide
  simp only [isCount, isSafeNumber, decide_eq_true_eq] at h ⊢
  omega

theorem printable_artifact (artifact : ParsedArtifact nfc) : printable (artifactValue artifact) = true := by
  have hlength : printable (.number (.integer artifact.byteLength.val)) = true :=
    isSafeNumber_of_isSafeCount _ artifact.byteLength.property
  simp [artifactValue, printable_recordOf, hlength]

theorem printable_candidate (candidate : ParsedCandidate nfc) : printable (candidateValue candidate) = true := by
  have hindex : printable (.number (.integer candidate.topologicalIndex.val)) = true := isSafeNumber_count _
  have hepoch : printable (.number (.integer candidate.epoch.val)) = true := isSafeNumber_count _
  have hartifacts : printable (.array (candidate.artifacts.val.map artifactValue)) = true := by
    simp [printable_array, printable_artifact]
  simp [candidateValue, printable_recordOf, hindex, hepoch, hartifacts]

theorem artifactValue_inj (a b : ParsedArtifact nfc) (h : ordered (artifactValue a) = ordered (artifactValue b)) : a = b := by
  have hfields := ordered_recordOf_inj artifactKeys _ _ (by rfl) (by rfl) (by decide) h
  simp only [Fields.ordered, List.map_cons, List.map_nil, List.cons.injEq, Prod.mk.injEq, ordered, Value.string.injEq,
    Value.number.injEq, JsNumber.integer.injEq, true_and, and_true] at hfields
  obtain ⟨identity, sha256, byteLength⟩ := a
  obtain ⟨identity', sha256', byteLength'⟩ := b
  obtain ⟨hidentity, hsha256, hlength⟩ := hfields
  obtain rfl := Subtype.ext hidentity
  obtain rfl := Subtype.ext hsha256
  obtain rfl := Subtype.ext hlength
  rfl

theorem milestoneText_inj (a b : QualifyingMilestone) (h : lit a.text = lit b.text) : a = b := by
  revert h
  cases a <;> cases b <;> decide

theorem producerBinding_inj (a b : ParsedCandidate nfc) (h : producerBinding a = producerBinding b) : a = b := by
  have hordered := canonicalText_inj _ _ (printable_candidate a) (printable_candidate b) h
  have hfields := ordered_recordOf_inj candidateKeys _ _ (by rfl) (by rfl) (by decide) hordered
  simp only [Fields.ordered, List.map_cons, List.map_nil, List.cons.injEq, Prod.mk.injEq, ordered, orderedItems_eq,
    Value.string.injEq, Value.number.injEq, JsNumber.integer.injEq, Value.array.injEq, List.map_map, true_and,
    and_true] at hfields
  obtain ⟨key, index, result, attempt, epoch, adoption, milestone, ⟨artifacts, sorted⟩⟩ := a
  obtain ⟨key', index', result', attempt', epoch', adoption', milestone', ⟨artifacts', sorted'⟩⟩ := b
  obtain ⟨hkey, hindex, hresult, hattempt, hepoch, hadoption, hmilestone, hartifacts⟩ := hfields
  have hsame : artifacts = artifacts' := by
    refine List.map_injective_iff.mpr (fun x y hxy => artifactValue_inj x y hxy) hartifacts
  subst hsame
  obtain rfl := Subtype.ext hkey
  obtain rfl := Subtype.ext hindex
  obtain rfl := Subtype.ext hresult
  obtain rfl := Subtype.ext hattempt
  obtain rfl := Subtype.ext hepoch
  obtain rfl := Subtype.ext hadoption
  obtain rfl := milestoneText_inj _ _ hmilestone
  rfl

/-! ### One candidate -/

/-- The entries and claims that one candidate adds. -/
def SelectionState.add (state : SelectionState nfc) (candidate : ParsedCandidate nfc) (artifacts : List (ParsedArtifact nfc)) :
    SelectionState nfc where
  producers := state.producers
  entries := state.entries ++ artifacts.map (toEntry candidate)
  claimed := state.claimed ++ artifacts.map fun artifact => artifact.artifactIdentity.val

theorem claimArtifacts (candidate : ParsedCandidate nfc) (artifacts : List (ParsedArtifact nfc)) (state : SelectionState nfc)
    (h : artifacts.Pairwise fun a b => a.artifactIdentity.val < b.artifactIdentity.val) :
    artifacts.foldlM (claimArtifact candidate) state =
      match artifacts.find? fun artifact => artifact.artifactIdentity.val ∈ state.claimed with
      | some artifact => .error (ambiguous artifact.artifactIdentity)
      | none => .ok (state.add candidate artifacts) := by
  induction artifacts generalizing state with
  | nil => simp [SelectionState.add, pure, Except.pure]
  | cons artifact rest ih =>
    obtain ⟨hfirst, hrest⟩ := List.pairwise_cons.mp h
    rw [List.foldlM_cons, List.find?_cons]
    unfold claimArtifact
    by_cases hclaimed : artifact.artifactIdentity.val ∈ state.claimed
    · simp only [hclaimed, if_true, decide_true]
      rfl
    · simp only [hclaimed, if_false, decide_false]
      refine (ih _ hrest).trans ?_
      have hsame : (rest.find? fun next => next.artifactIdentity.val ∈ state.claimed ++ [artifact.artifactIdentity.val]) =
          rest.find? fun next => next.artifactIdentity.val ∈ state.claimed := by
        refine List.find?_congr fun next hnext => ?_
        have hne : next.artifactIdentity.val ≠ artifact.artifactIdentity.val := (hfirst next hnext).ne'
        simp [hne]
      simp only [hsame]
      cases rest.find? fun next => next.artifactIdentity.val ∈ state.claimed with
      | some next => rfl
      | none => simp [SelectionState.add]

/-- A candidate's own verdict after the candidates that left `state`. -/
inductive CandidateVerdict (requiredMilestone : QualifyingMilestone) (state : SelectionState nfc)
    (candidate : ParsedCandidate nfc) : Materialized (SelectionState nfc) → Prop
  | unqualified (h : milestoneRank candidate.milestone < milestoneRank requiredMilestone) :
      CandidateVerdict requiredMilestone state candidate (.error (unqualified candidate.nodeKey))
  | rival {known : JsString} (hrank : ¬ milestoneRank candidate.milestone < milestoneRank requiredMilestone)
      (h : state.producers.get candidate.nodeKey = some known) (hne : known ≠ producerBinding candidate) :
      CandidateVerdict requiredMilestone state candidate (.error (ambiguous candidate.nodeKey))
  | again (hrank : ¬ milestoneRank candidate.milestone < milestoneRank requiredMilestone)
      (h : state.producers.get candidate.nodeKey = some (producerBinding candidate)) :
      CandidateVerdict requiredMilestone state candidate (.ok state)
  | claimed {artifact : ParsedArtifact nfc}
      (hrank : ¬ milestoneRank candidate.milestone < milestoneRank requiredMilestone)
      (h : state.producers.get candidate.nodeKey = none)
      (hfind : (candidate.artifacts.val.find? fun artifact => artifact.artifactIdentity.val ∈ state.claimed) = some artifact) :
      CandidateVerdict requiredMilestone state candidate (.error (ambiguous artifact.artifactIdentity))
  | fresh (hrank : ¬ milestoneRank candidate.milestone < milestoneRank requiredMilestone)
      (h : state.producers.get candidate.nodeKey = none)
      (hfind : (candidate.artifacts.val.find? fun artifact => artifact.artifactIdentity.val ∈ state.claimed) = none) :
      CandidateVerdict requiredMilestone state candidate
        (.ok (({ state with producers := state.producers.set candidate.nodeKey (producerBinding candidate) } :
          SelectionState nfc).add candidate candidate.artifacts.val))

variable (requiredMilestone : QualifyingMilestone)

theorem selectCandidate_verdict (state : SelectionState nfc) (candidate : ParsedCandidate nfc) :
    CandidateVerdict requiredMilestone state candidate (selectCandidate requiredMilestone state candidate) := by
  unfold selectCandidate
  split
  · rename_i hrank
    exact .unqualified hrank
  rename_i hrank
  split
  · rename_i known hknown
    split
    · rename_i hne
      exact .rival hrank hknown hne
    · rename_i hsame
      exact .again hrank (by rw [hknown, not_not.mp hsame])
  · rename_i hnew
    rw [claimArtifacts candidate candidate.artifacts.val _ candidate.artifacts.property]
    split
    · rename_i artifact hfind
      exact .claimed hrank hnew hfind
    · rename_i hfind
      exact .fresh hrank hnew hfind

theorem selectCandidate_binding (state next : SelectionState nfc)
    (candidate : ParsedCandidate nfc) (h : selectCandidate requiredMilestone state candidate = .ok next) :
    next.producers.get candidate.nodeKey = some (producerBinding candidate) := by
  have hverdict := selectCandidate_verdict requiredMilestone state candidate
  rw [h] at hverdict
  cases hverdict with
  | again _ hknown => exact hknown
  | fresh => simp [SelectionState.add]

theorem selectCandidate_again (state next : SelectionState nfc)
    (candidate : ParsedCandidate nfc) (hknown : state.producers.get candidate.nodeKey = some (producerBinding candidate))
    (h : selectCandidate requiredMilestone state candidate = .ok next) : next = state := by
  have hverdict := selectCandidate_verdict requiredMilestone state candidate
  rw [h] at hverdict
  cases hverdict with
  | again => rfl
  | fresh _ hnew =>
    rw [hknown] at hnew
    cases hnew

/-- After a producer is known, only its own record is selected again. -/
theorem selectCandidate_tied (state next : SelectionState nfc)
    (known candidate : ParsedCandidate nfc) (hkey : known.nodeKey.val = candidate.nodeKey.val)
    (hknown : state.producers.get known.nodeKey = some (producerBinding known))
    (h : selectCandidate requiredMilestone state candidate = .ok next) : known = candidate ∧ next = state := by
  have hsame : known = candidate := by
    have hverdict := selectCandidate_verdict requiredMilestone state candidate
    rw [hkey] at hknown
    rw [h] at hverdict
    cases hverdict with
    | again _ hagain => exact producerBinding_inj _ _ (Option.some.inj (hknown.symm.trans hagain))
    | fresh _ hnew =>
      rw [hknown] at hnew
      cases hnew
  subst hsame
  exact ⟨rfl, selectCandidate_again requiredMilestone state next known hknown h⟩

/-! ### Selection order -/

def ParsedCandidate.key (candidate : ParsedCandidate nfc) : ℤ ×ₗ JsString :=
  toLex (candidate.topologicalIndex.val, candidate.nodeKey.val)

theorem selectionOrder_iff (left right : ParsedCandidate nfc) : selectionOrder left right ↔ left.key ≤ right.key := by
  unfold selectionOrder ParsedCandidate.key
  rw [Prod.Lex.le_iff]
  rfl

theorem selectionSort_eq (candidates : List (ParsedCandidate nfc)) :
    candidates.insertionSort selectionOrder = keySort ParsedCandidate.key candidates := by
  have hrel : (selectionOrder : ParsedCandidate nfc → ParsedCandidate nfc → Prop) = fun a b => a.key ≤ b.key :=
    funext fun a => funext fun b => propext (selectionOrder_iff a b)
  unfold keySort
  congr!

theorem select_tieRules : TieRules (@selectCandidate nfc requiredMilestone) ParsedCandidate.key Eq where
  equivalence := eq_equivalence
  respects := by
    rintro state _ candidate rfl
    cases selectCandidate requiredMilestone state candidate with
    | error f => exact .refused f
    | ok next => exact .accepted rfl
  commutes := by
    intro state a b t u hkey ha hb
    have hnode : a.nodeKey.val = b.nodeKey.val := congrArg (fun key => (ofLex key).2) hkey
    obtain ⟨rfl, rfl⟩ := selectCandidate_tied requiredMilestone t u a b hnode
      (selectCandidate_binding requiredMilestone state t a ha) hb
    exact ⟨u, u, ha, hb, rfl⟩
  blames := by
    intro state es t c f htied hes hc
    cases es with
    | nil =>
      obtain rfl := Except.ok.inj hes
      exact .inl hc
    | cons e rest =>
      obtain ⟨first, hfirst, hrest⟩ := (foldlM_cons_ok state t e rest).mp hes
      have hknown := selectCandidate_binding requiredMilestone state first e hfirst
      have hstays : t = first := by
        have hkeys (e' : ParsedCandidate nfc) (he' : e' ∈ rest) : e.nodeKey.val = e'.nodeKey.val := by
          have hkey := (htied e (List.mem_cons_self ..)).trans (htied e' (List.mem_cons_of_mem _ he')).symm
          exact congrArg (fun key => (ofLex key).2) hkey
        clear hc htied hes
        induction rest with
        | nil => exact (Except.ok.inj hrest).symm
        | cons e' rest ih =>
          obtain ⟨second, hsecond, hthen⟩ := (foldlM_cons_ok first t e' rest).mp hrest
          obtain ⟨-, rfl⟩ := selectCandidate_tied requiredMilestone first second e e' (hkeys e' (List.mem_cons_self ..)) hknown
            hsecond
          exact ih hthen fun e'' he'' => hkeys e'' (List.mem_cons_of_mem _ he'')
      subst hstays
      exact .inr ⟨e, List.mem_cons_self .., t, hfirst, hc⟩

/-! ### Refusals among tied candidates -/

def offers (candidate : ParsedCandidate nfc) (identity : JsString) : Bool :=
  candidate.artifacts.val.any fun artifact => artifact.artifactIdentity.val = identity

/-- What a candidate is refused with after `before` is selected. -/
def candidateRefusal (requiredMilestone : QualifyingMilestone) (before : List (ParsedCandidate nfc))
    (candidate : ParsedCandidate nfc) : Option MaterializationFailure :=
  if milestoneRank candidate.milestone < milestoneRank requiredMilestone then some (unqualified candidate.nodeKey)
  else if before.any fun other => other.nodeKey = candidate.nodeKey && other ≠ candidate then
    some (ambiguous candidate.nodeKey)
  else if before.contains candidate then none
  else (candidate.artifacts.val.find? fun artifact => before.any fun other => offers other artifact.artifactIdentity).map
    fun artifact => ambiguous artifact.artifactIdentity

/-- What the state holds after the candidates of `before` are selected. -/
structure Selected (before : List (ParsedCandidate nfc)) (state : SelectionState nfc) : Prop where
  producers : ∀ key binding, state.producers.get key = some binding ↔
    ∃ candidate ∈ before, candidate.nodeKey.val = key ∧ producerBinding candidate = binding
  claimed : state.claimed = state.entries.map fun entry => entry.artifactIdentity.val
  distinct : state.claimed.Nodup
  entries : ∃ chosen : List (ParsedCandidate nfc), chosen.Sublist before ∧ (∀ candidate ∈ before, candidate ∈ chosen)
    ∧ (chosen.map fun candidate => candidate.nodeKey.val).Nodup
    ∧ state.entries = chosen.flatMap fun candidate => candidate.artifacts.val.map (toEntry candidate)

theorem start_selected : Selected [] (SelectionState.start : SelectionState nfc) :=
  ⟨by simp [SelectionState.start], rfl, List.nodup_nil, [], List.Sublist.refl _, nofun, List.nodup_nil, rfl⟩

theorem Selected.claimed_iff {before : List (ParsedCandidate nfc)} {state : SelectionState nfc} (h : Selected before state)
    (identity : JsString) : identity ∈ state.claimed ↔ before.any (fun candidate => offers candidate identity) = true := by
  obtain ⟨chosen, hsub, hcovers, -, hentries⟩ := h.entries
  rw [h.claimed, hentries]
  simp only [List.map_flatMap, List.map_map, List.mem_flatMap, List.mem_map, List.any_eq_true, offers, decide_eq_true_eq,
    Function.comp_apply, toEntry]
  constructor
  · rintro ⟨candidate, hcandidate, artifact, hartifact, rfl⟩
    exact ⟨candidate, hsub.subset hcandidate, artifact, hartifact, rfl⟩
  · rintro ⟨candidate, hcandidate, artifact, hartifact, rfl⟩
    exact ⟨candidate, hcovers candidate hcandidate, artifact, hartifact, rfl⟩

theorem Selected.find_claimed {before : List (ParsedCandidate nfc)} {state : SelectionState nfc} (h : Selected before state)
    (candidate : ParsedCandidate nfc) :
    (candidate.artifacts.val.find? fun artifact => artifact.artifactIdentity.val ∈ state.claimed) =
      candidate.artifacts.val.find? fun artifact => before.any fun other => offers other artifact.artifactIdentity := by
  refine List.find?_congr fun artifact _ => ?_
  rw [Bool.eq_iff_iff, decide_eq_true_eq]
  exact h.claimed_iff artifact.artifactIdentity

theorem Selected.known_iff {before : List (ParsedCandidate nfc)} {state : SelectionState nfc} (h : Selected before state)
    (candidate : ParsedCandidate nfc) :
    state.producers.get candidate.nodeKey = some (producerBinding candidate) ↔ candidate ∈ before := by
  rw [h.producers]
  constructor
  · rintro ⟨other, hother, -, hbinding⟩
    rw [← producerBinding_inj _ _ hbinding]
    exact hother
  · intro hmem
    exact ⟨candidate, hmem, rfl, rfl⟩

theorem Selected.rival_iff {before : List (ParsedCandidate nfc)} {state : SelectionState nfc} (h : Selected before state)
    (candidate : ParsedCandidate nfc) :
    before.any (fun other => other.nodeKey = candidate.nodeKey && other ≠ candidate) = true ↔
      ∃ known, state.producers.get candidate.nodeKey = some known ∧ known ≠ producerBinding candidate := by
  simp only [List.any_eq_true, Bool.and_eq_true, decide_eq_true_eq]
  constructor
  · rintro ⟨other, hother, hkey, hne⟩
    refine ⟨producerBinding other, (h.producers _ _).mpr ⟨other, hother, congrArg Subtype.val hkey, rfl⟩, ?_⟩
    exact fun hbinding => hne (producerBinding_inj _ _ hbinding)
  · rintro ⟨known, hknown, hne⟩
    obtain ⟨other, hother, hkey, rfl⟩ := (h.producers _ _).mp hknown
    refine ⟨other, hother, Subtype.ext hkey, ?_⟩
    rintro rfl
    exact hne rfl

theorem selectCandidate_error_iff {before : List (ParsedCandidate nfc)}
    {state : SelectionState nfc} (h : Selected before state) (candidate : ParsedCandidate nfc) (f : MaterializationFailure) :
    selectCandidate requiredMilestone state candidate = .error f ↔
      candidateRefusal requiredMilestone before candidate = some f := by
  have hverdict := selectCandidate_verdict requiredMilestone state candidate
  have hrival := h.rival_iff candidate
  have hknown := h.known_iff candidate
  have hunseen (hget : state.producers.get candidate.nodeKey = none) :
      ¬ (before.any fun other => other.nodeKey = candidate.nodeKey && other ≠ candidate) = true
        ∧ ¬ before.contains candidate = true := by
    rw [hrival, List.contains_iff_mem, ← hknown, hget]
    exact ⟨fun ⟨_, hother, _⟩ => (nomatch hother), nofun⟩
  unfold candidateRefusal
  revert hverdict
  generalize selectCandidate requiredMilestone state candidate = result
  intro hverdict
  cases hverdict with
  | unqualified hrank => simp [hrank]
  | rival hrank hget hne =>
    rw [if_neg hrank, if_pos (hrival.mpr ⟨_, hget, hne⟩)]
    simp
  | again hrank hget =>
    have hnone : ¬ before.any (fun other => other.nodeKey = candidate.nodeKey && other ≠ candidate) = true := by
      rw [hrival]
      rintro ⟨known, hother, hne⟩
      exact hne (Option.some.inj (hother.symm.trans hget))
    rw [if_neg hrank, if_neg hnone, if_pos (List.contains_iff_mem.mpr (hknown.mp hget))]
    simp
  | claimed hrank hget hfind =>
    obtain ⟨hnone, hnew⟩ := hunseen hget
    rw [if_neg hrank, if_neg hnone, if_neg hnew, ← h.find_claimed candidate, hfind]
    simp
  | fresh hrank hget hfind =>
    obtain ⟨hnone, hnew⟩ := hunseen hget
    rw [if_neg hrank, if_neg hnone, if_neg hnew, ← h.find_claimed candidate, hfind]
    simp

theorem Selected.next {before : List (ParsedCandidate nfc)}
    {state next : SelectionState nfc} (h : Selected before state) (candidate : ParsedCandidate nfc)
    (hok : selectCandidate requiredMilestone state candidate = .ok next) : Selected (before ++ [candidate]) next := by
  obtain ⟨chosen, hsub, hcovers, hkeys, hentries⟩ := h.entries
  have hverdict := selectCandidate_verdict requiredMilestone state candidate
  rw [hok] at hverdict
  cases hverdict with
  | again _ hget =>
    have hmem := (h.known_iff candidate).mp hget
    refine ⟨fun key binding => ?_, h.claimed, h.distinct, chosen, hsub.trans (List.sublist_append_left ..), ?_, hkeys, hentries⟩
    · rw [h.producers]
      constructor
      · rintro ⟨other, hother, hrest⟩
        exact ⟨other, List.mem_append_left _ hother, hrest⟩
      · rintro ⟨other, hother, hrest⟩
        obtain hother | hother := List.mem_append.mp hother
        · exact ⟨other, hother, hrest⟩
        · exact ⟨other, List.mem_singleton.mp hother ▸ hmem, hrest⟩
    · intro other hother
      obtain hother | hother := List.mem_append.mp hother
      · exact hcovers other hother
      · exact hcovers other (List.mem_singleton.mp hother ▸ hmem)
  | fresh _ hnew hfind =>
    have hfresh : ∀ other ∈ before, other.nodeKey.val ≠ candidate.nodeKey.val := by
      intro other hother hkey
      have hget := (h.producers _ _).mpr ⟨other, hother, hkey, rfl⟩
      rw [hnew] at hget
      cases hget
    have hidentities : (candidate.artifacts.val.map fun artifact => artifact.artifactIdentity.val).Nodup :=
      List.pairwise_map.mpr (candidate.artifacts.property.imp fun hlt => ne_of_lt hlt)
    refine ⟨fun key binding => ?_, ?_, ?_, chosen ++ [candidate], hsub.append_right _, ?_, ?_, ?_⟩
    · simp only [SelectionState.add, OrdMap.get_set]
      split
      · rename_i hkey
        constructor
        · intro hbinding
          exact ⟨candidate, by simp, hkey.symm, Option.some.inj hbinding⟩
        · rintro ⟨other, hother, hother', rfl⟩
          obtain hother | hother := List.mem_append.mp hother
          · exact absurd (hother'.trans hkey) (hfresh other hother)
          · rw [List.mem_singleton.mp hother]
      · rename_i hkey
        rw [h.producers]
        constructor
        · rintro ⟨other, hother, hrest⟩
          exact ⟨other, List.mem_append_left _ hother, hrest⟩
        · rintro ⟨other, hother, hother', hbinding⟩
          obtain hother | hother := List.mem_append.mp hother
          · exact ⟨other, hother, hother', hbinding⟩
          · exact absurd (List.mem_singleton.mp hother ▸ hother').symm hkey
    · simp [SelectionState.add, h.claimed, toEntry]
    · refine List.nodup_append.mpr ⟨h.distinct, hidentities, ?_⟩
      intro identity hidentity other hother heq
      obtain ⟨artifact, hartifact, rfl⟩ := List.mem_map.mp hother
      have hnot := List.find?_eq_none.mp hfind artifact hartifact
      exact hnot (by simpa [heq] using hidentity)
    · intro other hother
      obtain hother | hother := List.mem_append.mp hother
      · exact List.mem_append_left _ (hcovers other hother)
      · exact List.mem_append_right _ hother
    · rw [List.map_append, List.nodup_append]
      refine ⟨hkeys, List.nodup_singleton _, ?_⟩
      intro key hkey key' hkey' heq
      obtain ⟨other, hother, rfl⟩ := List.mem_map.mp hkey
      obtain rfl : key' = candidate.nodeKey.val := List.mem_singleton.mp hkey'
      exact hfresh other (hsub.subset hother) heq
    · simp [SelectionState.add, hentries]

theorem foldlM_selected (before after : List (ParsedCandidate nfc))
    (state last : SelectionState nfc) (h : Selected before state)
    (hok : after.foldlM (selectCandidate requiredMilestone) state = .ok last) : Selected (before ++ after) last := by
  induction after generalizing before state with
  | nil =>
    obtain rfl := Except.ok.inj hok
    rw [List.append_nil]
    exact h
  | cons candidate rest ih =>
    obtain ⟨next, hnext, hrest⟩ := (foldlM_cons_ok state last candidate rest).mp hok
    have hstep := ih (before ++ [candidate]) next (h.next requiredMilestone candidate hnext) hrest
    rwa [List.append_assoc] at hstep

/-- Tied candidates are refused alike in whatever order they come. -/
def CandidateTiesAgree (requiredMilestone : QualifyingMilestone) (candidates : List (ParsedCandidate nfc)) : Prop :=
  RefusedAlike ParsedCandidate.key (candidateRefusal requiredMilestone) candidates

theorem candidateTiesAgree_iff (candidates : List (ParsedCandidate nfc)) :
    TiesAgree (selectCandidate requiredMilestone) ParsedCandidate.key SelectionState.start candidates ↔
      CandidateTiesAgree requiredMilestone candidates := by
  refine tiesAgree_iff SelectionState.start (fun before state hstate candidate f => ?_) candidates
  have hselected := foldlM_selected requiredMilestone [] before _ state start_selected hstate
  rw [List.nil_append] at hselected
  exact selectCandidate_error_iff requiredMilestone hselected candidate f

end MoeNG.Materialization
