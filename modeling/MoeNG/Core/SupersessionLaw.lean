import MoeNG.Core.Supersession
import MoeNG.Kernel.WellFormed
import MoeNG.Lib.Run

/-!
# Laws of the supersession kernel

A decision does not depend on the order of the request, and the framed bytes
behind its hash determine it.
-/

namespace MoeNG.Core.Supersession
open MoeNG.Kernel MoeNG.Lib MoeNG.Core

/-! ### Frames (`supersession-engine.ts:217-226`) -/

theorem wellFormed_decimal (n : ℕ) : wellFormed (decimal n) = true :=
  wellFormed_plain _ fun c hc => isSurrogate_of_lt c ((decimal_ascii n c hc).trans (by decide))

theorem sized_prefixCode : PrefixCode sized := by
  intro a b x y h
  have hcolon : utf8 (lit ":") = [octet 58] := by decide
  have hfree (n : ℕ) : octet 58 ∉ utf8 (decimal n) := by
    rw [utf8_ascii _ (decimal_ascii n), List.mem_map]
    rintro ⟨c, hc, heq⟩
    have hdigit := decimal_digit n c hc
    have hval := (octet_eq_iff _ _).mp heq
    omega
  simp only [sized, hcolon, List.append_assoc, List.singleton_append] at h
  obtain ⟨hlength, h⟩ := append_separator_inj _ _ _ _ _ (hfree _) (hfree _) h
  exact List.append_inj h
    (decimal_injective (utf8_wellFormed_inj _ _ (wellFormed_decimal _) (wellFormed_decimal _) hlength))

theorem frame_inj (label v w : JsString) (x y : List Byte) (hv : wellFormed v = true) (hw : wellFormed w = true)
    (h : frame label v ++ x = frame label w ++ y) : v = w ∧ x = y := by
  rw [frame, frame, List.append_assoc, List.append_assoc] at h
  obtain ⟨-, h⟩ := sized_prefixCode _ _ _ _ h
  obtain ⟨hbytes, hrest⟩ := sized_prefixCode _ _ _ _ h
  exact ⟨utf8_wellFormed_inj v w hv hw hbytes, hrest⟩

theorem frame_decimal_inj (label : JsString) (m n : ℕ) (x y : List Byte)
    (h : frame label (decimal m) ++ x = frame label (decimal n) ++ y) : m = n ∧ x = y := by
  obtain ⟨hdecimal, hrest⟩ := frame_inj label _ _ x y (wellFormed_decimal m) (wellFormed_decimal n) h
  exact ⟨decimal_injective hdecimal, hrest⟩

theorem frame_bool_inj (label : JsString) (a b : Bool) (x y : List Byte)
    (h : frame label (boolText a) ++ x = frame label (boolText b) ++ y) : a = b ∧ x = y := by
  have hwell (b : Bool) : wellFormed (boolText b) = true := by cases b <;> decide
  obtain ⟨htext, hrest⟩ := frame_inj label _ _ x y (hwell a) (hwell b) h
  refine ⟨?_, hrest⟩
  revert htext
  cases a <;> cases b <;> decide

theorem frame_kind_inj (label : JsString) (a b : SupersessionDispositionKind) (x y : List Byte)
    (h : frame label (lit a.text) ++ x = frame label (lit b.text) ++ y) : a = b ∧ x = y := by
  have hwell (k : SupersessionDispositionKind) : wellFormed (lit k.text) = true := by cases k <;> decide
  obtain ⟨htext, hrest⟩ := frame_inj label _ _ x y (hwell a) (hwell b) h
  refine ⟨?_, hrest⟩
  revert htext
  cases a <;> cases b <;> decide

theorem isDigest_wellFormed (s : JsString) (h : isDigest s = true) : wellFormed s = true := by
  simp only [isDigest, Bool.and_eq_true, List.all_eq_true, decide_eq_true_eq] at h
  refine wellFormed_plain s fun c hc => isSurrogate_of_lt c ?_
  rcases h.2 c hc with ⟨-, hle⟩ | ⟨-, hle⟩
  · exact (Fin.le_def.mp hle).trans_lt (by decide)
  · exact (Fin.le_def.mp hle).trans_lt (by decide)

/-- A null is told apart from every digest. -/
theorem frame_nullable_inj (label : JsString) (a b : Option JsString) (x y : List Byte) (ha : a.all validHex64 = true)
    (hb : b.all validHex64 = true) (h : frame label (nullable a) ++ x = frame label (nullable b) ++ y) : a = b ∧ x = y := by
  have hwell (o : Option JsString) (ho : o.all validHex64 = true) : wellFormed (nullable o) = true := by
    cases o with
    | none => decide
    | some s => exact isDigest_wellFormed s ho
  have hlength (s : JsString) (hs : validHex64 s = true) : s.length = 64 := by
    simp only [validHex64, isDigest, Bool.and_eq_true, decide_eq_true_eq] at hs
    exact hs.1
  obtain ⟨htext, hrest⟩ := frame_inj label _ _ x y (hwell a ha) (hwell b hb) h
  refine ⟨?_, hrest⟩
  cases a with
  | none =>
    cases b with
    | none => rfl
    | some s =>
      have hs := hlength s hb
      rw [show s = lit "<null>" from htext.symm] at hs
      exact absurd hs (by decide)
  | some s =>
    cases b with
    | none =>
      have hs := hlength s ha
      rw [show s = lit "<null>" from htext] at hs
      exact absurd hs (by decide)
    | some t => exact congrArg some htext

/-! ### The preimage (`supersession-engine.ts:227-246`) -/

structure FaithfulFacts (facts : CarryForwardInput) : Prop where
  canonicalizerVersion : wellFormed facts.canonicalizerVersion = true
  sourceHash : wellFormed facts.sourceHash = true
  targetHash : wellFormed facts.targetHash = true

structure FaithfulBinding (value : SupersessionPredecessorBinding) : Prop where
  revisionId : wellFormed value.revisionId = true
  graphContentHash : wellFormed value.graphContentHash = true
  graphEpoch : 0 ≤ value.graphEpoch

structure Faithful (entry : SupersessionDisposition) : Prop where
  nodeKey : wellFormed entry.nodeKey = true
  before : entry.predecessorAuthorityHash.all validHex64 = true
  after : entry.successorAuthorityHash.all validHex64 = true
  carry : ∀ carry, entry.safeCarry = some carry → FaithfulFacts carry.authority ∧ FaithfulFacts carry.inputBinding

/-- A decision whose texts the encoding keeps apart. -/
structure FaithfulDecision (d : UnsealedDecision) : Prop where
  dispositions : ∀ entry ∈ d.dispositions, Faithful entry
  predecessor : FaithfulBinding d.predecessor.toSupersessionPredecessorBinding
  superseded : d.predecessor.lifecycle = .SUPERSEDED
  successor : FaithfulBinding d.successor.toSupersessionPredecessorBinding
  origin : wellFormed d.successor.predecessorRevisionId = true ∧ wellFormed d.successor.predecessorGraphContentHash = true
  active : d.successor.lifecycle = .ACTIVE
  versions : ∀ version ∈ d.supportedCanonicalizerVersions, wellFormed version = true

theorem frameCarryFacts_inj (label : JsString) (a b : CarryForwardInput) (x y : List Byte) (ha : FaithfulFacts a)
    (hb : FaithfulFacts b) (h : frameCarryFacts label a ++ x = frameCarryFacts label b ++ y) : a = b ∧ x = y := by
  simp only [frameCarryFacts, List.append_assoc] at h
  obtain ⟨hversion, h⟩ := frame_inj _ _ _ _ _ ha.canonicalizerVersion hb.canonicalizerVersion h
  obtain ⟨hdependencies, h⟩ := frame_bool_inj _ _ _ _ _ h
  obtain ⟨henvironment, h⟩ := frame_bool_inj _ _ _ _ _ h
  obtain ⟨hpolicy, h⟩ := frame_bool_inj _ _ _ _ _ h
  obtain ⟨hresult, h⟩ := frame_bool_inj _ _ _ _ _ h
  obtain ⟨hsource, h⟩ := frame_inj _ _ _ _ _ ha.sourceHash hb.sourceHash h
  obtain ⟨htarget, h⟩ := frame_inj _ _ _ _ _ ha.targetHash hb.targetHash h
  exact ⟨CarryForwardInput.mk.injEq .. |>.mpr ⟨hversion, hdependencies, henvironment, hpolicy, hresult, hsource, htarget⟩, h⟩

theorem frameBinding_inj (label : String) (a b : SupersessionPredecessorBinding) (x y : List Byte) (ha : FaithfulBinding a)
    (hb : FaithfulBinding b) (h : frameBinding label a ++ x = frameBinding label b ++ y) : a = b ∧ x = y := by
  simp only [frameBinding, List.append_assoc] at h
  obtain ⟨hrevision, h⟩ := frame_inj _ _ _ _ _ ha.revisionId hb.revisionId h
  obtain ⟨hcontent, h⟩ := frame_inj _ _ _ _ _ ha.graphContentHash hb.graphContentHash h
  obtain ⟨hepoch, h⟩ := frame_decimal_inj _ _ _ _ _ h
  have hposa := ha.graphEpoch
  have hposb := hb.graphEpoch
  exact ⟨SupersessionPredecessorBinding.mk.injEq .. |>.mpr ⟨hcontent, by omega, hrevision⟩, h⟩

/-- The frames behind `safeCarry.present`. -/
def frameCarry (label : JsString) (carry : Option SupersessionSafeCarry) : List Byte :=
  match carry with
  | none => []
  | some carry => frameCarryFacts (label ++ lit "safeCarry.authority.") carry.authority
      ++ frameCarryFacts (label ++ lit "safeCarry.inputBinding.") carry.inputBinding

theorem frameDisposition_eq (index : ℕ) (entry : SupersessionDisposition) : frameDisposition index entry =
    let label := lit "dispositions." ++ decimal index ++ lit "."
    frame (label ++ lit "nodeKey") entry.nodeKey ++ frame (label ++ lit "kind") (lit entry.kind.text)
      ++ frame (label ++ lit "predecessorAuthorityHash") (nullable entry.predecessorAuthorityHash)
      ++ frame (label ++ lit "successorAuthorityHash") (nullable entry.successorAuthorityHash)
      ++ frame (label ++ lit "safeCarry.present") (boolText entry.safeCarry.isSome) ++ frameCarry label entry.safeCarry := rfl

theorem frameCarry_inj (label : JsString) (a b : Option SupersessionSafeCarry) (x y : List Byte)
    (ha : ∀ carry, a = some carry → FaithfulFacts carry.authority ∧ FaithfulFacts carry.inputBinding)
    (hb : ∀ carry, b = some carry → FaithfulFacts carry.authority ∧ FaithfulFacts carry.inputBinding)
    (hpresent : a.isSome = b.isSome) (h : frameCarry label a ++ x = frameCarry label b ++ y) : a = b ∧ x = y := by
  cases a with
  | none =>
    cases b with
    | none => exact ⟨rfl, by simpa [frameCarry] using h⟩
    | some c => cases hpresent
  | some c =>
    cases b with
    | none => cases hpresent
    | some c' =>
      simp only [frameCarry, List.append_assoc] at h
      obtain ⟨hauthority, h⟩ := frameCarryFacts_inj _ _ _ _ _ (ha c rfl).1 (hb c' rfl).1 h
      obtain ⟨hinput, h⟩ := frameCarryFacts_inj _ _ _ _ _ (ha c rfl).2 (hb c' rfl).2 h
      exact ⟨congrArg some (SupersessionSafeCarry.mk.injEq .. |>.mpr ⟨hauthority, hinput⟩), h⟩

theorem frameDisposition_inj (index : ℕ) (a b : SupersessionDisposition) (x y : List Byte) (ha : Faithful a)
    (hb : Faithful b) (h : frameDisposition index a ++ x = frameDisposition index b ++ y) : a = b ∧ x = y := by
  simp only [frameDisposition_eq, List.append_assoc] at h
  obtain ⟨hnodeKey, h⟩ := frame_inj _ _ _ _ _ ha.nodeKey hb.nodeKey h
  obtain ⟨hkind, h⟩ := frame_kind_inj _ _ _ _ _ h
  obtain ⟨hbefore, h⟩ := frame_nullable_inj _ _ _ _ _ ha.before hb.before h
  obtain ⟨hafter, h⟩ := frame_nullable_inj _ _ _ _ _ ha.after hb.after h
  obtain ⟨hpresent, h⟩ := frame_bool_inj _ _ _ _ _ h
  obtain ⟨hcarry, h⟩ := frameCarry_inj _ _ _ _ _ ha.carry hb.carry hpresent h
  exact ⟨SupersessionDisposition.mk.injEq .. |>.mpr ⟨hkind, hnodeKey, hbefore, hcarry, hafter⟩, h⟩

theorem authorityPreimage_inj (d d' : UnsealedDecision) (hd : FaithfulDecision d) (hd' : FaithfulDecision d')
    (h : authorityPreimage d = authorityPreimage d') : d = d' := by
  rw [← List.append_nil (authorityPreimage d), ← List.append_nil (authorityPreimage d')] at h
  simp only [authorityPreimage, List.append_assoc, hd.superseded, hd'.superseded, hd.active, hd'.active] at h
  obtain ⟨-, h⟩ := List.append_inj h rfl
  obtain ⟨hpredecessor, h⟩ := frameBinding_inj _ _ _ _ _ hd.predecessor hd'.predecessor h
  obtain ⟨-, h⟩ := List.append_inj h rfl
  obtain ⟨hsuccessor, h⟩ := frameBinding_inj _ _ _ _ _ hd.successor hd'.successor h
  obtain ⟨horigin, h⟩ := frame_inj _ _ _ _ _ hd.origin.1 hd'.origin.1 h
  obtain ⟨hcontent, h⟩ := frame_inj _ _ _ _ _ hd.origin.2 hd'.origin.2 h
  obtain ⟨-, h⟩ := List.append_inj h rfl
  obtain ⟨hcount, h⟩ := frame_decimal_inj _ _ _ _ _ h
  obtain ⟨hdispositions, h⟩ := mapIdx_flatten_inj Faithful frameDisposition frameDisposition_inj _ _ _ _ hd.dispositions
    hd'.dispositions hcount h
  obtain ⟨hcount', h⟩ := frame_decimal_inj _ _ _ _ _ h
  obtain ⟨hversions, -⟩ := mapIdx_flatten_inj (fun v => wellFormed v = true)
    (fun index version => frame (lit "supportedCanonicalizerVersions." ++ decimal index) version)
    (fun _ a b x y ha hb => frame_inj _ a b x y ha hb) _ _ _ _ hd.versions hd'.versions hcount' h
  have hold : d.predecessor = d'.predecessor :=
    DecidedPredecessor.mk.injEq .. |>.mpr ⟨hpredecessor, hd.superseded.trans hd'.superseded.symm⟩
  have hnext : d.successor = d'.successor := by
    refine DecidedSuccessor.mk.injEq .. |>.mpr ⟨?_, hd.active.trans hd'.active.symm⟩
    exact SupersessionSuccessorBinding.mk.injEq .. |>.mpr ⟨hsuccessor, hcontent, horigin⟩
  exact UnsealedDecision.mk.injEq .. |>.mpr ⟨hdispositions, hold, hnext, hversions⟩

/-! ### Accepted requests (`supersession-engine.ts:183-215`, `supersession-engine.ts:249-268`) -/

def factTexts (facts : CarryForwardInput) : List JsString := [facts.canonicalizerVersion, facts.sourceHash, facts.targetHash]

def dispositionTexts (entry : SupersessionDisposition) : List JsString :=
  entry.nodeKey :: (entry.predecessorAuthorityHash.toList ++ entry.successorAuthorityHash.toList
    ++ entry.safeCarry.toList.flatMap fun carry => factTexts carry.authority ++ factTexts carry.inputBinding)

def bindingTexts (value : SupersessionPredecessorBinding) : List JsString := [value.revisionId, value.graphContentHash]

/-- Every string of a request. -/
def requestTexts (current : SupersessionPredecessorBinding) (candidate : SupersessionInput) : List JsString :=
  bindingTexts current ++ bindingTexts candidate.expectedPredecessor
    ++ bindingTexts candidate.successor.toSupersessionPredecessorBinding
    ++ [candidate.successor.predecessorRevisionId, candidate.successor.predecessorGraphContentHash]
    ++ candidate.supportedCanonicalizerVersions ++ candidate.dispositions.flatMap dispositionTexts

def WellFormedRequest (current : SupersessionPredecessorBinding) (candidate : SupersessionInput) : Prop :=
  ∀ text ∈ requestTexts current candidate, wellFormed text = true

def sortedDispositions (candidate : SupersessionInput) : List SupersessionDisposition :=
  candidate.dispositions.mergeSort fun left right => left.nodeKey ≤ right.nodeKey

def Carried (entry : SupersessionDisposition) (versions : List JsString) : Prop :=
  ∃ carry, entry.safeCarry = some carry ∧ evaluateCarryForward carry.authority versions = some ⟨[], true⟩
    ∧ evaluateCarryForward carry.inputBinding versions = some ⟨[], true⟩

theorem carriesForward_iff (facts : CarryForwardInput) (versions : List JsString) :
    carriesForward facts versions = true ↔ evaluateCarryForward facts versions = some ⟨[], true⟩ := by
  unfold carriesForward evaluateCarryForward
  split
  · simp
  · split
    · simp
    · simp only [Option.any_some, Option.some.injEq, CarryForwardVerdict.mk.injEq, decide_eq_true_eq, List.length_eq_zero_iff]
      tauto

theorem normalizedDisposition_some (versions : List JsString) (entry normal : SupersessionDisposition)
    (hvalid : disposition entry = true) (h : normalizedDisposition versions entry = some normal) :
    normal = entry ∧ (entry.kind = .CARRY → Carried entry versions) := by
  unfold normalizedDisposition at h
  split at h
  · obtain ⟨carry, hcarry, rfl⟩ := Option.map_eq_some_iff.mp h
    unfold validCarry at hcarry
    split at hcarry
    · cases hcarry
    · rename_i offered hoffered
      obtain ⟨hguards, hsame⟩ := Option.ite_none_right_eq_some.mp hcarry
      obtain rfl := Option.some.inj hsame
      simp only [Bool.and_eq_true, carriesForward_iff] at hguards
      exact ⟨by rw [← hoffered], fun _ => ⟨offered, hoffered, hguards.1.1.1, hguards.1.1.2⟩⟩
  · rename_i hkind
    refine ⟨?_, fun hcarry => absurd hcarry hkind⟩
    simp only [disposition, Bool.and_eq_true, Bool.or_eq_true, decide_eq_true_eq, hkind, false_or] at hvalid
    obtain rfl := Option.some.inj h
    rw [← Option.isNone_iff_eq_none.mp hvalid.2]

/-- What is known of an accepted request and its decision. -/
structure Accepted (sha256 : List Byte → JsString) (current : SupersessionPredecessorBinding) (candidate : SupersessionInput)
    (d : SupersessionDecision) : Prop where
  known : binding current = true
  structural : structuralInput candidate = true
  next : monotonic current candidate.successor = true
  carried : ∀ entry ∈ candidate.dispositions, entry.kind = .CARRY → Carried entry candidate.supportedCanonicalizerVersions
  decision : d.toUnsealedDecision =
    { dispositions := sortedDispositions candidate
      predecessor := { current with lifecycle := .SUPERSEDED }
      successor := { candidate.successor with lifecycle := .ACTIVE }
      supportedCanonicalizerVersions :=
        candidate.supportedCanonicalizerVersions.mergeSort fun left right => left ≤ right }
  hash : d.authorityHash = sha256 (authorityPreimage d.toUnsealedDecision)

theorem decideSupersession_accepted (sha256 : List Byte → JsString) (current : SupersessionPredecessorBinding)
    (candidate : SupersessionInput) (d : SupersessionDecision)
    (h : decideSupersession sha256 current candidate = .ok d) : Accepted sha256 current candidate d := by
  unfold decideSupersession at h
  obtain ⟨hguards, h⟩ := (ite_error_ok_iff _ _ _ _).mp h
  simp only [Bool.or_eq_true, Bool.not_eq_true', not_or, Bool.not_eq_false] at hguards
  obtain ⟨⟨⟨hcurrent, hstructural⟩, -⟩, hmonotonic⟩ := hguards
  split at h
  · cases h
  · rename_i dispositions hnormal
    obtain rfl := Except.ok.inj h
    obtain ⟨hsome, hfilter⟩ := (mapM_eq_some_iff _ _ _).mp hnormal
    have hentry (entry : SupersessionDisposition) (hmem : entry ∈ sortedDispositions candidate) :
        normalizedDisposition candidate.supportedCanonicalizerVersions entry = some entry
          ∧ (entry.kind = .CARRY → Carried entry candidate.supportedCanonicalizerVersions) := by
      have hvalid : disposition entry = true := by
        simp only [structuralInput, Bool.and_eq_true, List.all_eq_true] at hstructural
        exact hstructural.1.2 entry ((List.mergeSort_perm _ _).mem_iff.mp hmem)
      obtain ⟨normal, hone⟩ := Option.isSome_iff_exists.mp (hsome entry hmem)
      obtain ⟨rfl, hcarry⟩ := normalizedDisposition_some _ entry normal hvalid hone
      exact ⟨hone, hcarry⟩
    have hsorted : dispositions = sortedDispositions candidate := by
      rw [← hfilter]
      exact (List.filterMap_congr fun entry hmem => (hentry entry hmem).1).trans List.filterMap_some
    refine ⟨hcurrent, hstructural, hmonotonic, fun entry hmem => ?_, ?_, rfl⟩
    · exact (hentry entry ((List.mergeSort_perm _ _).mem_iff.mpr hmem)).2
    · rw [← hsorted]

section Accepted
variable {sha256 : List Byte → JsString} {current : SupersessionPredecessorBinding} {candidate : SupersessionInput}
  {d : SupersessionDecision} (h : Accepted sha256 current candidate d)
include h

theorem Accepted.entry_mem (entry : SupersessionDisposition) : entry ∈ d.dispositions ↔ entry ∈ candidate.dispositions := by
  rw [h.decision]
  exact (List.mergeSort_perm _ _).mem_iff

theorem Accepted.nodup : (d.dispositions.map SupersessionDisposition.nodeKey).Nodup := by
  have hstructural := h.structural
  simp only [structuralInput, Bool.and_eq_true, Bool.not_eq_true', hasDuplicates_eq_false] at hstructural
  rw [h.decision]
  exact ((List.mergeSort_perm _ _).map _).nodup_iff.mpr hstructural.2

theorem Accepted.entry_valid (entry : SupersessionDisposition) (hentry : entry ∈ d.dispositions) : disposition entry = true := by
  have hstructural := h.structural
  simp only [structuralInput, Bool.and_eq_true, List.all_eq_true] at hstructural
  exact hstructural.1.2 entry ((h.entry_mem entry).mp hentry)

theorem Accepted.graphEpoch : d.successor.graphEpoch = d.predecessor.graphEpoch + 1 := by
  have hnext := h.next
  simp only [monotonic, Bool.and_eq_true, decide_eq_true_eq] at hnext
  rw [h.decision]
  exact hnext.1.1.1.2

theorem Accepted.carry (entry : SupersessionDisposition) (hentry : entry ∈ d.dispositions) (hkind : entry.kind = .CARRY) :
    (∃ hash, entry.predecessorAuthorityHash = some hash ∧ entry.successorAuthorityHash = some hash)
      ∧ Carried entry candidate.supportedCanonicalizerVersions := by
  refine ⟨?_, h.carried entry ((h.entry_mem entry).mp hentry) hkind⟩
  have hvalid := h.entry_valid entry hentry
  simp only [disposition, validHashes, hkind, Bool.and_eq_true, decide_eq_true_eq] at hvalid
  obtain ⟨hash, hhash⟩ := Option.isSome_iff_exists.mp hvalid.1.2.2.1
  exact ⟨hash, hhash, hvalid.1.2.2.2 ▸ hhash⟩

theorem Accepted.faithful (hwell : WellFormedRequest current candidate) : FaithfulDecision d.toUnsealedDecision := by
  have hbinding (value : SupersessionPredecessorBinding) (hvalid : binding value = true)
      (htexts : ∀ text ∈ bindingTexts value, wellFormed text = true) : FaithfulBinding value := by
    simp only [binding, validEpoch, Bool.and_eq_true, decide_eq_true_eq] at hvalid
    simp only [bindingTexts, List.forall_mem_cons] at htexts
    exact ⟨htexts.1, htexts.2.1, hvalid.2.2.le⟩
  simp only [WellFormedRequest, requestTexts, List.forall_mem_append] at hwell
  obtain ⟨⟨⟨⟨⟨hcurrent, -⟩, hsuccessor⟩, horigin⟩, hversions⟩, hentries⟩ := hwell
  have hnext : binding candidate.successor.toSupersessionPredecessorBinding = true := by
    have hstructural := h.structural
    simp only [structuralInput, successor, Bool.and_eq_true] at hstructural
    tauto
  have hfacts (facts : CarryForwardInput) (htexts : ∀ text ∈ factTexts facts, wellFormed text = true) : FaithfulFacts facts := by
    simp only [factTexts, List.forall_mem_cons] at htexts
    exact ⟨htexts.1, htexts.2.1, htexts.2.2.1⟩
  have hentry (entry : SupersessionDisposition) (hmem : entry ∈ d.dispositions) : Faithful entry := by
    have hvalid := h.entry_valid entry hmem
    simp only [disposition, validHashes, Bool.and_eq_true] at hvalid
    have htexts (text : JsString) (ht : text ∈ dispositionTexts entry) : wellFormed text = true :=
      hentries text (List.mem_flatMap.mpr ⟨entry, (h.entry_mem entry).mp hmem, ht⟩)
    refine ⟨htexts _ (List.mem_cons_self ..), hvalid.1.2.1.1, hvalid.1.2.1.2, fun carry hcarry => ?_⟩
    have hcarried (text : JsString) (ht : text ∈ factTexts carry.authority ++ factTexts carry.inputBinding) :
        wellFormed text = true := by
      refine htexts text (List.mem_cons_of_mem _ (List.mem_append_right _ (List.mem_flatMap.mpr ⟨carry, ?_, ht⟩)))
      rw [hcarry]
      exact List.mem_singleton_self carry
    exact ⟨hfacts _ fun text ht => hcarried text (List.mem_append_left _ ht),
      hfacts _ fun text ht => hcarried text (List.mem_append_right _ ht)⟩
  refine ⟨hentry, ?_, ?_, ?_, ?_, ?_, fun version hmem => ?_⟩
  · rw [h.decision]
    exact hbinding current h.known hcurrent
  · rw [h.decision]
  · rw [h.decision]
    exact hbinding _ hnext hsuccessor
  · rw [h.decision]
    simp only [List.forall_mem_cons] at horigin
    exact ⟨horigin.1, horigin.2.1⟩
  · rw [h.decision]
  · rw [h.decision] at hmem
    exact hversions version ((List.mergeSort_perm _ _).mem_iff.mp hmem)

end Accepted

/-! ### The order of a request -/

structure Reordered (candidate reordered : SupersessionInput) : Prop where
  dispositions : reordered.dispositions.Perm candidate.dispositions
  supportedCanonicalizerVersions : reordered.supportedCanonicalizerVersions.Perm candidate.supportedCanonicalizerVersions
  expectedPredecessor : reordered.expectedPredecessor = candidate.expectedPredecessor
  successor : reordered.successor = candidate.successor

section Reordered
variable {candidate reordered : SupersessionInput} (h : Reordered candidate reordered)
include h

theorem Reordered.structural : structuralInput reordered = structuralInput candidate := by
  simp only [structuralInput, h.expectedPredecessor, h.successor, h.dispositions.length_eq, h.dispositions.all_eq,
    h.supportedCanonicalizerVersions.length_eq, h.supportedCanonicalizerVersions.all_eq,
    hasDuplicates_perm h.supportedCanonicalizerVersions, hasDuplicates_perm (h.dispositions.map _)]

theorem Reordered.carriesForward (facts : CarryForwardInput) :
    carriesForward facts reordered.supportedCanonicalizerVersions
      = carriesForward facts candidate.supportedCanonicalizerVersions := by
  have hreasons : carryForwardReasons facts reordered.supportedCanonicalizerVersions
      = carryForwardReasons facts candidate.supportedCanonicalizerVersions := by
    rw [carryForwardReasons, carryForwardReasons]
    congr 1
    simp only [h.supportedCanonicalizerVersions.mem_iff]
  rw [Supersession.carriesForward, Supersession.carriesForward, evaluateCarryForward, evaluateCarryForward, hreasons,
    h.supportedCanonicalizerVersions.length_eq, h.supportedCanonicalizerVersions.all_eq]

theorem Reordered.normalized (hnodup : (candidate.dispositions.map SupersessionDisposition.nodeKey).Nodup) :
    normalizedDispositions reordered = normalizedDispositions candidate := by
  have hone : normalizedDisposition reordered.supportedCanonicalizerVersions
      = normalizedDisposition candidate.supportedCanonicalizerVersions := by
    funext entry
    simp only [normalizedDisposition, validCarry, h.carriesForward]
  have hsorted := mergeSort_key_perm SupersessionDisposition.nodeKey h.dispositions fun a ha b hb =>
    List.inj_on_of_nodup_map hnodup ha hb
  rw [normalizedDispositions, normalizedDispositions, hsorted, hone]

theorem Reordered.decision (sha256 : List Byte → JsString) (current : SupersessionPredecessorBinding) :
    decideSupersession sha256 current reordered = decideSupersession sha256 current candidate := by
  have hversions := mergeSort_key_perm id h.supportedCanonicalizerVersions fun a _ b _ heq => heq
  simp only [decideSupersession, h.structural, h.expectedPredecessor, h.successor]
  cases hstructural : structuralInput candidate with
  | false => simp
  | true =>
    simp only [structuralInput, Bool.and_eq_true, Bool.not_eq_true', hasDuplicates_eq_false] at hstructural
    rw [h.normalized hstructural.2]
    simp only [id] at hversions
    rw [hversions]

end Reordered

/-! ### The kernel -/

structure DecisionLaw (sha256 : List Byte → JsString) : Prop where
  order : ∀ current candidate reordered, Reordered candidate reordered →
    decideSupersession sha256 current reordered = decideSupersession sha256 current candidate
  bound : ∀ current candidate d current' candidate' d', decideSupersession sha256 current candidate = .ok d →
    decideSupersession sha256 current' candidate' = .ok d' → WellFormedRequest current candidate →
    WellFormedRequest current' candidate' → authorityPreimage d.toUnsealedDecision = authorityPreimage d'.toUnsealedDecision →
    d = d'
  hash : ∀ current candidate d, decideSupersession sha256 current candidate = .ok d →
    d.authorityHash = sha256 (authorityPreimage d.toUnsealedDecision)
  nodup : ∀ current candidate d, decideSupersession sha256 current candidate = .ok d →
    (d.dispositions.map SupersessionDisposition.nodeKey).Nodup
  graphEpoch : ∀ current candidate d, decideSupersession sha256 current candidate = .ok d →
    d.successor.graphEpoch = d.predecessor.graphEpoch + 1
  carry : ∀ current candidate d, decideSupersession sha256 current candidate = .ok d →
    ∀ entry ∈ d.dispositions, entry.kind = .CARRY →
      (∃ hash, entry.predecessorAuthorityHash = some hash ∧ entry.successorAuthorityHash = some hash)
        ∧ Carried entry candidate.supportedCanonicalizerVersions

theorem supersession_law (sha256 : List Byte → JsString) : DecisionLaw sha256 where
  order current _ _ h := h.decision sha256 current
  bound current candidate d current' candidate' d' hd hd' hwell hwell' hpreimage := by
    have haccepted := decideSupersession_accepted sha256 current candidate d hd
    have haccepted' := decideSupersession_accepted sha256 current' candidate' d' hd'
    have hsame := authorityPreimage_inj _ _ (haccepted.faithful hwell) (haccepted'.faithful hwell') hpreimage
    refine SupersessionDecision.mk.injEq .. |>.mpr ⟨hsame, ?_⟩
    rw [haccepted.hash, haccepted'.hash, hsame]
  hash _ _ _ h := (decideSupersession_accepted sha256 _ _ _ h).hash
  nodup _ _ _ h := (decideSupersession_accepted sha256 _ _ _ h).nodup
  graphEpoch _ _ _ h := (decideSupersession_accepted sha256 _ _ _ h).graphEpoch
  carry _ _ _ h := (decideSupersession_accepted sha256 _ _ _ h).carry

end MoeNG.Core.Supersession
