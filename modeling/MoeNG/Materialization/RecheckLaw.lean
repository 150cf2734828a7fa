import Mathlib.Data.List.Find
import Mathlib.Data.Prod.Lex
import MoeNG.Lib.TiedFold
import MoeNG.Materialization.Recheck

/-!
# The recheck and the order of the contracts
-/

namespace MoeNG.Materialization
open MoeNG.Kernel hiding refOf digestOf countOf isCount isRef
open MoeNG.Lib MoeNG.Supervisor

variable {nfc : JsString → JsString}

/-! ### One contract -/

/-- What two declarations of one witness have to agree on. -/
def sealOf (witness : MirroredWitnessBinding nfc) : Count × Digest := (witness.witnessVersion, witness.witnessDigest)

theorem disagrees_iff (previous witness : MirroredWitnessBinding nfc) :
    disagrees previous witness = true ↔ sealOf previous ≠ sealOf witness := by
  simp only [disagrees, sealOf, Bool.or_eq_true, decide_eq_true_eq, ne_eq, Prod.mk.injEq]
  tauto

def contradicted (state : RecheckState nfc) (witness : MirroredWitnessBinding nfc) : Bool :=
  (state.declared.get witness.witnessRef).any fun previous => disagrees previous witness

def declare (stability : MirroredStability) (state : RecheckState nfc) (witness : MirroredWitnessBinding nfc) :
    RecheckState nfc where
  revocable := match stability with
    | .MONOTONIC => state.revocable
    | .REVOCABLE => state.revocable.set witness.witnessRef witness
  exempt := match stability with
    | .MONOTONIC => state.exempt ++ [witness.witnessRef.val]
    | .REVOCABLE => state.exempt
  declared := state.declared.set witness.witnessRef witness

theorem declareWitness_eq (stability : MirroredStability) (state : RecheckState nfc) (witness : MirroredWitnessBinding nfc) :
    declareWitness stability state witness =
      if contradicted state witness then .error (disagreeing witness.witnessRef) else .ok (declare stability state witness) := by
  unfold declareWitness contradicted declare
  cases stability <;> rfl

theorem declareWitnesses_eq (stability : MirroredStability) (witnesses : List (MirroredWitnessBinding nfc))
    (state : RecheckState nfc) (h : witnesses.Pairwise fun a b => a.witnessRef.val < b.witnessRef.val) :
    witnesses.foldlM (declareWitness stability) state =
      match witnesses.find? (contradicted state) with
      | some witness => .error (disagreeing witness.witnessRef)
      | none => .ok (witnesses.foldl (declare stability) state) := by
  induction witnesses generalizing state with
  | nil => rfl
  | cons witness rest ih =>
    obtain ⟨hfirst, hrest⟩ := List.pairwise_cons.mp h
    rw [List.foldlM_cons, List.find?_cons, declareWitness_eq]
    cases hcontradicted : contradicted state witness with
    | true => rfl
    | false =>
      refine (ih (declare stability state witness) hrest).trans ?_
      have hsame : rest.find? (contradicted (declare stability state witness)) = rest.find? (contradicted state) := by
        refine List.find?_congr fun next hnext => ?_
        have hne : next.witnessRef.val ≠ witness.witnessRef.val := (hfirst next hnext).ne'
        unfold contradicted declare
        rw [OrdMap.get_set, if_neg (by simpa using hne)]
      rw [hsame]
      rfl

theorem get_declare (stability : MirroredStability) (witnesses : List (MirroredWitnessBinding nfc)) (state : RecheckState nfc)
    (h : witnesses.Pairwise fun a b => a.witnessRef.val < b.witnessRef.val) (ref : JsString) :
    (witnesses.foldl (declare stability) state).declared.get ref =
      (witnesses.find? fun witness => witness.witnessRef.val = ref).or (state.declared.get ref) := by
  induction witnesses generalizing state with
  | nil => rfl
  | cons witness rest ih =>
    obtain ⟨hfirst, hrest⟩ := List.pairwise_cons.mp h
    rw [List.foldl_cons, ih _ hrest, List.find?_cons]
    unfold declare
    rw [OrdMap.get_set]
    by_cases hkey : witness.witnessRef.val = ref
    · have hnone : (rest.find? fun next => next.witnessRef.val = ref) = none :=
        List.find?_eq_none.mpr fun next hnext => by
          have hlt := hfirst next hnext
          rw [hkey] at hlt
          simpa using hlt.ne'
      simp [hkey, hnone]
    · simp [hkey, Ne.symm hkey]

theorem revocable_declare (stability : MirroredStability) (witnesses : List (MirroredWitnessBinding nfc))
    (state : RecheckState nfc) (h : witnesses.Pairwise fun a b => a.witnessRef.val < b.witnessRef.val) (ref : JsString) :
    (witnesses.foldl (declare stability) state).revocable.get ref =
      match stability with
      | .MONOTONIC => state.revocable.get ref
      | .REVOCABLE => (witnesses.find? fun witness => witness.witnessRef.val = ref).or (state.revocable.get ref) := by
  induction witnesses generalizing state with
  | nil => cases stability <;> rfl
  | cons witness rest ih =>
    obtain ⟨hfirst, hrest⟩ := List.pairwise_cons.mp h
    rw [List.foldl_cons, ih _ hrest]
    cases stability with
    | MONOTONIC => rfl
    | REVOCABLE =>
      simp only [List.find?_cons, declare, OrdMap.get_set]
      by_cases hkey : witness.witnessRef.val = ref
      · have hnone : (rest.find? fun next => next.witnessRef.val = ref) = none :=
          List.find?_eq_none.mpr fun next hnext => by
            have hlt := hfirst next hnext
            rw [hkey] at hlt
            simpa using hlt.ne'
        simp [hkey, hnone]
      · simp [hkey, Ne.symm hkey]

theorem exempt_declare (stability : MirroredStability) (witnesses : List (MirroredWitnessBinding nfc))
    (state : RecheckState nfc) :
    (witnesses.foldl (declare stability) state).exempt =
      match stability with
      | .MONOTONIC => state.exempt ++ witnesses.map fun witness => witness.witnessRef.val
      | .REVOCABLE => state.exempt := by
  induction witnesses generalizing state with
  | nil => cases stability <;> simp
  | cons witness rest ih =>
    rw [List.foldl_cons, ih]
    cases stability <;> simp [declare]

/-- The witnesses of a contract, and the one of them with a given reference. -/
def MirroredDependencyContract.witness (contract : MirroredDependencyContract nfc) (ref : JsString) :
    Option (MirroredWitnessBinding nfc) :=
  contract.satisfactionWitnesses.val.find? fun witness => witness.witnessRef.val = ref

theorem witness_iff (contract : MirroredDependencyContract nfc) (ref : JsString) (witness : MirroredWitnessBinding nfc) :
    contract.witness ref = some witness ↔ witness ∈ contract.satisfactionWitnesses.val ∧ witness.witnessRef.val = ref := by
  have hnodup : (contract.satisfactionWitnesses.val.map fun witness => witness.witnessRef.val).Nodup :=
    List.pairwise_map.mpr (contract.satisfactionWitnesses.property.imp fun hlt => ne_of_lt hlt)
  constructor
  · intro h
    exact ⟨List.mem_of_find?_eq_some h, by simpa using List.find?_some h⟩
  · rintro ⟨hmem, rfl⟩
    exact find_key_of_mem (fun witness : MirroredWitnessBinding nfc => witness.witnessRef.val) _ hnodup witness hmem

/-- The state after an accepted contract. -/
def declareContract (stability : MirroredStability) (state : RecheckState nfc) (contract : MirroredDependencyContract nfc) :
    RecheckState nfc := contract.satisfactionWitnesses.val.foldl (declare stability) state

variable (registry : List (MirroredMonotonicProof nfc))

theorem recheckContract_eq (state : RecheckState nfc) (contract : MirroredDependencyContract nfc) :
    recheckContract registry state contract = (resolveStability contract registry).bind fun stability =>
      match contract.satisfactionWitnesses.val.find? (contradicted state) with
      | some witness => .error (disagreeing witness.witnessRef)
      | none => .ok (declareContract stability state contract) := by
  unfold recheckContract
  cases resolveStability contract registry with
  | error f => rfl
  | ok stability =>
    exact declareWitnesses_eq stability contract.satisfactionWitnesses.val state contract.satisfactionWitnesses.property

/-- No witness of the contract is contradicted. -/
def Agrees (state : RecheckState nfc) (contract : MirroredDependencyContract nfc) : Prop :=
  ∀ witness ∈ contract.satisfactionWitnesses.val, ∀ previous, state.declared.get witness.witnessRef = some previous →
    sealOf previous = sealOf witness

theorem agrees_iff (state : RecheckState nfc) (contract : MirroredDependencyContract nfc) :
    contract.satisfactionWitnesses.val.find? (contradicted state) = none ↔ Agrees state contract := by
  simp only [List.find?_eq_none, contradicted, Option.any_eq_true, disagrees_iff, not_exists, not_and, not_not, Agrees]

theorem recheckContract_ok (state next : RecheckState nfc) (contract : MirroredDependencyContract nfc) :
    recheckContract registry state contract = .ok next ↔
      ∃ stability, resolveStability contract registry = .ok stability ∧ Agrees state contract
        ∧ next = declareContract stability state contract := by
  rw [recheckContract_eq, ← agrees_iff]
  cases resolveStability contract registry with
  | error f => simp [Except.bind]
  | ok stability =>
    simp only [Except.bind, Except.ok.injEq, exists_eq_left']
    cases contract.satisfactionWitnesses.val.find? (contradicted state) <;> simp [eq_comm]

theorem recheckContract_error (state : RecheckState nfc)
    (contract : MirroredDependencyContract nfc) (f : MaterializationFailure) :
    recheckContract registry state contract = .error f ↔
      resolveStability contract registry = .error f
        ∨ (∃ stability, resolveStability contract registry = .ok stability)
          ∧ ∃ witness, contract.satisfactionWitnesses.val.find? (contradicted state) = some witness
            ∧ f = disagreeing witness.witnessRef := by
  rw [recheckContract_eq]
  cases resolveStability contract registry with
  | error f' => simp [Except.bind]
  | ok stability =>
    cases contract.satisfactionWitnesses.val.find? (contradicted state) <;> simp [Except.bind, eq_comm]

/-! ### States alike -/

/-- The part of a witness that the verdict reads. -/
def unclassed (witness : MirroredWitnessBinding nfc) : MirroredWitnessBinding nfc :=
  { witness with sourceOperationClass := .ARTIFACT_SEAL }

theorem unclassed_eq (a b : MirroredWitnessBinding nfc) (href : a.witnessRef.val = b.witnessRef.val)
    (hseal : sealOf a = sealOf b) : unclassed a = unclassed b := by
  obtain ⟨ref, version, digest, operation⟩ := a
  obtain ⟨ref', version', digest', operation'⟩ := b
  obtain rfl := Subtype.ext href
  obtain ⟨rfl, rfl⟩ := Prod.mk.inj hseal
  rfl

/-- States that no later contract and no verdict tells apart. -/
structure SameState (state state' : RecheckState nfc) : Prop where
  declared : ∀ ref, (state.declared.get ref).map sealOf = (state'.declared.get ref).map sealOf
  revocable : ∀ ref, (state.revocable.get ref).map unclassed = (state'.revocable.get ref).map unclassed
  exempt : ∀ ref, ref ∈ state.exempt ↔ ref ∈ state'.exempt

theorem sameState_equivalence : Equivalence (@SameState nfc) where
  refl _ := ⟨fun _ => rfl, fun _ => rfl, fun _ => Iff.rfl⟩
  symm h := ⟨fun ref => (h.declared ref).symm, fun ref => (h.revocable ref).symm, fun ref => (h.exempt ref).symm⟩
  trans h h' := ⟨fun ref => (h.declared ref).trans (h'.declared ref), fun ref => (h.revocable ref).trans (h'.revocable ref),
    fun ref => (h.exempt ref).trans (h'.exempt ref)⟩

theorem contradicted_eq (state : RecheckState nfc) (witness : MirroredWitnessBinding nfc) :
    contradicted state witness =
      ((state.declared.get witness.witnessRef).map sealOf).any fun previous => previous ≠ sealOf witness := by
  unfold contradicted
  cases state.declared.get witness.witnessRef with
  | none => rfl
  | some previous =>
    rw [Option.any_some, Option.map_some, Option.any_some, Bool.eq_iff_iff, disagrees_iff, decide_eq_true_eq]

theorem or_map_congr {A B : Type} (f : A → B) (x y y' : Option A) (h : y.map f = y'.map f) :
    (x.or y).map f = (x.or y').map f := by
  cases x with
  | none => simpa using h
  | some a => rfl

theorem declareContract_same (stability : MirroredStability) {state state' : RecheckState nfc} (h : SameState state state')
    (contract : MirroredDependencyContract nfc) :
    SameState (declareContract stability state contract) (declareContract stability state' contract) := by
  have hsorted := contract.satisfactionWitnesses.property
  refine ⟨fun ref => ?_, fun ref => ?_, fun ref => ?_⟩
  · unfold declareContract
    rw [get_declare stability _ state hsorted, get_declare stability _ state' hsorted]
    exact or_map_congr sealOf _ _ _ (h.declared ref)
  · unfold declareContract
    rw [revocable_declare stability _ state hsorted, revocable_declare stability _ state' hsorted]
    cases stability with
    | MONOTONIC => exact h.revocable ref
    | REVOCABLE => exact or_map_congr unclassed _ _ _ (h.revocable ref)
  · unfold declareContract
    rw [exempt_declare, exempt_declare]
    cases stability with
    | MONOTONIC => simp only [List.mem_append, h.exempt ref]
    | REVOCABLE => exact h.exempt ref

/-- What accepted contracts add: each declares the seals of its witnesses, and changes none. -/
theorem declared_after (state next : RecheckState nfc)
    (contract : MirroredDependencyContract nfc) (h : recheckContract registry state contract = .ok next) (ref : JsString)
    (value : Count × Digest) :
    (next.declared.get ref).map sealOf = some value ↔
      (state.declared.get ref).map sealOf = some value ∨ (contract.witness ref).map sealOf = some value := by
  obtain ⟨stability, -, hagrees, rfl⟩ := (recheckContract_ok registry state next contract).mp h
  unfold declareContract
  rw [get_declare stability _ state contract.satisfactionWitnesses.property]
  change ((contract.witness ref).or (state.declared.get ref)).map sealOf = some value ↔ _
  cases hwitness : contract.witness ref with
  | none => simp
  | some witness =>
    obtain ⟨hmem, rfl⟩ := (witness_iff contract ref witness).mp hwitness
    rw [Option.some_or]
    constructor
    · exact Or.inr
    · rintro (hbefore | hown)
      · obtain ⟨previous, hprevious, rfl⟩ := Option.map_eq_some_iff.mp hbefore
        rw [hagrees witness hmem previous hprevious]
        rfl
      · exact hown

theorem declared_fold (contracts : List (MirroredDependencyContract nfc))
    (state last : RecheckState nfc) (h : contracts.foldlM (recheckContract registry) state = .ok last) (ref : JsString)
    (value : Count × Digest) :
    (last.declared.get ref).map sealOf = some value ↔
      (state.declared.get ref).map sealOf = some value
        ∨ ∃ contract ∈ contracts, (contract.witness ref).map sealOf = some value := by
  induction contracts generalizing state with
  | nil =>
    obtain rfl := Except.ok.inj h
    simp
  | cons contract rest ih =>
    obtain ⟨next, hnext, hrest⟩ := (foldlM_cons_ok state last contract rest).mp h
    rw [ih next hrest, declared_after registry state next contract hnext, or_assoc]
    simp only [List.exists_mem_cons_iff]

/-- Fewer declarations contradict fewer witnesses. -/
theorem agrees_of_fewer {state state' : RecheckState nfc} (contract : MirroredDependencyContract nfc)
    (h : ∀ ref value, (state.declared.get ref).map sealOf = some value → (state'.declared.get ref).map sealOf = some value)
    (hagrees : Agrees state' contract) : Agrees state contract := by
  intro witness hwitness previous hprevious
  have hlater := h witness.witnessRef (sealOf previous) (by rw [hprevious]; rfl)
  obtain ⟨later, hget, hseal⟩ := Option.map_eq_some_iff.mp hlater
  rw [← hseal]
  exact hagrees witness hwitness later hget

/-! ### Contract order -/

def MirroredDependencyContract.key (contract : MirroredDependencyContract nfc) : JsString ×ₗ JsString :=
  toLex (contract.producerNodeKey.val, contract.consumerNodeKey.val)

theorem contractSort_eq (contracts : List (MirroredDependencyContract nfc)) :
    contracts.insertionSort contractOrder = keySort MirroredDependencyContract.key contracts := by
  have hrel : (contractOrder : MirroredDependencyContract nfc → MirroredDependencyContract nfc → Prop) =
      fun a b => a.key ≤ b.key := by
    refine funext fun a => funext fun b => propext ?_
    unfold contractOrder MirroredDependencyContract.key
    rw [Prod.Lex.le_iff]
    rfl
  unfold keySort
  congr!

/-- Two contracts that are accepted one after the other are accepted the other way round. -/
theorem recheckContract_swap (state t u : RecheckState nfc)
    (a b : MirroredDependencyContract nfc) (ha : recheckContract registry state a = .ok t)
    (hb : recheckContract registry t b = .ok u) :
    ∃ t' u', recheckContract registry state b = .ok t' ∧ recheckContract registry t' a = .ok u' ∧ SameState u u' := by
  have hafter := declared_after registry state t a ha
  obtain ⟨stability, hstability, hagrees, rfl⟩ := (recheckContract_ok registry state t a).mp ha
  obtain ⟨stability', hstability', hagrees', rfl⟩ := (recheckContract_ok registry _ u b).mp hb
  have hb' : recheckContract registry state b = .ok (declareContract stability' state b) :=
    (recheckContract_ok registry state _ b).mpr ⟨stability', hstability',
      agrees_of_fewer b (fun ref value h => (hafter ref value).mpr (Or.inl h)) hagrees', rfl⟩
  have hafter' := declared_after registry state _ b hb'
  -- the two contracts declare their common witnesses alike
  have hcommon (ref : JsString) (w w' : MirroredWitnessBinding nfc) (hw : a.witness ref = some w)
      (hw' : b.witness ref = some w') : sealOf w = sealOf w' := by
    obtain ⟨hmem', rfl⟩ := (witness_iff b ref w').mp hw'
    have hget := (hafter w'.witnessRef (sealOf w)).mpr (Or.inr (by rw [hw]; rfl))
    obtain ⟨previous, hprevious, hseal⟩ := Option.map_eq_some_iff.mp hget
    rw [← hseal]
    exact hagrees' w' hmem' previous hprevious
  have hagreesBack : Agrees (declareContract stability' state b) a := by
    intro w hw previous hprevious
    have hsome : ((declareContract stability' state b).declared.get w.witnessRef).map sealOf = some (sealOf previous) := by
      rw [hprevious]
      rfl
    obtain hbefore | hother := (hafter' w.witnessRef (sealOf previous)).mp hsome
    · obtain ⟨earlier, hearlier, hseal⟩ := Option.map_eq_some_iff.mp hbefore
      rw [← hseal]
      exact hagrees w hw earlier hearlier
    · obtain ⟨w', hw', hseal⟩ := Option.map_eq_some_iff.mp hother
      rw [← hseal]
      exact (hcommon w.witnessRef w w' ((witness_iff a _ w).mpr ⟨hw, rfl⟩) hw').symm
  refine ⟨_, _, hb', (recheckContract_ok registry _ _ a).mpr ⟨stability, hstability, hagreesBack, rfl⟩, ?_⟩
  have hleft := a.satisfactionWitnesses.property
  have hright := b.satisfactionWitnesses.property
  have hunclassed (ref : JsString) (w w' : MirroredWitnessBinding nfc) (hw : a.witness ref = some w)
      (hw' : b.witness ref = some w') : unclassed w = unclassed w' :=
    unclassed_eq w w' (((witness_iff a ref w).mp hw).2.trans ((witness_iff b ref w').mp hw').2.symm) (hcommon ref w w' hw hw')
  refine ⟨fun ref => ?_, fun ref => ?_, fun ref => ?_⟩
  · unfold declareContract
    rw [get_declare _ _ _ hright, get_declare _ _ _ hleft, get_declare _ _ _ hleft, get_declare _ _ _ hright]
    change ((b.witness ref).or ((a.witness ref).or _)).map sealOf = ((a.witness ref).or ((b.witness ref).or _)).map sealOf
    cases hw : a.witness ref with
    | none => simp
    | some w =>
      cases hw' : b.witness ref with
      | none => simp
      | some w' => simp [hcommon ref w w' hw hw']
  · unfold declareContract
    rw [revocable_declare _ _ _ hright, revocable_declare _ _ _ hleft, revocable_declare _ _ _ hleft,
      revocable_declare _ _ _ hright]
    cases stability with
    | MONOTONIC => cases stability' <;> rfl
    | REVOCABLE =>
      cases stability' with
      | MONOTONIC => rfl
      | REVOCABLE =>
        change ((b.witness ref).or ((a.witness ref).or _)).map unclassed =
          ((a.witness ref).or ((b.witness ref).or _)).map unclassed
        cases hw : a.witness ref with
        | none => simp
        | some w =>
          cases hw' : b.witness ref with
          | none => simp
          | some w' => simp [hunclassed ref w w' hw hw']
  · unfold declareContract
    rw [exempt_declare, exempt_declare, exempt_declare, exempt_declare]
    cases stability with
    | REVOCABLE => cases stability' <;> rfl
    | MONOTONIC =>
      cases stability' with
      | REVOCABLE => rfl
      | MONOTONIC =>
        simp only [List.mem_append]
        exact or_right_comm

/-- A witness contradicted first after some contracts is contradicted first after none, or after one of them. -/
theorem recheckContract_blames (state last : RecheckState nfc)
    (contracts : List (MirroredDependencyContract nfc)) (contract : MirroredDependencyContract nfc) (f : MaterializationFailure)
    (hfold : contracts.foldlM (recheckContract registry) state = .ok last)
    (h : recheckContract registry last contract = .error f) :
    recheckContract registry state contract = .error f
      ∨ ∃ other ∈ contracts, ∃ next, recheckContract registry state other = .ok next
        ∧ recheckContract registry next contract = .error f := by
  obtain hmismatch | ⟨hstability, witness, hfind, hf⟩ := (recheckContract_error registry last contract f).mp h
  · exact .inl ((recheckContract_error registry state contract f).mpr (.inl hmismatch))
  obtain ⟨hcontradicted, front, back, hsplit, hfront⟩ := List.find?_eq_some_iff_append.mp hfind
  have hlast := declared_fold registry contracts state last hfold
  -- a state that declares less, and still contradicts the witness, refuses it first too
  have hrefused (next : RecheckState nfc)
      (hfewer : ∀ ref value, (next.declared.get ref).map sealOf = some value → (last.declared.get ref).map sealOf = some value)
      (hstill : contradicted next witness = true) : recheckContract registry next contract = .error f := by
    refine (recheckContract_error registry next contract f).mpr (.inr ⟨hstability, witness, ?_, hf⟩)
    refine List.find?_eq_some_iff_append.mpr ⟨hstill, front, back, hsplit, fun earlier hearlier => ?_⟩
    have hnot := hfront earlier hearlier
    rw [Bool.not_eq_true'] at hnot ⊢
    rw [contradicted_eq] at hnot ⊢
    cases hget : (next.declared.get earlier.witnessRef).map sealOf with
    | none => rfl
    | some value =>
      rw [hfewer _ value hget] at hnot
      exact hnot
  rw [contradicted_eq] at hcontradicted
  obtain ⟨value, hvalue, hne⟩ := (Option.any_eq_true _ _).mp hcontradicted
  obtain hstart | ⟨other, hother, hdeclares⟩ := (hlast witness.witnessRef value).mp hvalue
  · refine .inl (hrefused state (fun ref v hv => (hlast ref v).mpr (.inl hv)) ?_)
    rw [contradicted_eq, hstart]
    exact hne
  · obtain ⟨pre, post, rfl⟩ := List.append_of_mem hother
    rw [List.foldlM_append] at hfold
    obtain ⟨middle, hpre, hpost⟩ := except_bind_ok _ _ _ hfold
    obtain ⟨after, hafter, -⟩ := (foldlM_cons_ok middle last other post).mp hpost
    obtain ⟨stability, hother', hagrees, -⟩ := (recheckContract_ok registry middle after other).mp hafter
    have halone : recheckContract registry state other = .ok (declareContract stability state other) := by
      refine (recheckContract_ok registry state _ other).mpr ⟨stability, hother', ?_, rfl⟩
      exact agrees_of_fewer other (fun ref v hv => (declared_fold registry pre state middle hpre ref v).mpr (.inl hv)) hagrees
    have hnext := declared_after registry state _ other halone
    refine .inr ⟨other, by simp, _, halone, hrefused _ (fun ref v hv => ?_) ?_⟩
    · obtain hbefore | hown := (hnext ref v).mp hv
      · exact (hlast ref v).mpr (.inl hbefore)
      · exact (hlast ref v).mpr (.inr ⟨other, by simp, hown⟩)
    · rw [contradicted_eq, (hnext witness.witnessRef value).mpr (.inr hdeclares)]
      exact hne

theorem recheck_tieRules : TieRules (recheckContract registry) MirroredDependencyContract.key SameState where
  equivalence := sameState_equivalence
  respects := by
    intro state state' contract hsame
    have hcontradicted : contradicted state = contradicted state' := by
      funext witness
      rw [contradicted_eq, contradicted_eq, hsame.declared]
    rw [recheckContract_eq, recheckContract_eq, hcontradicted]
    cases resolveStability contract registry with
    | error f => exact .refused f
    | ok stability =>
      simp only [Except.bind]
      cases contract.satisfactionWitnesses.val.find? (contradicted state') with
      | some witness => exact .refused _
      | none => exact .accepted (declareContract_same stability hsame contract)
  commutes := fun state a b t u _ ha hb => recheckContract_swap registry state t u a b ha hb
  blames := fun state contracts t contract f _ hfold h => recheckContract_blames registry state t contracts contract f hfold h

/-! ### Refusals among tied contracts -/

/-- Some contract of the list declares the witness with another version or digest. -/
def contradicts (before : List (MirroredDependencyContract nfc)) (witness : MirroredWitnessBinding nfc) : Bool :=
  before.any fun other => (other.witness witness.witnessRef).any fun previous => disagrees previous witness

/-- What a contract is refused with after those of `before`. -/
def contractRefusal (registry : List (MirroredMonotonicProof nfc)) (before : List (MirroredDependencyContract nfc))
    (contract : MirroredDependencyContract nfc) : Option MaterializationFailure :=
  match resolveStability contract registry with
  | .error f => some f
  | .ok _ => (contract.satisfactionWitnesses.val.find? (contradicts before)).map fun witness => disagreeing witness.witnessRef

/-- Tied contracts are refused alike in whatever order they come. -/
def ContractTiesAgree (registry : List (MirroredMonotonicProof nfc)) (contracts : List (MirroredDependencyContract nfc)) :
    Prop := RefusedAlike MirroredDependencyContract.key (contractRefusal registry) contracts

theorem contradicted_contradicts (before : List (MirroredDependencyContract nfc)) (state : RecheckState nfc)
    (h : before.foldlM (recheckContract registry) RecheckState.start = .ok state) : contradicted state = contradicts before := by
  funext witness
  have hdeclared := declared_fold registry before _ state h witness.witnessRef
  have hstart : (RecheckState.start : RecheckState nfc).declared.get witness.witnessRef = none := rfl
  simp only [hstart, Option.map_none, reduceCtorEq, false_or] at hdeclared
  rw [contradicted_eq, Bool.eq_iff_iff, Option.any_eq_true]
  unfold contradicts
  simp only [List.any_eq_true, Option.any_eq_true, hdeclared, disagrees_iff, decide_eq_true_eq]
  constructor
  · rintro ⟨value, ⟨other, hother, hvalue⟩, hne⟩
    obtain ⟨previous, hprevious, rfl⟩ := Option.map_eq_some_iff.mp hvalue
    exact ⟨other, hother, previous, hprevious, hne⟩
  · rintro ⟨other, hother, previous, hprevious, hne⟩
    exact ⟨sealOf previous, ⟨other, hother, by rw [hprevious]; rfl⟩, hne⟩

theorem contractTiesAgree_iff (contracts : List (MirroredDependencyContract nfc)) :
    TiesAgree (recheckContract registry) MirroredDependencyContract.key RecheckState.start contracts ↔
      ContractTiesAgree registry contracts := by
  refine tiesAgree_iff RecheckState.start (fun before state hstate contract f => ?_) contracts
  rw [recheckContract_error, contradicted_contradicts registry before state hstate]
  unfold contractRefusal
  cases resolveStability contract registry with
  | error f' => simp
  | ok stability => cases contract.satisfactionWitnesses.val.find? (contradicts before) <;> simp [eq_comm]

/-! ### The verdict -/

theorem revocable_keyed (contracts : List (MirroredDependencyContract nfc))
    (state last : RecheckState nfc) (h : contracts.foldlM (recheckContract registry) state = .ok last)
    (hkeyed : ∀ ref witness, state.revocable.get ref = some witness → witness.witnessRef.val = ref) :
    ∀ ref witness, last.revocable.get ref = some witness → witness.witnessRef.val = ref := by
  induction contracts generalizing state with
  | nil =>
    obtain rfl := Except.ok.inj h
    exact hkeyed
  | cons contract rest ih =>
    obtain ⟨next, hnext, hrest⟩ := (foldlM_cons_ok state last contract rest).mp h
    refine ih next hrest fun ref witness hget => ?_
    obtain ⟨stability, -, -, rfl⟩ := (recheckContract_ok registry state next contract).mp hnext
    unfold declareContract at hget
    rw [revocable_declare stability _ state contract.satisfactionWitnesses.property] at hget
    cases stability with
    | MONOTONIC => exact hkeyed ref witness hget
    | REVOCABLE =>
      obtain hown | ⟨-, hbefore⟩ := Option.or_eq_some_iff.mp hget
      · exact ((witness_iff contract ref witness).mp hown).2
      · exact hkeyed ref witness hbefore

def revocables (state : RecheckState nfc) : List (MirroredWitnessBinding nfc) := state.revocable.entries.map Prod.snd

theorem revocables_nodup (state : RecheckState nfc)
    (hkeyed : ∀ ref witness, state.revocable.get ref = some witness → witness.witnessRef.val = ref) :
    ((revocables state).map fun witness => witness.witnessRef.val).Nodup := by
  have hkeys : (revocables state).map (fun witness => witness.witnessRef.val) = state.revocable.entries.map Prod.fst := by
    unfold revocables
    rw [List.map_map]
    refine List.map_congr_left fun e he => ?_
    exact hkeyed e.1 e.2 (state.revocable.get_of_mem_entries e.1 e.2 he)
  rw [hkeys]
  exact state.revocable.nodup

theorem mem_revocables (state : RecheckState nfc) (value : MirroredWitnessBinding nfc) :
    value ∈ (revocables state).map unclassed ↔ ∃ ref, (state.revocable.get ref).map unclassed = some value := by
  unfold revocables
  simp only [List.mem_map, Prod.exists, Option.map_eq_some_iff, exists_eq_right]
  constructor
  · rintro ⟨witness, ⟨ref, hmem⟩, rfl⟩
    exact ⟨ref, witness, state.revocable.get_of_mem_entries ref witness hmem, rfl⟩
  · rintro ⟨ref, witness, hget, rfl⟩
    exact ⟨witness, ⟨ref, state.revocable.mem_entries_of_get ref witness hget⟩, rfl⟩

/-- The revocable witnesses in the order the verdict walks them, less what it does not read. -/
theorem sealed_same {state state' : RecheckState nfc} (h : SameState state state')
    (hkeyed : ∀ ref witness, state.revocable.get ref = some witness → witness.witnessRef.val = ref)
    (hkeyed' : ∀ ref witness, state'.revocable.get ref = some witness → witness.witnessRef.val = ref) :
    (sealedWitnesses state).map unclassed = (sealedWitnesses state').map unclassed := by
  have hrefs (l : List (MirroredWitnessBinding nfc)) :
      (l.map unclassed).map (fun witness => witness.witnessRef.val) = l.map fun witness => witness.witnessRef.val := by
    rw [List.map_map]
    rfl
  have hcommute (l : List (MirroredWitnessBinding nfc)) :
      (sortByRef (fun witness => witness.witnessRef.val) l).map unclassed =
        sortByRef (fun witness => witness.witnessRef.val) (l.map unclassed) :=
    List.map_insertionSort _ _ _ _ fun _ _ _ _ => Iff.rfl
  have hnodup := revocables_nodup state hkeyed
  have hnodup' := revocables_nodup state' hkeyed'
  rw [← hrefs] at hnodup hnodup'
  unfold sealedWitnesses
  rw [hcommute, hcommute]
  refine sortByRef_congr _ ?_ ((hasDuplicates_eq_false _).mpr hnodup')
  refine (List.perm_ext_iff_of_nodup (List.Nodup.of_map _ hnodup) (List.Nodup.of_map _ hnodup')).mpr fun value => ?_
  rw [mem_revocables state, mem_revocables state']
  simp only [h.revocable]

theorem compareWitnesses_unclassed (facts : List (CurrentWitnessFact nfc)) (witnesses : List (MirroredWitnessBinding nfc)) :
    compareWitnesses facts witnesses = compareWitnesses facts (witnesses.map unclassed) := by
  unfold compareWitnesses
  induction witnesses with
  | nil => rfl
  | cons witness rest ih =>
    rw [List.map_cons]
    change (compareWitness witness _ >>= fun _ => rest.forM _) = (compareWitness (unclassed witness) _ >>= fun _ => _)
    rw [ih]
    rfl

theorem exemptRefs_same {state state' : RecheckState nfc} (h : SameState state state') : exemptRefs state
    = exemptRefs state' := by
  have hhas (ref : JsString) : state.revocable.has ref = state'.revocable.has ref := by
    have hsame := congrArg Option.isSome (h.revocable ref)
    rwa [Option.isSome_map, Option.isSome_map] at hsame
  refine insertionSort_congr _ _ (fun _ _ _ _ _ _ hxy hyz => le_trans hxy hyz) ?_
  refine (List.perm_ext_iff_of_nodup (state.exempt.nodup_dedup.filter _) (state'.exempt.nodup_dedup.filter _)).mpr fun ref => ?_
  simp only [List.mem_filter, List.mem_dedup, h.exempt ref, hhas ref]

theorem recheckVerdict_same (facts : List (CurrentWitnessFact nfc)) {state state' : RecheckState nfc}
    (h : SameState state state')
    (hkeyed : ∀ ref witness, state.revocable.get ref = some witness → witness.witnessRef.val = ref)
    (hkeyed' : ∀ ref witness, state'.revocable.get ref = some witness → witness.witnessRef.val = ref) :
    recheckVerdict facts state = recheckVerdict facts state' := by
  have hsealed := sealed_same h hkeyed hkeyed'
  have hrefs : (sealedWitnesses state).map (fun witness => witness.witnessRef.val) =
      (sealedWitnesses state').map fun witness => witness.witnessRef.val := by
    have hmapped := congrArg (List.map fun witness => witness.witnessRef.val) hsealed
    rw [List.map_map, List.map_map] at hmapped
    exact hmapped
  unfold recheckVerdict
  rw [compareWitnesses_unclassed, compareWitnesses_unclassed facts (sealedWitnesses state'), hsealed, hrefs, exemptRefs_same h]

end MoeNG.Materialization
