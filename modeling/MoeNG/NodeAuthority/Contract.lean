import MoeNG.Budget.Reservation
import MoeNG.Dependencies.Contract

/-!
# Node definitions (`packages/scheduler/src/node-authority/node-authority-contract.ts:68-215`)

The part of a body that its recursive identity covers is a record of its own
(`PREIMAGE_KEYS` and `declaredMigrations`, `node-authority-recursion.ts:60-68`).
-/

namespace MoeNG.NodeAuthority
open MoeNG.Kernel
open MoeNG.Budget (AdmissionPurpose)
open MoeNG.Dependencies (DependencyContract MonotonicPredicateRegistryEntry)

/-! ### Vocabulary -/

inductive NodeJoinRole where
  | COMPLETION
  | JOIN
  | NONE
  deriving DecidableEq

def NodeJoinRole.text : NodeJoinRole → String
  | COMPLETION => "COMPLETION"
  | JOIN => "JOIN"
  | NONE => "NONE"

inductive NodeAdmissionMeter where
  | attemptCount
  | cacheCreationInputTokens
  | cacheReadInputTokens
  | inputTokens
  | outputTokens
  | runnerAuthorizedMs
  | verificationAuthorizedMs
  deriving DecidableEq

def NodeAdmissionMeter.text : NodeAdmissionMeter → String
  | attemptCount => "attempt.count"
  | cacheCreationInputTokens => "provider.cache_creation_input_tokens"
  | cacheReadInputTokens => "provider.cache_read_input_tokens"
  | inputTokens => "provider.input_tokens"
  | outputTokens => "provider.output_tokens"
  | runnerAuthorizedMs => "runner.authorized_ms"
  | verificationAuthorizedMs => "verification.authorized_ms"

inductive NodeAdmissionGatePolicy where
  | HUMAN_APPROVAL
  | POLICY_ALLOWANCE
  deriving DecidableEq

def NodeAdmissionGatePolicy.text : NodeAdmissionGatePolicy → String
  | HUMAN_APPROVAL => "HUMAN_APPROVAL"
  | POLICY_ALLOWANCE => "POLICY_ALLOWANCE"

inductive NodeAuthoritySchemaVersion where
  | two
  | three
  deriving DecidableEq

def purposeText : AdmissionPurpose → String
  | .EXECUTION => "EXECUTION"
  | .VERIFICATION => "VERIFICATION"
  | .INDEPENDENT_REVIEW => "INDEPENDENT_REVIEW"
  | .FINAL_ACCEPTANCE => "FINAL_ACCEPTANCE"
  | .CONTINGENCY => "CONTINGENCY"

/-! ### Bodies -/

structure NodeAdmissionAmount where
  purpose : AdmissionPurpose
  meter : NodeAdmissionMeter
  quantity : SafeCount
  deriving DecidableEq

structure NodeCriterionBinding where
  contentDigest : JsString
  criterionId : JsString
  deriving DecidableEq

structure NodeDependencyEntry where
  contract : DependencyContract
  edgeKey : JsString
  deriving DecidableEq

/-- What the recursive identity of a node covers of its own body. -/
structure NodePreimage where
  admissionAmounts : List NodeAdmissionAmount
  admissionGatePolicy : NodeAdmissionGatePolicy
  capability : JsString
  completionLinkage : Option JsString
  constraints : List JsString
  criterionBindings : List NodeCriterionBinding
  declaredMigrations : Option (List JsString)
  joinRole : NodeJoinRole
  objective : JsString
  planExecutionContentDigest : JsString
  policySliceHash : JsString
  readScopes : List JsString
  repositoryBaseTree : JsString
  resources : List JsString
  verificationRecipeRevisions : List JsString
  writeScopes : List JsString
  deriving DecidableEq

structure NodeDefinition extends NodePreimage where
  directHardDependencies : List NodeDependencyEntry
  monotonicPredicateProofs : List MonotonicPredicateRegistryEntry
  nodeKey : JsString
  schemaVersion : NodeAuthoritySchemaVersion
  deriving DecidableEq

/-! ### Writers -/

def NodeAdmissionAmount.fields (amount : NodeAdmissionAmount) : List (String × Value) :=
  [("meter", word amount.meter.text), ("purpose", word (purposeText amount.purpose)),
    ("quantity", writeCount amount.quantity)]

def NodeAdmissionAmount.value (amount : NodeAdmissionAmount) : Value := .record (objectOf amount.fields)

def NodeCriterionBinding.fields (binding : NodeCriterionBinding) : List (String × Value) :=
  [("contentDigest", .string binding.contentDigest), ("criterionId", .string binding.criterionId)]

def NodeCriterionBinding.value (binding : NodeCriterionBinding) : Value := .record (objectOf binding.fields)

def NodePreimage.head (fields : NodePreimage) : List (String × Value) :=
  [("admissionAmounts", writeList NodeAdmissionAmount.value fields.admissionAmounts),
    ("admissionGatePolicy", word fields.admissionGatePolicy.text),
    ("capability", .string fields.capability),
    ("completionLinkage", writeOption fields.completionLinkage),
    ("constraints", writeList .string fields.constraints),
    ("criterionBindings", writeList NodeCriterionBinding.value fields.criterionBindings)]

def NodePreimage.tail (fields : NodePreimage) : List (String × Value) :=
  [("joinRole", word fields.joinRole.text),
    ("objective", .string fields.objective),
    ("planExecutionContentDigest", .string fields.planExecutionContentDigest),
    ("policySliceHash", .string fields.policySliceHash),
    ("readScopes", writeList .string fields.readScopes),
    ("repositoryBaseTree", .string fields.repositoryBaseTree),
    ("resources", writeList .string fields.resources),
    ("verificationRecipeRevisions", writeList .string fields.verificationRecipeRevisions),
    ("writeScopes", writeList .string fields.writeScopes)]

-- the one optional member is projected only when the author stated it
def NodePreimage.fields (fields : NodePreimage) : List (String × Value) :=
  match fields.declaredMigrations with
  | none => fields.head ++ fields.tail
  | some declared => fields.head ++ ("declaredMigrations", writeList .string declared) :: fields.tail

def NodePreimage.value (fields : NodePreimage) : Value := .record (objectOf fields.fields)

/-! ### The canonical text of a preimage -/

theorem NodeAdmissionMeter.word_injective : Function.Injective fun m : NodeAdmissionMeter => word m.text :=
  MoeNG.Kernel.word_injective _ [.attemptCount, .cacheCreationInputTokens, .cacheReadInputTokens, .inputTokens,
    .outputTokens, .runnerAuthorizedMs, .verificationAuthorizedMs] fun m => by cases m <;> rfl

theorem NodeAdmissionGatePolicy.word_injective : Function.Injective fun p : NodeAdmissionGatePolicy => word p.text :=
  MoeNG.Kernel.word_injective _ [.HUMAN_APPROVAL, .POLICY_ALLOWANCE] fun p => by cases p <;> rfl

theorem NodeJoinRole.word_injective : Function.Injective fun r : NodeJoinRole => word r.text :=
  MoeNG.Kernel.word_injective _ [.COMPLETION, .JOIN, .NONE] fun r => by cases r <;> rfl

theorem purpose_word_injective : Function.Injective fun p : AdmissionPurpose => word (purposeText p) :=
  MoeNG.Kernel.word_injective _ [.EXECUTION, .VERIFICATION, .INDEPENDENT_REVIEW, .FINAL_ACCEPTANCE, .CONTINGENCY]
    fun p => by cases p <;> rfl

theorem NodeAdmissionAmount.canonical : CanonicalForm NodeAdmissionAmount.value :=
  CanonicalForm.record fields ["meter", "purpose", "quantity"] (fun _ => rfl) (by decide)
    (fun amount => by simp [fields, settled_word, settled_count]) fun a b h => by
      cases a
      cases b
      simp [fields, NodeAdmissionMeter.word_injective.eq_iff, purpose_word_injective.eq_iff,
        writeCount_injective.eq_iff] at h
      simp [h]

theorem NodeCriterionBinding.canonical : CanonicalForm NodeCriterionBinding.value :=
  CanonicalForm.record fields ["contentDigest", "criterionId"] (fun _ => rfl) (by decide)
    (fun binding => by simp [fields, settled_string]) fun a b h => by
      cases a
      cases b
      simpa [fields] using h

def headKeys : List String :=
  ["admissionAmounts", "admissionGatePolicy", "capability", "completionLinkage", "constraints", "criterionBindings"]

def tailKeys : List String :=
  ["joinRole", "objective", "planExecutionContentDigest", "policySliceHash", "readScopes", "repositoryBaseTree",
    "resources", "verificationRecipeRevisions", "writeScopes"]

theorem NodePreimage.settled_head (fields : NodePreimage) : ∀ p ∈ fields.head, Settled p.2 := by
  simp [head, settled_string, settled_word, settled_option, canonicalForm_string.list.settled,
    NodeAdmissionAmount.canonical.list.settled, NodeCriterionBinding.canonical.list.settled]

theorem NodePreimage.settled_tail (fields : NodePreimage) : ∀ p ∈ fields.tail, Settled p.2 := by
  simp [tail, settled_string, settled_word, canonicalForm_string.list.settled]

theorem NodePreimage.settled_value (fields : NodePreimage) : Settled fields.value := by
  unfold value NodePreimage.fields
  split
  · refine settled_record _ (headKeys ++ tailKeys) rfl (by decide) fun p hp => ?_
    rcases List.mem_append.mp hp with hp | hp
    · exact fields.settled_head p hp
    · exact fields.settled_tail p hp
  · refine settled_record _ (headKeys ++ "declaredMigrations" :: tailKeys) rfl (by decide) fun p hp => ?_
    rcases List.mem_append.mp hp with hp | hp
    · exact fields.settled_head p hp
    · rcases List.mem_cons.mp hp with rfl | hp
      · exact canonicalForm_string.list.settled _
      · exact fields.settled_tail p hp

theorem NodePreimage.fields_length (fields : NodePreimage) :
    fields.fields.length = if fields.declaredMigrations.isSome then 16 else 15 := by
  unfold NodePreimage.fields
  split <;> simp_all [head, tail]

theorem NodePreimage.canonical : CanonicalForm NodePreimage.value where
  settled := settled_value
  injective a b h := by
    have hobject := Value.record.inj h
    have hlength := congrArg List.length hobject
    simp only [objectOf, List.length_map, fields_length] at hlength
    have hparts : a.declaredMigrations = b.declaredMigrations ∧ a.head = b.head ∧ a.tail = b.tail := by
      cases ha : a.declaredMigrations with
      | none =>
        cases hb : b.declaredMigrations with
        | none =>
          have hfields := objectOf_injective _ _ (by simp [NodePreimage.fields, ha, hb, head, tail]) hobject
          simp only [NodePreimage.fields, ha, hb] at hfields
          exact ⟨rfl, List.append_inj hfields rfl⟩
        | some declared' => simp [ha, hb] at hlength
      | some declared =>
        cases hb : b.declaredMigrations with
        | none => simp [ha, hb] at hlength
        | some declared' =>
          have hfields := objectOf_injective _ _ (by simp [NodePreimage.fields, ha, hb, head, tail]) hobject
          simp only [NodePreimage.fields, ha, hb] at hfields
          obtain ⟨hhead, hrest⟩ := List.append_inj hfields rfl
          obtain ⟨hdeclared, htail⟩ := List.cons.inj hrest
          exact ⟨congrArg some (canonicalForm_string.list.injective (Prod.mk.inj hdeclared).2), hhead, htail⟩
    obtain ⟨hdeclared, hhead, htail⟩ := hparts
    cases a
    cases b
    simp [head, NodeAdmissionAmount.canonical.list.injective.eq_iff, NodeAdmissionGatePolicy.word_injective.eq_iff,
      writeOption_injective.eq_iff, canonicalForm_string.list.injective.eq_iff,
      NodeCriterionBinding.canonical.list.injective.eq_iff] at hhead
    simp [tail, NodeJoinRole.word_injective.eq_iff, canonicalForm_string.list.injective.eq_iff] at htail
    simp_all

end MoeNG.NodeAuthority
