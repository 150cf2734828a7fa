import MoeNG.Kernel.JsonCode
import MoeNG.Kernel.Primitives
import MoeNG.Lib.OrdMap

/-!
# Budget contract vocabulary (`budget/budget-contract.ts`, `budget/budget-run-ref.ts`)

Account states, the four conserved buckets of a meter, measurement coverage,
and the wire identity of a provider run, whose attempt segment correlates a
measurement with the reservation it may settle.
-/

namespace MoeNG.Budget
open MoeNG.Kernel

/-! ### Account vocabulary (`budget-contract.ts:33-96`) -/

inductive BudgetAccountState where
  | OPEN
  | SETTLING
  | CLOSED
  | CLOSED_WITH_UNKNOWN_LIABILITY
  | OVERDRAWN
  deriving DecidableEq

structure BudgetMeterBuckets where
  meter : JsString
  available : ℤ
  reserved : ℤ
  quarantined : ℤ
  committed : ℤ
  deriving DecidableEq

def BudgetMeterBuckets.total (b : BudgetMeterBuckets) : ℤ :=
  b.available + b.reserved + b.quarantined + b.committed

structure BudgetMeterBuckets.Nonneg (b : BudgetMeterBuckets) : Prop where
  available : 0 ≤ b.available
  reserved : 0 ≤ b.reserved
  quarantined : 0 ≤ b.quarantined
  committed : 0 ≤ b.committed

def maxBudgetMeters : ℕ := 64

-- `budget-account.ts:53`: a record at the ceiling is readable but may not be mutated
def maxBudgetVersion : ℤ := maxSafeInteger - 1000000

/-! ### Measurements

The fields of `UsageMeasurementRecord` and of the normalizer's envelope that
settlement reads. An unknown quantity is `none`, never zero. -/

inductive BudgetMeasurementCoverage where
  | COMPLETE
  | PARTIAL
  | UNKNOWN
  deriving DecidableEq

structure UsageMeasurementRecord where
  meter : JsString
  quantity : Option ℤ
  coverage : BudgetMeasurementCoverage
  providerRunRef : JsString
  sequence : ℤ
  deriving DecidableEq

structure NormalizedMeasurement where
  measurement : UsageMeasurementRecord
  identity : JsString
  deriving DecidableEq

/-! ### Provider run identity (`budget-run-ref.ts:37-103`)

The cursor of the source is the unread suffix here. -/

def isNonNegativeInteger (value : JsString) : Bool :=
  0 < value.length && value.all fun c => 48 ≤ c ∧ c ≤ 57

/- `Number(digits)`. Above `2^53` the runtime rounds, but every such length
   already exceeds the longest string, so the reader refuses it either way. -/
def digitsValue (digits : JsString) : ℕ := digits.foldl (fun n c => 10 * n + (c.val - 48)) 0

structure ProviderRunIdentity where
  attemptRef : JsString
  epoch : ℕ
  provider : JsString
  runRef : JsString
  deriving DecidableEq

def encodeProviderRunRef (ref : ProviderRunIdentity) : JsString :=
  ref.provider ++ lit ":" ++ decimal ref.runRef.length ++ lit ":" ++ ref.runRef ++ lit ":"
    ++ decimal ref.attemptRef.length ++ lit ":" ++ ref.attemptRef ++ lit ":" ++ decimal ref.epoch

def readDeclaredLength (cursor : JsString) : Option (ℕ × JsString) := do
  let position ← cursor.findIdx? fun c => c = 58
  let digits := cursor.take position
  if isNonNegativeInteger digits then some (digitsValue digits, cursor.drop (position + 1)) else none

def readSegment (cursor : JsString) (length : ℕ) : Option (JsString × JsString) :=
  if cursor[length]? = some 58 then some (cursor.take length, cursor.drop (length + 1)) else none

/-- The attempt a measurement belongs to, or none when the string is not a
well-formed composite (`budget-run-ref.ts:92-103`). -/
def decodeProviderRunRefAttempt (composite : JsString) : Option JsString := do
  let providerEnd ← composite.findIdx? fun c => c = 58
  let (runLength, cursor) ← readDeclaredLength (composite.drop (providerEnd + 1))
  let (_, cursor) ← readSegment cursor runLength
  let (attemptLength, cursor) ← readDeclaredLength cursor
  let (attemptRef, cursor) ← readSegment cursor attemptLength
  if isNonNegativeInteger cursor then some attemptRef else none

example : decodeProviderRunRefAttempt (encodeProviderRunRef
    ⟨lit "a:1", 3, lit "codex", lit "r:2:x"⟩) = some (lit "a:1") := by decide

end MoeNG.Budget

/-!
## The wire identity of a provider run (`budget-run-ref.ts:43-102`)

Only the provider segment is found by search, the others by their declared
lengths, so that a run or an attempt may hold any text.
-/

namespace MoeNG.Budget
open MoeNG.Kernel MoeNG.Lib

/-! ### The two readers -/

abbrev colon : CodeUnit := 58

theorem findIdx_colon (s : JsString) (position : ℕ) :
    (s.findIdx? fun c => c = colon) = some position
      ↔ ∃ front rest, s = front ++ colon :: rest ∧ colon ∉ front ∧ front.length = position := by
  induction s generalizing position with
  | nil => simp
  | cons c s ih =>
    rw [List.findIdx?_cons]
    by_cases hc : c = colon
    · subst hc
      rw [if_pos (decide_eq_true rfl)]
      constructor
      · rintro h
        obtain rfl := Option.some.inj h
        exact ⟨[], s, rfl, List.not_mem_nil, rfl⟩
      · rintro ⟨front, rest, hsplit, hfree, rfl⟩
        cases front with
        | nil => rfl
        | cons d front => exact absurd (List.mem_cons.mpr (.inl (List.cons.inj hsplit).1)) hfree
    · rw [if_neg (by simpa using hc)]
      constructor
      · intro h
        obtain ⟨k, hk, rfl⟩ := Option.map_eq_some_iff.mp h
        obtain ⟨front, rest, rfl, hfree, rfl⟩ := (ih k).mp hk
        exact ⟨c :: front, rest, rfl, by simp [hfree, Ne.symm hc], rfl⟩
      · rintro ⟨front, rest, hsplit, hfree, rfl⟩
        cases front with
        | nil => exact absurd (List.cons.inj hsplit).1 hc
        | cons d front =>
          obtain ⟨rfl, rfl⟩ := List.cons.inj hsplit
          rw [(ih front.length).mpr ⟨front, rest, rfl, fun hm => hfree (List.mem_cons_of_mem _ hm), rfl⟩]
          rfl

theorem digits_free (digits : JsString) (h : isNonNegativeInteger digits = true) : colon ∉ digits := by
  intro hm
  simp only [isNonNegativeInteger, Bool.and_eq_true, List.all_eq_true, decide_eq_true_eq] at h
  exact absurd (h.2 colon hm).2 (by decide)

theorem readDeclaredLength_eq (cursor rest : JsString) (length : ℕ) :
    readDeclaredLength cursor = some (length, rest)
      ↔ ∃ digits, cursor = digits ++ colon :: rest ∧ isNonNegativeInteger digits = true ∧ digitsValue digits = length := by
  unfold readDeclaredLength
  rw [Option.bind_eq_bind, Option.bind_eq_some_iff]
  constructor
  · rintro ⟨position, hposition, h⟩
    obtain ⟨front, tail, rfl, -, rfl⟩ := (findIdx_colon _ _).mp hposition
    simp only [List.take_left, List.drop_append] at h
    split at h
    · rename_i hdigits
      simp only [Option.some.injEq, Prod.mk.injEq, Nat.add_sub_cancel_left, List.drop_succ_cons, List.drop_zero] at h
      obtain ⟨rfl, hrest⟩ := h
      refine ⟨front, ?_, hdigits, rfl⟩
      rw [← hrest]
      simp
    · cases h
  · rintro ⟨digits, rfl, hdigits, rfl⟩
    refine ⟨digits.length, (findIdx_colon _ _).mpr ⟨digits, rest, rfl, digits_free digits hdigits, rfl⟩, ?_⟩
    simp [hdigits]

theorem readSegment_eq (cursor segment rest : JsString) (length : ℕ) :
    readSegment cursor length = some (segment, rest) ↔ cursor = segment ++ colon :: rest ∧ segment.length = length := by
  unfold readSegment
  constructor
  · intro h
    split at h
    · rename_i hstop
      obtain ⟨hlt, hstop⟩ := List.getElem?_eq_some_iff.mp hstop
      obtain ⟨rfl, rfl⟩ := Prod.mk.inj (Option.some.inj h)
      refine ⟨?_, List.length_take_of_le hlt.le⟩
      have hdrop := List.drop_eq_getElem_cons hlt
      rw [hstop] at hdrop
      conv_lhs => rw [← List.take_append_drop length cursor, hdrop]
    · cases h
  · rintro ⟨rfl, rfl⟩
    rw [if_pos (by simp)]
    simp

/-! ### What the decoder reads -/

/-- A composite of a provider, two counted segments and an epoch. -/
def Parses (composite attemptRef : JsString) : Prop :=
  ∃ provider runDigits run attemptDigits epoch,
    composite = provider ++ colon :: (runDigits ++ colon :: (run ++ colon ::
      (attemptDigits ++ colon :: (attemptRef ++ colon :: epoch))))
      ∧ colon ∉ provider ∧ isNonNegativeInteger runDigits = true ∧ digitsValue runDigits = run.length
      ∧ isNonNegativeInteger attemptDigits = true ∧ digitsValue attemptDigits = attemptRef.length
      ∧ isNonNegativeInteger epoch = true

theorem decodeProviderRunRefAttempt_eq (composite attemptRef : JsString) :
    decodeProviderRunRefAttempt composite = some attemptRef ↔ Parses composite attemptRef := by
  unfold decodeProviderRunRefAttempt
  simp only [Option.bind_eq_bind, Option.bind_eq_some_iff, Prod.exists, readDeclaredLength_eq, readSegment_eq]
  constructor
  · rintro ⟨position, hposition, runLength, cursor, ⟨runDigits, hcursor, hrunDigits, hrunLength⟩, run, cursor', ⟨rfl, hrun⟩,
      attemptLength, cursor'', ⟨attemptDigits, rfl, hattemptDigits, hattemptLength⟩, attempt, epoch, ⟨rfl, hattempt⟩, h⟩
    obtain ⟨provider, rest, rfl, hfree, rfl⟩ := (findIdx_colon _ _).mp hposition
    rw [List.drop_append, List.drop_of_length_le (by omega), List.nil_append, Nat.add_sub_cancel_left,
      List.drop_succ_cons, List.drop_zero] at hcursor
    subst hcursor
    split at h
    · rename_i hepoch
      obtain rfl := Option.some.inj h
      exact ⟨provider, runDigits, run, attemptDigits, epoch, rfl, hfree, hrunDigits, hrunLength.trans hrun.symm,
        hattemptDigits, hattemptLength.trans hattempt.symm, hepoch⟩
    · cases h
  · rintro ⟨provider, runDigits, run, attemptDigits, epoch, rfl, hfree, hrunDigits, hrun, hattemptDigits, hattempt, hepoch⟩
    refine ⟨provider.length, (findIdx_colon _ _).mpr ⟨provider, _, rfl, hfree, rfl⟩, run.length, _,
      ⟨runDigits, ?_, hrunDigits, hrun⟩, run, _, ⟨rfl, rfl⟩, attemptRef.length, _,
      ⟨attemptDigits, rfl, hattemptDigits, hattempt⟩, attemptRef, epoch, ⟨rfl, rfl⟩, if_pos hepoch⟩
    simp

/-! ### What the encoder writes -/

theorem digitsValue_eq (digits : JsString) : digitsValue digits = decimalValue digits := by
  unfold digitsValue decimalValue
  rw [Nat.ofDigits_eq_foldr, List.foldr_map, List.foldr_reverse]
  refine congrArg (fun f => digits.foldl f 0) (funext fun n => funext fun c => ?_)
  simp only [Nat.cast_id]
  omega

theorem digitsValue_decimal (n : ℕ) : digitsValue (decimal n) = n := by
  rw [digitsValue_eq, decimalValue_decimal]

theorem isNonNegativeInteger_decimal (n : ℕ) : isNonNegativeInteger (decimal n) = true := by
  simp only [isNonNegativeInteger, Bool.and_eq_true, List.all_eq_true, decide_eq_true_eq]
  refine ⟨List.length_pos_iff.mpr (decimal_ne_nil n), fun c hc => ?_⟩
  have hdigit := decimal_digit n c hc
  exact ⟨Fin.le_def.mpr hdigit.1, Fin.le_def.mpr hdigit.2⟩

theorem encodeProviderRunRef_eq (ref : ProviderRunIdentity) :
    encodeProviderRunRef ref = ref.provider ++ colon :: (decimal ref.runRef.length ++ colon :: (ref.runRef
      ++ colon :: (decimal ref.attemptRef.length ++ colon :: (ref.attemptRef ++ colon :: decimal ref.epoch)))) := by
  unfold encodeProviderRunRef
  rw [show lit ":" = [colon] by decide]
  simp only [List.append_assoc, List.cons_append, List.nil_append]

theorem encodeProviderRunRef_parses (ref : ProviderRunIdentity) (h : colon ∉ ref.provider) :
    Parses (encodeProviderRunRef ref) ref.attemptRef :=
  ⟨ref.provider, decimal ref.runRef.length, ref.runRef, decimal ref.attemptRef.length, decimal ref.epoch,
    encodeProviderRunRef_eq ref, h, isNonNegativeInteger_decimal _, digitsValue_decimal _, isNonNegativeInteger_decimal _,
    digitsValue_decimal _, isNonNegativeInteger_decimal _⟩

theorem encodeProviderRunRef_inj (left right : ProviderRunIdentity) (hleft : colon ∉ left.provider)
    (hright : colon ∉ right.provider) (h : encodeProviderRunRef left = encodeProviderRunRef right) : left = right := by
  have hfree (n : ℕ) : colon ∉ decimal n := digits_free _ (isNonNegativeInteger_decimal n)
  rw [encodeProviderRunRef_eq, encodeProviderRunRef_eq] at h
  obtain ⟨hprovider, h⟩ := append_separator_inj _ _ _ _ _ hleft hright h
  obtain ⟨hrunLength, h⟩ := append_separator_inj _ _ _ _ _ (hfree _) (hfree _) h
  obtain ⟨hrun, h⟩ := List.append_inj h (decimal_injective hrunLength)
  obtain ⟨hattemptLength, h⟩ := append_separator_inj _ _ _ _ _ (hfree _) (hfree _) (List.cons.inj h).2
  obtain ⟨hattempt, h⟩ := List.append_inj h (decimal_injective hattemptLength)
  have hepoch := decimal_injective (List.cons.inj h).2
  obtain ⟨_, _, _, _⟩ := left
  exact ProviderRunIdentity.mk.injEq .. ▸ ⟨hattempt, hepoch, hprovider, hrun⟩

/-! ### The round trip -/

structure ProviderRunCodec : Prop where
  round_trip : ∀ ref : ProviderRunIdentity, colon ∉ ref.provider →
    decodeProviderRunRefAttempt (encodeProviderRunRef ref) = some ref.attemptRef
  injective : ∀ left right : ProviderRunIdentity, colon ∉ left.provider → colon ∉ right.provider →
    encodeProviderRunRef left = encodeProviderRunRef right → left = right
  decoded : ∀ composite attemptRef, decodeProviderRunRefAttempt composite = some attemptRef ↔ Parses composite attemptRef
  unambiguous : ∀ composite left right, Parses composite left → Parses composite right → left = right

/-- The attempt of a composite, whatever text the run and the attempt hold. -/
theorem provider_run_codec : ProviderRunCodec where
  round_trip ref h := (decodeProviderRunRefAttempt_eq _ _).mpr (encodeProviderRunRef_parses ref h)
  injective := encodeProviderRunRef_inj
  decoded := decodeProviderRunRefAttempt_eq
  unambiguous composite left right hleft hright := by
    have hdecoded := (decodeProviderRunRefAttempt_eq composite left).mpr hleft
    rw [(decodeProviderRunRefAttempt_eq composite right).mpr hright] at hdecoded
    exact (Option.some.inj hdecoded).symm

end MoeNG.Budget
