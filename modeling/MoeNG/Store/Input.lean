import MoeNG.Kernel.JsonCode

/-!
# Store input primitives (`packages/store/src/store-input-primitives.ts`, `store-contracts.ts`, `store-internals.ts`)

Every durable operation reads its arguments through these guards. A guard that
fails throws a `DurableStoreError`, here an error value.
-/

namespace MoeNG.Store
open MoeNG.Kernel

/-! ### Limits and errors (`store-contracts.ts:21-27`, `store-contracts.ts:216-243`) -/

def maxEventsPerCommit : ℕ := 256
def maxOutboxMessagesPerCommit : ℕ := 1024
def maxBlobBytes : ℕ := 8 * 1024 * 1024
def maxCommitBytes : ℕ := 32 * 1024 * 1024
def maxPageSize : ℕ := 1000
def maxPageDecodedBytes : ℕ := 2 * maxCommitBytes
def maxIdentifierUtf8Bytes : ℕ := 512
def maxSqliteInteger : ℕ := 2 ^ 63 - 1

inductive StoreErrorCode where
  | COMMAND_ID_CONFLICT
  | DURABLE_ID_CONFLICT
  | EXPECTED_VERSION_CONFLICT
  | IDEMPOTENCY_CONFLICT
  | PROJECT_SCOPE_MISMATCH
  | PROJECT_SCOPE_REQUIRED
  | STORE_CORRUPT
  | STORE_INPUT_INVALID
  | STORE_LIMIT_EXCEEDED
  | STORE_UNAVAILABLE
  deriving DecidableEq

structure StoreError where
  code : StoreErrorCode
  message : JsString
  deriving DecidableEq

abbrev StoreResult (α : Type) := Except StoreError α

def invalidInput {α : Type} (message : JsString) : StoreResult α := .error ⟨.STORE_INPUT_INVALID, message⟩
def limitExceeded {α : Type} (message : JsString) : StoreResult α := .error ⟨.STORE_LIMIT_EXCEEDED, message⟩
def storeCorrupt {α : Type} (message : JsString) : StoreResult α := .error ⟨.STORE_CORRUPT, message⟩

/-! ### Text -/

def wellFormedAfter (high : Bool) : JsString → Bool
  | [] => !high
  | c :: rest =>
    if high then isLowSurrogate c && wellFormedAfter false rest
    else if isHighSurrogate c then wellFormedAfter true rest
    else !isLowSurrogate c && wellFormedAfter false rest

/-- `String.prototype.isWellFormed`: no surrogate stands alone. -/
def isWellFormed (s : JsString) : Bool := wellFormedAfter false s

-- each half of a surrogate pair counts for two of its four bytes
def utf8Units (c : CodeUnit) : ℕ :=
  if c < 0x80 then 1 else if c < 0x800 then 2 else if isHighSurrogate c || isLowSurrogate c then 2 else 3

/-- The length of the UTF-8 encoding of a well-formed string. -/
def utf8Length (s : JsString) : ℕ := (s.map utf8Units).sum

/-! ### Guards (`store-input-primitives.ts:25-91`) -/

def isIdentifier (value : JsString) : Bool :=
  value.length ≠ 0 ∧ value.length ≤ maxIdentifierUtf8Bytes ∧ isWellFormed value ∧ 0 ∉ value
    ∧ utf8Length value ≤ maxIdentifierUtf8Bytes

def requireIdentifier (value : JsString) (field : String) : StoreResult JsString :=
  if isIdentifier value then .ok value
  else invalidInput (lit field ++ lit " must be well-formed, non-empty, at most " ++ decimal maxIdentifierUtf8Bytes ++
    lit " UTF-8 bytes, and contain no NUL")

def requireSafeNonnegativeInteger (value : ℤ) (field : String) : StoreResult ℕ :=
  if isSafeCount value then .ok value.toNat
  else invalidInput (lit field ++ lit " must be a non-negative safe integer")

def requireSafePositiveInteger (value : ℤ) (field : String) : StoreResult ℕ :=
  if 0 < value ∧ value ≤ maxSafeInteger then .ok value.toNat
  else invalidInput (lit field ++ lit " must be a positive safe integer")

def requireNonnegativeBigInt (value : ℤ) (field : String) : StoreResult ℕ :=
  if 0 ≤ value ∧ value ≤ maxSqliteInteger then .ok value.toNat
  else invalidInput (lit field ++ lit " must be a non-negative SQLite-range bigint")

def requirePageLimit (value : ℤ) : StoreResult ℕ := do
  let limit ← requireSafePositiveInteger value "limit"
  if limit > maxPageSize then limitExceeded (lit "limit cannot exceed " ++ decimal maxPageSize) else .ok limit

def isDigit (c : CodeUnit) : Bool := 48 ≤ c ∧ c ≤ 57

def matchesTemplate (template : String) (s : JsString) : Bool :=
  s.length = template.length &&
    (s.zip template.toList).all fun p => if p.2 = 'd' then isDigit p.1 else lit (String.singleton p.2) = [p.1]

def numberAt (s : JsString) (start count : ℕ) : ℕ :=
  ((s.drop start).take count).foldl (fun total c => 10 * total + (c.val - 48)) 0

def daysInMonth (year month : ℕ) : ℕ :=
  if month = 2 then if year % 4 = 0 ∧ (year % 100 ≠ 0 ∨ year % 400 = 0) then 29 else 28
  else if month ∈ [4, 6, 9, 11] then 30 else 31

/-- `YYYY-MM-DDTHH:MM:SS.mmmZ`, and the date round-trips through `Date`. -/
def isCanonicalTimestamp (s : JsString) : Bool :=
  matchesTemplate "dddd-dd-ddTdd:dd:dd.dddZ" s &&
    (1 ≤ numberAt s 5 2 ∧ numberAt s 5 2 ≤ 12 ∧ 1 ≤ numberAt s 8 2
      ∧ numberAt s 8 2 ≤ daysInMonth (numberAt s 0 4) (numberAt s 5 2)
      ∧ numberAt s 11 2 ≤ 23 ∧ numberAt s 14 2 ≤ 59 ∧ numberAt s 17 2 ≤ 59)

example : isCanonicalTimestamp (lit "2024-02-29T23:59:59.000Z") = true := by decide
example : isCanonicalTimestamp (lit "2023-02-29T00:00:00.000Z") = false := by decide

def requireCanonicalTimestamp (value : JsString) (field : String) : StoreResult JsString :=
  if isCanonicalTimestamp value then .ok value
  else invalidInput (lit field ++ lit " must be a canonical UTC timestamp with millisecond precision")

/-! ### Well-formed strings -/

theorem wellFormedAfter_iff (s : JsString) : (wellFormedAfter false s = wellFormed s)
    ∧ ∀ high, isHighSurrogate high = true → wellFormedAfter true s = wellFormed (high :: s) := by
  have hexclusive : ∀ c : CodeUnit, isHighSurrogate c = true → isLowSurrogate c = false := by
    intro c hc
    simp only [isHighSurrogate, isLowSurrogate, decide_eq_true_eq, decide_eq_false_iff_not, Fin.le_def] at hc ⊢
    have h1 : (0xDBFF : CodeUnit).val = 0xDBFF := rfl
    have h2 : (0xDC00 : CodeUnit).val = 0xDC00 := rfl
    omega
  induction s with
  | nil =>
    refine ⟨rfl, fun high hhigh => ?_⟩
    simp [wellFormedAfter, wellFormed, isSurrogate, hhigh]
  | cons c rest ih =>
    obtain ⟨hplain, hafter⟩ := ih
    constructor
    · rw [wellFormedAfter]
      cases hhigh : isHighSurrogate c with
      | true => exact hafter c hhigh
      | false =>
        cases hlow : isLowSurrogate c with
        | true =>
          cases rest with
          | nil => simp [wellFormed, isSurrogate, hlow]
          | cons d rest => simp [wellFormed, isSurrogate, hhigh, hlow]
        | false =>
          have hc : isSurrogate c = false := by rw [isSurrogate, hhigh, hlow]; rfl
          rw [wellFormed_cons c rest hc, hplain]
          simp
    · intro high hhigh
      rw [wellFormedAfter, wellFormed, hhigh, hplain]
      cases hlow : isLowSurrogate c with
      | true => simp
      | false => simp [isSurrogate, hhigh]

theorem isWellFormed_eq (s : JsString) : isWellFormed s = wellFormed s := (wellFormedAfter_iff s).1

/-! ### What a guard lets through -/

theorem requireIdentifier_ok (value out : JsString) (field : String) (h : requireIdentifier value field = .ok out) :
    out = value ∧ isIdentifier value = true := by
  unfold requireIdentifier at h
  split at h
  · rename_i hid
    exact ⟨(Except.ok.inj h).symm, hid⟩
  · cases h

theorem requireNonnegativeBigInt_cast (n : ℕ) (field : String) (h : n ≤ maxSqliteInteger) :
    requireNonnegativeBigInt n field = .ok n := by
  unfold requireNonnegativeBigInt
  rw [if_pos (by omega), Int.toNat_natCast]

theorem requireNonnegativeBigInt_ok (value : ℤ) (out : ℕ) (field : String)
    (h : requireNonnegativeBigInt value field = .ok out) : value = out ∧ out ≤ maxSqliteInteger := by
  unfold requireNonnegativeBigInt at h
  split at h
  · obtain rfl := Except.ok.inj h
    omega
  · cases h

theorem requireSafePositiveInteger_cast (n : ℕ) (field : String) (hpos : 1 ≤ n) (h : n ≤ 2 ^ 53 - 1) :
    requireSafePositiveInteger n field = .ok n := by
  unfold requireSafePositiveInteger maxSafeInteger
  rw [if_pos (by omega), Int.toNat_natCast]

theorem requirePageLimit_cast (n : ℕ) (h : 1 ≤ n ∧ n ≤ maxPageSize) : requirePageLimit n = .ok n := by
  have hsafe : maxPageSize ≤ 2 ^ 53 - 1 := by decide
  unfold requirePageLimit
  rw [requireSafePositiveInteger_cast n _ h.1 (h.2.trans hsafe)]
  dsimp only [bind, Except.bind]
  rw [if_neg (not_lt.mpr h.2)]

theorem requirePageLimit_ok (value : ℤ) (limit : ℕ) (h : requirePageLimit value = .ok limit) :
    1 ≤ limit ∧ limit ≤ maxPageSize := by
  unfold requirePageLimit requireSafePositiveInteger at h
  split at h
  · rename_i hpos
    dsimp only [bind, Except.bind] at h
    split at h
    · cases h
    · rename_i hle
      cases h
      exact ⟨by omega, not_lt.mp hle⟩
  · cases h

end MoeNG.Store
