import MoeNG.Kernel.Value

/-!
# Guards shared by the core aggregates (`packages/core/src/planning/planning-snapshot.ts`, `runtime-vocabulary.ts`)

A command or a stored record reaches an aggregate as inert data of its
contract's shape; the guards below judge the values in it.
-/

namespace MoeNG.Core
open MoeNG.Kernel

inductive RuntimeTruthClass where
  | OBSERVED
  | AGENT_REPORTED
  | DAEMON_VERIFIED
  | HUMAN_APPROVED
  | UNKNOWN
  deriving DecidableEq

/-! ### Guards (`planning-snapshot.ts:203-229`) -/

def validRef (value : JsString) : Bool := isRef value

def validHex64 (value : JsString) : Bool := isDigest value

def strongTruth (value : RuntimeTruthClass) : Bool := value = .DAEMON_VERIFIED ∨ value = .HUMAN_APPROVED

def humanApproved (value : RuntimeTruthClass) : Bool := value = .HUMAN_APPROVED

/-- `Number.isSafeInteger`. -/
def isSafeInteger (value : ℤ) : Bool := -maxSafeInteger ≤ value ∧ value ≤ maxSafeInteger

theorem isSafeInteger_iff (z : ℤ) : isSafeInteger z = true ↔ -maxSafeInteger ≤ z ∧ z ≤ maxSafeInteger := by
  simp only [isSafeInteger, decide_eq_true_eq]

def validExpectedVersion (value : ℤ) : Bool := isSafeInteger value && 0 ≤ value

end MoeNG.Core
