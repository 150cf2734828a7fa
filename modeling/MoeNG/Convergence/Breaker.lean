import MoeNG.Kernel.Utf8
import MoeNG.Lib.OrdMap

/-!
# Same-bug circuit breaker (`packages/scheduler/src/convergence/breaker.ts`, `failure-fingerprint.ts`, `breaker-contract.ts`)

The breaker reads a journal entry and a candidate predicate that may hold
anything; the SHA-256 of the runtime is the parameter `sha256`, from bytes to
the text of their digest.
-/

namespace MoeNG.Convergence
open MoeNG.Kernel MoeNG.Lib

/-! ### Caller data -/

/-- A number; a finite one other than `-0` is given by the text `String` prints for it. -/
inductive Numeral where
  | finite (text : JsString)
  | negativeZero
  | nan
  | infinity
  | negativeInfinity
  deriving DecidableEq

/-- What a caller may present: an object is its own properties (`none` for an accessor) and the count of its symbol keys. -/
inductive Datum where
  | undefined
  | null
  | bool (b : Bool)
  | number (n : Numeral)
  | string (s : JsString)
  | object (properties : List (JsString × Option Datum)) (symbols : ℕ)
  | other

/-! ### Predicates (`packages/context/src/context-contract.ts:24-42`, `canonical-digest.ts:9-38`) -/

inductive EqualityOperator where
  | EQUALS
  | NOT_EQUALS
  deriving DecidableEq

inductive VersionOperator where
  | EQUALS
  | GREATER_THAN
  deriving DecidableEq

inductive ExpectedValue where
  | null
  | bool (b : Bool)
  | number (n : Numeral)
  | string (s : JsString)
  deriving DecidableEq

inductive FactPredicate where
  | FACT_VALUE (factId : JsString) (operator : EqualityOperator) (expectedValue : ExpectedValue)
  | FACT_VERSION (factId : JsString) (operator : VersionOperator) (expectedVersion : Numeral)
  | FACT_DIGEST (factId : JsString) (operator : EqualityOperator) (expectedDigest : JsString)
  deriving DecidableEq

def EqualityOperator.text : EqualityOperator → String
  | .EQUALS => "EQUALS"
  | .NOT_EQUALS => "NOT_EQUALS"

def VersionOperator.text : VersionOperator → String
  | .EQUALS => "EQUALS"
  | .GREATER_THAN => "GREATER_THAN"

def encodeNumber : Numeral → JsString
  | .finite text => text
  | .negativeZero => lit "\x7b\"$number\":\"-0\"\x7d"
  | .nan => lit "\x7b\"$number\":\"NaN\"\x7d"
  | .infinity => lit "\x7b\"$number\":\"Infinity\"\x7d"
  | .negativeInfinity => lit "\x7b\"$number\":\"-Infinity\"\x7d"

def encodeExpectedValue : ExpectedValue → JsString
  | .null => lit "null"
  | .bool b => if b then lit "true" else lit "false"
  | .number n => encodeNumber n
  | .string s => jsonText s

/-- `encodeCanonical` on a predicate: its four keys in code unit order. -/
def encodeCanonical : FactPredicate → JsString
  | .FACT_VALUE factId operator expectedValue =>
    jsonRecord [("expectedValue", encodeExpectedValue expectedValue), ("factId", jsonText factId),
      ("kind", jsonText (lit "FACT_VALUE")), ("operator", jsonText (lit operator.text))]
  | .FACT_VERSION factId operator expectedVersion =>
    jsonRecord [("expectedVersion", encodeNumber expectedVersion), ("factId", jsonText factId),
      ("kind", jsonText (lit "FACT_VERSION")), ("operator", jsonText (lit operator.text))]
  | .FACT_DIGEST factId operator expectedDigest =>
    jsonRecord [("expectedDigest", jsonText expectedDigest), ("factId", jsonText factId),
      ("kind", jsonText (lit "FACT_DIGEST")), ("operator", jsonText (lit operator.text))]

/-! ### Fingerprints (`failure-fingerprint.ts:24-101`) -/

def fingerprintFields : List String := ["failureCode", "primaryScope", "recipeDigest", "baseDigest", "environmentDigest"]

def frame (value : JsString) : JsString := counted value ++ [0]

def readOwnDataValue (source : Datum) (key : String) : Datum :=
  match source with
  | .object properties _ =>
    match properties.find? fun p => p.1 = lit key with
    | some (_, some value) => value
    | _ => .undefined
  | _ => .undefined

def readOwnDataString (source : Datum) (key : String) : Option JsString :=
  match readOwnDataValue source key with
  | .string s => if 0 < s.length then some s else none
  | _ => none

def readTypedFacts (entry : Datum) : Option (List JsString) := fingerprintFields.mapM (readOwnDataString entry)

def framedFields (fields : List String) (facts : List JsString) : JsString :=
  (fields.zip facts).flatMap fun p => frame (lit p.1) ++ frame p.2

def canonicalFacts (facts : List JsString) : JsString :=
  frame (lit "moe.scheduler.convergence.failure-fingerprint") ++ frame (lit "1") ++ framedFields fingerprintFields facts

/-! ### Contract (`breaker-contract.ts:40-174`) -/

def maxActiveHolds : ℕ := 4096
def maxHoldEntryIds : ℕ := 64

inductive ConvergenceHoldReason where
  | RETRY_PREDICATE_UNMOVED
  | SAME_BUG_CONVERGENCE
  deriving DecidableEq

structure HoldRecord where
  fingerprint : JsString
  entryIds : List JsString
  reason : ConvergenceHoldReason
  awaitedPredicate : FactPredicate
  deriving DecidableEq

abbrev ActiveHolds := OrdMap JsString HoldRecord

structure HumanRelease where
  kind : JsString
  decisionId : JsString
  fingerprint : JsString

structure BreakerRequest where
  entry : Datum
  candidatePredicate : Datum
  humanRelease : Option HumanRelease

inductive RetryUnlockResult where
  | UNLOCKED (predicate : FactPredicate)
  | REFUSED
  deriving DecidableEq

inductive BreakerOutcome where
  | admitted (fingerprint : JsString)
  | sameBugHold (hold : HoldRecord)
  | retryPredicateHold (hold : HoldRecord) (refusedBy : RetryUnlockResult)
  | inputInvalid
  | holdsExhausted
  deriving DecidableEq

structure BreakerTransition where
  outcome : BreakerOutcome
  holds : ActiveHolds

/-! ### Parsing predicates (`breaker.ts:59-126`) -/

def predicateKeys : ℕ := 4

def equalityOperatorOf : Datum → Option EqualityOperator
  | .string s =>
    if s = lit "EQUALS" then some .EQUALS else if s = lit "NOT_EQUALS" then some .NOT_EQUALS else none
  | _ => none

def versionOperatorOf : Datum → Option VersionOperator
  | .string s =>
    if s = lit "EQUALS" then some .EQUALS else if s = lit "GREATER_THAN" then some .GREATER_THAN else none
  | _ => none

def finiteOf : Datum → Option Numeral
  | .number (.finite text) => some (.finite text)
  | .number .negativeZero => some .negativeZero
  | _ => none

def expectedValueOf : Datum → Option ExpectedValue
  | .null => some .null
  | .string s => some (.string s)
  | .number n => some (.number n)
  | .bool b => some (.bool b)
  | _ => none

def parseVersion (value : Datum) (factId : JsString) : Option FactPredicate := do
  let operator ← versionOperatorOf (readOwnDataValue value "operator")
  let expectedVersion ← finiteOf (readOwnDataValue value "expectedVersion")
  some (.FACT_VERSION factId operator expectedVersion)

def parseDigest (value : Datum) (factId : JsString) : Option FactPredicate := do
  let operator ← equalityOperatorOf (readOwnDataValue value "operator")
  let expectedDigest ← readOwnDataString value "expectedDigest"
  some (.FACT_DIGEST factId operator expectedDigest)

def parseValue (value : Datum) (factId : JsString) : Option FactPredicate := do
  let operator ← equalityOperatorOf (readOwnDataValue value "operator")
  let expectedValue ← expectedValueOf (readOwnDataValue value "expectedValue")
  some (.FACT_VALUE factId operator expectedValue)

def parseKind : Datum → Option (Datum → JsString → Option FactPredicate)
  | .string s =>
    if s = lit "FACT_VALUE" then some parseValue
    else if s = lit "FACT_VERSION" then some parseVersion
    else if s = lit "FACT_DIGEST" then some parseDigest
    else none
  | _ => none

def parseFactPredicate (value : Datum) : Option FactPredicate :=
  match value with
  | .object properties symbols => do
    let parse ← parseKind (readOwnDataValue value "kind")
    if properties.length ≠ predicateKeys then none
    else if 0 < symbols then none
    else do
      let factId ← readOwnDataString value "factId"
      parse value factId
  | _ => none

/-! ### Hold records (`breaker.ts:36-38`, `breaker.ts:128-171`) -/

def emptyHolds : ActiveHolds := OrdMap.empty

def withHold (holds : ActiveHolds) (record : HoldRecord) : ActiveHolds := holds.set record.fingerprint record

def withoutHold (holds : ActiveHolds) (fingerprint : JsString) : ActiveHolds := holds.erase fingerprint

def join (existing : HoldRecord) (entryId : JsString) (reason : ConvergenceHoldReason) : HoldRecord :=
  let appended := if entryId ∈ existing.entryIds then existing.entryIds else existing.entryIds ++ [entryId]
  { existing with
    entryIds := if appended.length > maxHoldEntryIds then appended.drop (appended.length - maxHoldEntryIds) else appended
    reason := reason }

def openHold (fingerprint entryId : JsString) (awaited : FactPredicate) : HoldRecord :=
  ⟨fingerprint, [entryId], .SAME_BUG_CONVERGENCE, awaited⟩

/-! ### The decision (`breaker.ts:198-294`, `packages/context/src/dead-end-journal.ts:135-147`) -/

def releases (release : Option HumanRelease) (fingerprint : JsString) : Bool :=
  match release with
  | none => false
  | some r => r.kind = lit "HUMAN_RELEASE" && 0 < r.decisionId.length && r.fingerprint = fingerprint

section Decision
variable (sha256 : List Byte → JsString)

def computeFailureFingerprint (entry : Datum) : Option JsString :=
  (readTypedFacts entry).map fun facts => sha256 (utf8 (canonicalFacts facts))

def canonicalSha256 (predicate : FactPredicate) : JsString := sha256 (utf8 (encodeCanonical predicate))

def evaluateRetryUnlock (previous candidate : FactPredicate) : RetryUnlockResult :=
  if canonicalSha256 sha256 previous = canonicalSha256 sha256 candidate then .REFUSED else .UNLOCKED candidate

def unlocks (hold : HoldRecord) (candidate : FactPredicate) : Option RetryUnlockResult :=
  match evaluateRetryUnlock sha256 hold.awaitedPredicate candidate with
  | .REFUSED => some .REFUSED
  | .UNLOCKED _ => none

/-- A candidate that is absent (`null`), or the predicate it parses to. -/
def parseCandidate : Datum → Option (Option FactPredicate)
  | .null => some none
  | value => (parseFactPredicate value).map some

def decideHeld (holds : ActiveHolds) (existing : HoldRecord) (fingerprint entryId : JsString)
    (candidate : Option FactPredicate) (release : Option HumanRelease) : BreakerTransition :=
  if releases release fingerprint then ⟨.admitted fingerprint, withoutHold holds fingerprint⟩
  else match candidate with
    | none =>
      let joined := join existing entryId .SAME_BUG_CONVERGENCE
      ⟨.sameBugHold joined, withHold holds joined⟩
    | some predicate =>
      match unlocks sha256 existing predicate with
      | none => ⟨.admitted fingerprint, withoutHold holds fingerprint⟩
      | some refusedBy =>
        let joined := join existing entryId .RETRY_PREDICATE_UNMOVED
        ⟨.retryPredicateHold joined refusedBy, withHold holds joined⟩

def decideRead (holds : ActiveHolds) (fingerprint entryId : JsString) (retryPredicate : FactPredicate)
    (candidate : Option FactPredicate) (release : Option HumanRelease) : BreakerTransition :=
  match holds.get fingerprint with
  | none =>
    if holds.entries.length ≥ maxActiveHolds then ⟨.holdsExhausted, holds⟩
    else ⟨.admitted fingerprint, withHold holds (openHold fingerprint entryId retryPredicate)⟩
  | some existing => decideHeld sha256 holds existing fingerprint entryId candidate release

/-- What the breaker reads of a request before it looks at the holds. -/
def readRequest (request : BreakerRequest) : Option (JsString × JsString × FactPredicate × Option FactPredicate) := do
  let fingerprint ← computeFailureFingerprint sha256 request.entry
  let entryId ← readOwnDataString request.entry "id"
  let retryPredicate ← parseFactPredicate (readOwnDataValue request.entry "retryPredicate")
  let candidate ← parseCandidate request.candidatePredicate
  some (fingerprint, entryId, retryPredicate, candidate)

def decideBreaker (holds : ActiveHolds) (request : BreakerRequest) : BreakerTransition :=
  match readRequest sha256 request with
  | none => ⟨.inputInvalid, holds⟩
  | some (fingerprint, entryId, retryPredicate, candidate) =>
    decideRead sha256 holds fingerprint entryId retryPredicate candidate request.humanRelease

end Decision

end MoeNG.Convergence
