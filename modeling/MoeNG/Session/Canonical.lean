import MoeNG.Kernel.JsonTree
import MoeNG.Kernel.Value
import MoeNG.Kernel.WellFormed

/-!
# Canonical bytes of session authority (`packages/contracts/src/session-authority-canonical.ts`)

A request is digested over its canonical string, and a session proof signs the
framed fields of its challenge. `none` stands for a thrown `TypeError`.
-/

namespace MoeNG.Session
open MoeNG.Kernel MoeNG.Lib

/-! ### Canonical strings (`session-authority-canonical.ts:31-68`) -/

def sessionAuthoritySchemaVersion : JsString := lit "moe.session-authority.v1"

def maxCanonicalDepth : ℕ := 8

/-- A `hole` is a missing element of an array; `foreign` is `undefined`, a function, a symbol or a bigint. -/
inductive AuthorityScalar where
  | number (value : JsNumber)
  | hole
  | foreign
  deriving DecidableEq

abbrev AuthorityValue := Json AuthorityScalar

def isSafeInteger : JsNumber → Bool
  | .integer z => isSafeNumber z
  | .negativeZero => true
  | .other => false

mutual

/-- Nothing in the value makes `canonicalJson` throw. -/
def accepts (depth : ℕ) : AuthorityValue → Bool
  | .null => depth ≤ maxCanonicalDepth
  | .string _ => depth ≤ maxCanonicalDepth
  | .boolean _ => depth ≤ maxCanonicalDepth
  | .number (.number value) => depth ≤ maxCanonicalDepth && isSafeInteger value
  | .number .hole => false
  | .number .foreign => false
  | .array items => depth ≤ maxCanonicalDepth && acceptsItems (depth + 1) items
  | .object entries => depth ≤ maxCanonicalDepth && acceptsEntries (depth + 1) entries

-- `map` calls nothing for a hole
def acceptsItems (depth : ℕ) : List AuthorityValue → Bool
  | [] => true
  | .number .hole :: rest => acceptsItems depth rest
  | value :: rest => accepts depth value && acceptsItems depth rest

def acceptsEntries (depth : ℕ) : List (JsString × AuthorityValue) → Bool
  | [] => true
  | (_, value) :: rest => accepts depth value && acceptsEntries depth rest

end

-- `join` prints nothing for a hole
def scalarText : AuthorityScalar → JsString
  | .number (.integer z) => decimalInt z
  | .number .negativeZero => lit "0"
  | .number .other => []
  | .hole => []
  | .foreign => []

mutual

def canonicalText : AuthorityValue → JsString
  | .null => lit "null"
  | .string value => jsonText value
  | .boolean value => if value then lit "true" else lit "false"
  | .number value => scalarText value
  | .array items => jsonArray (canonicalItems items)
  | .object entries => Json.printObject (sortByKey (canonicalEntries entries))

def canonicalItems : List AuthorityValue → List JsString
  | [] => []
  | value :: rest => canonicalText value :: canonicalItems rest

def canonicalEntries : List (JsString × AuthorityValue) → List (JsString × JsString)
  | [] => []
  | (key, value) :: rest => (key, canonicalText value) :: canonicalEntries rest

end

def sessionAuthorityCanonicalString (value : AuthorityValue) : Option JsString :=
  if accepts 0 value then some (sessionAuthoritySchemaVersion ++ lit ":" ++ canonicalText value) else none

/-! ### Proof bytes (`session-authority-canonical.ts:70-177`) -/

def sessionProofDomain : JsString := lit "moe.session-proof.v1"

def sessionProofFields : List String :=
  ["principalId", "projectId", "recoveryIncarnationRef", "keyEpochRef", "sessionId", "credentialId", "generation",
    "clientKeyId", "transportId", "requestId", "requestDigest", "issuedAt", "nonce"]

def readSessionProofValues (value : Value) : Option Fields := exactRecord value sessionProofFields

def sessionProofScalar (field : String) (value : Value) : Option JsString :=
  if field = "generation" ∨ field = "issuedAt" then
    match value with
    | .number (.integer z) => if isSafeCount z then some (decimalInt z) else none
    | .number .negativeZero => some (lit "0")
    | _ => none
  else
    match value with
    | .string s => if s.length = 0 then none else some s
    | _ => none

/-- `setUint32` keeps the length modulo `2 ^ 32`. -/
def bigEndian32 (n : ℕ) : List Byte := [n / 2 ^ 24, n / 2 ^ 16, n / 2 ^ 8, n].map octet

def frameSessionProofScalar (value : JsString) : List Byte := bigEndian32 (utf8 value).length ++ utf8 value

def canonicalSessionProofBytes (fields : Value) : Option (List Byte) := do
  let values ← readSessionProofValues fields
  let texts ← values.mapM fun f => sessionProofScalar f.1 f.2
  some (utf8 sessionProofDomain ++ texts.flatMap frameSessionProofScalar)

end MoeNG.Session
