import MoeNG.Kernel.NumberValue
import MoeNG.Projections.Canonical
import MoeNG.Subscriptions.Docs

/-!
# The text of subscription documents (`subscription-doc-codec.ts`)
-/

namespace MoeNG.Subscriptions.Codec
open MoeNG.Kernel MoeNG.Store

/-! ### Values (`subscription-doc-codec.ts:34-125`) -/

/-- A number of the runtime; `none` is whatever is neither a number nor JSON. -/
abbrev DocNumber := Option (Double FiniteDouble)

/-- A runtime value, walked as a tree. Its objects hold own enumerable data properties only. -/
abbrev DocValue := Json DocNumber

def digestDomain : JsString := lit "moe-subscription-doc/1"
def maxDocDepth : ℕ := 32

-- every digest printed is one of these
abbrev Sha256Text := { s : JsString // isSha256Text s = true }

section Digest
variable (sha256 : List Byte → Sha256Text)

def digestDoc (version : JsString) (fields : List JsString) : Sha256Text :=
  sha256 ((digestDomain :: version :: fields).flatMap Projections.frameText)

end Digest

/-! ### Readers (`subscription-doc-codec.ts:71-118`) -/

/-- The value under a key; reading an absent key gives `undefined`. -/
def fieldOf (record : List (JsString × DocValue)) (key : String) : DocValue :=
  ((record.find? fun e => e.1 = lit key).map Prod.snd).getD (.number none)

def identifier : DocValue → Option JsString
  | .string s => if isIdentifier s then some s else none
  | _ => none

/-- A number that passes `isGeneration`. -/
def generationOf : DocValue → Option FiniteDouble
  | .number (some (.finite x)) =>
    if x.value.den = 1 ∧ 1 ≤ x.value.num ∧ x.value.num ≤ maxSafeInteger then some x else none
  | _ => none

def positionText : DocValue → Option JsString
  | .string s => if (parsePosition s).isSome then some s else none
  | _ => none

def sha256Text : DocValue → Option JsString
  | .string s => if isSha256Text s then some s else none
  | _ => none

def filterList : DocValue → Option (List JsString)
  | .array items => if items.length > maxSubscriptionFilterEntries then none else items.mapM identifier
  | _ => none

def plainRecord : DocValue → Option (List (JsString × DocValue))
  | .object entries => some entries
  | _ => none

/-! ### Canonical JSON (`subscription-doc-codec.ts:127-201`) -/

section Text
variable (numberText : FiniteDouble → JsString)

def isPlainKey (key : JsString) : Bool := key ≠ lit "__proto__" && isWellFormed key

mutual

def canonicalJson : ℕ → DocValue → Option JsString
  | _, .null => some (lit "null")
  | _, .boolean value => some (if value then lit "true" else lit "false")
  | _, .number (some (.finite x)) => some (numberText x)
  | _, .number _ => none
  | _, .string s => if isWellFormed s then some (jsonText s) else none
  | depth, .array items => if depth > maxDocDepth then none else (canonicalItems (depth + 1) items).map jsonArray
  | depth, .object entries =>
    if depth > maxDocDepth || !entries.all fun e => isPlainKey e.1 then none
    else (canonicalEntries (depth + 1) entries).map fun parts => Json.printObject (sortByKey parts)

def canonicalItems : ℕ → List DocValue → Option (List JsString)
  | _, [] => some []
  | depth, value :: rest => do
    let item ← canonicalJson depth value
    let items ← canonicalItems depth rest
    return item :: items

def canonicalEntries : ℕ → List (JsString × DocValue) → Option (List (JsString × JsString))
  | _, [] => some []
  | depth, (key, value) :: rest => do
    let item ← canonicalJson depth value
    let items ← canonicalEntries depth rest
    return (key, item) :: items

end

def docText (record : DocValue) : Option JsString := do
  let text ← canonicalJson numberText 0 record
  if (utf8 text).length > maxSubscriptionDocBytes then none else some text

end Text

/-- `JSON.parse`, or `null` when it throws. -/
def jsonValue (text : JsString) : DocValue :=
  (Json.parse (fun lexeme => (numberValue lexeme).map some) text).getD .null

/-! ### Documents (`subscription-doc-codec.ts:221-301`) -/

/-- What a subscriber document is encoded from; the values are what the caller passes, or what was parsed. -/
structure SubscriberFields where
  filter : DocValue
  generation : DocValue
  position : DocValue
  projection : DocValue

structure SnapshotFields where
  checkpoint : DocValue
  generation : DocValue
  projection : DocValue
  state : DocValue
  stateDigest : DocValue

structure SubscriberDocument where
  fields : SubscriberFields
  receiptDigest : DocValue

structure SnapshotDocument where
  fields : SnapshotFields
  receiptDigest : DocValue

section Codec
variable (numberText : FiniteDouble → JsString) (sha256 : List Byte → Sha256Text)

def subscriberReceipt (filter : List JsString) (generation : FiniteDouble) (position projection : JsString) : Sha256Text :=
  digestDoc sha256 subscriberDocVersion
    ([projection, decimal filter.length] ++ filter ++ [numberText generation, position])

def subscriberRecord (filter : List JsString) (generation : FiniteDouble) (position projection receiptDigest : JsString) :
    DocValue := .object
  [(lit "cursor", .object [(lit "generation", .number (some (.finite generation))), (lit "position", .string position)]),
    (lit "filter", .array (filter.map .string)), (lit "projection", .string projection),
    (lit "receiptDigest", .string receiptDigest), (lit "version", .string subscriberDocVersion)]

def encodeSubscriberDoc (input : SubscriberFields) : Option JsString := do
  let projection ← identifier input.projection
  let filter ← filterList input.filter
  let position ← positionText input.position
  let generation ← generationOf input.generation
  docText numberText
    (subscriberRecord filter generation position projection
      (subscriberReceipt numberText sha256 filter generation position projection))

def snapshotReceipt (checkpoint : JsString) (generation : FiniteDouble) (projection state stateDigest : JsString) : Sha256Text :=
  digestDoc sha256 snapshotDocVersion [projection, numberText generation, checkpoint, stateDigest, state]

def snapshotRecord (checkpoint : JsString) (generation : FiniteDouble) (projection : JsString)
    (state : List (JsString × DocValue)) (stateDigest receiptDigest : JsString) : DocValue := .object
  [(lit "checkpoint", .string checkpoint), (lit "generation", .number (some (.finite generation))),
    (lit "projection", .string projection), (lit "receiptDigest", .string receiptDigest), (lit "state", .object state),
    (lit "stateDigest", .string stateDigest), (lit "version", .string snapshotDocVersion)]

def encodeSnapshotDoc (input : SnapshotFields) : Option JsString := do
  let projection ← identifier input.projection
  let checkpoint ← positionText input.checkpoint
  let stateDigest ← sha256Text input.stateDigest
  let record ← plainRecord input.state
  let state ← canonicalJson numberText 0 (.object record)
  let generation ← generationOf input.generation
  docText numberText
    (snapshotRecord checkpoint generation projection record stateDigest
      (snapshotReceipt numberText sha256 checkpoint generation projection state stateDigest))

def decodeSubscriberDoc (text : JsString) : Option SubscriberDocument := do
  let raw ← plainRecord (jsonValue text)
  let cursor ← plainRecord (fieldOf raw "cursor")
  let fields : SubscriberFields :=
    ⟨fieldOf raw "filter", fieldOf cursor "generation", fieldOf cursor "position", fieldOf raw "projection"⟩
  if encodeSubscriberDoc numberText sha256 fields ≠ some text then none
  else return ⟨fields, fieldOf raw "receiptDigest"⟩

def decodeSnapshotDoc (text : JsString) : Option SnapshotDocument := do
  let raw ← plainRecord (jsonValue text)
  let fields : SnapshotFields := ⟨fieldOf raw "checkpoint", fieldOf raw "generation", fieldOf raw "projection",
    fieldOf raw "state", fieldOf raw "stateDigest"⟩
  if encodeSnapshotDoc numberText sha256 fields ≠ some text then none
  else return ⟨fields, fieldOf raw "receiptDigest"⟩

end Codec

end MoeNG.Subscriptions.Codec
