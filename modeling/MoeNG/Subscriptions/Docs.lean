import MoeNG.Kernel.Utf8
import MoeNG.Store.Input

/-!
# Subscription documents (`subscription-contracts.ts`, `subscription-doc-codec.ts`)

The cursor a subscriber stores and the baseline snapshot of a projection. The
stored text of a document is the canonical JSON of its fields with a receipt
digest over them, so a document here is its fields, and `subscriberText` and
`snapshotText` give the text that the size limit measures.
-/

namespace MoeNG.Subscriptions
open MoeNG.Kernel MoeNG.Store

/-! ### Contracts (`subscription-contracts.ts:13-151`) -/

structure SubscriptionCursor where
  generation : ℕ
  position : ℕ
  deriving DecidableEq

structure SubscriberDoc where
  cursor : SubscriptionCursor
  filter : List JsString
  projection : JsString
  deriving DecidableEq

structure SnapshotDoc where
  checkpoint : ℕ
  generation : ℕ
  projection : JsString
  state : JsString
  stateDigest : JsString
  deriving DecidableEq

/-- One `filter_json` text: a cursor, a baseline, or neither. -/
inductive StoredDoc where
  | subscriber (doc : SubscriberDoc)
  | snapshot (doc : SnapshotDoc)
  | unparseable (text : JsString)
  deriving DecidableEq

def snapshotSubscriberPrefix : JsString := lit "moe-snapshot/"

def snapshotSubscriberId (projection : JsString) : JsString := snapshotSubscriberPrefix ++ projection

def isReservedSubscriberId (subscriberId : JsString) : Bool := snapshotSubscriberPrefix.isPrefixOf subscriberId

inductive SubscriptionLayer where
  | INPUT
  | SOURCE
  | STATE
  deriving DecidableEq

inductive SubscriptionCode where
  | SUBSCRIPTION_CURSOR_NOT_ISSUED
  | SUBSCRIPTION_CURSOR_REGRESSION
  | SUBSCRIPTION_GENERATION_BASELINE_MISSING
  | SUBSCRIPTION_GENERATION_MISSING
  | SUBSCRIPTION_INPUT_INVALID
  | SUBSCRIPTION_NOT_REGISTERED
  | SUBSCRIPTION_SNAPSHOT_REGRESSION
  | SUBSCRIPTION_SNAPSHOT_STALE
  | SUBSCRIPTION_STATE_CORRUPT
  | SUBSCRIPTION_STORE_BUSY
  deriving DecidableEq

inductive SubscriptionGapCause where
  | CURSOR_AHEAD
  | CURSOR_CORRUPT
  | GENERATION_CHANGED
  | HISTORY_PRUNED
  deriving DecidableEq

/-! ### Canonical text (`subscription-doc-codec.ts:34-193`) -/

def maxSubscriptionDocBytes : ℕ := 65536
def maxSubscriptionFilterEntries : ℕ := 64
def subscriberDocVersion : JsString := lit "moe-subscription/1"
def snapshotDocVersion : JsString := lit "moe-subscription-snapshot/1"

-- `/^0$|^[1-9]\d*$/u`
def parsePosition (value : JsString) : Option ℕ :=
  if value ≠ [] ∧ value.all isDigit ∧ (value = lit "0" ∨ value.head? ≠ some 48) then
    some (value.foldl (fun total c => 10 * total + (c.val - 48)) 0)
  else none

def formatPosition (value : ℕ) : JsString := decimal value

example : parsePosition (lit "907") = some 907 := by decide
example : parsePosition (lit "007") = none := by decide

-- every digest has 64 code units, whatever the fields are
def subscriberText (doc : SubscriberDoc) (receiptDigest : JsString) : JsString :=
  jsonRecord [
    ("cursor", jsonRecord [("generation", decimal doc.cursor.generation),
      ("position", jsonString (formatPosition doc.cursor.position))]),
    ("filter", jsonArray (doc.filter.map jsonString)),
    ("projection", jsonString doc.projection),
    ("receiptDigest", jsonString receiptDigest),
    ("version", jsonString subscriberDocVersion)]

def snapshotText (doc : SnapshotDoc) (receiptDigest : JsString) : JsString :=
  jsonRecord [
    ("checkpoint", jsonString (formatPosition doc.checkpoint)),
    ("generation", decimal doc.generation),
    ("projection", jsonString doc.projection),
    ("receiptDigest", jsonString receiptDigest),
    ("state", doc.state),
    ("stateDigest", jsonString doc.stateDigest),
    ("version", jsonString snapshotDocVersion)]

def anyDigest : JsString := List.replicate 64 48

/-! ### Encoding (`subscription-doc-codec.ts:71-104`, `subscription-doc-codec.ts:221-258`) -/

def isGeneration (value : ℕ) : Bool := 1 ≤ value ∧ (value : ℤ) ≤ maxSafeInteger

def isFilterList (value : List JsString) : Bool :=
  value.length ≤ maxSubscriptionFilterEntries ∧ value.all isIdentifier

def isSha256Text (value : JsString) : Bool :=
  value.length = 64 ∧ value.all fun c => isDigit c ∨ (97 ≤ c ∧ c ≤ 102)

def encodeSubscriberDoc (filter : List JsString) (generation position : ℕ) (projection : JsString) :
    Option SubscriberDoc :=
  let doc : SubscriberDoc := ⟨⟨generation, position⟩, filter, projection⟩
  if isIdentifier projection ∧ isFilterList filter ∧ isGeneration generation
      ∧ utf8Length (subscriberText doc anyDigest) ≤ maxSubscriptionDocBytes then some doc
  else none

/-- `state` is the canonical JSON of the published record, absent when it has none. -/
def encodeSnapshotDoc (checkpoint generation : ℕ) (projection : JsString) (state : Option JsString)
    (stateDigest : JsString) : Option SnapshotDoc := do
  let text ← state
  let doc : SnapshotDoc := ⟨checkpoint, generation, projection, text, stateDigest⟩
  if isIdentifier projection ∧ isSha256Text stateDigest ∧ isGeneration generation
      ∧ utf8Length (snapshotText doc anyDigest) ≤ maxSubscriptionDocBytes then some doc
  else none

def decodeSubscriberDoc : StoredDoc → Option SubscriberDoc
  | .subscriber doc => some doc
  | _ => none

def decodeSnapshotDoc : StoredDoc → Option SnapshotDoc
  | .snapshot doc => some doc
  | _ => none

/-! ### What an encoded document holds -/

theorem encodeSubscriberDoc_some (filter : List JsString) (generation position : ℕ) (projection : JsString)
    (doc : SubscriberDoc) (h : encodeSubscriberDoc filter generation position projection = some doc) :
    doc = ⟨⟨generation, position⟩, filter, projection⟩ ∧ isIdentifier projection = true
      ∧ isGeneration generation = true := by
  unfold encodeSubscriberDoc at h
  dsimp only at h
  split at h
  · rename_i hok
    exact ⟨(Option.some.inj h).symm, hok.1, hok.2.2.1⟩
  · cases h

theorem encodeSnapshotDoc_some (checkpoint generation : ℕ) (projection : JsString) (state : Option JsString)
    (stateDigest : JsString) (doc : SnapshotDoc)
    (h : encodeSnapshotDoc checkpoint generation projection state stateDigest = some doc) :
    doc.checkpoint = checkpoint ∧ doc.generation = generation ∧ doc.projection = projection := by
  unfold encodeSnapshotDoc at h
  obtain ⟨text, -, h⟩ := Option.bind_eq_some_iff.mp h
  dsimp only at h
  split at h
  · obtain rfl := Option.some.inj h
    exact ⟨rfl, rfl, rfl⟩
  · cases h

theorem isReservedSubscriberId_iff (subscriberId : JsString) :
    isReservedSubscriberId subscriberId = true ↔ ∃ projection, subscriberId = snapshotSubscriberId projection := by
  unfold isReservedSubscriberId snapshotSubscriberId
  rw [List.isPrefixOf_iff_prefix]
  constructor
  · rintro ⟨rest, rfl⟩
    exact ⟨rest, rfl⟩
  · rintro ⟨rest, rfl⟩
    exact List.prefix_append _ _

theorem isReservedSubscriberId_snapshot (projection : JsString) :
    isReservedSubscriberId (snapshotSubscriberId projection) = true :=
  (isReservedSubscriberId_iff _).mpr ⟨projection, rfl⟩

theorem snapshotSubscriberId_inj (a b : JsString) : snapshotSubscriberId a = snapshotSubscriberId b ↔ a = b := by
  simp [snapshotSubscriberId]

end MoeNG.Subscriptions
