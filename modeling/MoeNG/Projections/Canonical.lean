import Mathlib.Data.List.Sort
import MoeNG.Kernel.Utf8
import MoeNG.Lib.Lists
import MoeNG.Store.Input

/-!
# Projection states and their digests (`packages/store/src/outbox-relay/outbox-relay-digests.ts`)

A projection state is a plain record. Its keys stand in the order they were
inserted in, which a reducer can observe; the canonical clone has them sorted,
and the digest covers the canonical clone. `sha256` is the hexadecimal digest
of a byte string.
-/

namespace MoeNG.Projections
open MoeNG.Kernel MoeNG.Lib MoeNG.Store

/-! ### Plain data (`projection-fold.ts:17-19`) -/

/-- The key that the clone refuses cannot be written down. -/
abbrev PlainKey := { key : JsString // key ≠ lit "__proto__" }

/-- A number is given by its text, with `-0`, `NaN` and the infinities told apart. -/
inductive PlainValue where
  | null
  | boolean (value : Bool)
  | number (text : JsString)
  | bigint (value : ℤ)
  | string (value : JsString)
  | array (items : List PlainValue)
  | object (entries : List (PlainKey × PlainValue))

abbrev ProjectionState := List (PlainKey × PlainValue)

/-! ### The canonical clone (`outbox-relay-digests.ts:105-196`) -/

def sortEntries (entries : ProjectionState) : ProjectionState := entries.insertionSort fun a b => a.1.val ≤ b.1.val

mutual

def canonicalValue : PlainValue → PlainValue
  | .null => .null
  | .boolean value => .boolean value
  | .number text => .number text
  | .bigint value => .bigint value
  | .string value => .string value
  | .array items => .array (canonicalItems items)
  | .object entries => .object (sortEntries (canonicalEntries entries))

def canonicalItems : List PlainValue → List PlainValue
  | [] => []
  | value :: rest => canonicalValue value :: canonicalItems rest

def canonicalEntries : ProjectionState → ProjectionState
  | [] => []
  | (key, value) :: rest => (key, canonicalValue value) :: canonicalEntries rest

end

def canonicalState (state : ProjectionState) : ProjectionState := sortEntries (canonicalEntries state)

theorem canonicalEntries_eq (entries : ProjectionState) :
    canonicalEntries entries = entries.map fun e => (e.1, canonicalValue e.2) := by
  induction entries with
  | nil => rfl
  | cons e rest ih =>
    obtain ⟨key, value⟩ := e
    rw [canonicalEntries, ih, List.map_cons]

theorem sortEntries_sorted (entries : ProjectionState) :
    (sortEntries entries).Pairwise fun a b => a.1.val ≤ b.1.val :=
  List.pairwise_insertionSort _ _

theorem sortEntries_idem (entries : ProjectionState) : sortEntries (sortEntries entries) = sortEntries entries :=
  (sortEntries_sorted entries).insertionSort_eq

/-- Sorted entries with canonical values are canonical. -/
theorem canonicalState_of_fixed (entries : ProjectionState) (h : ∀ e ∈ entries, canonicalValue e.2 = e.2) :
    canonicalState (sortEntries entries) = sortEntries entries := by
  have hfixed : canonicalEntries (sortEntries entries) = sortEntries entries := by
    rw [canonicalEntries_eq]
    refine map_eq_self _ _ fun e he => ?_
    rw [h e ((List.mem_insertionSort _).mp he)]
  rw [canonicalState, hfixed, sortEntries_idem]

mutual

theorem canonicalValue_idem : ∀ value : PlainValue, canonicalValue (canonicalValue value) = canonicalValue value
  | .null => rfl
  | .boolean _ => rfl
  | .number _ => rfl
  | .bigint _ => rfl
  | .string _ => rfl
  | .array items => by rw [canonicalValue, canonicalValue, canonicalItems_idem items]
  | .object entries => by
    have h := canonicalState_of_fixed (canonicalEntries entries) (canonicalEntries_fixed entries)
    rw [canonicalValue, canonicalValue]
    exact congrArg _ h

theorem canonicalItems_idem : ∀ items : List PlainValue, canonicalItems (canonicalItems items) = canonicalItems items
  | [] => rfl
  | value :: rest => by rw [canonicalItems, canonicalItems, canonicalValue_idem value, canonicalItems_idem rest]

theorem canonicalEntries_fixed :
    ∀ entries : ProjectionState, ∀ e ∈ canonicalEntries entries, canonicalValue e.2 = e.2
  | [], _, he => by cases he
  | (key, value) :: rest, e, he => by
    rw [canonicalEntries] at he
    obtain rfl | he := List.mem_cons.mp he
    · exact canonicalValue_idem value
    · exact canonicalEntries_fixed rest e he

end

@[simp] theorem canonicalState_idem (state : ProjectionState) : canonicalState (canonicalState state) = canonicalState state :=
  canonicalState_of_fixed _ (canonicalEntries_fixed state)

/-! ### The digest (`outbox-relay-digests.ts:45-59`, `outbox-relay-digests.ts:61-95`, `outbox-relay-digests.ts:199-232`) -/

def relayInboxReceiptVersion : JsString := lit "moe-relay-inbox-receipt/1"
def relayProjectionStateVersion : JsString := lit "moe-relay-projection-state/1"

def bigEndian64 (n : ℕ) : List Byte :=
  [n / 2 ^ 56, n / 2 ^ 48, n / 2 ^ 40, n / 2 ^ 32, n / 2 ^ 24, n / 2 ^ 16, n / 2 ^ 8, n].map octet

def frameBytes (value : List Byte) : List Byte := bigEndian64 value.length ++ value

def frameText (value : JsString) : List Byte := frameBytes (utf8 value)

mutual

/-- The bytes hashed for a value whose records stand in the order they are walked in. -/
def encodeValue : PlainValue → List Byte
  | .null => [0]
  | .boolean false => [1]
  | .boolean true => [2]
  | .number text => 3 :: frameText text
  | .bigint value => 4 :: frameText (decimalInt value)
  | .string value => 5 :: frameText value
  | .array items => 6 :: (frameText (decimal items.length) ++ encodeItems items)
  | .object entries => 7 :: (frameText (decimal entries.length) ++ encodeEntries entries)

def encodeItems : List PlainValue → List Byte
  | [] => []
  | value :: rest => encodeValue value ++ encodeItems rest

def encodeEntries : ProjectionState → List Byte
  | [] => []
  | (key, value) :: rest => frameText key.val ++ encodeValue value ++ encodeEntries rest

end

/-- The preimage of the digest of a state. -/
def stateBytes (state : ProjectionState) : List Byte :=
  frameText relayProjectionStateVersion ++ encodeValue (.object (canonicalState state))

structure RelayMessage where
  headers : Option (List Byte)
  messageId : JsString
  payload : List Byte
  topic : JsString
  deriving DecidableEq

structure RelayInboxIdentity where
  digest : JsString
  messageId : JsString
  deriving DecidableEq

section Digests
variable (sha256 : List Byte → JsString)

def stateDigest (state : ProjectionState) : JsString := sha256 (stateBytes state)

/-- States that differ in the order of their keys only have one digest. -/
theorem stateDigest_congr {s t : ProjectionState} (h : canonicalState s = canonicalState t) :
    stateDigest sha256 s = stateDigest sha256 t := by
  unfold stateDigest stateBytes
  rw [h]

@[simp] theorem stateDigest_canonicalState (state : ProjectionState) :
    stateDigest sha256 (canonicalState state) = stateDigest sha256 state :=
  stateDigest_congr sha256 (canonicalState_idem state)

def inboxBytes (consumerId : JsString) (message : RelayMessage) : List Byte :=
  frameText relayInboxReceiptVersion ++ frameText consumerId ++ frameText message.messageId ++ frameText message.topic
    ++ frameBytes message.payload ++ frameBytes (message.headers.getD [])

def digestInboxReceipt (consumerId : JsString) (message : RelayMessage) : Option RelayInboxIdentity :=
  if isIdentifier consumerId && isIdentifier message.messageId && isIdentifier message.topic
      && message.payload.length ≤ maxBlobBytes && (message.headers.getD []).length ≤ maxBlobBytes then
    some ⟨sha256 (inboxBytes consumerId message), message.messageId⟩
  else none

theorem digestInboxReceipt_messageId (consumerId : JsString) (message : RelayMessage) (identity : RelayInboxIdentity)
    (h : digestInboxReceipt sha256 consumerId message = some identity) : identity.messageId = message.messageId := by
  unfold digestInboxReceipt at h
  split at h
  · rw [← Option.some.inj h]
  · cases h

end Digests

end MoeNG.Projections
