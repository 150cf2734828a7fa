import MoeNG.Kernel.NumberValue
import MoeNG.Kernel.Utf8Decode
import MoeNG.Lib.Codes
import MoeNG.Store.Input
import MoeNG.Store.TextLength

/-!
# Decision leg roster (`packages/store/src/decision-leg-roster.ts`)

The durable text of the legs of one decision. Every failure is the one error
`DecisionLedgerIntegrityError`, here `none`.
-/

namespace MoeNG.Store.DecisionLegRoster
open MoeNG.Kernel MoeNG.Lib

/-! ### Limits (`decision-leg-roster.ts:14-16`, `decision-legs-contracts.ts:9`, `store-internals.ts:16-23`) -/

def rosterVersion : JsString := lit "moe-decision-leg-roster/1"
def maxDecisionLegRosterBytes : ℕ := 32768
def maxDecisionLegs : ℕ := 8
def internalIdentifierPrefix : JsString := lit "moe-internal:"
def legReceiptSeparator : JsString := lit ":leg:"

/-! ### Rosters (`decision-leg-roster.ts:26-42`) -/

/-- A nonnegative safe integer other than `-0`. -/
abbrev SafeCount := Fin (2 ^ 53)

/-- A number that passes `Number.isSafeInteger(value) && value >= 0`. -/
inductive Nonnegative where
  | count (n : SafeCount)
  | negativeZero
  deriving DecidableEq

def Nonnegative.toCount : Nonnegative → SafeCount
  | .count n => n
  | .negativeZero => ⟨0, Nat.two_pow_pos 53⟩

def Nonnegative.toNat (n : Nonnegative) : ℕ := n.toCount.val

def Nonnegative.value : Nonnegative → Value
  | .count n => .number (.integer n.val)
  | .negativeZero => .number .negativeZero

structure Leg where
  aggregateId : JsString
  expectedVersion : Nonnegative
  index : Nonnegative
  receiptCommandId : Option JsString
  receiptEffectSha256 : Option JsString
  receiptRequestSha256 : Option JsString
  deriving DecidableEq

structure Roster where
  decisionId : JsString
  count : Nonnegative
  legs : List Leg
  deriving DecidableEq

/-! ### Readers (`decision-leg-roster.ts:58-107`) -/

def rosterKeys : List String := ["version", "decisionId", "count", "legs"]

def legKeys : List String :=
  ["aggregateId", "expectedVersion", "index", "receiptCommandId", "receiptRequestSha256", "receiptEffectSha256"]

def denseArray (value : Value) (minimum maximum : ℕ) : Option (List Value) :=
  match value with
  | .array items => if items.length < minimum || maximum < items.length then none else some items
  | _ => none

def identifier : Value → Option JsString
  | .string s => if isIdentifier s then some s else none
  | _ => none

theorem toNat_lt (z : ℤ) (h : 0 ≤ z ∧ z ≤ maxSafeInteger) : z.toNat < 2 ^ 53 := by
  unfold maxSafeInteger at h
  omega

def nonnegative : Value → Option Nonnegative
  | .number (.integer z) =>
    if h : 0 ≤ z ∧ z ≤ maxSafeInteger then some (.count ⟨z.toNat, toNat_lt z h⟩) else none
  | .number .negativeZero => some .negativeZero
  | _ => none

def isNull : Value → Bool
  | .null => true
  | _ => false

def isText (text : JsString) : Value → Bool
  | .string s => s = text
  | _ => false

/-! ### Snapshots (`decision-leg-roster.ts:109-168`) -/

def decisionLegReceiptCommandId (decisionId : JsString) (legIndex : ℕ) : Option JsString := do
  let decisionId ← digestOf (.string decisionId)
  if maxDecisionLegs ≤ legIndex then none
  else
    let base := internalIdentifierPrefix ++ lit "decision-effect:" ++ decisionId
    some (if legIndex = 0 then base else base ++ legReceiptSeparator ++ decimal legIndex)

def snapshotLeg (raw : Value) (decisionId : JsString) (position : ℕ) : Option Leg := do
  let leg ← exactRecord raw legKeys
  let index ← nonnegative (leg.field "index")
  if index.toNat ≠ position then none
  else
    let aggregateId ← identifier (leg.field "aggregateId")
    let expectedVersion ← nonnegative (leg.field "expectedVersion")
    if isNull (leg.field "receiptCommandId") && isNull (leg.field "receiptRequestSha256")
        && isNull (leg.field "receiptEffectSha256") then
      some ⟨aggregateId, expectedVersion, index, none, none, none⟩
    else
      let receiptCommandId ← decisionLegReceiptCommandId decisionId index.toNat
      if isText receiptCommandId (leg.field "receiptCommandId") then
        let effect ← digestOf (leg.field "receiptEffectSha256")
        let request ← digestOf (leg.field "receiptRequestSha256")
        some ⟨aggregateId, expectedVersion, index, some receiptCommandId, some effect, some request⟩
      else none

/-- The legs from `position` on, behind legs with these aggregates and receipts. -/
def snapshotLegs (decisionId : JsString) : ℕ → List JsString → List JsString → List Value → Option (List Leg)
  | _, _, _, [] => some []
  | position, aggregates, receipts, rawLeg :: rest => do
    let leg ← snapshotLeg rawLeg decisionId position
    if leg.aggregateId ∈ aggregates then none
    else if leg.receiptCommandId.any (· ∈ receipts) then none
    else
      let legs ← snapshotLegs decisionId (position + 1) (leg.aggregateId :: aggregates)
        (leg.receiptCommandId.toList ++ receipts) rest
      some (leg :: legs)

def snapshotDecisionLegRoster (raw : Value) : Option Roster := do
  let roster ← exactRecord raw rosterKeys
  if isText rosterVersion (roster.field "version") then
    let decisionId ← digestOf (roster.field "decisionId")
    let count ← nonnegative (roster.field "count")
    let rawLegs ← denseArray (roster.field "legs") 1 maxDecisionLegs
    if count.toNat ≠ rawLegs.length then none
    else
      let legs ← snapshotLegs decisionId 0 [] [] rawLegs
      some ⟨decisionId, count, legs⟩
  else none

/-! ### The stored text (`decision-leg-roster.ts:170-222`) -/

def nullable : Option JsString → Json SafeCount
  | none => .null
  | some s => .string s

def legTuple (leg : Leg) : Json SafeCount :=
  .array [.number leg.index.toCount, .string leg.aggregateId, .number leg.expectedVersion.toCount,
    nullable leg.receiptCommandId, nullable leg.receiptRequestSha256, nullable leg.receiptEffectSha256]

/-- The tuple with the numbers as `String` shows them, to which `-0` is `0`. -/
def rosterTuple (roster : Roster) : Json SafeCount :=
  .array [.string rosterVersion, .string roster.decisionId, .number roster.count.toCount, .array (roster.legs.map legTuple)]

def legRecord (index aggregateId expectedVersion receiptCommandId receiptRequestSha256 receiptEffectSha256 : Value) : Value :=
  recordOf [("index", index), ("aggregateId", aggregateId), ("expectedVersion", expectedVersion),
    ("receiptCommandId", receiptCommandId), ("receiptRequestSha256", receiptRequestSha256),
    ("receiptEffectSha256", receiptEffectSha256)]

def rosterRecord (version decisionId count legs : Value) : Value :=
  recordOf [("version", version), ("decisionId", decisionId), ("count", count), ("legs", legs)]

def legFromTuple (rawLeg : Value) : Option Value := do
  match ← denseArray rawLeg 6 6 with
  | [index, aggregateId, expectedVersion, commandId, request, effect] =>
    some (legRecord index aggregateId expectedVersion commandId request effect)
  | _ => none

def rosterFromTuple (raw : Value) : Option Value := do
  match ← denseArray raw 4 4 with
  | [version, decisionId, count, rawLegs] =>
    let legs ← denseArray rawLegs 1 maxDecisionLegs
    let legs ← legs.mapM legFromTuple
    some (rosterRecord version decisionId count (.array legs))
  | _ => none

def nullableValue : Option JsString → Value
  | none => .null
  | some s => .string s

/-- The roster as the object that callers hold. -/
def Leg.value (leg : Leg) : Value :=
  legRecord leg.index.value (.string leg.aggregateId) leg.expectedVersion.value (nullableValue leg.receiptCommandId)
    (nullableValue leg.receiptRequestSha256) (nullableValue leg.receiptEffectSha256)

def Roster.value (roster : Roster) : Value :=
  rosterRecord (.string rosterVersion) (.string roster.decisionId) roster.count.value (.array (roster.legs.map Leg.value))

def countText (n : SafeCount) : JsString := decimal n.val

def rosterText (roster : Roster) : JsString := Json.print countText (rosterTuple roster)

def encodeDecisionLegRoster (raw : Value) : Option (List Byte) := do
  let roster ← snapshotDecisionLegRoster raw
  if (utf8 (rosterText roster)).length ≤ maxDecisionLegRosterBytes then some (utf8 (rosterText roster)) else none

/-- `decodeDecisionLegRoster` before its last comparison. -/
def readDecisionLegRoster (bytes : List Byte) : Option Roster := do
  if bytes.length < 1 || maxDecisionLegRosterBytes < bytes.length then none
  else
    let text ← decodeTextAfterMark bytes
    let tuple ← Json.parse numberValue text
    let raw ← rosterFromTuple tuple.value
    snapshotDecisionLegRoster raw

def decodeDecisionLegRoster (bytes : List Byte) : Option Roster :=
  StrictCodec.checked (fun roster => encodeDecisionLegRoster roster.value) readDecisionLegRoster bytes

end MoeNG.Store.DecisionLegRoster

/-!
## The roster text is read back

What a snapshot lets through, the length of its text, and that reading the text
gives the roster with `0` for `-0`.
-/

namespace MoeNG.Store.DecisionLegRoster
open MoeNG.Kernel MoeNG.Lib

/-! ### What a snapshot lets through -/

/-- The receipt of a leg is absent, or it is complete and belongs to the leg. -/
def ReceiptValid (decisionId : JsString) (position : ℕ) (leg : Leg) : Prop :=
  (leg.receiptCommandId = none ∧ leg.receiptEffectSha256 = none ∧ leg.receiptRequestSha256 = none) ∨
    ∃ command effect request, leg.receiptCommandId = some command ∧ leg.receiptEffectSha256 = some effect
      ∧ leg.receiptRequestSha256 = some request ∧ decisionLegReceiptCommandId decisionId position = some command
      ∧ isDigest effect = true ∧ isDigest request = true

structure LegValid (decisionId : JsString) (position : ℕ) (leg : Leg) : Prop where
  index : leg.index.toNat = position
  aggregateId : isIdentifier leg.aggregateId = true
  receipt : ReceiptValid decisionId position leg

/-- Legs from `position` on whose aggregates and receipts are new and distinct. -/
def LegsValid (decisionId : JsString) : ℕ → List JsString → List JsString → List Leg → Prop
  | _, _, _, [] => True
  | position, aggregates, receipts, leg :: rest =>
    LegValid decisionId position leg ∧ leg.aggregateId ∉ aggregates ∧ leg.receiptCommandId.any (· ∈ receipts) = false
      ∧ LegsValid decisionId (position + 1) (leg.aggregateId :: aggregates) (leg.receiptCommandId.toList ++ receipts) rest

structure RosterValid (roster : Roster) : Prop where
  decisionId : isDigest roster.decisionId = true
  count : roster.count.toNat = roster.legs.length
  size : 1 ≤ roster.legs.length ∧ roster.legs.length ≤ maxDecisionLegs
  legs : LegsValid roster.decisionId 0 [] [] roster.legs

theorem identifier_eq_some (v : Value) (s : JsString) (h : identifier v = some s) : isIdentifier s = true := by
  unfold identifier at h
  split at h
  · obtain ⟨hs, h⟩ := Option.ite_none_right_eq_some.mp h
    exact Option.some.inj h ▸ hs
  · cases h

theorem nonnegative_value (n : Nonnegative) : nonnegative n.value = some n := by
  cases n with
  | negativeZero => rfl
  | count n =>
    have hn : (0 : ℤ) ≤ n.val ∧ (n.val : ℤ) ≤ maxSafeInteger := by
      unfold maxSafeInteger
      omega
    show (if h : _ then _ else _) = _
    rw [dif_pos hn]
    rfl

theorem snapshotLeg_valid (raw : Value) (decisionId : JsString) (position : ℕ) (leg : Leg)
    (h : snapshotLeg raw decisionId position = some leg) : LegValid decisionId position leg := by
  unfold snapshotLeg at h
  obtain ⟨fields, -, h⟩ := Option.bind_eq_some_iff.mp h
  obtain ⟨index, -, h⟩ := Option.bind_eq_some_iff.mp h
  obtain ⟨hindex, h⟩ := Option.ite_none_left_eq_some.mp h
  obtain ⟨aggregateId, haggregate, h⟩ := Option.bind_eq_some_iff.mp h
  obtain ⟨expectedVersion, -, h⟩ := Option.bind_eq_some_iff.mp h
  have hid := identifier_eq_some _ _ haggregate
  split at h
  · obtain rfl := Option.some.inj h
    exact ⟨not_not.mp hindex, hid, Or.inl ⟨rfl, rfl, rfl⟩⟩
  · obtain ⟨command, hcommand, h⟩ := Option.bind_eq_some_iff.mp h
    obtain ⟨-, h⟩ := Option.ite_none_right_eq_some.mp h
    obtain ⟨effect, heffect, h⟩ := Option.bind_eq_some_iff.mp h
    obtain ⟨request, hrequest, h⟩ := Option.bind_eq_some_iff.mp h
    obtain rfl := Option.some.inj h
    exact ⟨not_not.mp hindex, hid, Or.inr ⟨command, effect, request, rfl, rfl, rfl, not_not.mp hindex ▸ hcommand,
      isDigest_of_digestOf _ _ heffect, isDigest_of_digestOf _ _ hrequest⟩⟩

theorem snapshotLegs_valid (decisionId : JsString) (rawLegs : List Value) (position : ℕ) (aggregates receipts : List JsString)
    (legs : List Leg) (h : snapshotLegs decisionId position aggregates receipts rawLegs = some legs) :
    LegsValid decisionId position aggregates receipts legs ∧ legs.length = rawLegs.length := by
  induction rawLegs generalizing position aggregates receipts legs with
  | nil =>
    obtain rfl := Option.some.inj h
    exact ⟨trivial, rfl⟩
  | cons rawLeg rest ih =>
    obtain ⟨leg, hleg, h⟩ := Option.bind_eq_some_iff.mp h
    obtain ⟨haggregate, h⟩ := Option.ite_none_left_eq_some.mp h
    obtain ⟨hreceipt, h⟩ := Option.ite_none_left_eq_some.mp h
    obtain ⟨more, hmore, h⟩ := Option.bind_eq_some_iff.mp h
    obtain rfl := Option.some.inj h
    obtain ⟨hvalid, hlength⟩ := ih _ _ _ _ hmore
    exact ⟨⟨snapshotLeg_valid _ _ _ _ hleg, haggregate, Bool.eq_false_iff.mpr hreceipt, hvalid⟩, congrArg (· + 1) hlength⟩

theorem snapshot_valid (raw : Value) (roster : Roster) (h : snapshotDecisionLegRoster raw = some roster) :
    RosterValid roster := by
  unfold snapshotDecisionLegRoster at h
  obtain ⟨fields, -, h⟩ := Option.bind_eq_some_iff.mp h
  obtain ⟨-, h⟩ := Option.ite_none_right_eq_some.mp h
  obtain ⟨decisionId, hdecision, h⟩ := Option.bind_eq_some_iff.mp h
  obtain ⟨count, -, h⟩ := Option.bind_eq_some_iff.mp h
  obtain ⟨rawLegs, hraw, h⟩ := Option.bind_eq_some_iff.mp h
  obtain ⟨hcount, h⟩ := Option.ite_none_left_eq_some.mp h
  obtain ⟨legs, hlegs, h⟩ := Option.bind_eq_some_iff.mp h
  obtain rfl := Option.some.inj h
  obtain ⟨hvalid, hlength⟩ := snapshotLegs_valid _ _ _ _ _ _ hlegs
  have hsize : 1 ≤ rawLegs.length ∧ rawLegs.length ≤ maxDecisionLegs := by
    unfold denseArray at hraw
    split at hraw
    · obtain ⟨hbounds, hraw⟩ := Option.ite_none_left_eq_some.mp hraw
      obtain rfl := Option.some.inj hraw
      rw [Bool.or_eq_true, decide_eq_true_eq, decide_eq_true_eq] at hbounds
      omega
    · cases hraw
  refine ⟨isDigest_of_digestOf _ _ hdecision, (not_not.mp hcount).trans hlength.symm, ?_, hvalid⟩
  show 1 ≤ legs.length ∧ legs.length ≤ maxDecisionLegs
  rwa [hlength]

/-! ### A valid roster is its own snapshot -/

theorem legRecord_fields (index aggregateId expectedVersion command request effect : Value) :
    exactRecord (legRecord index aggregateId expectedVersion command request effect) legKeys
      = some [("aggregateId", aggregateId), ("expectedVersion", expectedVersion), ("index", index),
          ("receiptCommandId", command), ("receiptRequestSha256", request), ("receiptEffectSha256", effect)] := by
  have hkeys : (["index", "aggregateId", "expectedVersion", "receiptCommandId", "receiptRequestSha256",
      "receiptEffectSha256"].map lit).Nodup := by decide
  exact exactRecord_perm [("index", index), ("aggregateId", aggregateId), ("expectedVersion", expectedVersion),
    ("receiptCommandId", command), ("receiptRequestSha256", request), ("receiptEffectSha256", effect)] [_, _, _, _, _, _]
    (((List.Perm.swap _ _ _).cons _).trans (List.Perm.swap _ _ _)) hkeys

theorem rosterRecord_fields (version decisionId count legs : Value) :
    exactRecord (rosterRecord version decisionId count legs) rosterKeys
      = some [("version", version), ("decisionId", decisionId), ("count", count), ("legs", legs)] := by
  have hkeys : (rosterKeys.map lit).Nodup := by decide
  exact exactRecord_recordOf [("version", version), ("decisionId", decisionId), ("count", count), ("legs", legs)] hkeys

theorem isText_string (s : JsString) : isText s (.string s) = true := decide_eq_true rfl

theorem snapshotLeg_value (decisionId : JsString) (position : ℕ) (leg : Leg) (h : LegValid decisionId position leg) :
    snapshotLeg leg.value decisionId position = some leg := by
  obtain ⟨aggregateId, expectedVersion, index, command, effect, request⟩ := leg
  obtain ⟨hindex, hid, hreceipt⟩ := h
  dsimp only at hindex hid
  have hidentifier : identifier (.string aggregateId) = some aggregateId := if_pos hid
  unfold snapshotLeg Leg.value
  rw [legRecord_fields]
  show (nonnegative index.value).bind _ = _
  rw [nonnegative_value]
  show (if index.toNat ≠ position then none else (identifier (.string aggregateId)).bind _) = _
  rw [if_neg (not_not.mpr hindex), hidentifier]
  show (nonnegative expectedVersion.value).bind _ = _
  rw [nonnegative_value]
  obtain ⟨hcommand, heffect, hrequest⟩ | ⟨c, e, r, hcommand, heffect, hrequest, hderived, he, hr⟩ := hreceipt
  · dsimp only at hcommand heffect hrequest
    subst hcommand heffect hrequest
    rfl
  · dsimp only at hcommand heffect hrequest
    subst hcommand heffect hrequest
    show (decisionLegReceiptCommandId decisionId index.toNat).bind _ = _
    rw [hindex, hderived]
    show (if isText c (.string c) = true then (digestOf (.string e)).bind _ else none) = _
    rw [if_pos (isText_string c), digestOf_string e he]
    show (digestOf (.string r)).bind _ = _
    rw [digestOf_string r hr]
    rfl

theorem snapshotLegs_value (decisionId : JsString) (legs : List Leg) (position : ℕ) (aggregates receipts : List JsString)
    (h : LegsValid decisionId position aggregates receipts legs) :
    snapshotLegs decisionId position aggregates receipts (legs.map Leg.value) = some legs := by
  induction legs generalizing position aggregates receipts with
  | nil => rfl
  | cons leg rest ih =>
    obtain ⟨hleg, haggregate, hreceipt, hrest⟩ := h
    show (snapshotLeg leg.value decisionId position).bind _ = _
    rw [snapshotLeg_value _ _ _ hleg]
    show (if leg.aggregateId ∈ aggregates then none else _) = _
    rw [if_neg haggregate, hreceipt, if_neg (by decide), ih _ _ _ hrest]
    rfl

theorem snapshot_value (roster : Roster) (h : RosterValid roster) : snapshotDecisionLegRoster roster.value = some roster := by
  obtain ⟨decisionId, count, legs⟩ := roster
  obtain ⟨hdecision, hcount, hsize, hlegs⟩ := h
  dsimp only at hdecision hcount hsize hlegs
  have hdense : denseArray (.array (legs.map Leg.value)) 1 maxDecisionLegs = some (legs.map Leg.value) := by
    refine if_neg ?_
    rw [List.length_map, Bool.or_eq_true, decide_eq_true_eq, decide_eq_true_eq]
    omega
  unfold snapshotDecisionLegRoster Roster.value
  rw [rosterRecord_fields]
  show (if isText rosterVersion (.string rosterVersion) = true then (digestOf (.string decisionId)).bind _ else none) = _
  rw [if_pos (isText_string _), digestOf_string _ hdecision]
  show (nonnegative count.value).bind _ = _
  rw [nonnegative_value]
  show (denseArray (.array (legs.map Leg.value)) 1 maxDecisionLegs).bind _ = _
  rw [hdense]
  show (if count.toNat ≠ (legs.map Leg.value).length then none else _) = _
  rw [List.length_map, if_neg (not_not.mpr hcount), snapshotLegs_value _ _ _ _ _ hlegs]
  rfl

/-! ### The length of the text -/

theorem isPlain_digest (s : JsString) (h : isDigest s = true) : ∀ c ∈ s, isPlain c = true := by
  unfold isDigest at h
  rw [Bool.and_eq_true, List.all_eq_true] at h
  intro c hc
  have hdigit := of_decide_eq_true (h.2 c hc)
  simp only [Fin.le_def] at hdigit
  have h48 : (48 : CodeUnit).val = 48 := rfl
  have h57 : (57 : CodeUnit).val = 57 := rfl
  have h97 : (97 : CodeUnit).val = 97 := rfl
  have h102 : (102 : CodeUnit).val = 102 := rfl
  simp only [isPlain, Bool.and_eq_true, decide_eq_true_eq]
  omega

theorem isPlain_decimal (n : ℕ) : ∀ c ∈ decimal n, isPlain c = true := by
  intro c hc
  have hdigit := decimal_digit n c hc
  simp only [isPlain, Bool.and_eq_true, decide_eq_true_eq]
  omega

theorem digest_length (s : JsString) (h : isDigest s = true) : s.length = 64 := by
  unfold isDigest at h
  exact of_decide_eq_true (Bool.and_eq_true_iff.mp h).1

theorem receiptCommandId_plain (decisionId command : JsString) (position : ℕ)
    (h : decisionLegReceiptCommandId decisionId position = some command) :
    (∀ c ∈ command, isPlain c = true) ∧ command.length ≤ 99 := by
  obtain ⟨digest, hdigest, h⟩ := Option.bind_eq_some_iff.mp h
  obtain ⟨hposition, h⟩ := Option.ite_none_left_eq_some.mp h
  have hdigest := isDigest_of_digestOf _ _ hdigest
  have hlength := digest_length digest hdigest
  have hbase : ∀ c ∈ internalIdentifierPrefix ++ lit "decision-effect:" ++ digest, isPlain c = true := by
    exact List.forall_mem_append.mpr ⟨List.all_eq_true.mp (by decide), isPlain_digest digest hdigest⟩
  have hbaseLength : (internalIdentifierPrefix ++ lit "decision-effect:" ++ digest).length = 93 := by
    rw [List.length_append, hlength]
    rfl
  obtain rfl := Option.some.inj h
  split
  · exact ⟨hbase, by omega⟩
  · have hindex := decimal_length_le position 1 (by decide) (by unfold maxDecisionLegs at hposition; omega)
    have hseparator : ∀ c ∈ legReceiptSeparator, isPlain c = true := List.all_eq_true.mp (by decide)
    refine ⟨List.forall_mem_append.mpr ⟨List.forall_mem_append.mpr ⟨hbase, hseparator⟩, isPlain_decimal position⟩, ?_⟩
    rw [List.length_append, List.length_append, hbaseLength, show legReceiptSeparator.length = 5 from rfl]
    omega

theorem utf8Length_count (n : SafeCount) : utf8Length (decimal n.val) ≤ 16 :=
  utf8Length_decimal_le _ 16 (by decide) (n.isLt.trans (by decide))

theorem utf8Length_identifier (s : JsString) (h : isIdentifier s = true) : utf8Length (jsonText s) ≤ 3074 := by
  have hlength := utf8Length_jsonText s
  simp only [isIdentifier, decide_eq_true_eq] at h
  have hbound : utf8Length s ≤ 512 := h.2.2.2.2
  omega

theorem utf8Length_receipt (decisionId : JsString) (position : ℕ) (leg : Leg) (h : ReceiptValid decisionId position leg) :
    utf8Length (Json.print countText (nullable leg.receiptCommandId)) ≤ 101
      ∧ utf8Length (Json.print countText (nullable leg.receiptRequestSha256)) ≤ 66
      ∧ utf8Length (Json.print countText (nullable leg.receiptEffectSha256)) ≤ 66 := by
  have hnull : utf8Length (Json.print countText (nullable none)) = 4 := rfl
  have hdigest (s : JsString) (hs : isDigest s = true) : utf8Length (Json.print countText (nullable (some s))) = 66 := by
    show utf8Length (jsonText s) = 66
    rw [utf8Length_jsonText_plain s (isPlain_digest s hs), digest_length s hs]
  obtain ⟨hcommand, heffect, hrequest⟩ | ⟨command, effect, request, hcommand, heffect, hrequest, hderived, he, hr⟩ := h
  · rw [hcommand, heffect, hrequest, hnull]
    omega
  · obtain ⟨hplain, hlength⟩ := receiptCommandId_plain _ _ _ hderived
    rw [hcommand, heffect, hrequest, hdigest effect he, hdigest request hr]
    refine ⟨?_, le_refl _, le_refl _⟩
    show utf8Length (jsonText command) ≤ 101
    rw [utf8Length_jsonText_plain command hplain]
    omega

theorem utf8Length_leg (decisionId : JsString) (position : ℕ) (leg : Leg) (h : LegValid decisionId position leg) :
    utf8Length (Json.print countText (legTuple leg)) ≤ 3347 := by
  obtain ⟨hcommand, hrequest, heffect⟩ := utf8Length_receipt decisionId position leg h.receipt
  have hindex := utf8Length_count leg.index.toCount
  have hversion := utf8Length_count leg.expectedVersion.toCount
  have hid := utf8Length_identifier leg.aggregateId h.aggregateId
  refine (utf8Length_jsonArray [decimal leg.index.toCount.val, jsonText leg.aggregateId, decimal leg.expectedVersion.toCount.val,
    Json.print countText (nullable leg.receiptCommandId), Json.print countText (nullable leg.receiptRequestSha256),
    Json.print countText (nullable leg.receiptEffectSha256)]).trans ?_
  simp only [List.map_cons, List.map_nil, List.sum_cons, List.sum_nil]
  omega

theorem utf8Length_legs (decisionId : JsString) (legs : List Leg) (position : ℕ) (aggregates receipts : List JsString)
    (h : LegsValid decisionId position aggregates receipts legs) :
    ((Json.printItems countText (legs.map legTuple)).map fun item => utf8Length item + 1).sum ≤ 3348 * legs.length := by
  induction legs generalizing position aggregates receipts with
  | nil => exact Nat.le_refl 0
  | cons leg rest ih =>
    obtain ⟨hleg, -, -, hrest⟩ := h
    have hfirst := utf8Length_leg decisionId position leg hleg
    have hmore := ih _ _ _ hrest
    rw [List.map_cons, Json.printItems, List.map_cons, List.sum_cons, List.length_cons]
    omega

theorem utf8Length_rosterText (roster : Roster) (h : RosterValid roster) :
    utf8Length (rosterText roster) ≤ maxDecisionLegRosterBytes := by
  have hlegs := utf8Length_legs _ _ _ _ _ h.legs
  have hsize : roster.legs.length ≤ 8 := h.size.2
  have hcount := utf8Length_count roster.count.toCount
  have hdecision := utf8Length_jsonText_plain _ (isPlain_digest _ h.decisionId)
  rw [digest_length _ h.decisionId] at hdecision
  have hversion : utf8Length (jsonText rosterVersion) = 27 := by decide
  have hitems := utf8Length_jsonArray (Json.printItems countText (roster.legs.map legTuple))
  refine (utf8Length_jsonArray [jsonText rosterVersion, jsonText roster.decisionId, decimal roster.count.toCount.val,
    jsonArray (Json.printItems countText (roster.legs.map legTuple))]).trans ?_
  simp only [List.map_cons, List.map_nil, List.sum_cons, List.sum_nil]
  unfold maxDecisionLegRosterBytes
  omega

end MoeNG.Store.DecisionLegRoster
