import MoeNG.Store.DecisionLegRoster

/-!
# The roster codec is strict

The rosters without `-0` and the bytes that `decodeDecisionLegRoster` accepts
are in bijection.
-/

namespace MoeNG.Store.DecisionLegRoster
open MoeNG.Kernel MoeNG.Lib

/-! ### Rosters with `0` for `-0` -/

def Nonnegative.positive (n : Nonnegative) : Nonnegative := .count n.toCount

def Leg.positive (leg : Leg) : Leg :=
  { leg with expectedVersion := leg.expectedVersion.positive, index := leg.index.positive }

def Roster.positive (roster : Roster) : Roster :=
  { roster with count := roster.count.positive, legs := roster.legs.map Leg.positive }

/-- No number of the roster is `-0`. -/
def Roster.ZeroFree (roster : Roster) : Prop :=
  roster.count ≠ .negativeZero ∧ ∀ leg ∈ roster.legs, leg.index ≠ .negativeZero ∧ leg.expectedVersion ≠ .negativeZero

theorem Nonnegative.positive_eq (n : Nonnegative) (h : n ≠ .negativeZero) : n.positive = n := by
  cases n with
  | count n => rfl
  | negativeZero => exact absurd rfl h

theorem Nonnegative.positive_ne (n : Nonnegative) : n.positive ≠ .negativeZero := nofun

theorem Roster.positive_eq (roster : Roster) (h : roster.ZeroFree) : roster.positive = roster := by
  obtain ⟨decisionId, count, legs⟩ := roster
  obtain ⟨hcount, hlegs⟩ := h
  have hfixed : legs.map Leg.positive = legs := by
    refine map_eq_self _ _ fun leg hleg => ?_
    obtain ⟨hindex, hversion⟩ := hlegs leg hleg
    obtain ⟨aggregateId, expectedVersion, index, command, effect, request⟩ := leg
    unfold Leg.positive
    dsimp only
    rw [index.positive_eq hindex, expectedVersion.positive_eq hversion]
  unfold Roster.positive
  dsimp only
  rw [count.positive_eq hcount, hfixed]

theorem Roster.zeroFree_positive (roster : Roster) : roster.positive.ZeroFree := by
  refine ⟨Nonnegative.positive_ne _, fun leg hleg => ?_⟩
  obtain ⟨original, -, rfl⟩ := List.mem_map.mp hleg
  exact ⟨Nonnegative.positive_ne _, Nonnegative.positive_ne _⟩

theorem legsValid_positive (decisionId : JsString) (legs : List Leg) (position : ℕ) (aggregates receipts : List JsString)
    (h : LegsValid decisionId position aggregates receipts legs) :
    LegsValid decisionId position aggregates receipts (legs.map Leg.positive) := by
  induction legs generalizing position aggregates receipts with
  | nil => trivial
  | cons leg rest ih =>
    obtain ⟨⟨hindex, hid, hreceipt⟩, haggregate, hnew, hrest⟩ := h
    exact ⟨⟨hindex, hid, hreceipt⟩, haggregate, hnew, ih _ _ _ hrest⟩

theorem rosterValid_positive (roster : Roster) (h : RosterValid roster) : RosterValid roster.positive := by
  obtain ⟨hdecision, hcount, hsize, hlegs⟩ := h
  have hlength : roster.positive.legs.length = roster.legs.length := List.length_map _
  refine ⟨hdecision, hcount.trans hlength.symm, ?_, legsValid_positive _ _ _ _ _ hlegs⟩
  rwa [hlength]

/-! ### Reading the text -/

theorem count_bound (n : SafeCount) : |(n.val : ℤ)| ≤ 2 ^ 53 := by
  rw [abs_of_nonneg (Int.natCast_nonneg _)]
  exact_mod_cast n.isLt.le

def doubleOf (n : SafeCount) : Double FiniteDouble := .finite (.ofInt n.val (count_bound n))

def doubleText : Double FiniteDouble → JsString
  | .finite x => decimal x.value.num.toNat
  | _ => []

theorem doubleText_doubleOf : doubleText ∘ doubleOf = countText := by
  funext n
  show decimal ((((n.val : ℤ) : ℚ).num).toNat) = decimal n.val
  rw [Rat.num_intCast, Int.toNat_natCast]

theorem reads_doubleOf (n : SafeCount) : Json.Reads doubleText numberValue (doubleOf n) := by
  have htext : doubleText (doubleOf n) = decimal n.val := congrFun doubleText_doubleOf n
  constructor
  · rw [htext]
    exact readLexeme_decimal n.val
  · rw [htext]
    exact numberValue_decimal n.val (count_bound n)

theorem keysDistinct_nullable (s : Option JsString) : ((nullable s).map doubleOf).KeysDistinct := by
  cases s with
  | none => trivial
  | some s => trivial

theorem keysDistinct_rosterTuple (roster : Roster) : ((rosterTuple roster).map doubleOf).KeysDistinct := by
  have hlegs : Json.KeysDistinctItems (Json.mapItems doubleOf (roster.legs.map legTuple)) := by
    rw [Json.mapItems_eq]
    refine Json.keysDistinctItems_of_forall _ fun v hv => ?_
    obtain ⟨tuple, htuple, rfl⟩ := List.mem_map.mp hv
    obtain ⟨leg, -, rfl⟩ := List.mem_map.mp htuple
    exact ⟨trivial, trivial, trivial, keysDistinct_nullable _, keysDistinct_nullable _, keysDistinct_nullable _, trivial⟩
  exact ⟨trivial, trivial, trivial, hlegs, trivial⟩

theorem rosterText_eq (roster : Roster) : rosterText roster = Json.print doubleText ((rosterTuple roster).map doubleOf) := by
  rw [Json.print_map, doubleText_doubleOf]
  rfl

theorem parse_rosterText (roster : Roster) :
    Json.parse numberValue (rosterText roster) = some ((rosterTuple roster).map doubleOf) := by
  rw [rosterText_eq]
  exact Json.parse_print _ (Json.readable_map doubleOf reads_doubleOf _) (keysDistinct_rosterTuple roster)

theorem value_number (n : SafeCount) : (Json.number (doubleOf n)).value = (Nonnegative.count n).value :=
  congrArg Value.number (js_ofInt _ _)

theorem value_nullable (s : Option JsString) : ((nullable s).map doubleOf).value = nullableValue s := by
  cases s with
  | none => rfl
  | some s => rfl

theorem legFromTuple_legTuple (leg : Leg) : legFromTuple ((legTuple leg).map doubleOf).value = some leg.positive.value := by
  show some (legRecord (Json.number (doubleOf leg.index.toCount)).value (.string leg.aggregateId)
    (Json.number (doubleOf leg.expectedVersion.toCount)).value ((nullable leg.receiptCommandId).map doubleOf).value
    ((nullable leg.receiptRequestSha256).map doubleOf).value ((nullable leg.receiptEffectSha256).map doubleOf).value) = _
  rw [value_number, value_number, value_nullable, value_nullable, value_nullable]
  rfl

theorem rosterFromTuple_rosterTuple (roster : Roster) (h : RosterValid roster) :
    rosterFromTuple ((rosterTuple roster).map doubleOf).value = some roster.positive.value := by
  have hitems : Json.valueItems (Json.mapItems doubleOf (roster.legs.map legTuple))
      = roster.legs.map fun leg => ((legTuple leg).map doubleOf).value := by
    rw [Json.mapItems_eq, Json.valueItems_eq, List.map_map, List.map_map]
    rfl
  have hdense : denseArray (.array (roster.legs.map fun leg => ((legTuple leg).map doubleOf).value)) 1 maxDecisionLegs
      = some (roster.legs.map fun leg => ((legTuple leg).map doubleOf).value) := by
    refine if_neg ?_
    rw [List.length_map, Bool.or_eq_true, decide_eq_true_eq, decide_eq_true_eq]
    have hsize := h.size
    omega
  have hlegs : (roster.legs.map fun leg => ((legTuple leg).map doubleOf).value).mapM legFromTuple
      = some (roster.positive.legs.map Leg.value) := by
    rw [List.mapM_map]
    refine (mapM_eq_some_map _ (fun leg => leg.positive.value) _ fun leg _ => legFromTuple_legTuple leg).trans ?_
    show _ = some ((roster.legs.map Leg.positive).map Leg.value)
    rw [List.map_map]
    rfl
  show (denseArray (.array (Json.valueItems (Json.mapItems doubleOf (roster.legs.map legTuple)))) 1 maxDecisionLegs).bind _ = _
  rw [hitems, hdense]
  show ((roster.legs.map fun leg => ((legTuple leg).map doubleOf).value).mapM legFromTuple).bind _ = _
  rw [hlegs]
  show some (rosterRecord (.string rosterVersion) (.string roster.decisionId) (Json.number (doubleOf roster.count.toCount)).value
    (.array (roster.positive.legs.map Leg.value))) = _
  rw [value_number]
  rfl

/-! ### The codec -/

theorem wellFormed_rosterText (roster : Roster) : wellFormed (rosterText roster) = true := by
  rw [rosterText_eq]
  exact Json.wellFormed_print _ (Json.readable_map doubleOf reads_doubleOf _)

theorem encode_of_snapshot (raw : Value) (roster : Roster) (h : snapshotDecisionLegRoster raw = some roster) :
    encodeDecisionLegRoster raw = some (utf8 (rosterText roster))
      ∧ (utf8 (rosterText roster)).length ≤ maxDecisionLegRosterBytes := by
  have hvalid := snapshot_valid raw roster h
  have hlength : (utf8 (rosterText roster)).length ≤ maxDecisionLegRosterBytes := by
    rw [utf8_length _ (wellFormed_rosterText roster)]
    exact utf8Length_rosterText roster hvalid
  refine ⟨?_, hlength⟩
  unfold encodeDecisionLegRoster
  rw [h]
  exact if_pos hlength

theorem read_rosterText (roster : Roster) (h : RosterValid roster) :
    readDecisionLegRoster (utf8 (rosterText roster)) = some roster.positive := by
  have hlength := (encode_of_snapshot _ _ (snapshot_value roster h)).2
  have hwellFormed := wellFormed_rosterText roster
  obtain ⟨rest, hrest⟩ : ∃ rest, rosterText roster = 91 :: rest := ⟨_, rfl⟩
  have hdecode : decodeTextAfterMark (utf8 (rosterText roster)) = some (rosterText roster) := by
    rw [hrest] at hwellFormed ⊢
    exact decodeTextAfterMark_utf8 91 rest (by decide) hwellFormed
  have hpos : 1 ≤ (utf8 (rosterText roster)).length := by
    rw [utf8_length _ hwellFormed, hrest, utf8Length_cons]
    exact (utf8Units_pos 91).trans (Nat.le_add_right _ _)
  have hbounds : ¬ ((utf8 (rosterText roster)).length < 1 || maxDecisionLegRosterBytes <
    (utf8 (rosterText roster)).length) = true := by
    rw [Bool.or_eq_true, decide_eq_true_eq, decide_eq_true_eq]
    omega
  unfold readDecisionLegRoster
  rw [if_neg hbounds]
  refine Option.bind_eq_some_iff.mpr ⟨_, hdecode, ?_⟩
  refine Option.bind_eq_some_iff.mpr ⟨_, parse_rosterText roster, ?_⟩
  exact Option.bind_eq_some_iff.mpr ⟨_, rosterFromTuple_rosterTuple roster h, snapshot_value _ (rosterValid_positive roster h)⟩

theorem strictCodec : StrictCodec (fun roster => RosterValid roster ∧ roster.ZeroFree)
    (fun roster => encodeDecisionLegRoster roster.value) decodeDecisionLegRoster := by
  refine StrictCodec.of_checked _ ?_ ?_
  · intro roster bytes hroster hencode
    rw [(encode_of_snapshot _ _ (snapshot_value roster hroster.1)).1] at hencode
    obtain rfl := Option.some.inj hencode
    rw [read_rosterText roster hroster.1, roster.positive_eq hroster.2]
  · intro roster bytes hread hencode
    have hvalid : RosterValid roster := by
      unfold readDecisionLegRoster at hread
      obtain ⟨-, hread⟩ := Option.ite_none_left_eq_some.mp hread
      obtain ⟨text, -, hread⟩ := Option.bind_eq_some_iff.mp hread
      obtain ⟨tuple, -, hread⟩ := Option.bind_eq_some_iff.mp hread
      obtain ⟨raw, -, hread⟩ := Option.bind_eq_some_iff.mp hread
      exact snapshot_valid raw roster hread
    rw [(encode_of_snapshot _ _ (snapshot_value roster hvalid)).1] at hencode
    obtain rfl := Option.some.inj hencode
    rw [read_rosterText roster hvalid] at hread
    rw [← Option.some.inj hread]
    exact ⟨rosterValid_positive roster hvalid, roster.zeroFree_positive⟩

/-! ### Decoded rosters -/

theorem legsValid_indexes (decisionId : JsString) (legs : List Leg) (position : ℕ) (aggregates receipts : List JsString)
    (h : LegsValid decisionId position aggregates receipts legs) :
    (legs.map fun leg => leg.index.toNat) = List.range' position legs.length := by
  induction legs generalizing position aggregates receipts with
  | nil => rfl
  | cons leg rest ih =>
    obtain ⟨hleg, -, -, hrest⟩ := h
    rw [List.map_cons, List.length_cons, List.range'_succ, hleg.index, ih _ _ _ hrest]

theorem legsValid_aggregates (decisionId : JsString) (legs : List Leg) (position : ℕ) (aggregates receipts : List JsString)
    (h : LegsValid decisionId position aggregates receipts legs) :
    (legs.map Leg.aggregateId).Nodup ∧ ∀ id ∈ aggregates, id ∉ legs.map Leg.aggregateId := by
  induction legs generalizing position aggregates receipts with
  | nil => exact ⟨List.nodup_nil, fun _ _ => List.not_mem_nil⟩
  | cons leg rest ih =>
    obtain ⟨-, haggregate, -, hrest⟩ := h
    obtain ⟨hnodup, hnew⟩ := ih _ _ _ hrest
    rw [List.map_cons]
    refine ⟨List.nodup_cons.mpr ⟨hnew _ (List.mem_cons_self ..), hnodup⟩, fun id hid hmem => ?_⟩
    obtain rfl | hmem := List.mem_cons.mp hmem
    · exact haggregate hid
    · exact hnew id (List.mem_cons_of_mem _ hid) hmem

theorem legsValid_receipts (decisionId : JsString) (legs : List Leg) (position : ℕ) (aggregates receipts : List JsString)
    (h : LegsValid decisionId position aggregates receipts legs) :
    ∀ leg ∈ legs, ReceiptValid decisionId leg.index.toNat leg := by
  induction legs generalizing position aggregates receipts with
  | nil => nofun
  | cons leg rest ih =>
    obtain ⟨hleg, -, -, hrest⟩ := h
    refine List.forall_mem_cons.mpr ⟨?_, ih _ _ _ hrest⟩
    rw [hleg.index]
    exact hleg.receipt

/-- The legs stand in order, on aggregates of their own, with their own receipts. -/
structure Formed (roster : Roster) : Prop where
  zeroFree : roster.ZeroFree
  indexes : (roster.legs.map fun leg => leg.index.toNat) = List.range roster.legs.length
  aggregates : (roster.legs.map Leg.aggregateId).Nodup
  receipts : ∀ leg ∈ roster.legs, ReceiptValid roster.decisionId leg.index.toNat leg

theorem formed_of_valid (roster : Roster) (h : RosterValid roster) (hzero : roster.ZeroFree) : Formed roster where
  zeroFree := hzero
  indexes := by
    rw [legsValid_indexes _ _ _ _ _ h.legs, List.range_eq_range']
  aggregates := (legsValid_aggregates _ _ _ _ _ h.legs).1
  receipts := legsValid_receipts _ _ _ _ _ h.legs

structure RosterBijection : Prop where
  encodes : ∀ raw roster, snapshotDecisionLegRoster raw = some roster → ∃ bytes, encodeDecisionLegRoster raw = some bytes
    ∧ encodeDecisionLegRoster roster.value = some bytes ∧ bytes.length ≤ maxDecisionLegRosterBytes
  decodes : ∀ raw roster bytes, snapshotDecisionLegRoster raw = some roster → roster.ZeroFree →
    encodeDecisionLegRoster raw = some bytes → decodeDecisionLegRoster bytes = some roster
  canonical : ∀ bytes roster, decodeDecisionLegRoster bytes = some roster → encodeDecisionLegRoster roster.value = some bytes
  formed : ∀ bytes roster, decodeDecisionLegRoster bytes = some roster → Formed roster

theorem decisionLegRoster_bijection : RosterBijection where
  encodes raw roster h := by
    obtain ⟨hencode, hlength⟩ := encode_of_snapshot raw roster h
    exact ⟨_, hencode, (encode_of_snapshot _ _ (snapshot_value roster (snapshot_valid raw roster h))).1, hlength⟩
  decodes raw roster bytes h hzero hencode := by
    have hvalid := snapshot_valid raw roster h
    refine strictCodec.decode_encode roster bytes ⟨hvalid, hzero⟩ ?_
    rw [(encode_of_snapshot _ _ (snapshot_value roster hvalid)).1, ← (encode_of_snapshot raw roster h).1]
    exact hencode
  canonical bytes roster h := (strictCodec.decode_sound roster bytes h).2
  formed bytes roster h := by
    obtain ⟨⟨hvalid, hzero⟩, -⟩ := strictCodec.decode_sound roster bytes h
    exact formed_of_valid roster hvalid hzero

/-- Two legs on aggregates of their own, without receipts. -/
def sampleRoster : Roster := ⟨List.replicate 64 48, .count 2,
  [⟨lit "a", .count 3, .count 0, none, none, none⟩, ⟨lit "b", .count 0, .count 1, none, none, none⟩]⟩

theorem decisionLegRoster_bijection_sample : ∃ bytes, encodeDecisionLegRoster sampleRoster.value = some bytes
    ∧ decodeDecisionLegRoster bytes = some sampleRoster ∧ Formed sampleRoster := by
  have hsnapshot : snapshotDecisionLegRoster sampleRoster.value = some sampleRoster := by decide +kernel
  obtain ⟨bytes, hencode, -⟩ := decisionLegRoster_bijection.encodes _ _ hsnapshot
  have hdecode := decisionLegRoster_bijection.decodes _ _ bytes hsnapshot (by unfold Roster.ZeroFree; decide) hencode
  exact ⟨bytes, hencode, hdecode, decisionLegRoster_bijection.formed bytes _ hdecode⟩

end MoeNG.Store.DecisionLegRoster
