import MoeNG.Contracts.NumberText
import MoeNG.Subscriptions.DocCodec

/-!
# Subscription documents are read back

The canonical text of a value is `JSON.stringify` of the value with its keys in
order, so `JSON.parse` returns that value, and a document is accepted exactly
when its text is the text of its fields.
-/

namespace MoeNG.Subscriptions.Codec
open MoeNG.Kernel MoeNG.Store MoeNG.Lib

section Text
variable (numberText : FiniteDouble → JsString)

def docNumberText : DocNumber → JsString
  | some (.finite x) => numberText x
  | _ => []

def docNumber (lexeme : JsString) : Option DocNumber := (numberValue lexeme).map some

/-! ### What has a canonical text -/

mutual

def encodable : ℕ → DocValue → Bool
  | _, .number (some (.finite _)) => true
  | _, .number _ => false
  | _, .string s => isWellFormed s
  | depth, .array items => depth ≤ maxDocDepth && encodableItems (depth + 1) items
  | depth, .object entries =>
    depth ≤ maxDocDepth && (entries.all fun e => isPlainKey e.1) && encodableEntries (depth + 1) entries
  | _, _ => true

def encodableItems : ℕ → List DocValue → Bool
  | _, [] => true
  | depth, value :: rest => encodable depth value && encodableItems depth rest

def encodableEntries : ℕ → List (JsString × DocValue) → Bool
  | _, [] => true
  | depth, (_, value) :: rest => encodable depth value && encodableEntries depth rest

end

theorem printObject_sorted (entries : List (JsString × DocValue)) :
    Json.printObject (sortByKey (Json.printEntries (docNumberText numberText) (Json.orderedEntries entries)))
      = Json.print (docNumberText numberText) (Json.ordered (.object entries)) := by
  rw [Json.ordered, Json.print, Json.printEntries_eq, Json.printEntries_eq, sortByKey_map]

mutual

theorem canonicalJson_eq : ∀ (depth : ℕ) (value : DocValue), canonicalJson numberText depth value
    = if encodable depth value then some (Json.print (docNumberText numberText) (Json.ordered value)) else none
  | _, .null => rfl
  | _, .boolean _ => rfl
  | _, .number none => rfl
  | _, .number (some (.finite _)) => rfl
  | _, .number (some .nan) => rfl
  | _, .number (some .negativeZero) => rfl
  | _, .number (some .infinity) => rfl
  | _, .number (some .negativeInfinity) => rfl
  | _, .string s => rfl
  | depth, .array items => by
    rw [canonicalJson, encodable, canonicalItems_eq (depth + 1) items, Json.ordered, Json.print]
    by_cases hdepth : depth > maxDocDepth
    · rw [if_pos hdepth, decide_eq_false (by omega), Bool.false_and]
      rfl
    · rw [if_neg hdepth, decide_eq_true (by omega), Bool.true_and, apply_ite (Option.map jsonArray)]
      rfl
  | depth, .object entries => by
    rw [canonicalJson, encodable, canonicalEntries_eq (depth + 1) entries, ← printObject_sorted]
    by_cases hdepth : depth > maxDocDepth
    · rw [decide_eq_true hdepth, decide_eq_false (by omega : ¬ depth ≤ maxDocDepth)]
      rfl
    · rw [decide_eq_false hdepth, decide_eq_true (by omega : depth ≤ maxDocDepth)]
      cases entries.all fun e => isPlainKey e.1 with
      | false => rfl
      | true =>
        cases encodableEntries (depth + 1) entries with
        | false => rfl
        | true => rfl

theorem canonicalItems_eq : ∀ (depth : ℕ) (items : List DocValue), canonicalItems numberText depth items
    = if encodableItems depth items then some (Json.printItems (docNumberText numberText) (Json.orderedItems items)) else none
  | _, [] => rfl
  | depth, value :: rest => by
    rw [canonicalItems, encodableItems, canonicalJson_eq depth value, canonicalItems_eq depth rest]
    cases encodable depth value with
    | false => rfl
    | true =>
      cases encodableItems depth rest with
      | false => rfl
      | true => rfl

theorem canonicalEntries_eq : ∀ (depth : ℕ) (entries : List (JsString × DocValue)), canonicalEntries numberText depth entries
    = if encodableEntries depth entries then some (Json.printEntries (docNumberText numberText) (Json.orderedEntries entries))
      else none
  | _, [] => rfl
  | depth, (key, value) :: rest => by
    rw [canonicalEntries, encodableEntries, canonicalJson_eq depth value, canonicalEntries_eq depth rest]
    cases encodable depth value with
    | false => rfl
    | true =>
      cases encodableEntries depth rest with
      | false => rfl
      | true => rfl

end

theorem encodableEntries_iff (depth : ℕ) (entries : List (JsString × DocValue)) :
    encodableEntries depth entries = true ↔ ∀ e ∈ entries, encodable depth e.2 = true := by
  induction entries with
  | nil => exact ⟨fun _ => nofun, fun _ => rfl⟩
  | cons e rest ih =>
    obtain ⟨key, value⟩ := e
    rw [encodableEntries, Bool.and_eq_true, ih, List.forall_mem_cons]

mutual

theorem encodable_ordered : ∀ (depth : ℕ) (value : DocValue), encodable depth (Json.ordered value) = encodable depth value
  | _, .null => rfl
  | _, .boolean _ => rfl
  | _, .number _ => rfl
  | _, .string _ => rfl
  | depth, .array items => by rw [Json.ordered, encodable, encodable, encodableItems_ordered (depth + 1) items]
  | depth, .object entries => by
    have hkeys : ((sortByKey (Json.orderedEntries entries)).all fun e => isPlainKey e.1) = entries.all fun e =>
      isPlainKey e.1 := by
      rw [(sortByKey_perm _).all_eq, Json.orderedEntries_eq, List.all_map]
      rfl
    have hvalues : encodableEntries (depth + 1) (sortByKey (Json.orderedEntries entries))
      = encodableEntries (depth + 1) entries := by
      rw [Bool.eq_iff_iff, encodableEntries_iff, encodableEntries_iff, Json.orderedEntries_eq]
      constructor
      · intro h e he
        rw [← encodableEntries_ordered (depth + 1) entries e he]
        exact h _ ((sortByKey_perm _).mem_iff.mpr (List.mem_map_of_mem he))
      · intro h e he
        obtain ⟨e', he', rfl⟩ := List.mem_map.mp ((sortByKey_perm _).mem_iff.mp he)
        rw [encodableEntries_ordered (depth + 1) entries e' he']
        exact h e' he'
    rw [Json.ordered, encodable, encodable, hkeys, hvalues]

theorem encodableItems_ordered : ∀ (depth : ℕ) (items : List DocValue),
    encodableItems depth (Json.orderedItems items) = encodableItems depth items
  | _, [] => rfl
  | depth, value :: rest => by
    rw [Json.orderedItems, encodableItems, encodableItems, encodable_ordered depth value, encodableItems_ordered depth rest]

theorem encodableEntries_ordered : ∀ (depth : ℕ) (entries : List (JsString × DocValue)), ∀ e ∈ entries,
    encodable depth (Json.ordered e.2) = encodable depth e.2
  | _, [], _, he => by cases he
  | depth, (key, value) :: rest, e, he => by
    obtain rfl | he := List.mem_cons.mp he
    · exact encodable_ordered depth value
    · exact encodableEntries_ordered depth rest e he

end

theorem canonicalJson_ordered (depth : ℕ) (value : DocValue) :
    canonicalJson numberText depth (Json.ordered value) = canonicalJson numberText depth value := by
  rw [canonicalJson_eq, canonicalJson_eq, encodable_ordered, Json.ordered_idem]

variable {numberText}

mutual

theorem readable_of_encodable (h : ReadsBack numberText) : ∀ (depth : ℕ) (value : DocValue), encodable depth value = true →
    Json.Readable (docNumberText numberText) docNumber value
  | _, .null, _ => trivial
  | _, .boolean _, _ => trivial
  | _, .number none, he => by cases he
  | _, .number (some (.finite x)), _ => ⟨h.lexeme x, by rw [docNumberText, docNumber, h.value, Option.map_some]⟩
  | _, .number (some .nan), he => by cases he
  | _, .number (some .negativeZero), he => by cases he
  | _, .number (some .infinity), he => by cases he
  | _, .number (some .negativeInfinity), he => by cases he
  | _, .string _, _ => trivial
  | depth, .array items, he => by
    rw [encodable, Bool.and_eq_true] at he
    exact readableItems_of_encodable h (depth + 1) items he.2
  | depth, .object entries, he => by
    rw [encodable, Bool.and_eq_true] at he
    exact readableEntries_of_encodable h (depth + 1) entries he.2

theorem readableItems_of_encodable (h : ReadsBack numberText) : ∀ (depth : ℕ) (items : List DocValue),
    encodableItems depth items = true → Json.ReadableItems (docNumberText numberText) docNumber items
  | _, [], _ => trivial
  | depth, value :: rest, he => by
    rw [encodableItems, Bool.and_eq_true] at he
    exact ⟨readable_of_encodable h depth value he.1, readableItems_of_encodable h depth rest he.2⟩

theorem readableEntries_of_encodable (h : ReadsBack numberText) : ∀ (depth : ℕ) (entries : List (JsString × DocValue)),
    encodableEntries depth entries = true → Json.ReadableEntries (docNumberText numberText) docNumber entries
  | _, [], _ => trivial
  | depth, (_, value) :: rest, he => by
    rw [encodableEntries, Bool.and_eq_true] at he
    exact ⟨readable_of_encodable h depth value he.1, readableEntries_of_encodable h depth rest he.2⟩

end

/-- A stored text is parsed to the value it was printed from, with its keys in order. -/
theorem jsonValue_docText (h : ReadsBack numberText) (value : DocValue) (text : JsString) (hkeys : Json.KeysDistinct value)
    (htext : docText numberText value = some text) : jsonValue text = Json.ordered value := by
  obtain ⟨printed, hprinted, htext⟩ := Option.bind_eq_some_iff.mp htext
  split at htext
  · cases htext
  obtain rfl := Option.some.inj htext
  rw [canonicalJson_eq] at hprinted
  split at hprinted
  · rename_i hencodable
    obtain rfl := Option.some.inj hprinted
    rw [← encodable_ordered] at hencodable
    have hparse := Json.parse_print (Json.ordered value) (readable_of_encodable h 0 _ hencodable)
      (Json.keysDistinct_ordered value hkeys)
    unfold jsonValue
    rw [show (fun lexeme => (numberValue lexeme).map some) = docNumber from rfl, hparse, Option.getD_some]
  · cases hprinted

theorem docText_ordered (value value' : DocValue) (h : Json.ordered value' = Json.ordered value) :
    docText numberText value' = docText numberText value := by
  rw [docText, docText, ← canonicalJson_ordered numberText 0 value', h, canonicalJson_ordered]

end Text

/-! ### Fields of a record whose keys stand in order -/

theorem fieldOf_mem (record : List (JsString × DocValue)) (keys : List JsString) (key : String) (value : DocValue)
    (hrecord : record.map Prod.fst = keys) (hkeys : keys.Nodup) (h : (lit key, value) ∈ record) : fieldOf record key = value := by
  subst hrecord
  rw [fieldOf, find_key_of_mem Prod.fst record hkeys (lit key, value) h]
  rfl

theorem ordered_sorted (record : List (JsString × DocValue)) (keys : List JsString) (hrecord : record.map Prod.fst = keys)
    (h : keys.Pairwise (· < ·)) : Json.ordered (.object record) = .object (record.map fun e => (e.1, Json.ordered e.2)) := by
  subst hrecord
  have hsorted : (record.map fun e => (e.1, Json.ordered e.2)).Pairwise fun a b => a.1 ≤ b.1 := by
    rw [List.pairwise_map] at h ⊢
    exact h.imp le_of_lt
  rw [Json.ordered, Json.orderedEntries_eq, sortByKey, hsorted.insertionSort_eq]

def subscriberKeys : List JsString := [lit "cursor", lit "filter", lit "projection", lit "receiptDigest", lit "version"]
def cursorKeys : List JsString := [lit "generation", lit "position"]
def snapshotKeys : List JsString := [lit "checkpoint", lit "generation", lit "projection", lit "receiptDigest", lit "state",
  lit "stateDigest", lit "version"]

theorem keys_ascend : subscriberKeys.Pairwise (· < ·) ∧ cursorKeys.Pairwise (· < ·) ∧ snapshotKeys.Pairwise (· < ·) := by
  decide +kernel

theorem nodup_of_ascend {keys : List JsString} (h : keys.Pairwise (· < ·)) : keys.Nodup := h.imp ne_of_lt

/-! ### Readers -/

theorem identifier_some (value : DocValue) (s : JsString) (h : identifier value = some s) : value = .string s := by
  cases value with
  | string t =>
    obtain ⟨-, h⟩ := Option.ite_none_right_eq_some.mp h
    rw [Option.some.inj h]
  | _ => cases h

theorem positionText_some (value : DocValue) (s : JsString) (h : positionText value = some s) : value = .string s := by
  cases value with
  | string t =>
    obtain ⟨-, h⟩ := Option.ite_none_right_eq_some.mp h
    rw [Option.some.inj h]
  | _ => cases h

theorem sha256Text_some (value : DocValue) (s : JsString) (h : sha256Text value = some s) : value = .string s := by
  cases value with
  | string t =>
    obtain ⟨-, h⟩ := Option.ite_none_right_eq_some.mp h
    rw [Option.some.inj h]
  | _ => cases h

theorem generationOf_some (value : DocValue) (x : FiniteDouble) (h : generationOf value = some x) :
    value = .number (some (.finite x)) := by
  unfold generationOf at h
  split at h
  · obtain ⟨-, h⟩ := Option.ite_none_right_eq_some.mp h
    rw [Option.some.inj h]
  · cases h

theorem plainRecord_some (value : DocValue) (record : List (JsString × DocValue)) (h : plainRecord value = some record) :
    value = .object record := by
  cases value with
  | object entries => rw [Option.some.inj h]
  | _ => cases h

theorem mapM_identifier (items : List DocValue) (names : List JsString) (h : items.mapM identifier = some names) :
    items = names.map .string := by
  have hall := (mapM_some_forall₂ identifier items names).mp h
  clear h
  induction hall with
  | nil => rfl
  | cons hhead _ ih => rw [List.map_cons, identifier_some _ _ hhead, ih]

theorem filterList_some (value : DocValue) (filter : List JsString) (h : filterList value = some filter) :
    value = .array (filter.map .string) := by
  cases value with
  | array items =>
    obtain ⟨-, h⟩ := Option.ite_none_left_eq_some.mp h
    rw [mapM_identifier items filter h]
  | _ => cases h

/-! ### Subscriber documents -/

section Codec
variable {numberText : FiniteDouble → JsString} (sha256 : List Byte → Sha256Text)

theorem subscriberRecord_ordered (filter : List JsString) (generation : FiniteDouble) (position projection digest : JsString) :
    Json.ordered (subscriberRecord filter generation position projection digest)
      = subscriberRecord filter generation position projection digest := by
  have hfilter : Json.ordered (.array (filter.map Json.string) : DocValue) = .array (filter.map .string) := by
    rw [Json.ordered, Json.orderedItems_eq, List.map_map]
    rfl
  have hcursor := ordered_sorted [(lit "generation", .number (some (.finite generation))), (lit "position", .string position)]
    cursorKeys rfl keys_ascend.2.1
  unfold subscriberRecord
  rw [ordered_sorted _ subscriberKeys rfl keys_ascend.1]
  simp only [List.map_cons, List.map_nil] at hcursor ⊢
  rw [hcursor, hfilter]
  rfl

/-- The fields of a subscriber record, where the decoder looks for them. -/
theorem subscriberRecord_fields (filter : List JsString) (generation : FiniteDouble) (position projection digest : JsString) :
    ∃ raw cursor, subscriberRecord filter generation position projection digest = .object raw
      ∧ fieldOf raw "cursor" = .object cursor ∧ fieldOf raw "filter" = .array (filter.map .string)
      ∧ fieldOf raw "projection" = .string projection ∧ fieldOf raw "receiptDigest" = .string digest
      ∧ fieldOf cursor "generation" = .number (some (.finite generation)) ∧ fieldOf cursor "position" = .string position := by
  have hkeys := nodup_of_ascend keys_ascend.1
  have hcursor := nodup_of_ascend keys_ascend.2.1
  refine ⟨_, _, rfl, fieldOf_mem _ subscriberKeys "cursor" _ rfl hkeys (List.mem_cons_self ..), ?_, ?_, ?_, ?_, ?_⟩
  · exact fieldOf_mem _ subscriberKeys _ _ rfl hkeys (by simp)
  · exact fieldOf_mem _ subscriberKeys _ _ rfl hkeys (by simp)
  · exact fieldOf_mem _ subscriberKeys _ _ rfl hkeys (by simp)
  · exact fieldOf_mem _ cursorKeys _ _ rfl hcursor (by simp)
  · exact fieldOf_mem _ cursorKeys _ _ rfl hcursor (by simp)

theorem subscriberRecord_distinct (filter : List JsString) (generation : FiniteDouble) (position projection digest : JsString) :
    Json.KeysDistinct (subscriberRecord filter generation position projection digest) := by
  refine ⟨nodup_of_ascend keys_ascend.1, ⟨nodup_of_ascend keys_ascend.2.1, trivial, trivial, trivial⟩, ?_, trivial, trivial,
    trivial, trivial⟩
  refine Json.keysDistinctItems_of_forall _ fun v hv => ?_
  obtain ⟨s, -, rfl⟩ := List.mem_map.mp hv
  trivial

theorem encodeSubscriberDoc_some (input : SubscriberFields) (text : JsString)
    (h : encodeSubscriberDoc numberText sha256 input = some text) :
    ∃ filter generation position projection, input = ⟨.array (filter.map .string), .number (some (.finite generation)),
        .string position, .string projection⟩
      ∧ docText numberText (subscriberRecord filter generation position projection
          (subscriberReceipt numberText sha256 filter generation position projection)) = some text := by
  obtain ⟨filterValue, generationValue, positionValue, projectionValue⟩ := input
  simp only [encodeSubscriberDoc, ↓bind_some_iff] at h
  obtain ⟨projection, hprojection, filter, hfilter, position, hposition, generation, hgeneration, h⟩ := h
  refine ⟨filter, generation, position, projection, ?_, h⟩
  rw [← filterList_some _ _ hfilter, ← generationOf_some _ _ hgeneration, ← positionText_some _ _ hposition,
    ← identifier_some _ _ hprojection]

/-- What an accepted text parses to. -/
theorem subscriber_parsed (hnumbers : ReadsBack numberText) (filter : List JsString) (generation : FiniteDouble)
    (position projection digest text : JsString)
    (h : docText numberText (subscriberRecord filter generation position projection digest) = some text) :
    jsonValue text = subscriberRecord filter generation position projection digest := by
  rw [jsonValue_docText hnumbers _ text (subscriberRecord_distinct ..) h, subscriberRecord_ordered]

theorem decode_encode_subscriber (hnumbers : ReadsBack numberText) (input : SubscriberFields) (text : JsString)
    (h : encodeSubscriberDoc numberText sha256 input = some text) :
    ∃ digest : Sha256Text, decodeSubscriberDoc numberText sha256 text = some ⟨input, .string digest.val⟩ := by
  obtain ⟨filter, generation, position, projection, rfl, htext⟩ := encodeSubscriberDoc_some sha256 input text h
  have hparsed := subscriber_parsed hnumbers _ _ _ _ _ text htext
  obtain ⟨raw, cursor, hraw, hcursor, hfilter, hprojection, hdigest, hgeneration, hposition⟩ :=
    subscriberRecord_fields filter generation position projection
      (subscriberReceipt numberText sha256 filter generation position projection)
  rw [hraw] at hparsed
  refine ⟨subscriberReceipt numberText sha256 filter generation position projection, ?_⟩
  refine Option.bind_eq_some_iff.mpr ⟨raw, by rw [hparsed]; rfl, ?_⟩
  refine Option.bind_eq_some_iff.mpr ⟨cursor, by rw [hcursor]; rfl, ?_⟩
  dsimp only
  rw [hfilter, hprojection, hgeneration, hposition, hdigest]
  exact if_neg (not_not.mpr h)

theorem encode_decode_subscriber (text : JsString) (doc : SubscriberDocument)
    (h : decodeSubscriberDoc numberText sha256 text = some doc) : encodeSubscriberDoc numberText sha256 doc.fields
      = some text := by
  obtain ⟨raw, -, h⟩ := Option.bind_eq_some_iff.mp h
  obtain ⟨cursor, -, h⟩ := Option.bind_eq_some_iff.mp h
  dsimp only at h
  split at h
  · cases h
  · rename_i hsame
    obtain rfl := Option.some.inj h
    exact not_not.mp hsame

/-! ### Snapshot documents -/

theorem snapshotRecord_ordered (checkpoint : JsString) (generation : FiniteDouble) (projection : JsString)
    (state : List (JsString × DocValue)) (stateDigest digest : JsString) :
    Json.ordered (snapshotRecord checkpoint generation projection state stateDigest digest)
      = snapshotRecord checkpoint generation projection (sortByKey (Json.orderedEntries state)) stateDigest digest := by
  unfold snapshotRecord
  rw [ordered_sorted _ snapshotKeys rfl keys_ascend.2.2]
  simp only [List.map_cons, List.map_nil]
  rfl

theorem snapshotRecord_fields (checkpoint : JsString) (generation : FiniteDouble) (projection : JsString)
    (state : List (JsString × DocValue)) (stateDigest digest : JsString) :
    ∃ raw, snapshotRecord checkpoint generation projection state stateDigest digest = .object raw
      ∧ fieldOf raw "checkpoint" = .string checkpoint ∧ fieldOf raw "generation" = .number (some (.finite generation))
      ∧ fieldOf raw "projection" = .string projection ∧ fieldOf raw "state" = .object state
      ∧ fieldOf raw "stateDigest" = .string stateDigest ∧ fieldOf raw "receiptDigest" = .string digest := by
  have hkeys := nodup_of_ascend keys_ascend.2.2
  refine ⟨_, rfl, ?_, ?_, ?_, ?_, ?_, ?_⟩
  all_goals exact fieldOf_mem _ snapshotKeys _ _ rfl hkeys (by simp)

theorem snapshotRecord_distinct (checkpoint : JsString) (generation : FiniteDouble) (projection : JsString)
    (state : List (JsString × DocValue)) (stateDigest digest : JsString) (h : Json.KeysDistinct (.object state : DocValue)) :
    Json.KeysDistinct (snapshotRecord checkpoint generation projection state stateDigest digest) :=
  ⟨nodup_of_ascend keys_ascend.2.2, trivial, trivial, trivial, trivial, h, trivial, trivial, trivial⟩

theorem encodeSnapshotDoc_some (input : SnapshotFields) (text : JsString)
    (h : encodeSnapshotDoc numberText sha256 input = some text) :
    ∃ checkpoint generation projection state stateDigest stateText,
      input = ⟨.string checkpoint, .number (some (.finite generation)), .string projection, .object state, .string stateDigest⟩
        ∧ docText numberText (snapshotRecord checkpoint generation projection state stateDigest
            (snapshotReceipt numberText sha256 checkpoint generation projection stateText stateDigest)) = some text := by
  obtain ⟨checkpointValue, generationValue, projectionValue, stateValue, digestValue⟩ := input
  simp only [encodeSnapshotDoc, ↓bind_some_iff] at h
  obtain ⟨projection, hprojection, checkpoint, hcheckpoint, stateDigest, hdigest, state, hstate, stateText, -,
    generation, hgeneration, h⟩ := h
  refine ⟨checkpoint, generation, projection, state, stateDigest, stateText, ?_, h⟩
  rw [← positionText_some _ _ hcheckpoint, ← generationOf_some _ _ hgeneration, ← identifier_some _ _ hprojection,
    ← plainRecord_some _ _ hstate, ← sha256Text_some _ _ hdigest]

/-- The order of the keys of the state is not seen. -/
theorem encodeSnapshotDoc_ordered (input : SnapshotFields) :
    encodeSnapshotDoc numberText sha256 { input with state := Json.ordered input.state }
      = encodeSnapshotDoc numberText sha256 input := by
  obtain ⟨checkpointValue, generationValue, projectionValue, stateValue, digestValue⟩ := input
  cases stateValue with
  | object state =>
    have hstate := canonicalJson_ordered numberText 0 (.object state)
    rw [Json.ordered] at hstate
    have hdoc (checkpoint : JsString) (generation : FiniteDouble) (projection stateDigest digest : JsString) :
        docText numberText (snapshotRecord checkpoint generation projection
          (sortByKey (Json.orderedEntries state)) stateDigest digest)
          = docText numberText (snapshotRecord checkpoint generation projection state stateDigest digest) :=
      docText_ordered _ _ (by rw [← snapshotRecord_ordered, Json.ordered_idem])
    unfold encodeSnapshotDoc
    dsimp only
    rw [Json.ordered]
    simp only [plainRecord, Option.bind_eq_bind, Option.bind_some, hstate, hdoc]
  | _ => rfl

theorem decode_encode_snapshot (hnumbers : ReadsBack numberText) (input : SnapshotFields) (text : JsString)
    (hkeys : Json.KeysDistinct input.state) (h : encodeSnapshotDoc numberText sha256 input = some text) :
    ∃ digest : Sha256Text, decodeSnapshotDoc numberText sha256 text
      = some ⟨{ input with state := Json.ordered input.state }, .string digest.val⟩ := by
  have hordered := (encodeSnapshotDoc_ordered sha256 input).trans h
  obtain ⟨checkpoint, generation, projection, state, stateDigest, stateText, rfl, htext⟩ :=
    encodeSnapshotDoc_some sha256 input text h
  have hparsed := jsonValue_docText hnumbers _ text (snapshotRecord_distinct _ _ _ _ _ _ hkeys) htext
  rw [snapshotRecord_ordered] at hparsed
  obtain ⟨raw, hraw, hcheckpoint, hgeneration, hprojection, hstate, hdigest, hreceipt⟩ :=
    snapshotRecord_fields checkpoint generation projection (sortByKey (Json.orderedEntries state)) stateDigest
      (snapshotReceipt numberText sha256 checkpoint generation projection stateText stateDigest)
  rw [hraw] at hparsed
  refine ⟨snapshotReceipt numberText sha256 checkpoint generation projection stateText stateDigest, ?_⟩
  refine Option.bind_eq_some_iff.mpr ⟨raw, by rw [hparsed]; rfl, ?_⟩
  dsimp only
  rw [hcheckpoint, hgeneration, hprojection, hstate, hdigest, hreceipt]
  exact if_neg (not_not.mpr hordered)

theorem encode_decode_snapshot (text : JsString) (doc : SnapshotDocument)
    (h : decodeSnapshotDoc numberText sha256 text = some doc) : encodeSnapshotDoc numberText sha256 doc.fields = some text := by
  obtain ⟨raw, -, h⟩ := Option.bind_eq_some_iff.mp h
  dsimp only at h
  split at h
  · cases h
  · rename_i hsame
    obtain rfl := Option.some.inj h
    exact not_not.mp hsame

/-- A text that is a cursor is not a baseline. -/
theorem decodeSnapshotDoc_subscriber (hnumbers : ReadsBack numberText) (text : JsString) (doc : SubscriberDocument)
    (h : decodeSubscriberDoc numberText sha256 text = some doc) : decodeSnapshotDoc numberText sha256 text = none := by
  obtain ⟨filter, generation, position, projection, -, htext⟩ :=
    encodeSubscriberDoc_some sha256 _ text (encode_decode_subscriber sha256 text doc h)
  have hparsed := subscriber_parsed hnumbers _ _ _ _ _ text htext
  have habsent (raw : List (JsString × DocValue)) (hraw : raw.map Prod.fst = subscriberKeys) :
      fieldOf raw "checkpoint" = .number none := by
    have hne : ∀ key ∈ subscriberKeys, key ≠ lit "checkpoint" := by decide +kernel
    have hnone : raw.find? (fun e => e.1 = lit "checkpoint") = none :=
      List.find?_eq_none.mpr fun e he heq =>
        hne e.1 (hraw ▸ List.mem_map_of_mem he) (of_decide_eq_true heq)
    rw [fieldOf, hnone]
    rfl
  cases hdecode : decodeSnapshotDoc numberText sha256 text with
  | none => rfl
  | some snapshot =>
    have hencode := encode_decode_snapshot sha256 text snapshot hdecode
    obtain ⟨raw, hraw, hdecode⟩ := Option.bind_eq_some_iff.mp hdecode
    rw [hparsed] at hraw
    obtain rfl := Option.some.inj hraw
    obtain ⟨-, hdecode⟩ := Option.ite_none_left_eq_some.mp hdecode
    obtain rfl := Option.some.inj hdecode
    obtain ⟨_, _, _, _, _, _, hfields, -⟩ := encodeSnapshotDoc_some sha256 _ text hencode
    have hcheckpoint := congrArg SnapshotFields.checkpoint hfields
    dsimp only at hcheckpoint
    rw [habsent _ rfl] at hcheckpoint
    cases hcheckpoint

/-! ### The codec -/

/-- Encoding and decoding are inverse to one another, up to the order of keys in a published state. -/
structure DocCodecLaw (numberText : FiniteDouble → JsString) (sha256 : List Byte → Sha256Text) : Prop where
  subscriber_back : ∀ input text, encodeSubscriberDoc numberText sha256 input = some text →
    ∃ digest : Sha256Text, decodeSubscriberDoc numberText sha256 text = some ⟨input, .string digest.val⟩
  subscriber_exact : ∀ text doc, decodeSubscriberDoc numberText sha256 text = some doc →
    encodeSubscriberDoc numberText sha256 doc.fields = some text
  snapshot_back : ∀ input text, Json.KeysDistinct input.state → encodeSnapshotDoc numberText sha256 input = some text →
    ∃ digest : Sha256Text, decodeSnapshotDoc numberText sha256 text
      = some ⟨{ input with state := Json.ordered input.state }, .string digest.val⟩
  snapshot_exact : ∀ text doc, decodeSnapshotDoc numberText sha256 text = some doc →
    encodeSnapshotDoc numberText sha256 doc.fields = some text
  snapshot_order : ∀ input, encodeSnapshotDoc numberText sha256 { input with state := Json.ordered input.state }
    = encodeSnapshotDoc numberText sha256 input
  disjoint : ∀ text doc, decodeSubscriberDoc numberText sha256 text = some doc → decodeSnapshotDoc numberText sha256 text = none

theorem docCodecLaw (numberText : FiniteDouble → JsString) (sha256 : List Byte → Sha256Text) (h : ReadsBack numberText) :
    DocCodecLaw numberText sha256 where
  subscriber_back := decode_encode_subscriber sha256 h
  subscriber_exact := encode_decode_subscriber sha256
  snapshot_back := decode_encode_snapshot sha256 h
  snapshot_exact := encode_decode_snapshot sha256
  snapshot_order := encodeSnapshotDoc_ordered sha256
  disjoint := decodeSnapshotDoc_subscriber sha256 h

/-- A digest that tells texts of odd length from the others. -/
def parityDigest (bytes : List Byte) : Sha256Text :=
  if bytes.length % 2 = 0 then ⟨List.replicate 64 48, by decide⟩ else ⟨List.replicate 64 49, by decide⟩

def sampleSubscriber : SubscriberFields where
  filter := .array [.string (lit "Moved")]
  generation := .number (some (.finite (.ofInt 1 (by decide))))
  position := .string (lit "7")
  projection := .string (lit "goals")

theorem docCodecLaw_exactText : DocCodecLaw exactText parityDigest
    ∧ ∃ (text : JsString) (digest : Sha256Text), encodeSubscriberDoc exactText parityDigest sampleSubscriber = some text
      ∧ decodeSubscriberDoc exactText parityDigest text = some ⟨sampleSubscriber, .string digest.val⟩ := by
  have hlaw := docCodecLaw exactText parityDigest exactText_readsBack
  obtain ⟨text, htext⟩ := Option.isSome_iff_exists.mp
    (show (encodeSubscriberDoc exactText parityDigest sampleSubscriber).isSome = true by decide +kernel)
  obtain ⟨digest, hdecode⟩ := hlaw.subscriber_back _ _ htext
  exact ⟨hlaw, text, digest, htext, hdecode⟩

end Codec

end MoeNG.Subscriptions.Codec
