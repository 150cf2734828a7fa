import MoeNG.Kernel.JsonReading
import MoeNG.Session.Canonical

/-!
# What canonical session bytes identify

Proof bytes tell challenges apart as far as the well-formed versions of their
strings differ; canonical strings tell requests apart but for an array of one
hole, which prints like an empty one.
-/

namespace MoeNG.Session
open MoeNG.Kernel MoeNG.Lib

/-! ### The bound fields of a proof -/

-- `-0` is the number `0`
def zeroValue : Value → Value
  | .number .negativeZero => .number (.integer 0)
  | value => value

/-- What the bytes show of a field. -/
def seenValue : Value → Value
  | .string s => .string (toWellFormed s)
  | value => zeroValue value

def boundFields (fields : Fields) : Fields := fields.map fun f => (f.1, zeroValue f.2)

def seenFields (fields : Fields) : Fields := fields.map fun f => (f.1, seenValue f.2)

/-- Challenges that differ, but only by surrogates that stand alone and what UTF-8 makes of them. -/
def ChallengeClash (fields fields' : Fields) : Prop :=
  seenFields fields = seenFields fields' ∧ boundFields fields ≠ boundFields fields'

/-- Strings of the platform are shorter than `2 ^ 30` units. -/
def FitsFrame (fields : Fields) : Prop := ∀ f ∈ fields, ∀ s, f.2 = .string s → (utf8 s).length < 2 ^ 32

theorem seenFields_of_bound (fields fields' : Fields) (h : boundFields fields = boundFields fields') :
    seenFields fields = seenFields fields' := by
  have hseen (fields : Fields) : (boundFields fields).map (fun f => (f.1, seenValue f.2)) = seenFields fields := by
    unfold boundFields seenFields
    rw [List.map_map]
    refine List.map_congr_left fun f _ => ?_
    obtain ⟨name, value⟩ := f
    cases value with
    | number n => cases n <;> rfl
    | _ => rfl
  rw [← hseen, ← hseen, h]

theorem sessionProofScalar_cases (field : String) (value : Value) (text : JsString)
    (h : sessionProofScalar field value = some text) :
    ((field = "generation" ∨ field = "issuedAt") ∧ ∃ n : ℕ, zeroValue value = .number (.integer n) ∧ text = decimal n
      ∧ n < 10 ^ 16)
    ∨ (¬ (field = "generation" ∨ field = "issuedAt") ∧ value = .string text) := by
  unfold sessionProofScalar at h
  split at h
  · rename_i hfield
    refine Or.inl ⟨hfield, ?_⟩
    split at h
    · rename_i z
      split at h
      · rename_i hsafe
        obtain ⟨hnonneg, hle⟩ := of_decide_eq_true hsafe
        have hmax : maxSafeInteger < 10 ^ 16 := by decide
        obtain ⟨n, rfl⟩ := Int.eq_ofNat_of_zero_le hnonneg
        refine ⟨n, rfl, ?_, by exact_mod_cast lt_of_le_of_lt hle hmax⟩
        rw [← Option.some.inj h]
        exact if_neg (by omega)
      · cases h
    · refine ⟨0, rfl, ?_, by decide⟩
      rw [← Option.some.inj h]
      rfl
    · cases h
  · rename_i hfield
    refine Or.inr ⟨hfield, ?_⟩
    split at h
    · split at h
      · cases h
      · rw [← Option.some.inj h]
    · cases h

/-- A text shows what the bytes show. -/
theorem sessionProofScalar_seen (field : String) (value value' : Value) (text text' : JsString)
    (h : sessionProofScalar field value = some text) (h' : sessionProofScalar field value' = some text') :
    toWellFormed text = toWellFormed text' ↔ seenValue value = seenValue value' := by
  have hdecimal (n : ℕ) : wellFormed (decimal n) = true := wellFormed_decimalInt n
  have hnumber (value : Value) (n : ℕ) (hn : zeroValue value = .number (.integer n)) :
      seenValue value = .number (.integer n) := by
    cases value with
    | string s => cases hn
    | _ => exact hn
  obtain ⟨hfield, n, hvalue, rfl, -⟩ | ⟨hfield, rfl⟩ := sessionProofScalar_cases field value text h
  · obtain ⟨-, m, hvalue', rfl, -⟩ | ⟨hfield', -⟩ := sessionProofScalar_cases field value' text' h'
    · rw [hnumber _ _ hvalue, hnumber _ _ hvalue', toWellFormed_of_wellFormed _ (hdecimal n),
        toWellFormed_of_wellFormed _ (hdecimal m)]
      simp [decimal_injective.eq_iff]
    · exact absurd hfield hfield'
  · obtain ⟨hfield', -⟩ | ⟨-, rfl⟩ := sessionProofScalar_cases field value' text' h'
    · exact absurd hfield' hfield
    · exact ⟨fun heq => congrArg Value.string heq, fun heq => Value.string.inj heq⟩

theorem sessionProofScalar_short (field : String) (value : Value) (text : JsString)
    (h : sessionProofScalar field value = some text) (hfits : ∀ s, value = .string s → (utf8 s).length < 2 ^ 32) :
    (utf8 text).length < 2 ^ 32 := by
  obtain ⟨-, n, -, rfl, hn⟩ | ⟨-, rfl⟩ := sessionProofScalar_cases field value text h
  · rw [utf8_decimal_length]
    exact lt_of_le_of_lt (decimal_length_le n 16 (by decide) hn) (by decide)
  · exact hfits text rfl

theorem bigEndian32_inj (m n : ℕ) (hm : m < 2 ^ 32) (hn : n < 2 ^ 32) (h : bigEndian32 m = bigEndian32 n) : m = n := by
  simp only [bigEndian32, List.map_cons, List.map_nil, List.cons.injEq, and_true] at h
  obtain ⟨h3, h2, h1, h0⟩ := h
  refine octets_inj 4 m n hm hn fun i hi => ?_
  interval_cases i
  · simpa using h0
  all_goals assumption

/-- Framed texts are told apart as far as their well-formed versions differ. -/
theorem frames_iff (texts texts' : List JsString) (hlength : texts.length = texts'.length)
    (hshort : ∀ t ∈ texts, (utf8 t).length < 2 ^ 32) (hshort' : ∀ t ∈ texts', (utf8 t).length < 2 ^ 32) :
    texts.flatMap frameSessionProofScalar = texts'.flatMap frameSessionProofScalar
      ↔ texts.map toWellFormed = texts'.map toWellFormed := by
  induction texts generalizing texts' with
  | nil =>
    obtain rfl := List.length_eq_zero_iff.mp hlength.symm
    simp
  | cons t rest ih =>
    cases texts' with
    | nil => cases hlength
    | cons t' rest' =>
      obtain ⟨ht, hrest⟩ := List.forall_mem_cons.mp hshort
      obtain ⟨ht', hrest'⟩ := List.forall_mem_cons.mp hshort'
      rw [List.flatMap_cons, List.flatMap_cons, List.map_cons, List.map_cons, List.cons.injEq,
        ← ih rest' (Nat.succ.inj hlength) hrest hrest', ← utf8_eq_iff_toWellFormed]
      refine ⟨fun h => ?_, fun ⟨htext, htail⟩ => by rw [frameSessionProofScalar, frameSessionProofScalar, htext, htail]⟩
      exact framed_inj bigEndian32 4 (2 ^ 32) (fun _ => rfl) bigEndian32_inj _ _ _ _ ht ht' h

theorem scalars_length (fields : Fields) (texts : List JsString)
    (h : fields.mapM (fun f => sessionProofScalar f.1 f.2) = some texts) (hfits : FitsFrame fields) :
    texts.length = fields.length ∧ ∀ t ∈ texts, (utf8 t).length < 2 ^ 32 := by
  induction fields generalizing texts with
  | nil =>
    obtain rfl := Option.some.inj h
    exact ⟨rfl, nofun⟩
  | cons f rest ih =>
    rw [List.mapM_cons] at h
    obtain ⟨t, ht, h⟩ := Option.bind_eq_some_iff.mp h
    obtain ⟨ts, hts, h⟩ := Option.bind_eq_some_iff.mp h
    obtain rfl := Option.some.inj h
    obtain ⟨hlength, hshort⟩ := ih ts hts fun f hf => hfits f (List.mem_cons_of_mem _ hf)
    refine ⟨congrArg Nat.succ hlength, List.forall_mem_cons.mpr ⟨?_, hshort⟩⟩
    exact sessionProofScalar_short f.1 f.2 t ht (hfits f (List.mem_cons_self ..))

theorem scalars_iff (fields fields' : Fields) (texts texts' : List JsString)
    (hkeys : fields.map Prod.fst = fields'.map Prod.fst)
    (h : fields.mapM (fun f => sessionProofScalar f.1 f.2) = some texts)
    (h' : fields'.mapM (fun f => sessionProofScalar f.1 f.2) = some texts') :
    texts.map toWellFormed = texts'.map toWellFormed ↔ seenFields fields = seenFields fields' := by
  induction fields generalizing fields' texts texts' with
  | nil =>
    obtain rfl : fields' = [] := List.map_eq_nil_iff.mp hkeys.symm
    obtain rfl := Option.some.inj (h.symm.trans h')
    simp
  | cons f rest ih =>
    cases fields' with
    | nil => cases hkeys
    | cons f' rest' =>
      obtain ⟨name, value⟩ := f
      obtain ⟨name', value'⟩ := f'
      obtain ⟨hname, htail⟩ := List.cons.inj hkeys
      obtain rfl : name = name' := hname
      rw [List.mapM_cons] at h h'
      obtain ⟨t, ht, h⟩ := Option.bind_eq_some_iff.mp h
      obtain ⟨ts, hts, h⟩ := Option.bind_eq_some_iff.mp h
      obtain rfl := Option.some.inj h
      obtain ⟨t', ht', h'⟩ := Option.bind_eq_some_iff.mp h'
      obtain ⟨ts', hts', h'⟩ := Option.bind_eq_some_iff.mp h'
      obtain rfl := Option.some.inj h'
      have hrest := ih rest' ts ts' htail hts hts'
      have hvalue := sessionProofScalar_seen name value value' t t' ht ht'
      unfold seenFields at hrest ⊢
      simp only [List.map_cons, List.cons.injEq, Prod.mk.injEq, true_and, hrest, hvalue]

/-- Equal proof bytes belong to equal challenges unless these clash, and only then. -/
theorem canonicalSessionProofBytes_iff (v w : Value) (fields fields' : Fields) (bytes bytes' : List Byte)
    (hfields : readSessionProofValues v = some fields) (hfields' : readSessionProofValues w = some fields')
    (hv : canonicalSessionProofBytes v = some bytes) (hw : canonicalSessionProofBytes w = some bytes')
    (hfits : FitsFrame fields) (hfits' : FitsFrame fields') :
    (bytes = bytes' ↔ boundFields fields = boundFields fields') ↔ ¬ ChallengeClash fields fields' := by
  obtain ⟨values, hvalues, hv⟩ := Option.bind_eq_some_iff.mp hv
  obtain rfl := Option.some.inj (hfields.symm.trans hvalues)
  obtain ⟨texts, htexts, hv⟩ := Option.bind_eq_some_iff.mp hv
  obtain rfl := Option.some.inj hv
  obtain ⟨values', hvalues', hw⟩ := Option.bind_eq_some_iff.mp hw
  obtain rfl := Option.some.inj (hfields'.symm.trans hvalues')
  obtain ⟨texts', htexts', hw⟩ := Option.bind_eq_some_iff.mp hw
  obtain rfl := Option.some.inj hw
  have hkeys := (exactRecord_keys _ _ _ hfields).trans (exactRecord_keys _ _ _ hfields').symm
  obtain ⟨hlength, hshort⟩ := scalars_length fields texts htexts hfits
  obtain ⟨hlength', hshort'⟩ := scalars_length fields' texts' htexts' hfits'
  have hsame : fields.length = fields'.length := by simpa using congrArg List.length hkeys
  have hseen := (frames_iff texts texts' (hlength.trans (hsame.trans hlength'.symm)) hshort hshort').trans
    (scalars_iff fields fields' texts texts' hkeys htexts htexts')
  rw [List.append_cancel_left_eq, hseen]
  constructor
  · rintro hlaw ⟨hclash, hne⟩
    exact hne (hlaw.mp hclash)
  · exact fun hfree => ⟨fun h => not_not.mp fun hne => hfree ⟨h, hne⟩, seenFields_of_bound fields fields'⟩

/-! ### Canonical strings -/

mutual

def zeroed : AuthorityValue → AuthorityValue
  | .number (.number .negativeZero) => .number (.number (.integer 0))
  | .array items => .array (zeroedItems items)
  | .object entries => .object (zeroedEntries entries)
  | value => value

def zeroedItems : List AuthorityValue → List AuthorityValue
  | [] => []
  | value :: rest => zeroed value :: zeroedItems rest

def zeroedEntries : List (JsString × AuthorityValue) → List (JsString × AuthorityValue)
  | [] => []
  | (key, value) :: rest => (key, zeroed value) :: zeroedEntries rest

end

def isLoneHole : List AuthorityValue → Bool
  | [.number .hole] => true
  | _ => false

mutual

/-- What the text shows of a value: an array of one hole looks empty. -/
def closed : AuthorityValue → AuthorityValue
  | .number (.number .negativeZero) => .number (.number (.integer 0))
  | .array items => .array (if isLoneHole items then [] else closedItems items)
  | .object entries => .object (closedEntries entries)
  | value => value

def closedItems : List AuthorityValue → List AuthorityValue
  | [] => []
  | value :: rest => closed value :: closedItems rest

def closedEntries : List (JsString × AuthorityValue) → List (JsString × AuthorityValue)
  | [] => []
  | (key, value) :: rest => (key, closed value) :: closedEntries rest

end

theorem isLoneHole_zeroed (items : List AuthorityValue) : isLoneHole (zeroedItems items) = isLoneHole items := by
  match items with
  | [] => rfl
  | [.number (.number n)] => cases n <;> rfl
  | [.number .hole] => rfl
  | [.number .foreign] => rfl
  | [.null] => rfl
  | [.boolean _] => rfl
  | [.string _] => rfl
  | [.array _] => rfl
  | [.object _] => rfl
  | v :: w :: rest =>
    rw [zeroedItems, zeroedItems]
    simp [isLoneHole]

theorem isLoneHole_closed (items : List AuthorityValue) : isLoneHole (closedItems items) = isLoneHole items := by
  match items with
  | [] => rfl
  | [.number (.number n)] => cases n <;> rfl
  | [.number .hole] => rfl
  | [.number .foreign] => rfl
  | [.null] => rfl
  | [.boolean _] => rfl
  | [.string _] => rfl
  | [.array _] => rfl
  | [.object _] => rfl
  | v :: w :: rest =>
    rw [closedItems, closedItems]
    simp [isLoneHole]

mutual

theorem closed_zeroed : ∀ v : AuthorityValue, closed (zeroed v) = closed v
  | .null => rfl
  | .boolean _ => rfl
  | .string _ => rfl
  | .number (.number (.integer _)) => rfl
  | .number (.number .negativeZero) => rfl
  | .number (.number .other) => rfl
  | .number .hole => rfl
  | .number .foreign => rfl
  | .array items => by rw [zeroed, closed, closed, isLoneHole_zeroed, closedItems_zeroed items]
  | .object entries => by rw [zeroed, closed, closed, closedEntries_zeroed entries]

theorem closedItems_zeroed : ∀ items : List AuthorityValue, closedItems (zeroedItems items) = closedItems items
  | [] => rfl
  | v :: rest => by rw [zeroedItems, closedItems, closedItems, closed_zeroed v, closedItems_zeroed rest]

theorem closedEntries_zeroed : ∀ entries : List (JsString × AuthorityValue),
    closedEntries (zeroedEntries entries) = closedEntries entries
  | [] => rfl
  | (key, v) :: rest => by rw [zeroedEntries, closedEntries, closedEntries, closed_zeroed v, closedEntries_zeroed rest]

end

abbrev printed (v : AuthorityValue) : JsString := Json.print scalarText v

mutual

theorem printed_closed : ∀ v : AuthorityValue, printed (closed v) = printed v
  | .null => rfl
  | .boolean _ => rfl
  | .string _ => rfl
  | .number (.number (.integer _)) => rfl
  | .number (.number .negativeZero) => by decide
  | .number (.number .other) => rfl
  | .number .hole => rfl
  | .number .foreign => rfl
  | .array items => by
    rw [closed]
    split
    · rename_i hlone
      match items, hlone with
      | [.number .hole], _ => rfl
    · exact congrArg jsonArray (printedItems_closed items)
  | .object entries => by
    rw [closed]
    exact congrArg Json.printObject (printedEntries_closed entries)

theorem printedItems_closed : ∀ items : List AuthorityValue,
    Json.printItems scalarText (closedItems items) = Json.printItems scalarText items
  | [] => rfl
  | v :: rest => by
    have hv := printed_closed v
    rw [closedItems, Json.printItems, Json.printItems, printedItems_closed rest]
    exact congrArg (· :: _) hv

theorem printedEntries_closed : ∀ entries : List (JsString × AuthorityValue),
    Json.printEntries scalarText (closedEntries entries) = Json.printEntries scalarText entries
  | [] => rfl
  | (key, v) :: rest => by
    have hv := printed_closed v
    rw [closedEntries, Json.printEntries, Json.printEntries, printedEntries_closed rest]
    exact congrArg (fun text => (key, text) :: _) hv

end

mutual

theorem canonicalText_eq : ∀ v : AuthorityValue, canonicalText v = printed (Json.ordered v)
  | .null => rfl
  | .boolean _ => rfl
  | .string _ => rfl
  | .number _ => rfl
  | .array items => by rw [canonicalText, Json.ordered, printed, Json.print, canonicalItems_eq items]
  | .object entries => by
    rw [canonicalText, Json.ordered, printed, Json.print, canonicalEntries_eq entries, Json.printEntries_eq,
      Json.printEntries_eq, sortByKey_map (Json.print scalarText)]

theorem canonicalItems_eq : ∀ items : List AuthorityValue,
    canonicalItems items = Json.printItems scalarText (Json.orderedItems items)
  | [] => rfl
  | v :: rest => by rw [canonicalItems, Json.orderedItems, Json.printItems, canonicalText_eq v, canonicalItems_eq rest]

theorem canonicalEntries_eq : ∀ entries : List (JsString × AuthorityValue),
    canonicalEntries entries = Json.printEntries scalarText (Json.orderedEntries entries)
  | [] => rfl
  | (key, v) :: rest => by
    rw [canonicalEntries, Json.orderedEntries, Json.printEntries, canonicalText_eq v, canonicalEntries_eq rest]

end

/-! ### The text is read from the front -/

def kindOf : AuthorityValue → Kind
  | .null => .null
  | .boolean _ => .bool
  | .number _ => .number
  | .string _ => .string
  | .array _ => .array
  | .object _ => .record

theorem accepts_number (depth : ℕ) (x : AuthorityScalar) (h : accepts depth (.number x) = true) :
    ∃ z, scalarText x = decimalInt z ∧ closed (.number x) = .number (.number (.integer z)) := by
  cases x with
  | number n =>
    cases n with
    | integer z => exact ⟨z, rfl, rfl⟩
    | negativeZero => exact ⟨0, by decide, rfl⟩
    | other =>
      rw [accepts, isSafeInteger, Bool.and_false] at h
      cases h
  | hole => cases h
  | foreign => cases h

theorem printed_head (depth : ℕ) (v : AuthorityValue) (h : accepts depth v = true) :
    ∃ c rest, printed v = c :: rest ∧ headKind c = kindOf v := by
  cases v with
  | null => exact ⟨_, _, rfl, rfl⟩
  | boolean b => cases b <;> exact ⟨_, _, rfl, rfl⟩
  | string s => exact ⟨_, _, rfl, rfl⟩
  | array items => exact ⟨_, _, rfl, rfl⟩
  | object entries => exact ⟨_, _, rfl, rfl⟩
  | number x =>
    obtain ⟨z, htext, -⟩ := accepts_number depth x h
    obtain ⟨c, rest, hz, hc⟩ := decimalInt_head z
    exact ⟨c, rest, htext.trans hz, headKind_numeral c hc⟩

theorem printed_kind (d e : ℕ) (v w : AuthorityValue) (hv : accepts d v = true) (hw : accepts e w = true) (r q : JsString)
    (h : printed v ++ r = printed w ++ q) : kindOf v = kindOf w := by
  obtain ⟨c, rest, hvtext, hvkind⟩ := printed_head d v hv
  obtain ⟨c', rest', hwtext, hwkind⟩ := printed_head e w hw
  rw [hvtext, hwtext] at h
  rw [← hvkind, ← hwkind, (List.cons.inj h).1]

/-- No value text starts with what ends one. -/
theorem printed_ne_stop (depth : ℕ) (v : AuthorityValue) (h : accepts depth v = true) (x rest : JsString)
    (hstop : Stops rest) : printed v ++ x ≠ rest := by
  obtain ⟨c, tail, htext, hkind⟩ := printed_head depth v h
  intro heq
  rw [htext] at heq
  obtain rfl | rfl | rfl := hstop c (by rw [← heq]; rfl)
  all_goals
    cases v <;> simp [kindOf, headKind] at hkind

theorem acceptsItems_cons (depth : ℕ) (v : AuthorityValue) (rest : List AuthorityValue)
    (h : acceptsItems depth (v :: rest) = true) :
    (v = .number .hole ∨ accepts depth v = true) ∧ acceptsItems depth rest = true := by
  cases v with
  | number x =>
    cases x with
    | hole => exact ⟨Or.inl rfl, h⟩
    | _ =>
      rw [acceptsItems, Bool.and_eq_true] at h
      · exact ⟨Or.inr h.1, h.2⟩
      · exact nofun
  | _ =>
    rw [acceptsItems, Bool.and_eq_true] at h
    · exact ⟨Or.inr h.1, h.2⟩
    · exact nofun

theorem printed_array (items : List AuthorityValue) (r : JsString) :
    printed (.array items) ++ r = 91 :: ((lit ",").intercalate (Json.printItems scalarText items) ++ 93 :: r) := by
  show [91] ++ _ ++ [93] ++ r = _
  simp

theorem printed_object (entries : List (JsString × AuthorityValue)) (r : JsString) :
    printed (.object entries) ++ r
      = 123 :: ((lit ",").intercalate ((Json.printEntries scalarText entries).map Json.property) ++ 125 :: r) := by
  show [123] ++ _ ++ [125] ++ r = _
  simp

theorem commaTexts_cons (text : JsString) (texts : List JsString) (r : JsString) :
    commaTexts (text :: texts) ++ r = 44 :: (text ++ (commaTexts texts ++ r)) := by
  simp [commaTexts]

theorem stops_items (texts : List JsString) (r : JsString) : Stops (commaTexts texts ++ 93 :: r) :=
  stops_commaTexts texts 93 r (.inl rfl)

theorem stops_entries (texts : List JsString) (r : JsString) : Stops (commaTexts texts ++ 125 :: r) :=
  stops_commaTexts texts 125 r (.inr rfl)

/-- An empty array and another that looks like it. -/
theorem emptyItems_inj (w : AuthorityValue) (rest : List AuthorityValue) (e : ℕ) (r q : JsString)
    (hw : acceptsItems e (w :: rest) = true)
    (h : 93 :: r = (lit ",").intercalate (Json.printItems scalarText (w :: rest)) ++ 93 :: q) :
    [] = (if isLoneHole (w :: rest) then [] else closedItems (w :: rest)) ∧ r = q := by
  obtain ⟨hfirst, -⟩ := acceptsItems_cons e w rest hw
  rw [Json.printItems, intercalate_eq, List.append_assoc] at h
  obtain rfl | hfirst := hfirst
  · cases rest with
    | nil => exact ⟨rfl, (List.cons.inj h).2⟩
    | cons w' rest =>
      rw [Json.printItems, commaTexts_cons] at h
      exact absurd (List.cons.inj h).1 (by decide)
  · exact absurd h.symm (printed_ne_stop e w hfirst _ _ (stops_items [] r))

theorem property_start (entry : JsString × JsString) (x : JsString) : ∃ y, Json.property entry ++ x = 34 :: y :=
  ⟨_, Json.property_append entry.1 entry.2 x⟩

mutual

/-- Texts with one beginning, each followed by what ends a value, belong to values that look the same. -/
theorem printed_inj : ∀ (v w : AuthorityValue) (d e : ℕ) (r q : JsString), accepts d v = true → accepts e w = true →
    Stops r → Stops q → printed v ++ r = printed w ++ q → closed v = closed w ∧ r = q
  | .null, w, d, e, r, q, hv, hw, _, _, h => by
    have hkind := printed_kind d e _ w hv hw r q h
    cases w with
    | null => exact ⟨rfl, List.append_cancel_left h⟩
    | _ => cases hkind
  | .boolean b, w, d, e, r, q, hv, hw, _, _, h => by
    have hkind := printed_kind d e _ w hv hw r q h
    cases w with
    | boolean b' =>
      cases b <;> cases b' <;> first | exact ⟨rfl, List.append_cancel_left h⟩ | exact absurd (List.cons.inj h).1 (by decide)
    | _ => cases hkind
  | .string s, w, d, e, r, q, hv, hw, _, _, h => by
    have hkind := printed_kind d e _ w hv hw r q h
    cases w with
    | string t =>
      obtain ⟨rfl, hrest⟩ := jsonText_prefixCode s t r q h
      exact ⟨rfl, hrest⟩
    | _ => cases hkind
  | .number x, w, d, e, r, q, hv, hw, hr, hq, h => by
    have hkind := printed_kind d e _ w hv hw r q h
    cases w with
    | number y =>
      obtain ⟨z, htext, hclosed⟩ := accepts_number d x hv
      obtain ⟨z', htext', hclosed'⟩ := accepts_number e y hw
      have htexts : decimalInt z ++ r = decimalInt z' ++ q := by
        rw [← htext, ← htext']
        exact h
      obtain ⟨rfl, hrest⟩ := stringify_numeral z z' r q hr hq htexts
      exact ⟨hclosed.trans hclosed'.symm, hrest⟩
    | _ => cases hkind
  | .array items, w, d, e, r, q, hv, hw, _, _, h => by
    have hkind := printed_kind d e _ w hv hw r q h
    cases w with
    | array items' =>
      rw [accepts, Bool.and_eq_true] at hv hw
      rw [printed_array, printed_array] at h
      obtain ⟨hitems, hrest⟩ := printedItems_inj items items' _ _ r q hv.2 hw.2 (List.cons.inj h).2
      rw [closed, closed, hitems]
      exact ⟨rfl, hrest⟩
    | _ => cases hkind
  | .object entries, w, d, e, r, q, hv, hw, _, _, h => by
    have hkind := printed_kind d e _ w hv hw r q h
    cases w with
    | object entries' =>
      rw [accepts, Bool.and_eq_true] at hv hw
      rw [printed_object, printed_object] at h
      obtain ⟨hentries, hrest⟩ := printedEntries_inj entries entries' _ _ r q hv.2 hw.2 (List.cons.inj h).2
      rw [closed, closed, hentries]
      exact ⟨rfl, hrest⟩
    | _ => cases hkind
termination_by v => (sizeOf v, 0)

theorem printedItems_inj : ∀ (items items' : List AuthorityValue) (d e : ℕ) (r q : JsString), acceptsItems d items = true →
    acceptsItems e items' = true →
    (lit ",").intercalate (Json.printItems scalarText items) ++ 93 :: r
      = (lit ",").intercalate (Json.printItems scalarText items') ++ 93 :: q →
    (if isLoneHole items then [] else closedItems items) = (if isLoneHole items' then [] else closedItems items') ∧ r = q
  | [], [], _, _, r, q, _, _, h => ⟨rfl, (List.cons.inj h).2⟩
  | [], w :: rest', d, e, r, q, _, hw, h => emptyItems_inj w rest' e r q hw h
  | v :: rest, [], d, e, r, q, hv, _, h => by
    obtain ⟨hclosed, hrest⟩ := emptyItems_inj v rest d q r hv h.symm
    exact ⟨hclosed.symm, hrest.symm⟩
  | v :: rest, w :: rest', d, e, r, q, hv, hw, h => by
    rw [Json.printItems, Json.printItems, intercalate_eq, intercalate_eq] at h
    obtain ⟨hitems, hrest⟩ := commaItems_inj (v :: rest) (w :: rest') d e r q hv hw (by
      rw [Json.printItems, Json.printItems, commaTexts_cons, commaTexts_cons, ← List.append_assoc, ← List.append_assoc]
      exact congrArg _ h)
    have hlone := isLoneHole_closed (v :: rest)
    rw [hitems, isLoneHole_closed] at hlone
    rw [hitems, hlone]
    exact ⟨rfl, hrest⟩
termination_by items => (sizeOf items, 1)

theorem commaItems_inj : ∀ (items items' : List AuthorityValue) (d e : ℕ) (r q : JsString), acceptsItems d items = true →
    acceptsItems e items' = true → commaTexts (Json.printItems scalarText items) ++ 93 :: r
      = commaTexts (Json.printItems scalarText items') ++ 93 :: q → closedItems items = closedItems items' ∧ r = q
  | [], [], _, _, r, q, _, _, h => ⟨rfl, (List.cons.inj h).2⟩
  | [], w :: rest', _, _, r, q, _, _, h => by
    rw [Json.printItems, Json.printItems, commaTexts_cons] at h
    exact absurd (List.cons.inj h).1 (by decide)
  | v :: rest, [], _, _, r, q, _, _, h => by
    rw [Json.printItems, Json.printItems, commaTexts_cons] at h
    exact absurd (List.cons.inj h).1 (by decide)
  | v :: rest, w :: rest', d, e, r, q, hv, hw, h => by
    obtain ⟨hfirst, htail⟩ := acceptsItems_cons d v rest hv
    obtain ⟨hfirst', htail'⟩ := acceptsItems_cons e w rest' hw
    rw [Json.printItems, Json.printItems, commaTexts_cons, commaTexts_cons] at h
    have hbody := (List.cons.inj h).2
    rw [closedItems, closedItems]
    obtain rfl | hfirst := hfirst
    · obtain rfl | hfirst' := hfirst'
      · obtain ⟨hitems, hrest⟩ := commaItems_inj rest rest' d e r q htail htail' hbody
        exact ⟨congrArg _ hitems, hrest⟩
      · exact absurd hbody.symm (printed_ne_stop e w hfirst' _ _ (stops_items _ r))
    · obtain rfl | hfirst' := hfirst'
      · exact absurd hbody (printed_ne_stop d v hfirst _ _ (stops_items _ q))
      · obtain ⟨hclosed, hbody⟩ := printed_inj v w d e _ _ hfirst hfirst' (stops_items _ r) (stops_items _ q) hbody
        obtain ⟨hitems, hrest⟩ := commaItems_inj rest rest' d e r q htail htail' hbody
        rw [hclosed, hitems]
        exact ⟨rfl, hrest⟩
termination_by items => (sizeOf items, 0)

theorem printedEntries_inj : ∀ (entries entries' : List (JsString × AuthorityValue)) (d e : ℕ) (r q : JsString),
    acceptsEntries d entries = true → acceptsEntries e entries' = true →
    (lit ",").intercalate ((Json.printEntries scalarText entries).map Json.property) ++ 125 :: r
      = (lit ",").intercalate ((Json.printEntries scalarText entries').map Json.property) ++ 125 :: q →
    closedEntries entries = closedEntries entries' ∧ r = q
  | [], [], _, _, r, q, _, _, h => ⟨rfl, (List.cons.inj h).2⟩
  | [], (key, w) :: rest', _, _, r, q, _, _, h => by
    rw [Json.printEntries, Json.printEntries, List.map_cons, intercalate_eq, List.append_assoc] at h
    obtain ⟨y, hy⟩ := property_start (key, printed w) (commaTexts
      ((Json.printEntries scalarText rest').map Json.property) ++ 125 :: q)
    exact absurd (List.cons.inj (h.trans hy)).1 (by decide)
  | (key, v) :: rest, [], _, _, r, q, _, _, h => by
    rw [Json.printEntries, Json.printEntries, List.map_cons, intercalate_eq, List.append_assoc] at h
    obtain ⟨y, hy⟩ := property_start (key, printed v) (commaTexts
      ((Json.printEntries scalarText rest).map Json.property) ++ 125 :: r)
    exact absurd (List.cons.inj (h.symm.trans hy)).1 (by decide)
  | (key, v) :: rest, (key', w) :: rest', d, e, r, q, hv, hw, h => by
    rw [Json.printEntries, Json.printEntries, List.map_cons, List.map_cons, intercalate_eq, intercalate_eq] at h
    refine commaEntries_inj ((key, v) :: rest) ((key', w) :: rest') d e r q hv hw ?_
    rw [Json.printEntries, Json.printEntries, List.map_cons, List.map_cons, commaTexts_cons, commaTexts_cons,
      ← List.append_assoc, ← List.append_assoc]
    exact congrArg _ h
termination_by entries => (sizeOf entries, 1)

theorem commaEntries_inj : ∀ (entries entries' : List (JsString × AuthorityValue)) (d e : ℕ) (r q : JsString),
    acceptsEntries d entries = true → acceptsEntries e entries' = true →
    commaTexts ((Json.printEntries scalarText entries).map Json.property) ++ 125 :: r
      = commaTexts ((Json.printEntries scalarText entries').map Json.property) ++ 125 :: q →
    closedEntries entries = closedEntries entries' ∧ r = q
  | [], [], _, _, r, q, _, _, h => ⟨rfl, (List.cons.inj h).2⟩
  | [], (key, w) :: rest', _, _, r, q, _, _, h => by
    rw [Json.printEntries, Json.printEntries, List.map_cons, commaTexts_cons] at h
    exact absurd (List.cons.inj h).1 (by decide)
  | (key, v) :: rest, [], _, _, r, q, _, _, h => by
    rw [Json.printEntries, Json.printEntries, List.map_cons, commaTexts_cons] at h
    exact absurd (List.cons.inj h).1 (by decide)
  | (key, v) :: rest, (key', w) :: rest', d, e, r, q, hv, hw, h => by
    rw [acceptsEntries, Bool.and_eq_true] at hv hw
    rw [Json.printEntries, Json.printEntries, List.map_cons, List.map_cons, commaTexts_cons, commaTexts_cons,
      Json.property_append, Json.property_append, ← jsonText_append, ← jsonText_append] at h
    obtain ⟨rfl, hbody⟩ := jsonText_prefixCode key key' _ _ (List.cons.inj h).2
    obtain ⟨hclosed, hbody⟩ := printed_inj v w d e _ _ hv.1 hw.1 (stops_entries _ r) (stops_entries _ q) (List.cons.inj hbody).2
    obtain ⟨hentries, hrest⟩ := commaEntries_inj rest rest' d e r q hv.2 hw.2 hbody
    rw [closedEntries, closedEntries, hclosed, hentries]
    exact ⟨rfl, hrest⟩
termination_by entries => (sizeOf entries, 0)

end

/-! ### What the bytes identify -/

theorem acceptsEntries_iff (depth : ℕ) (entries : List (JsString × AuthorityValue)) :
    acceptsEntries depth entries = true ↔ ∀ e ∈ entries, accepts depth e.2 = true := by
  induction entries with
  | nil => simp [acceptsEntries]
  | cons e rest ih => simp [acceptsEntries, ih]

theorem acceptsItems_iff (depth : ℕ) (items : List AuthorityValue) :
    acceptsItems depth items = true ↔ ∀ v ∈ items, v = .number .hole ∨ accepts depth v = true := by
  induction items with
  | nil => simp [acceptsItems]
  | cons v rest ih =>
    rw [List.forall_mem_cons, ← ih]
    refine ⟨acceptsItems_cons depth v rest, fun ⟨hv, hrest⟩ => ?_⟩
    cases v with
    | number x => cases x <;> simp_all [acceptsItems, accepts]
    | _ => simp_all [acceptsItems, accepts]

mutual

theorem accepts_ordered : ∀ (depth : ℕ) (v : AuthorityValue), accepts depth v = true → accepts depth (Json.ordered v) = true
  | _, .null, h => h
  | _, .boolean _, h => h
  | _, .string _, h => h
  | _, .number _, h => h
  | depth, .array items, h => by
    rw [accepts, Bool.and_eq_true] at h
    rw [Json.ordered, accepts, h.1, Bool.true_and]
    exact (acceptsItems_iff _ _).mpr (acceptsItems_ordered _ items ((acceptsItems_iff _ _).mp h.2))
  | depth, .object entries, h => by
    rw [accepts, Bool.and_eq_true] at h
    rw [Json.ordered, accepts, h.1, Bool.true_and, acceptsEntries_iff]
    intro e he
    exact acceptsEntries_ordered _ entries ((acceptsEntries_iff _ _).mp h.2) e ((List.mem_insertionSort _).mp he)

theorem acceptsItems_ordered : ∀ (depth : ℕ) (items : List AuthorityValue),
    (∀ v ∈ items, v = .number .hole ∨ accepts depth v = true) →
    ∀ v ∈ Json.orderedItems items, v = .number .hole ∨ accepts depth v = true
  | _, [], _ => nofun
  | depth, v :: rest, h => by
    obtain ⟨hv, hrest⟩ := List.forall_mem_cons.mp h
    refine List.forall_mem_cons.mpr ⟨?_, acceptsItems_ordered depth rest hrest⟩
    obtain rfl | hv := hv
    · exact Or.inl rfl
    · exact Or.inr (accepts_ordered depth v hv)

theorem acceptsEntries_ordered : ∀ (depth : ℕ) (entries : List (JsString × AuthorityValue)),
    (∀ e ∈ entries, accepts depth e.2 = true) → ∀ e ∈ Json.orderedEntries entries, accepts depth e.2 = true
  | _, [], _ => nofun
  | depth, (key, v) :: rest, h => by
    obtain ⟨hv, hrest⟩ := List.forall_mem_cons.mp h
    exact List.forall_mem_cons.mpr ⟨accepts_ordered depth v hv, acceptsEntries_ordered depth rest hrest⟩

end

/-- Requests that differ, but only by an array of one hole and an empty one. -/
def GapClash (v w : AuthorityValue) : Prop :=
  closed (Json.ordered v) = closed (Json.ordered w) ∧ zeroed (Json.ordered v) ≠ zeroed (Json.ordered w)

theorem sessionAuthorityCanonicalString_iff (v w : AuthorityValue) (s t : JsString)
    (hv : sessionAuthorityCanonicalString v = some s) (hw : sessionAuthorityCanonicalString w = some t) :
    (s = t ↔ zeroed (Json.ordered v) = zeroed (Json.ordered w)) ↔ ¬ GapClash v w := by
  unfold sessionAuthorityCanonicalString at hv hw
  split at hv
  · rename_i hav
    split at hw
    · rename_i haw
      obtain rfl := Option.some.inj hv
      obtain rfl := Option.some.inj hw
      have htext : sessionAuthoritySchemaVersion ++ lit ":" ++ canonicalText v
          = sessionAuthoritySchemaVersion ++ lit ":" ++ canonicalText w ↔ closed (Json.ordered v) = closed (Json.ordered w) := by
        rw [List.append_cancel_left_eq, canonicalText_eq, canonicalText_eq]
        constructor
        · intro h
          exact (printed_inj _ _ 0 0 [] [] (accepts_ordered 0 v hav) (accepts_ordered 0 w haw) nofun nofun
            (congrArg (· ++ []) h)).1
        · intro h
          rw [← printed_closed, h, printed_closed]
      have hzeroed (h : zeroed (Json.ordered v) = zeroed (Json.ordered w)) : closed (Json.ordered v)
        = closed (Json.ordered w) := by
        rw [← closed_zeroed, h, closed_zeroed]
      rw [htext]
      constructor
      · rintro hlaw ⟨hclash, hne⟩
        exact hne (hlaw.mp hclash)
      · exact fun hfree => ⟨fun h => not_not.mp fun hne => hfree ⟨h, hne⟩, hzeroed⟩
    · cases hw
  · cases hv

theorem sessionCanonical_law (proof proof' : Value) (v w : AuthorityValue) :
    (∀ (fields fields' : Fields) (bytes bytes' : List Byte),
      readSessionProofValues proof = some fields → readSessionProofValues proof' = some fields' →
      canonicalSessionProofBytes proof = some bytes → canonicalSessionProofBytes proof' = some bytes' →
      FitsFrame fields → FitsFrame fields' →
      ((bytes = bytes' ↔ boundFields fields = boundFields fields') ↔ ¬ ChallengeClash fields fields'))
    ∧ ∀ s t : JsString,
      sessionAuthorityCanonicalString v = some s → sessionAuthorityCanonicalString w = some t →
      ((s = t ↔ zeroed (Json.ordered v) = zeroed (Json.ordered w)) ↔ ¬ GapClash v w) :=
  ⟨canonicalSessionProofBytes_iff proof proof', sessionAuthorityCanonicalString_iff v w⟩

/-- A challenge with one text everywhere. -/
def challengeFields (text : JsString) : Fields :=
  sessionProofFields.map fun name =>
    (name, if name = "generation" ∨ name = "issuedAt" then .number (.integer 1) else .string text)

theorem readSessionProofValues_challenge (text : JsString) :
    readSessionProofValues (recordOf (challengeFields text)) = some (challengeFields text) := by
  have hkeys : (challengeFields text).map Prod.fst = sessionProofFields := by
    unfold challengeFields
    rw [List.map_map]
    exact List.map_id _
  have h := exactRecord_recordOf (challengeFields text) (by rw [hkeys]; decide)
  rwa [hkeys] at h

theorem sessionCanonical_law_challenge : (∃ bytes bytes',
    canonicalSessionProofBytes (recordOf (challengeFields (lit "a"))) = some bytes
      ∧ canonicalSessionProofBytes (recordOf (challengeFields (lit "b"))) = some bytes'
      ∧ (bytes = bytes' ↔ boundFields (challengeFields (lit "a")) = boundFields (challengeFields (lit "b"))))
    ∧ ∃ s t, sessionAuthorityCanonicalString (.array [.null]) = some s ∧ sessionAuthorityCanonicalString (.array []) = some t
      ∧ (s = t ↔ zeroed (Json.ordered (.array [.null])) = zeroed (Json.ordered (.array []))) := by
  obtain ⟨bytes, hbytes⟩ := Option.isSome_iff_exists.mp
    (show (canonicalSessionProofBytes (recordOf (challengeFields (lit "a")))).isSome = true by decide +kernel)
  obtain ⟨bytes', hbytes'⟩ := Option.isSome_iff_exists.mp
    (show (canonicalSessionProofBytes (recordOf (challengeFields (lit "b")))).isSome = true by decide +kernel)
  have hfits (text : JsString) (htext : (utf8 text).length < 2 ^ 32) : FitsFrame (challengeFields text) := by
    intro f hf s hs
    obtain ⟨name, -, rfl⟩ := List.mem_map.mp hf
    dsimp only at hs
    split at hs
    · cases hs
    · rw [← Value.string.inj hs]
      exact htext
  obtain ⟨hproofs, htexts⟩ := sessionCanonical_law (recordOf (challengeFields (lit "a"))) (recordOf (challengeFields (lit "b")))
    (.array [.null]) (.array [])
  refine ⟨⟨bytes, bytes', hbytes, hbytes', ?_⟩, ?_⟩
  · refine (hproofs _ _ _ _ (readSessionProofValues_challenge _) (readSessionProofValues_challenge _) hbytes hbytes'
      (hfits _ (by decide +kernel)) (hfits _ (by decide +kernel))).mpr fun hclash => ?_
    have hfirst := Value.string.inj (Prod.mk.inj (List.cons.inj hclash.1).1).2
    exact absurd hfirst (by decide)
  · obtain ⟨s, hs⟩ := Option.isSome_iff_exists.mp
      (show (sessionAuthorityCanonicalString (.array [.null])).isSome = true by decide +kernel)
    obtain ⟨t, ht⟩ := Option.isSome_iff_exists.mp
      (show (sessionAuthorityCanonicalString (.array [])).isSome = true by decide +kernel)
    exact ⟨s, t, hs, ht, (htexts s t hs ht).mpr fun hclash => by cases hclash.1⟩

theorem sessionCanonical_clash :
    (∃ bytes, canonicalSessionProofBytes (recordOf (challengeFields [0xD800])) = some bytes
      ∧ canonicalSessionProofBytes (recordOf (challengeFields [0xFFFD])) = some bytes
      ∧ boundFields (challengeFields [0xD800]) ≠ boundFields (challengeFields [0xFFFD]))
    ∧ ∃ v w : AuthorityValue, sessionAuthorityCanonicalString v = sessionAuthorityCanonicalString w
      ∧ (sessionAuthorityCanonicalString v).isSome = true ∧ zeroed (Json.ordered v) ≠ zeroed (Json.ordered w) := by
  constructor
  · obtain ⟨bytes, hbytes⟩ := Option.isSome_iff_exists.mp
      (show (canonicalSessionProofBytes (recordOf (challengeFields [0xD800]))).isSome = true by decide +kernel)
    have hsame : canonicalSessionProofBytes (recordOf (challengeFields [0xFFFD]))
      = canonicalSessionProofBytes (recordOf (challengeFields [0xD800])) := by decide +kernel
    refine ⟨bytes, hbytes, hsame.trans hbytes, fun h => ?_⟩
    have hfirst := Value.string.inj (Prod.mk.inj (List.cons.inj h).1).2
    exact absurd hfirst (by decide)
  · exact ⟨.array [.number .hole], .array [], by decide, by decide, fun h => by cases h⟩

end MoeNG.Session
