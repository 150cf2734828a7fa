import MoeNG.Kernel.Double
import MoeNG.Kernel.WellFormed
import MoeNG.Projections.Canonical

/-!
# What the digest of a projection state identifies (`packages/store/src/outbox-relay/outbox-relay-digests.ts:61-196`)

The walk hashes the state it reads and clones it. Strings are hashed as UTF-8,
so the preimage tells states apart as far as their well-formed versions differ.
-/

namespace MoeNG.Projections
open MoeNG.Kernel MoeNG.Lib

/-! ### The walk -/

/-- `foreign` is whatever the walk refuses: functions, symbols, instances, proxies that throw, cycles. -/
inductive StateScalar (F : Type) where
  | number (value : Double F)
  | bigint (value : ℤ)
  | foreign

abbrev StateValue (F : Type) := Json (StateScalar F)

section Walk
variable {F : Type} (numberText : F → JsString)

def encodeNumber : Double F → JsString
  | .nan => lit "NaN"
  | .infinity => lit "Infinity"
  | .negativeInfinity => lit "-Infinity"
  | .negativeZero => lit "-0"
  | .finite value => numberText value

def plainKey (key : JsString) : Option PlainKey := if h : key ≠ lit "__proto__" then some ⟨key, h⟩ else none

mutual

/-- The plain data that the walk reads. -/
def plainValue : StateValue F → Option PlainValue
  | .null => some .null
  | .boolean value => some (.boolean value)
  | .number (.number value) => some (.number (encodeNumber numberText value))
  | .number (.bigint value) => some (.bigint value)
  | .number .foreign => none
  | .string value => some (.string value)
  | .array items => (plainItems items).map .array
  | .object entries => (plainEntries entries).map .object

def plainItems : List (StateValue F) → Option (List PlainValue)
  | [] => some []
  | value :: rest => (plainValue value).bind fun first => (plainItems rest).map (first :: ·)

def plainEntries : List (JsString × StateValue F) → Option ProjectionState
  | [] => some []
  | (key, value) :: rest =>
    (plainKey key).bind fun name => (plainValue value).bind fun first => (plainEntries rest).map ((name, first) :: ·)

end

/-- A length of 2^64 bytes or more makes `writeBigUInt64BE` throw. -/
def frames (value : JsString) : Bool := (utf8 value).length < 2 ^ 64

mutual

def framesValue : PlainValue → Bool
  | .null => true
  | .boolean _ => true
  | .number text => frames text
  | .bigint value => frames (decimalInt value)
  | .string value => frames value
  | .array items => frames (decimal items.length) && framesItems items
  | .object entries => frames (decimal entries.length) && framesEntries entries

def framesItems : List PlainValue → Bool
  | [] => true
  | value :: rest => framesValue value && framesItems rest

def framesEntries : ProjectionState → Bool
  | [] => true
  | (key, value) :: rest => frames key.val && framesValue value && framesEntries rest

end

/-- The preimage of the digest, and the clone: its keys stand in order. -/
def canonicalProjectionState : StateValue F → Option (List Byte × StateValue F)
  | .object entries => do
    let state ← plainEntries numberText entries
    if framesValue (.object (canonicalState state)) then some (stateBytes state, Json.ordered (.object entries)) else none
  | _ => none

end Walk

/-! ### Frames -/

theorem bigEndian64_inj (m n : ℕ) (hm : m < 2 ^ 64) (hn : n < 2 ^ 64) (h : bigEndian64 m = bigEndian64 n) : m = n := by
  simp only [bigEndian64, List.map_cons, List.map_nil, List.cons.injEq, and_true] at h
  obtain ⟨h7, h6, h5, h4, h3, h2, h1, h0⟩ := h
  refine octets_inj 8 m n hm hn fun i hi => ?_
  interval_cases i
  · simpa using h0
  all_goals assumption

theorem frameText_iff (s t : JsString) (r q : List Byte) (hs : frames s = true) (ht : frames t = true) :
    frameText s ++ r = frameText t ++ q ↔ toWellFormed s = toWellFormed t ∧ r = q := by
  rw [← utf8_eq_iff_toWellFormed]
  refine ⟨fun h => ?_, fun ⟨htext, hrest⟩ => by rw [frameText, frameText, htext, hrest]⟩
  exact framed_inj bigEndian64 8 (2 ^ 64) (fun _ => rfl) bigEndian64_inj _ _ r q (of_decide_eq_true hs)
    (of_decide_eq_true ht) h

theorem frameText_inj (s t : JsString) (r q : List Byte) (hs : frames s = true) (ht : frames t = true)
    (hswell : wellFormed s = true) (htwell : wellFormed t = true) (h : frameText s ++ r = frameText t ++ q) :
    s = t ∧ r = q := by
  have hboth := (frameText_iff s t r q hs ht).mp h
  rwa [toWellFormed_of_wellFormed s hswell, toWellFormed_of_wellFormed t htwell] at hboth

/-! ### What the encoder sees -/

section Seen
variable {F : Type} {numberText : F → JsString}

mutual

/-- The value with every string and key made well formed. -/
def scrubbed : StateValue F → StateValue F
  | .string value => .string (toWellFormed value)
  | .array items => .array (scrubbedItems items)
  | .object entries => .object (scrubbedEntries entries)
  | value => value

def scrubbedItems : List (StateValue F) → List (StateValue F)
  | [] => []
  | value :: rest => scrubbed value :: scrubbedItems rest

def scrubbedEntries : List (JsString × StateValue F) → List (JsString × StateValue F)
  | [] => []
  | (key, value) :: rest => (toWellFormed key, scrubbed value) :: scrubbedEntries rest

end

def kindOf : StateValue F → Option ℕ
  | .null => some 0
  | .boolean false => some 1
  | .boolean true => some 2
  | .number (.number _) => some 3
  | .number (.bigint _) => some 4
  | .number .foreign => none
  | .string _ => some 5
  | .array _ => some 6
  | .object _ => some 7

theorem encodeValue_kind (v : StateValue F) (p : PlainValue) (h : plainValue numberText v = some p) :
    ∃ kind tail, kindOf v = some kind ∧ kind < 8 ∧ encodeValue p = octet kind :: tail := by
  cases v with
  | null =>
    obtain rfl := Option.some.inj h
    exact ⟨0, [], rfl, by decide, rfl⟩
  | boolean b =>
    obtain rfl := Option.some.inj h
    cases b with
    | false => exact ⟨1, [], rfl, by decide, rfl⟩
    | true => exact ⟨2, [], rfl, by decide, rfl⟩
  | number x =>
    cases x with
    | number x =>
      obtain rfl := Option.some.inj h
      exact ⟨3, _, rfl, by decide, rfl⟩
    | bigint z =>
      obtain rfl := Option.some.inj h
      exact ⟨4, _, rfl, by decide, rfl⟩
    | foreign => cases h
  | string s =>
    obtain rfl := Option.some.inj h
    exact ⟨5, _, rfl, by decide, rfl⟩
  | array items =>
    obtain ⟨ps, -, rfl⟩ := Option.map_eq_some_iff.mp h
    exact ⟨6, _, rfl, by decide, rfl⟩
  | object entries =>
    obtain ⟨ps, -, rfl⟩ := Option.map_eq_some_iff.mp h
    exact ⟨7, _, rfl, by decide, rfl⟩

theorem kindOf_eq (v w : StateValue F) (p q : PlainValue) (r s : List Byte) (hp : plainValue numberText v = some p)
    (hq : plainValue numberText w = some q) (h : encodeValue p ++ r = encodeValue q ++ s) : kindOf v = kindOf w := by
  obtain ⟨kind, tail, hv, hkind, hptext⟩ := encodeValue_kind v p hp
  obtain ⟨kind', tail', hw, hkind', hqtext⟩ := encodeValue_kind w q hq
  rw [hptext, hqtext] at h
  have hoctet := (octet_eq_iff kind kind').mp (List.cons.inj h).1
  rw [hv, hw, show kind = kind' by omega]

theorem plainItems_length (items : List (StateValue F)) (ps : List PlainValue) (h : plainItems numberText items = some ps) :
    ps.length = items.length := by
  induction items generalizing ps with
  | nil =>
    obtain rfl := Option.some.inj h
    rfl
  | cons v rest ih =>
    obtain ⟨p, -, h⟩ := Option.bind_eq_some_iff.mp h
    obtain ⟨ps', hps, rfl⟩ := Option.map_eq_some_iff.mp h
    rw [List.length_cons, List.length_cons, ih ps' hps]

theorem plainEntries_length (entries : List (JsString × StateValue F)) (ps : ProjectionState)
    (h : plainEntries numberText entries = some ps) : ps.length = entries.length := by
  induction entries generalizing ps with
  | nil =>
    obtain rfl := Option.some.inj h
    rfl
  | cons e rest ih =>
    obtain ⟨key, v⟩ := e
    obtain ⟨name, -, h⟩ := Option.bind_eq_some_iff.mp h
    obtain ⟨p, -, h⟩ := Option.bind_eq_some_iff.mp h
    obtain ⟨ps', hps, rfl⟩ := Option.map_eq_some_iff.mp h
    rw [List.length_cons, List.length_cons, ih ps' hps]

theorem plainKey_val (key : JsString) (name : PlainKey) (h : plainKey key = some name) : name.val = key := by
  unfold plainKey at h
  split at h
  · rw [← Option.some.inj h]
  · cases h

theorem encodeNumber_wellFormed (htext : NumberText numberText) (x : Double F) :
    wellFormed (encodeNumber numberText x) = true := by
  cases x with
  | finite value => exact htext.wellFormed value
  | _ => exact wellFormed_lit _ (by decide)

theorem encodeNumber_injective (htext : NumberText numberText) : Function.Injective (encodeNumber numberText) := by
  have hname (y : Double F) (a : F) (hy : ∀ b, y ≠ .finite b) : numberText a ≠ encodeNumber numberText y := by
    cases y with
    | finite b => exact absurd rfl (hy b)
    | negativeZero => exact htext.ne_negativeZero a
    | nan => exact htext.ne_of_not_lexeme a (lit "NaN") (by decide)
    | infinity => exact htext.ne_of_not_lexeme a (lit "Infinity") (by decide)
    | negativeInfinity => exact htext.ne_of_not_lexeme a (lit "-Infinity") (by decide)
  intro x y h
  cases x with
  | finite a =>
    cases y with
    | finite b => exact congrArg _ (htext.injective h)
    | _ => exact absurd h (hname _ a nofun)
  | _ =>
    cases y with
    | finite b => exact absurd h.symm (hname _ b nofun)
    | _ =>
      simp only [encodeNumber] at h
      first | rfl | exact absurd h (by decide)

theorem frameText_decimal (m n : ℕ) (r q : List Byte) (hm : frames (decimal m) = true) (hn : frames (decimal n) = true)
    (h : frameText (decimal m) ++ r = frameText (decimal n) ++ q) : m = n ∧ r = q := by
  have hwell (k : ℕ) : wellFormed (decimal k) = true := wellFormed_decimalInt k
  obtain ⟨htext, hrest⟩ := frameText_inj _ _ r q hm hn (hwell m) (hwell n) h
  exact ⟨decimal_injective htext, hrest⟩

mutual

/-- Encoded values, whatever follows them, tell what the encoder sees. -/
theorem encodeValue_inj (htext : NumberText numberText) : ∀ (v w : StateValue F) (p q : PlainValue) (r s : List Byte),
    plainValue numberText v = some p → plainValue numberText w = some q → framesValue p = true → framesValue q = true →
    encodeValue p ++ r = encodeValue q ++ s → scrubbed v = scrubbed w ∧ r = s
  | .null, w, p, q, r, s, hp, hq, _, _, h => by
    have hkind := kindOf_eq _ w p q r s hp hq h
    cases w with
    | null =>
      obtain rfl := Option.some.inj hp
      obtain rfl := Option.some.inj hq
      exact ⟨rfl, (List.cons.inj h).2⟩
    | boolean b => cases b <;> simp [kindOf] at hkind
    | number x => cases x <;> simp [kindOf] at hkind
    | _ => simp [kindOf] at hkind
  | .boolean b, w, p, q, r, s, hp, hq, _, _, h => by
    have hkind := kindOf_eq _ w p q r s hp hq h
    obtain rfl := Option.some.inj hp
    cases w with
    | boolean b' =>
      obtain rfl := Option.some.inj hq
      cases b <;> cases b' <;> first | exact ⟨rfl, (List.cons.inj h).2⟩ | simp [kindOf] at hkind
    | number x => cases b <;> cases x <;> simp [kindOf] at hkind
    | _ => cases b <;> simp [kindOf] at hkind
  | .number (.number x), w, p, q, r, s, hp, hq, hfp, hfq, h => by
    have hkind := kindOf_eq _ w p q r s hp hq h
    obtain rfl := Option.some.inj hp
    cases w with
    | number y =>
      cases y with
      | number y =>
        obtain rfl := Option.some.inj hq
        obtain ⟨hxy, hrest⟩ := frameText_inj _ _ r s hfp hfq (encodeNumber_wellFormed htext x)
          (encodeNumber_wellFormed htext y) (List.cons.inj h).2
        rw [encodeNumber_injective htext hxy]
        exact ⟨rfl, hrest⟩
      | _ => simp [kindOf] at hkind
    | boolean b => cases b <;> simp [kindOf] at hkind
    | _ => simp [kindOf] at hkind
  | .number (.bigint y), w, p, q, r, s, hp, hq, hfp, hfq, h => by
    have hkind := kindOf_eq _ w p q r s hp hq h
    obtain rfl := Option.some.inj hp
    cases w with
    | number z =>
      cases z with
      | bigint z =>
        obtain rfl := Option.some.inj hq
        obtain ⟨hyz, hrest⟩ := frameText_inj _ _ r s hfp hfq (wellFormed_decimalInt y) (wellFormed_decimalInt z)
          (List.cons.inj h).2
        rw [decimalInt_injective hyz]
        exact ⟨rfl, hrest⟩
      | _ => simp [kindOf] at hkind
    | boolean b => cases b <;> simp [kindOf] at hkind
    | _ => simp [kindOf] at hkind
  | .number .foreign, _, _, _, _, _, hp, _, _, _, _ => by cases hp
  | .string x, w, p, q, r, s, hp, hq, hfp, hfq, h => by
    have hkind := kindOf_eq _ w p q r s hp hq h
    obtain rfl := Option.some.inj hp
    cases w with
    | string y =>
      obtain rfl := Option.some.inj hq
      obtain ⟨hxy, hrest⟩ := (frameText_iff x y r s hfp hfq).mp (List.cons.inj h).2
      rw [scrubbed, scrubbed, hxy]
      exact ⟨rfl, hrest⟩
    | boolean b => cases b <;> simp [kindOf] at hkind
    | number y => cases y <;> simp [kindOf] at hkind
    | _ => simp [kindOf] at hkind
  | .array items, w, p, q, r, s, hp, hq, hfp, hfq, h => by
    have hkind := kindOf_eq _ w p q r s hp hq h
    obtain ⟨ps, hps, rfl⟩ := Option.map_eq_some_iff.mp hp
    cases w with
    | array items' =>
      obtain ⟨qs, hqs, rfl⟩ := Option.map_eq_some_iff.mp hq
      rw [framesValue, Bool.and_eq_true] at hfp hfq
      rw [encodeValue, encodeValue, List.cons_append, List.cons_append, List.append_assoc, List.append_assoc] at h
      have hbody := (List.cons.inj h).2
      obtain ⟨hlength, hbody⟩ := frameText_decimal _ _ _ _ hfp.1 hfq.1 hbody
      rw [plainItems_length _ _ hps, plainItems_length _ _ hqs] at hlength
      obtain ⟨hitems, hrest⟩ := encodeItems_inj htext items items' ps qs r s hps hqs hfp.2 hfq.2 hlength hbody
      rw [scrubbed, scrubbed, hitems]
      exact ⟨rfl, hrest⟩
    | boolean b => cases b <;> simp [kindOf] at hkind
    | number y => cases y <;> simp [kindOf] at hkind
    | _ => simp [kindOf] at hkind
  | .object entries, w, p, q, r, s, hp, hq, hfp, hfq, h => by
    have hkind := kindOf_eq _ w p q r s hp hq h
    obtain ⟨ps, hps, rfl⟩ := Option.map_eq_some_iff.mp hp
    cases w with
    | object entries' =>
      obtain ⟨qs, hqs, rfl⟩ := Option.map_eq_some_iff.mp hq
      rw [framesValue, Bool.and_eq_true] at hfp hfq
      rw [encodeValue, encodeValue, List.cons_append, List.cons_append, List.append_assoc, List.append_assoc] at h
      have hbody := (List.cons.inj h).2
      obtain ⟨hlength, hbody⟩ := frameText_decimal _ _ _ _ hfp.1 hfq.1 hbody
      rw [plainEntries_length _ _ hps, plainEntries_length _ _ hqs] at hlength
      obtain ⟨hentries, hrest⟩ := encodeEntries_inj htext entries entries' ps qs r s hps hqs hfp.2 hfq.2 hlength hbody
      rw [scrubbed, scrubbed, hentries]
      exact ⟨rfl, hrest⟩
    | boolean b => cases b <;> simp [kindOf] at hkind
    | number y => cases y <;> simp [kindOf] at hkind
    | _ => simp [kindOf] at hkind

theorem encodeItems_inj (htext : NumberText numberText) : ∀ (items items' : List (StateValue F)) (ps qs : List PlainValue)
    (r s : List Byte), plainItems numberText items = some ps → plainItems numberText items' = some qs →
    framesItems ps = true → framesItems qs = true → items.length = items'.length →
    encodeItems ps ++ r = encodeItems qs ++ s → scrubbedItems items = scrubbedItems items' ∧ r = s
  | [], [], ps, qs, r, s, hp, hq, _, _, _, h => by
    obtain rfl := Option.some.inj hp
    obtain rfl := Option.some.inj hq
    exact ⟨rfl, h⟩
  | [], _ :: _, _, _, _, _, _, _, _, _, hlength, _ => by cases hlength
  | _ :: _, [], _, _, _, _, _, _, _, _, hlength, _ => by cases hlength
  | v :: rest, w :: rest', ps, qs, r, s, hp, hq, hfp, hfq, hlength, h => by
    obtain ⟨p, hpv, hp⟩ := Option.bind_eq_some_iff.mp hp
    obtain ⟨ps, hps, rfl⟩ := Option.map_eq_some_iff.mp hp
    obtain ⟨q, hqv, hq⟩ := Option.bind_eq_some_iff.mp hq
    obtain ⟨qs, hqs, rfl⟩ := Option.map_eq_some_iff.mp hq
    rw [framesItems, Bool.and_eq_true] at hfp hfq
    rw [encodeItems, encodeItems, List.append_assoc, List.append_assoc] at h
    obtain ⟨hvalue, h⟩ := encodeValue_inj htext v w p q _ _ hpv hqv hfp.1 hfq.1 h
    obtain ⟨hitems, hrest⟩ := encodeItems_inj htext rest rest' ps qs r s hps hqs hfp.2 hfq.2 (Nat.succ.inj hlength) h
    rw [scrubbedItems, scrubbedItems, hvalue, hitems]
    exact ⟨rfl, hrest⟩

theorem encodeEntries_inj (htext : NumberText numberText) : ∀ (entries entries' : List (JsString × StateValue F))
    (ps qs : ProjectionState) (r s : List Byte), plainEntries numberText entries = some ps →
    plainEntries numberText entries' = some qs → framesEntries ps = true → framesEntries qs = true →
    entries.length = entries'.length → encodeEntries ps ++ r = encodeEntries qs ++ s →
    scrubbedEntries entries = scrubbedEntries entries' ∧ r = s
  | [], [], ps, qs, r, s, hp, hq, _, _, _, h => by
    obtain rfl := Option.some.inj hp
    obtain rfl := Option.some.inj hq
    exact ⟨rfl, h⟩
  | [], _ :: _, _, _, _, _, _, _, _, _, hlength, _ => by cases hlength
  | _ :: _, [], _, _, _, _, _, _, _, _, hlength, _ => by cases hlength
  | (key, v) :: rest, (key', w) :: rest', ps, qs, r, s, hp, hq, hfp, hfq, hlength, h => by
    obtain ⟨name, hname, hp⟩ := Option.bind_eq_some_iff.mp hp
    obtain ⟨p, hpv, hp⟩ := Option.bind_eq_some_iff.mp hp
    obtain ⟨ps, hps, rfl⟩ := Option.map_eq_some_iff.mp hp
    obtain ⟨name', hname', hq⟩ := Option.bind_eq_some_iff.mp hq
    obtain ⟨q, hqv, hq⟩ := Option.bind_eq_some_iff.mp hq
    obtain ⟨qs, hqs, rfl⟩ := Option.map_eq_some_iff.mp hq
    rw [framesEntries, Bool.and_eq_true, Bool.and_eq_true] at hfp hfq
    rw [encodeEntries, encodeEntries] at h
    simp only [List.append_assoc] at h
    obtain ⟨hkey, h⟩ := (frameText_iff _ _ _ _ hfp.1.1 hfq.1.1).mp h
    rw [plainKey_val key name hname, plainKey_val key' name' hname'] at hkey
    obtain ⟨hvalue, h⟩ := encodeValue_inj htext v w p q _ _ hpv hqv hfp.1.2 hfq.1.2 h
    obtain ⟨hentries, hrest⟩ := encodeEntries_inj htext rest rest' ps qs r s hps hqs hfp.2 hfq.2 (Nat.succ.inj hlength) h
    rw [scrubbedEntries, scrubbedEntries, hkey, hvalue, hentries]
    exact ⟨rfl, hrest⟩

end

theorem frameText_congr (s t : JsString) (h : toWellFormed s = toWellFormed t) : frameText s = frameText t := by
  rw [frameText, frameText, (utf8_eq_iff_toWellFormed s t).mpr h]

mutual

/-- The encoder sees no more than that. -/
theorem encodeValue_congr : ∀ (v w : StateValue F) (p q : PlainValue), plainValue numberText v = some p →
    plainValue numberText w = some q → scrubbed v = scrubbed w → encodeValue p = encodeValue q
  | .null, w, p, q, hp, hq, h => by
    cases w with
    | null => rw [Option.some.inj (hp.symm.trans hq)]
    | _ => cases h
  | .boolean b, w, p, q, hp, hq, h => by
    cases w with
    | boolean b' =>
      obtain rfl := Json.boolean.inj h
      rw [Option.some.inj (hp.symm.trans hq)]
    | _ => cases h
  | .number x, w, p, q, hp, hq, h => by
    cases w with
    | number y =>
      obtain rfl := Json.number.inj h
      rw [Option.some.inj (hp.symm.trans hq)]
    | _ => cases h
  | .string x, w, p, q, hp, hq, h => by
    obtain rfl := Option.some.inj hp
    cases w with
    | string y =>
      obtain rfl := Option.some.inj hq
      rw [encodeValue, encodeValue, frameText_congr x y (Json.string.inj h)]
    | _ => cases h
  | .array items, w, p, q, hp, hq, h => by
    obtain ⟨ps, hps, rfl⟩ := Option.map_eq_some_iff.mp hp
    cases w with
    | array items' =>
      obtain ⟨qs, hqs, rfl⟩ := Option.map_eq_some_iff.mp hq
      obtain ⟨hlength, hitems⟩ := encodeItems_congr items items' ps qs hps hqs (Json.array.inj h)
      rw [encodeValue, encodeValue, hlength, hitems]
    | _ => cases h
  | .object entries, w, p, q, hp, hq, h => by
    obtain ⟨ps, hps, rfl⟩ := Option.map_eq_some_iff.mp hp
    cases w with
    | object entries' =>
      obtain ⟨qs, hqs, rfl⟩ := Option.map_eq_some_iff.mp hq
      obtain ⟨hlength, hentries⟩ := encodeEntries_congr entries entries' ps qs hps hqs (Json.object.inj h)
      rw [encodeValue, encodeValue, hlength, hentries]
    | _ => cases h

theorem encodeItems_congr : ∀ (items items' : List (StateValue F)) (ps qs : List PlainValue),
    plainItems numberText items = some ps → plainItems numberText items' = some qs →
    scrubbedItems items = scrubbedItems items' → ps.length = qs.length ∧ encodeItems ps = encodeItems qs
  | [], [], ps, qs, hp, hq, _ => by
    obtain rfl := Option.some.inj (hp.symm.trans hq)
    exact ⟨rfl, rfl⟩
  | [], _ :: _, _, _, _, _, h => by cases h
  | _ :: _, [], _, _, _, _, h => by cases h
  | v :: rest, w :: rest', ps, qs, hp, hq, h => by
    obtain ⟨p, hpv, hp⟩ := Option.bind_eq_some_iff.mp hp
    obtain ⟨ps, hps, rfl⟩ := Option.map_eq_some_iff.mp hp
    obtain ⟨q, hqv, hq⟩ := Option.bind_eq_some_iff.mp hq
    obtain ⟨qs, hqs, rfl⟩ := Option.map_eq_some_iff.mp hq
    obtain ⟨hvalue, hitems⟩ := List.cons.inj h
    obtain ⟨hlength, hbytes⟩ := encodeItems_congr rest rest' ps qs hps hqs hitems
    rw [List.length_cons, List.length_cons, hlength, encodeItems, encodeItems,
      encodeValue_congr v w p q hpv hqv hvalue, hbytes]
    exact ⟨rfl, rfl⟩

theorem encodeEntries_congr : ∀ (entries entries' : List (JsString × StateValue F)) (ps qs : ProjectionState),
    plainEntries numberText entries = some ps → plainEntries numberText entries' = some qs →
    scrubbedEntries entries = scrubbedEntries entries' → ps.length = qs.length ∧ encodeEntries ps = encodeEntries qs
  | [], [], ps, qs, hp, hq, _ => by
    obtain rfl := Option.some.inj (hp.symm.trans hq)
    exact ⟨rfl, rfl⟩
  | [], _ :: _, _, _, _, _, h => by cases h
  | _ :: _, [], _, _, _, _, h => by cases h
  | (key, v) :: rest, (key', w) :: rest', ps, qs, hp, hq, h => by
    obtain ⟨name, hname, hp⟩ := Option.bind_eq_some_iff.mp hp
    obtain ⟨p, hpv, hp⟩ := Option.bind_eq_some_iff.mp hp
    obtain ⟨ps, hps, rfl⟩ := Option.map_eq_some_iff.mp hp
    obtain ⟨name', hname', hq⟩ := Option.bind_eq_some_iff.mp hq
    obtain ⟨q, hqv, hq⟩ := Option.bind_eq_some_iff.mp hq
    obtain ⟨qs, hqs, rfl⟩ := Option.map_eq_some_iff.mp hq
    obtain ⟨hentry, hentries⟩ := List.cons.inj h
    obtain ⟨hkey, hvalue⟩ := Prod.mk.inj hentry
    rw [← plainKey_val key name hname, ← plainKey_val key' name' hname'] at hkey
    obtain ⟨hlength, hbytes⟩ := encodeEntries_congr rest rest' ps qs hps hqs hentries
    rw [List.length_cons, List.length_cons, hlength, encodeEntries, encodeEntries, frameText_congr _ _ hkey,
      encodeValue_congr v w p q hpv hqv hvalue, hbytes]
    exact ⟨rfl, rfl⟩

end

/-! ### The order of keys -/

theorem plainEntries_insert (key : JsString) (v : StateValue F) (name : PlainKey) (p : PlainValue)
    (hname : plainKey key = some name) (hp : plainValue numberText v = some p) :
    ∀ (entries : List (JsString × StateValue F)) (ps : ProjectionState), plainEntries numberText entries = some ps →
    plainEntries numberText (entries.orderedInsert (fun a b => a.1 ≤ b.1) (key, v))
      = some (ps.orderedInsert (fun a b => a.1.val ≤ b.1.val) (name, p))
  | [], ps, hps => by
    obtain rfl := Option.some.inj hps
    simp [plainEntries, hname, hp]
  | (key', w) :: rest, ps, hps => by
    have hall := hps
    obtain ⟨name', hname', hps⟩ := Option.bind_eq_some_iff.mp hps
    obtain ⟨q, hq, hps⟩ := Option.bind_eq_some_iff.mp hps
    obtain ⟨qs, hqs, rfl⟩ := Option.map_eq_some_iff.mp hps
    have hrest := plainEntries_insert key v name p hname hp rest qs hqs
    rw [List.orderedInsert_cons, List.orderedInsert_cons, plainKey_val key name hname, plainKey_val key' name' hname']
    split
    · rw [plainEntries, hname, hp, hall]
      rfl
    · rw [plainEntries, hname', hq, hrest]
      rfl

theorem plainEntries_sort (entries : List (JsString × StateValue F)) (ps : ProjectionState)
    (h : plainEntries numberText entries = some ps) :
    plainEntries numberText (sortByKey entries) = some (sortEntries ps) := by
  induction entries generalizing ps with
  | nil =>
    obtain rfl := Option.some.inj h
    rfl
  | cons e rest ih =>
    obtain ⟨key, v⟩ := e
    obtain ⟨name, hname, h⟩ := Option.bind_eq_some_iff.mp h
    obtain ⟨p, hp, h⟩ := Option.bind_eq_some_iff.mp h
    obtain ⟨ps', hps, rfl⟩ := Option.map_eq_some_iff.mp h
    exact plainEntries_insert key v name p hname hp _ _ (ih ps' hps)

mutual

theorem plainValue_ordered : ∀ (v : StateValue F) (p : PlainValue), plainValue numberText v = some p →
    plainValue numberText (Json.ordered v) = some (canonicalValue p)
  | .null, p, h => by
    obtain rfl := Option.some.inj h
    rfl
  | .boolean b, p, h => by
    obtain rfl := Option.some.inj h
    rfl
  | .number (.number x), p, h => by
    obtain rfl := Option.some.inj h
    rfl
  | .number (.bigint x), p, h => by
    obtain rfl := Option.some.inj h
    rfl
  | .number .foreign, p, h => by cases h
  | .string x, p, h => by
    obtain rfl := Option.some.inj h
    rfl
  | .array items, p, h => by
    obtain ⟨ps, hps, rfl⟩ := Option.map_eq_some_iff.mp h
    rw [Json.ordered, plainValue, plainItems_ordered items ps hps, canonicalValue]
    rfl
  | .object entries, p, h => by
    obtain ⟨ps, hps, rfl⟩ := Option.map_eq_some_iff.mp h
    rw [Json.ordered, plainValue, plainEntries_sort _ _ (plainEntries_ordered entries ps hps), canonicalValue]
    rfl

theorem plainItems_ordered : ∀ (items : List (StateValue F)) (ps : List PlainValue), plainItems numberText items = some ps →
    plainItems numberText (Json.orderedItems items) = some (canonicalItems ps)
  | [], ps, h => by
    obtain rfl := Option.some.inj h
    rfl
  | v :: rest, ps, h => by
    obtain ⟨p, hp, h⟩ := Option.bind_eq_some_iff.mp h
    obtain ⟨ps, hps, rfl⟩ := Option.map_eq_some_iff.mp h
    rw [Json.orderedItems, plainItems, plainValue_ordered v p hp, plainItems_ordered rest ps hps]
    rfl

theorem plainEntries_ordered : ∀ (entries : List (JsString × StateValue F)) (ps : ProjectionState),
    plainEntries numberText entries = some ps →
    plainEntries numberText (Json.orderedEntries entries) = some (canonicalEntries ps)
  | [], ps, h => by
    obtain rfl := Option.some.inj h
    rfl
  | (key, v) :: rest, ps, h => by
    obtain ⟨name, hname, h⟩ := Option.bind_eq_some_iff.mp h
    obtain ⟨p, hp, h⟩ := Option.bind_eq_some_iff.mp h
    obtain ⟨ps, hps, rfl⟩ := Option.map_eq_some_iff.mp h
    rw [Json.orderedEntries, plainEntries, hname, plainValue_ordered v p hp, plainEntries_ordered rest ps hps]
    rfl

end

/-! ### What the preimage identifies -/

theorem scrubbedEntries_eq (entries : List (JsString × StateValue F)) :
    scrubbedEntries entries = entries.map fun e => (toWellFormed e.1, scrubbed e.2) := by
  induction entries with
  | nil => rfl
  | cons e rest ih =>
    obtain ⟨key, v⟩ := e
    rw [scrubbedEntries, ih, List.map_cons]

mutual

theorem scrubbed_ordered : ∀ v : StateValue F, scrubbed v = v → scrubbed (Json.ordered v) = Json.ordered v
  | .null, h => h
  | .boolean _, h => h
  | .number _, h => h
  | .string _, h => h
  | .array items, h => by
    rw [Json.ordered, scrubbed, scrubbedItems_ordered items (Json.array.inj h)]
  | .object entries, h => by
    rw [Json.ordered, scrubbed, scrubbedEntries_eq]
    refine congrArg _ (map_eq_self _ _ fun e he => ?_)
    exact scrubbedEntries_ordered entries (Json.object.inj h) e ((List.mem_insertionSort _).mp he)

theorem scrubbedItems_ordered : ∀ items : List (StateValue F), scrubbedItems items = items →
    scrubbedItems (Json.orderedItems items) = Json.orderedItems items
  | [], _ => rfl
  | v :: rest, h => by
    obtain ⟨hvalue, hrest⟩ := List.cons.inj h
    rw [Json.orderedItems, scrubbedItems, scrubbed_ordered v hvalue, scrubbedItems_ordered rest hrest]

theorem scrubbedEntries_ordered : ∀ entries : List (JsString × StateValue F), scrubbedEntries entries = entries →
    ∀ e ∈ Json.orderedEntries entries, (toWellFormed e.1, scrubbed e.2) = e
  | [], _, _, he => by cases he
  | (key, v) :: rest, h, e, he => by
    obtain ⟨hentry, hrest⟩ := List.cons.inj h
    obtain ⟨hkey, hvalue⟩ := Prod.mk.inj hentry
    rw [Json.orderedEntries] at he
    obtain rfl | he := List.mem_cons.mp he
    · rw [hkey, scrubbed_ordered v hvalue]
    · exact scrubbedEntries_ordered rest hrest e he

end

/-- States that differ, but only by surrogates that stand alone and what UTF-8 makes of them. -/
def SurrogateClash (v w : StateValue F) : Prop :=
  scrubbed (Json.ordered v) = scrubbed (Json.ordered w) ∧ Json.ordered v ≠ Json.ordered w

theorem canonicalProjectionState_some (v s : StateValue F) (bytes : List Byte)
    (h : canonicalProjectionState numberText v = some (bytes, s)) :
    ∃ state, plainValue numberText v = some (.object state) ∧ framesValue (.object (canonicalState state)) = true
      ∧ bytes = stateBytes state ∧ s = Json.ordered v
      ∧ plainValue numberText (Json.ordered v) = some (.object (canonicalState state)) := by
  cases v with
  | object entries =>
    obtain ⟨state, hstate, h⟩ := Option.bind_eq_some_iff.mp h
    have hplain : plainValue numberText (.object entries) = some (.object state) := by rw [plainValue, hstate, Option.map_some]
    split at h
    · rename_i hframes
      obtain ⟨rfl, rfl⟩ := Prod.mk.inj (Option.some.inj h)
      exact ⟨state, hplain, hframes, rfl, rfl, plainValue_ordered _ _ hplain⟩
    · cases h
  | _ => cases h

theorem canonicalProjectionState_bytes (htext : NumberText numberText) (v w s t : StateValue F) (bytes bytes' : List Byte)
    (hv : canonicalProjectionState numberText v = some (bytes, s))
    (hw : canonicalProjectionState numberText w = some (bytes', t)) :
    bytes = bytes' ↔ scrubbed (Json.ordered v) = scrubbed (Json.ordered w) := by
  obtain ⟨state, -, hframes, rfl, -, hplain⟩ := canonicalProjectionState_some v s bytes hv
  obtain ⟨state', -, hframes', rfl, -, hplain'⟩ := canonicalProjectionState_some w t bytes' hw
  constructor
  · intro h
    have hvalue := List.append_cancel_left h
    exact (encodeValue_inj htext _ _ _ _ [] [] hplain hplain' hframes hframes' (congrArg (· ++ []) hvalue)).1
  · intro h
    unfold stateBytes
    rw [encodeValue_congr _ _ _ _ hplain hplain' h]

/-- The clone is canonical already. -/
theorem canonicalProjectionState_idem (v s : StateValue F) (bytes : List Byte)
    (h : canonicalProjectionState numberText v = some (bytes, s)) :
    canonicalProjectionState numberText s = some (bytes, s) := by
  obtain ⟨state, -, hframes, rfl, rfl, hplain⟩ := canonicalProjectionState_some v s bytes h
  have hidem := Json.ordered_idem v
  cases hv : Json.ordered v with
  | object entries =>
    rw [hv] at hplain hidem
    obtain ⟨state', hstate', heq⟩ := Option.map_eq_some_iff.mp hplain
    obtain rfl := PlainValue.object.inj heq
    refine Option.bind_eq_some_iff.mpr ⟨_, hstate', ?_⟩
    rw [canonicalState_idem, if_pos hframes, stateBytes, canonicalState_idem, hidem]
    rfl
  | number x =>
    rw [hv] at hplain
    cases x <;> cases hplain
  | array items =>
    rw [hv] at hplain
    obtain ⟨_, _, heq⟩ := Option.map_eq_some_iff.mp hplain
    cases heq
  | _ =>
    rw [hv] at hplain
    cases hplain

structure StateIdentified (numberText : F → JsString) (v w s : StateValue F) (bytes bytes' : List Byte) : Prop where
  preimage : bytes = bytes' ↔ Json.ordered v = Json.ordered w
  clone : canonicalProjectionState numberText s = some (bytes, s)

theorem canonicalProjectionState_law (htext : NumberText numberText) (v w s t : StateValue F) (bytes bytes' : List Byte)
    (hv : canonicalProjectionState numberText v = some (bytes, s))
    (hw : canonicalProjectionState numberText w = some (bytes', t)) :
    (StateIdentified numberText v w s bytes bytes' ↔ ¬ SurrogateClash v w)
      ∧ (scrubbed v = v → scrubbed w = w → ¬ SurrogateClash v w) := by
  have hbytes := canonicalProjectionState_bytes htext v w s t bytes bytes' hv hw
  refine ⟨⟨fun hlaw hclash => hclash.2 (hlaw.preimage.mp (hbytes.mpr hclash.1)), fun hfree => ?_⟩, ?_⟩
  · refine ⟨⟨fun h => not_not.mp fun hne => hfree ⟨hbytes.mp h, hne⟩, fun h => hbytes.mpr (congrArg _ h)⟩, ?_⟩
    exact canonicalProjectionState_idem v s bytes hv
  · rintro hv hw ⟨hsame, hne⟩
    rw [scrubbed_ordered v hv, scrubbed_ordered w hw] at hsame
    exact hne hsame

end Seen

/-- A state of one field. -/
def stateOf (value : StateValue ℤ) : StateValue ℤ := .object [(lit "a", value)]

theorem canonicalProjectionState_one (value : StateValue ℤ) (p : PlainValue) (hp : plainValue decimalInt value = some p)
    (hframes : framesValue (.object (canonicalState [(⟨lit "a", by decide⟩, p)])) = true) :
    canonicalProjectionState decimalInt (stateOf value)
      = some (stateBytes [(⟨lit "a", by decide⟩, p)], Json.ordered (stateOf value)) := by
  have hkey : plainKey (lit "a") = some ⟨lit "a", by decide⟩ := by decide
  refine Option.bind_eq_some_iff.mpr ⟨[(⟨lit "a", by decide⟩, p)], ?_, if_pos hframes⟩
  rw [plainEntries, plainEntries, hkey, hp]
  rfl

theorem scrubbed_stateOf (value : StateValue ℤ) (h : scrubbed value = value) : scrubbed (stateOf value) = stateOf value := by
  have hkey : toWellFormed (lit "a") = lit "a" := by decide
  rw [stateOf, scrubbed, scrubbedEntries, scrubbedEntries, hkey, h]

theorem canonicalProjectionState_law_zero : ∃ bytes bytes' s t,
    canonicalProjectionState decimalInt (stateOf (.number (.number .negativeZero))) = some (bytes, s)
      ∧ canonicalProjectionState decimalInt (stateOf (.number (.number (.finite 0)))) = some (bytes', t)
      ∧ StateIdentified decimalInt (stateOf (.number (.number .negativeZero))) (stateOf (.number (.number (.finite 0)))) s
        bytes bytes' :=
  have hv := canonicalProjectionState_one (.number (.number .negativeZero)) _ rfl (by decide +kernel)
  have hw := canonicalProjectionState_one (.number (.number (.finite 0))) _ rfl (by decide +kernel)
  have hlaw := canonicalProjectionState_law numberText_decimalInt _ _ _ _ _ _ hv hw
  ⟨_, _, _, _, hv, hw, hlaw.1.mpr (hlaw.2 (scrubbed_stateOf _ rfl) (scrubbed_stateOf _ rfl))⟩

theorem canonicalProjectionState_clash : ∃ (v w s t : StateValue ℤ) (bytes : List Byte),
    canonicalProjectionState decimalInt v = some (bytes, s) ∧ canonicalProjectionState decimalInt w = some (bytes, t)
      ∧ Json.ordered v ≠ Json.ordered w := by
  have hv := canonicalProjectionState_one (.string [0xD800]) _ rfl (by decide +kernel)
  have hw := canonicalProjectionState_one (.string [0xFFFD]) _ rfl (by decide +kernel)
  have hbytes : stateBytes [(⟨lit "a", by decide⟩, .string [0xFFFD])]
    = stateBytes [(⟨lit "a", by decide⟩, .string [0xD800])] := by
    decide +kernel
  refine ⟨stateOf (.string [0xD800]), stateOf (.string [0xFFFD]), _, _, _, hv, hbytes ▸ hw, fun h => ?_⟩
  have hentries : [(lit "a", Json.string (N := StateScalar ℤ) [0xD800])] = [(lit "a", .string [0xFFFD])] := Json.object.inj h
  have hstring := Json.string.inj (Prod.mk.inj (List.cons.inj hentries).1).2
  exact absurd hstring (by decide)

end MoeNG.Projections
