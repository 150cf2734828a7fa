import MoeNG.Kernel.Double
import MoeNG.Kernel.Utf8

/-!
# Canonical context text (`packages/context/src/canonical-digest.ts`)

`sha256` is the hexadecimal digest of a byte string.
-/

namespace MoeNG.Context
open MoeNG.Kernel

abbrev ContextValue (F : Type) := Json (Double F)

/-! ### Order (`canonical-digest.ts:3-7`) -/

def compareCodeUnits (left right : JsString) : ℤ := if left < right then -1 else if right < left then 1 else 0

section Encode
variable {F : Type} (numberText : F → JsString)

def encodeNumber : Double F → JsString
  | .negativeZero => lit "\x7b\"$number\":\"-0\"\x7d"
  | .nan => lit "\x7b\"$number\":\"NaN\"\x7d"
  | .infinity => lit "\x7b\"$number\":\"Infinity\"\x7d"
  | .negativeInfinity => lit "\x7b\"$number\":\"-Infinity\"\x7d"
  | .finite value => numberText value

mutual

def encodeCanonical : ContextValue F → JsString
  | .null => lit "null"
  | .string value => jsonText value
  | .boolean value => if value then lit "true" else lit "false"
  | .number value => encodeNumber numberText value
  | .array items => jsonArray (encodeItems items)
  | .object entries => Json.printObject (sortByKey (encodeEntries entries))

def encodeItems : List (ContextValue F) → List JsString
  | [] => []
  | value :: rest => encodeCanonical value :: encodeItems rest

def encodeEntries : List (JsString × ContextValue F) → List (JsString × JsString)
  | [] => []
  | (key, value) :: rest => (key, encodeCanonical value) :: encodeEntries rest

end

def canonicalSha256 (sha256 : List Byte → JsString) (value : ContextValue F) : JsString :=
  sha256 (utf8 (encodeCanonical numberText value))

variable {numberText}

theorem encodeNumber_injective (h : NumberText numberText) : Function.Injective (encodeNumber numberText) := by
  intro x y hxy
  cases x with
  | finite a =>
    cases y with
    | finite b => exact congrArg _ (h.injective hxy)
    | _ => exact absurd hxy (h.ne_brace a _)
  | _ =>
    cases y with
    | finite b => exact absurd hxy.symm (h.ne_brace b _)
    | _ =>
      simp only [encodeNumber] at hxy
      first | rfl | exact absurd hxy (by decide)

end Encode

/-- An object literal. -/
def record {F : Type} (entries : List (String × ContextValue F)) : ContextValue F :=
  .object (entries.map fun e => (lit e.1, e.2))

def word {F : Type} (s : String) : ContextValue F := .string (lit s)

end MoeNG.Context

/-!
## What canonical context text identifies

The text of a special number is the text of the object that spells it out, so
two values have one text when they agree once every special number is replaced
by that object. Only then.
-/

namespace MoeNG.Context
open MoeNG.Kernel

section Escape
variable {F : Type}

def escapeObject {N : Type} (name : String) : Json N := .object [(lit "$number", .string (lit name))]

def escapedNumber : Double F → Json F
  | .negativeZero => escapeObject "-0"
  | .nan => escapeObject "NaN"
  | .infinity => escapeObject "Infinity"
  | .negativeInfinity => escapeObject "-Infinity"
  | .finite value => .number value

mutual

/-- The value with every special number spelled out. -/
def escaped : ContextValue F → Json F
  | .null => .null
  | .boolean value => .boolean value
  | .number value => escapedNumber value
  | .string value => .string value
  | .array items => .array (escapedItems items)
  | .object entries => .object (escapedEntries entries)

def escapedItems : List (ContextValue F) → List (Json F)
  | [] => []
  | value :: rest => escaped value :: escapedItems rest

def escapedEntries : List (JsString × ContextValue F) → List (JsString × Json F)
  | [] => []
  | (key, value) :: rest => (key, escaped value) :: escapedEntries rest

end

theorem escapedEntries_eq (entries : List (JsString × ContextValue F)) :
    escapedEntries entries = entries.map fun e => (e.1, escaped e.2) := by
  induction entries with
  | nil => rfl
  | cons e rest ih =>
    obtain ⟨key, value⟩ := e
    rw [escapedEntries, ih, List.map_cons]

theorem ordered_escapedNumber (x : Double F) : Json.ordered (escapedNumber x) = escapedNumber x := by
  cases x <;> rfl

mutual

theorem ordered_escaped : ∀ v : ContextValue F, Json.ordered (escaped v) = escaped (Json.ordered v)
  | .null => rfl
  | .boolean _ => rfl
  | .number x => ordered_escapedNumber x
  | .string _ => rfl
  | .array items => by
    rw [escaped, Json.ordered, Json.ordered, escaped, ordered_escapedItems items]
  | .object entries => by
    rw [escaped, Json.ordered, Json.ordered, escaped, ordered_escapedEntries entries, escapedEntries_eq, escapedEntries_eq,
      sortByKey_map escaped]

theorem ordered_escapedItems : ∀ items : List (ContextValue F),
    Json.orderedItems (escapedItems items) = escapedItems (Json.orderedItems items)
  | [] => rfl
  | v :: rest => by
    rw [escapedItems, Json.orderedItems, Json.orderedItems, escapedItems, ordered_escaped v, ordered_escapedItems rest]

theorem ordered_escapedEntries : ∀ entries : List (JsString × ContextValue F),
    Json.orderedEntries (escapedEntries entries) = escapedEntries (Json.orderedEntries entries)
  | [] => rfl
  | (key, v) :: rest => by
    rw [escapedEntries, Json.orderedEntries, Json.orderedEntries, escapedEntries, ordered_escaped v,
      ordered_escapedEntries rest]

end

/-! ### The text -/

variable (numberText : F → JsString)

theorem print_escapedNumber (x : Double F) : Json.print numberText (escapedNumber x) = encodeNumber numberText x := by
  cases x <;> rfl

mutual

theorem encodeCanonical_eq : ∀ v : ContextValue F,
    encodeCanonical numberText v = Json.print numberText (Json.ordered (escaped v))
  | .null => rfl
  | .boolean _ => rfl
  | .number x => by rw [escaped, ordered_escapedNumber, print_escapedNumber, encodeCanonical]
  | .string _ => rfl
  | .array items => by rw [encodeCanonical, escaped, Json.ordered, Json.print, encodeItems_eq items]
  | .object entries => by
    rw [encodeCanonical, escaped, Json.ordered, Json.print, encodeEntries_eq entries, Json.printEntries_eq,
      Json.printEntries_eq, sortByKey_map (Json.print numberText)]

theorem encodeItems_eq : ∀ items : List (ContextValue F),
    encodeItems numberText items = Json.printItems numberText (Json.orderedItems (escapedItems items))
  | [] => rfl
  | v :: rest => by
    rw [encodeItems, escapedItems, Json.orderedItems, Json.printItems, encodeCanonical_eq v, encodeItems_eq rest]

theorem encodeEntries_eq : ∀ entries : List (JsString × ContextValue F),
    encodeEntries numberText entries = Json.printEntries numberText (Json.orderedEntries (escapedEntries entries))
  | [] => rfl
  | (key, v) :: rest => by
    rw [encodeEntries, escapedEntries, Json.orderedEntries, Json.printEntries, encodeCanonical_eq v, encodeEntries_eq rest]

end

variable {numberText}

theorem encodeCanonical_iff (h : NumberText numberText) (v w : ContextValue F) :
    encodeCanonical numberText v = encodeCanonical numberText w ↔ Json.ordered (escaped v) = Json.ordered (escaped w) := by
  rw [encodeCanonical_eq, encodeCanonical_eq]
  exact (Json.print_injective h.reads).eq_iff

/-! ### Values without an object that spells a special number out -/

def specialNames : List JsString := [lit "-0", lit "NaN", lit "Infinity", lit "-Infinity"]

def isEscape : List (JsString × ContextValue F) → Bool
  | [(key, .string name)] => key = lit "$number" && specialNames.contains name
  | _ => false

mutual

def escapeFree : ContextValue F → Bool
  | .array items => escapeFreeItems items
  | .object entries => ! isEscape entries && escapeFreeEntries entries
  | _ => true

def escapeFreeItems : List (ContextValue F) → Bool
  | [] => true
  | value :: rest => escapeFree value && escapeFreeItems rest

def escapeFreeEntries : List (JsString × ContextValue F) → Bool
  | [] => true
  | (_, value) :: rest => escapeFree value && escapeFreeEntries rest

end

theorem escapeFreeEntries_iff (entries : List (JsString × ContextValue F)) :
    escapeFreeEntries entries = true ↔ ∀ e ∈ entries, escapeFree e.2 = true := by
  induction entries with
  | nil => simp [escapeFreeEntries]
  | cons e rest ih => simp [escapeFreeEntries, ih]

theorem isEscape_escapedEntries (entries : List (JsString × ContextValue F)) (name : String) (hname : lit name ∈ specialNames)
    (h : escapedEntries entries = [(lit "$number", .string (lit name))]) : isEscape entries = true := by
  cases entries with
  | nil => cases h
  | cons e rest =>
    obtain ⟨key, v⟩ := e
    cases rest with
    | cons e' rest =>
      obtain ⟨key', v'⟩ := e'
      cases (List.cons.inj h).2
    | nil =>
      obtain ⟨hkey, hv⟩ := Prod.mk.inj (List.cons.inj h).1
      cases v with
      | string s =>
        obtain rfl := Json.string.inj hv
        subst hkey
        simp [isEscape, hname]
      | number x => cases x <;> cases hv
      | _ => cases hv

theorem escapedNumber_object (x : Double F) (entries : List (JsString × ContextValue F)) (hfree : isEscape entries = false)
    (h : escapedNumber x = .object (escapedEntries entries)) : False := by
  have hnot (name : String) (hname : lit name ∈ specialNames)
      (heq : escapedEntries entries = [(lit "$number", .string (lit name))]) : False := by
    rw [isEscape_escapedEntries entries name hname heq] at hfree
    cases hfree
  cases x with
  | finite value => cases h
  | nan => exact hnot "NaN" (by decide) (Json.object.inj h).symm
  | negativeZero => exact hnot "-0" (by decide) (Json.object.inj h).symm
  | infinity => exact hnot "Infinity" (by decide) (Json.object.inj h).symm
  | negativeInfinity => exact hnot "-Infinity" (by decide) (Json.object.inj h).symm

theorem escapedNumber_injective : Function.Injective (escapedNumber (F := F)) := by
  have hname (s t : String) (h : escapeObject (N := F) s = escapeObject t) : lit s = lit t :=
    Json.string.inj (Prod.mk.inj (List.cons.inj (Json.object.inj h)).1).2
  intro x y h
  cases x with
  | finite a =>
    cases y with
    | finite b => exact congrArg _ (Json.number.inj h)
    | _ => cases h
  | _ =>
    cases y with
    | finite b => cases h
    | _ => first | rfl | exact absurd (hname _ _ h) (by decide)

mutual

theorem escaped_inj : ∀ v w : ContextValue F, escapeFree v = true → escapeFree w = true → escaped v = escaped w → v = w
  | .null, w, _, _, h => by
    cases w with
    | null => rfl
    | number x => cases x <;> cases h
    | _ => cases h
  | .boolean b, w, _, _, h => by
    cases w with
    | boolean b' => exact congrArg _ (Json.boolean.inj h)
    | number x => cases x <;> cases h
    | _ => cases h
  | .string s, w, _, _, h => by
    cases w with
    | string s' => exact congrArg _ (Json.string.inj h)
    | number x => cases x <;> cases h
    | _ => cases h
  | .number x, w, _, hw, h => by
    cases w with
    | number y => exact congrArg _ (escapedNumber_injective h)
    | object entries =>
      simp only [escapeFree, Bool.and_eq_true, Bool.not_eq_true'] at hw
      exact (escapedNumber_object x entries hw.1 h).elim
    | _ => cases x <;> cases h
  | .array items, w, hv, hw, h => by
    cases w with
    | array items' => rw [escapedItems_inj items items' hv hw (Json.array.inj h)]
    | number x => cases x <;> cases h
    | _ => cases h
  | .object entries, w, hv, hw, h => by
    simp only [escapeFree, Bool.and_eq_true, Bool.not_eq_true'] at hv
    cases w with
    | object entries' =>
      simp only [escapeFree, Bool.and_eq_true, Bool.not_eq_true'] at hw
      rw [escapedEntries_inj entries entries' hv.2 hw.2 (Json.object.inj h)]
    | number x => exact (escapedNumber_object x entries hv.1 h.symm).elim
    | _ => cases h

theorem escapedItems_inj : ∀ items items' : List (ContextValue F), escapeFreeItems items = true →
    escapeFreeItems items' = true → escapedItems items = escapedItems items' → items = items'
  | [], [], _, _, _ => rfl
  | [], _ :: _, _, _, h => by cases h
  | _ :: _, [], _, _, h => by cases h
  | v :: rest, w :: rest', hv, hw, h => by
    simp only [escapeFreeItems, Bool.and_eq_true] at hv hw
    obtain ⟨hhead, htail⟩ := List.cons.inj h
    rw [escaped_inj v w hv.1 hw.1 hhead, escapedItems_inj rest rest' hv.2 hw.2 htail]

theorem escapedEntries_inj : ∀ entries entries' : List (JsString × ContextValue F), escapeFreeEntries entries = true →
    escapeFreeEntries entries' = true → escapedEntries entries = escapedEntries entries' → entries = entries'
  | [], [], _, _, _ => rfl
  | [], _ :: _, _, _, h => by cases h
  | _ :: _, [], _, _, h => by cases h
  | (key, v) :: rest, (key', w) :: rest', hv, hw, h => by
    simp only [escapeFreeEntries, Bool.and_eq_true] at hv hw
    obtain ⟨hhead, htail⟩ := List.cons.inj h
    obtain ⟨hkey, hvalue⟩ := Prod.mk.inj hhead
    rw [hkey, escaped_inj v w hv.1 hw.1 hvalue, escapedEntries_inj rest rest' hv.2 hw.2 htail]

end

/-- Whether a list of entries stands for a special number does not depend on their order. -/
theorem isEscape_perm (entries entries' : List (JsString × ContextValue F)) (h : entries.Perm entries') :
    isEscape entries = isEscape entries' := by
  match entries, entries' with
  | [], entries' =>
    obtain rfl := List.nil_perm.mp h
    rfl
  | [e], entries' =>
    obtain rfl := List.singleton_perm.mp h
    rfl
  | e :: e' :: rest, [] => exact absurd h.length_eq (by simp)
  | e :: e' :: rest, [f] => exact absurd h.length_eq (by simp)
  | (key, v) :: e' :: rest, (key', v') :: f' :: rest' => cases v <;> cases v' <;> rfl

theorem isEscape_ordered (entries : List (JsString × ContextValue F)) :
    isEscape (Json.orderedEntries entries) = isEscape entries := by
  match entries with
  | [] => rfl
  | [(key, v)] => cases v <;> rfl
  | (key, v) :: (key', v') :: rest => cases v <;> rfl

mutual

theorem escapeFree_ordered : ∀ v : ContextValue F, escapeFree v = true → escapeFree (Json.ordered v) = true
  | .null, h => h
  | .boolean _, h => h
  | .number _, h => h
  | .string _, h => h
  | .array items, h => escapeFree_orderedItems items h
  | .object entries, h => by
    simp only [escapeFree, Bool.and_eq_true, Bool.not_eq_true'] at h
    have hperm : (sortByKey (Json.orderedEntries entries)).Perm (Json.orderedEntries entries) := List.perm_insertionSort ..
    have hentries := (escapeFreeEntries_iff _).mp (escapeFree_orderedEntries entries h.2)
    rw [Json.ordered, escapeFree, isEscape_perm _ _ hperm, isEscape_ordered, h.1]
    exact (escapeFreeEntries_iff _).mpr fun e he => hentries e (hperm.mem_iff.mp he)

theorem escapeFree_orderedItems : ∀ items : List (ContextValue F), escapeFreeItems items = true →
    escapeFreeItems (Json.orderedItems items) = true
  | [], h => h
  | v :: rest, h => by
    simp only [escapeFreeItems, Bool.and_eq_true] at h
    rw [Json.orderedItems, escapeFreeItems, escapeFree_ordered v h.1, escapeFree_orderedItems rest h.2, Bool.and_self]

theorem escapeFree_orderedEntries : ∀ entries : List (JsString × ContextValue F), escapeFreeEntries entries = true →
    escapeFreeEntries (Json.orderedEntries entries) = true
  | [], h => h
  | (key, v) :: rest, h => by
    simp only [escapeFreeEntries, Bool.and_eq_true] at h
    rw [Json.orderedEntries, escapeFreeEntries, escapeFree_ordered v h.1, escapeFree_orderedEntries rest h.2, Bool.and_self]

end

/-! ### What the text and the digest identify -/

/-- Two values that differ only by a special number and the object that spells it out. -/
def EscapeClash (v w : ContextValue F) : Prop :=
  Json.ordered (escaped v) = Json.ordered (escaped w) ∧ Json.ordered v ≠ Json.ordered w

/-- Text and digest tell the two values apart exactly when they differ by more than the order of keys. -/
structure Identified (numberText : F → JsString) (sha256 : List Byte → JsString) (v w : ContextValue F) : Prop where
  text : encodeCanonical numberText v = encodeCanonical numberText w ↔ Json.ordered v = Json.ordered w
  digest : canonicalSha256 numberText sha256 v = canonicalSha256 numberText sha256 w ↔ Json.ordered v = Json.ordered w

theorem escaped_of_ordered (v w : ContextValue F) (h : Json.ordered v = Json.ordered w) :
    Json.ordered (escaped v) = Json.ordered (escaped w) := by rw [ordered_escaped, ordered_escaped, h]

theorem canonicalSha256_iff (h : NumberText numberText) {sha256 : List Byte → JsString} (hsha256 : Function.Injective sha256)
    (v w : ContextValue F) : canonicalSha256 numberText sha256 v = canonicalSha256 numberText sha256 w
      ↔ encodeCanonical numberText v = encodeCanonical numberText w := by
  refine ⟨fun heq => ?_, fun heq => congrArg (fun text => sha256 (utf8 text)) heq⟩
  have hbytes := hsha256 heq
  rw [encodeCanonical_eq, encodeCanonical_eq] at hbytes ⊢
  exact utf8_wellFormed_inj _ _ (Json.wellFormed_print _ (h.readable _)) (Json.wellFormed_print _ (h.readable _)) hbytes

theorem not_escapeClash (v w : ContextValue F) (hv : escapeFree v = true) (hw : escapeFree w = true) : ¬ EscapeClash v w := by
  rintro ⟨hescaped, hne⟩
  rw [ordered_escaped, ordered_escaped] at hescaped
  exact hne (escaped_inj _ _ (escapeFree_ordered v hv) (escapeFree_ordered w hw) hescaped)

theorem encodeCanonical_law (h : NumberText numberText) {sha256 : List Byte → JsString} (hsha256 : Function.Injective sha256)
    (v w : ContextValue F) : (Identified numberText sha256 v w ↔ ¬ EscapeClash v w)
      ∧ (escapeFree v = true → escapeFree w = true → ¬ EscapeClash v w) := by
  refine ⟨⟨fun hlaw hclash => hclash.2 (hlaw.text.mp ((encodeCanonical_iff h v w).mpr hclash.1)), fun hfree => ?_⟩,
    not_escapeClash v w⟩
  have htext : encodeCanonical numberText v = encodeCanonical numberText w ↔ Json.ordered v = Json.ordered w := by
    rw [encodeCanonical_iff h]
    exact ⟨fun heq => not_not.mp fun hne => hfree ⟨heq, hne⟩, escaped_of_ordered v w⟩
  exact ⟨htext, (canonicalSha256_iff h hsha256 v w).trans htext⟩

end Escape

def sampleDigests : List (List Byte × JsString) := [
  (utf8 (lit "\x7b\"$number\":\"NaN\"\x7d"), lit "f0bb9e425fd70b915b184dc5dd72ccdcbf25198a12c9283de9b7762a0683c0be"),
  (utf8 (lit "0"), lit "5feceb66ffc86f38d952786c6d696c79c2dbc239dd4e91b46729d73a27fb57e9")]

theorem encodeCanonical_law_nan :
    Identified decimalInt (digestTable sampleDigests) (.number .nan) (.number (.finite 0)) :=
  have hlaw := encodeCanonical_law numberText_decimalInt
    (digestTable_injective sampleDigests (by decide +kernel) (by decide +kernel)) (.number .nan) (.number (.finite 0))
  hlaw.1.mpr (hlaw.2 rfl rfl)

theorem encodeCanonical_clash : ∃ v w : ContextValue ℤ,
    encodeCanonical decimalInt v = encodeCanonical decimalInt w ∧ Json.ordered v ≠ Json.ordered w :=
  ⟨.number .negativeZero, .object [(lit "$number", .string (lit "-0"))], by decide, nofun⟩

end MoeNG.Context
