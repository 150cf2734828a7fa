import Mathlib.Data.List.Sort
import MoeNG.Kernel.JsonCode

/-!
# Canonical JSON (`packages/review/src/canonical.ts:13-38`,
`packages/runner/src/canonical.ts:12-41`,
`packages/scheduler/src/node-authority/node-authority-contract.ts:249-263`)

The keys of every record are printed in order, and what has no canonical text
throws. Two values with one text are the same up to the order of their keys.
-/

namespace MoeNG.Kernel

def isSafeNumber (z : ℤ) : Bool := -maxSafeInteger ≤ z ∧ z ≤ maxSafeInteger

/-- `Object.keys(value).sort()`. -/
def sortByKey {A : Type} (entries : List (JsString × A)) : List (JsString × A) := entries.insertionSort fun a b => a.1 ≤ b.1

mutual

/-- Nothing in the value makes the printer throw. -/
def printable : Value → Bool
  | .null => true
  | .bool _ => true
  | .string _ => true
  | .number (.integer z) => isSafeNumber z
  | .number .negativeZero => true
  | .array items => printableItems items
  | .record properties => printableProperties properties
  | _ => false

def printableItems : List Value → Bool
  | [] => true
  | value :: rest => printable value && printableItems rest

def printableProperties : List (JsString × Value) → Bool
  | [] => true
  | (_, value) :: rest => printable value && printableProperties rest

end

mutual

def canonicalText : Value → JsString
  | .array items => lit "[" ++ (lit ",").intercalate (canonicalItems items) ++ lit "]"
  | .record properties =>
    lit "\x7b" ++ (lit ",").intercalate
      ((sortByKey (canonicalProperties properties)).map fun p => jsonText p.1 ++ lit ":" ++ p.2) ++ lit "\x7d"
  | value => stringify value

def canonicalItems : List Value → List JsString
  | [] => []
  | value :: rest => canonicalText value :: canonicalItems rest

def canonicalProperties : List (JsString × Value) → List (JsString × JsString)
  | [] => []
  | (key, value) :: rest => (key, canonicalText value) :: canonicalProperties rest

end

def canonicalJson (value : Value) : Option JsString := if printable value then some (canonicalText value) else none

/-! ### The value with its keys in order -/

mutual

def ordered : Value → Value
  | .number .negativeZero => .number (.integer 0)
  | .array items => .array (orderedItems items)
  | .record properties => .record (sortByKey (orderedProperties properties))
  | value => value

def orderedItems : List Value → List Value
  | [] => []
  | value :: rest => ordered value :: orderedItems rest

def orderedProperties : List (JsString × Value) → List (JsString × Value)
  | [] => []
  | (key, value) :: rest => (key, ordered value) :: orderedProperties rest

end

theorem sortByKey_perm {A : Type} (entries : List (JsString × A)) : (sortByKey entries).Perm entries := List.perm_insertionSort ..

theorem sortByKey_map {A B : Type} (f : A → B) (entries : List (JsString × A)) :
    sortByKey (entries.map fun p => (p.1, f p.2)) = (sortByKey entries).map fun p => (p.1, f p.2) :=
  (List.map_insertionSort (fun (a b : JsString × A) => a.1 ≤ b.1) (fun (a b : JsString × B) => a.1 ≤ b.1)
    (fun p => (p.1, f p.2)) entries fun _ _ _ _ => Iff.rfl).symm

theorem stringifyProperties_eq (properties : Obj) :
    stringifyProperties properties = properties.map fun p => jsonText p.1 ++ lit ":" ++ stringify p.2 := by
  induction properties with
  | nil => rfl
  | cons p rest ih =>
    obtain ⟨key, value⟩ := p
    rw [stringifyProperties, ih, List.map_cons]

mutual

theorem canonicalText_eq : ∀ value : Value, canonicalText value = stringify (ordered value)
  | .undefined => rfl
  | .null => rfl
  | .bool _ => rfl
  | .string _ => rfl
  | .number (.integer _) => rfl
  | .number .negativeZero => by decide
  | .number .other => rfl
  | .array items => by rw [canonicalText, ordered, stringify, canonicalItems_eq items]
  | .record properties => by
    rw [canonicalText, ordered, stringify, canonicalProperties_eq properties, stringifyProperties_eq,
      sortByKey_map stringify, List.map_map]
    rfl
  | .exotic => rfl

theorem canonicalItems_eq : ∀ items : List Value, canonicalItems items = stringifyItems (orderedItems items)
  | [] => rfl
  | value :: rest => by rw [canonicalItems, orderedItems, stringifyItems, canonicalText_eq value, canonicalItems_eq rest]

theorem canonicalProperties_eq : ∀ properties : List (JsString × Value),
    canonicalProperties properties = (orderedProperties properties).map fun p => (p.1, stringify p.2)
  | [] => rfl
  | (key, value) :: rest => by
    rw [canonicalProperties, orderedProperties, canonicalText_eq value, canonicalProperties_eq rest, List.map_cons]

end

theorem plainProperties_iff (properties : Obj) : plainProperties properties = true ↔ ∀ p ∈ properties, plain p.2 = true := by
  induction properties with
  | nil => simp [plainProperties]
  | cons p rest ih => simp [plainProperties, ih]

mutual

theorem plain_ordered : ∀ value : Value, printable value = true → plain (ordered value) = true
  | .undefined, h => by cases h
  | .null, _ => rfl
  | .bool _, _ => rfl
  | .string _, _ => rfl
  | .number (.integer _), _ => rfl
  | .number .negativeZero, _ => rfl
  | .number .other, h => by cases h
  | .array items, h => by
    rw [ordered, plain]
    exact plain_orderedItems items h
  | .record properties, h => by
    rw [ordered, plain, plainProperties_iff]
    intro p hp
    exact (plainProperties_iff _).mp (plain_orderedProperties properties h) p ((List.mem_insertionSort _).mp hp)
  | .exotic, h => by cases h

theorem plain_orderedItems : ∀ items : List Value, printableItems items = true → plainItems (orderedItems items) = true
  | [], _ => rfl
  | value :: rest, h => by
    rw [printableItems, Bool.and_eq_true] at h
    rw [orderedItems, plainItems, plain_ordered value h.1, plain_orderedItems rest h.2]
    rfl

theorem plain_orderedProperties : ∀ properties : List (JsString × Value), printableProperties properties = true →
    plainProperties (orderedProperties properties) = true
  | [], _ => rfl
  | (key, value) :: rest, h => by
    rw [printableProperties, Bool.and_eq_true] at h
    rw [orderedProperties, plainProperties, plain_ordered value h.1, plain_orderedProperties rest h.2]
    rfl

end

theorem canonicalJson_some (value : Value) (text : JsString) (h : canonicalJson value = some text) :
    printable value = true ∧ text = stringify (ordered value) := by
  unfold canonicalJson at h
  split at h
  · rename_i hprintable
    exact ⟨hprintable, (Option.some.inj h).symm.trans (canonicalText_eq value)⟩
  · cases h

/-- The bytes of the canonical texts tell values apart, up to the order of their keys. -/
theorem canonicalJson_bytes_inj (v w : Value) (s t : JsString) (hv : canonicalJson v = some s) (hw : canonicalJson w = some t)
    (h : utf8 s = utf8 t) : ordered v = ordered w := by
  obtain ⟨hprintableV, rfl⟩ := canonicalJson_some v s hv
  obtain ⟨hprintableW, rfl⟩ := canonicalJson_some w t hw
  exact stringify_bytes_inj _ _ (plain_ordered v hprintableV) (plain_ordered w hprintableW) h

/-! ### Records and arrays written out -/

@[simp] theorem printable_string (s : JsString) : printable (.string s) = true := rfl

@[simp] theorem printable_bool (b : Bool) : printable (.bool b) = true := rfl

theorem printableItems_iff (items : List Value) : printableItems items = true ↔ ∀ v ∈ items, printable v = true := by
  induction items with
  | nil => simp [printableItems]
  | cons v rest ih => simp [printableItems, ih]

theorem printable_array (items : List Value) : printable (.array items) = true ↔ ∀ v ∈ items, printable v = true := by
  rw [printable, printableItems_iff]

theorem printableProperties_objectOf (properties : List (String × Value)) :
    printableProperties (objectOf properties) = true ↔ ∀ p ∈ properties, printable p.2 = true := by
  induction properties with
  | nil => simp [objectOf, printableProperties]
  | cons p rest ih =>
    unfold objectOf at ih
    simp [objectOf, printableProperties, ih]

theorem printable_object (properties : List (String × Value)) :
    printable (.record (objectOf properties)) = true ↔ ∀ p ∈ properties, printable p.2 = true := by
  rw [printable, printableProperties_objectOf]

theorem orderedItems_eq (items : List Value) : orderedItems items = items.map ordered := by
  induction items with
  | nil => rfl
  | cons v rest ih => rw [orderedItems, ih, List.map_cons]

theorem ordered_array (items : List Value) : ordered (.array items) = .array (items.map ordered) := by
  rw [ordered, orderedItems_eq]

/-- An object whose keys stand in order keeps them so. -/
theorem ordered_object (properties : List (String × Value)) (keys : List String) (hkeys : properties.map Prod.fst = keys)
    (h : (keys.map lit).Pairwise (· ≤ ·)) :
    ordered (.record (objectOf properties)) = .record (objectOf (properties.map fun p => (p.1, ordered p.2))) := by
  have heach : orderedProperties (objectOf properties) = objectOf (properties.map fun p => (p.1, ordered p.2)) := by
    clear hkeys
    induction properties with
    | nil => rfl
    | cons p rest ih =>
      unfold objectOf at ih ⊢
      rw [List.map_cons, orderedProperties, ih, List.map_cons, List.map_cons]
  have hsorted : (objectOf (properties.map fun p => (p.1, ordered p.2))).Pairwise fun a b => a.1 ≤ b.1 := by
    rw [← hkeys] at h
    simp only [objectOf, List.pairwise_map, List.map_map] at h ⊢
    exact h
  rw [ordered, heach, sortByKey, hsorted.insertionSort_eq]

end MoeNG.Kernel

/-!
## Records with their keys in order
-/

namespace MoeNG.Kernel
open MoeNG.Lib

theorem find_sortByKey {A : Type} (entries : List (JsString × A)) (key : JsString) :
    (sortByKey entries).find? (fun p => p.1 = key) = entries.find? fun p => p.1 = key := by
  have hinsert (e : JsString × A) (sorted : List (JsString × A)) :
      (sorted.orderedInsert (fun a b => a.1 ≤ b.1) e).find? (fun p => p.1 = key) = (e :: sorted).find? fun p => p.1 = key := by
    induction sorted with
    | nil => rfl
    | cons b rest ih =>
      rw [List.orderedInsert_cons]
      split
      · rfl
      · rename_i hlt
        -- the two entries change places only when their keys differ
        by_cases hb : b.1 = key
        · have he : ¬ e.1 = key := fun he => hlt (by rw [he, hb])
          rw [List.find?_cons_of_pos (by simp [hb]), List.find?_cons_of_neg (by simp [he]), List.find?_cons_of_pos (by simp [hb])]
        · rw [List.find?_cons_of_neg (by simp [hb]), ih]
          by_cases he : e.1 = key
          · rw [List.find?_cons_of_pos (by simp [he]), List.find?_cons_of_pos (by simp [he])]
          · rw [List.find?_cons_of_neg (by simp [he]), List.find?_cons_of_neg (by simp [he]),
              List.find?_cons_of_neg (by simp [hb])]
  induction entries with
  | nil => rfl
  | cons e rest ih =>
    show ((sortByKey rest).orderedInsert _ e).find? _ = _
    rw [hinsert, List.find?_cons, List.find?_cons, ih]

theorem orderedProperties_eq (properties : List (JsString × Value)) :
    orderedProperties properties = properties.map fun p => (p.1, ordered p.2) := by
  induction properties with
  | nil => rfl
  | cons p rest ih =>
    obtain ⟨key, v⟩ := p
    rw [orderedProperties, ih, List.map_cons]

def Fields.ordered (fields : Fields) : Fields := fields.map fun f => (f.1, MoeNG.Kernel.ordered f.2)

theorem exactRecord_ordered (value : Value) (keys : List String) :
    exactRecord (ordered value) keys = (exactRecord value keys).map Fields.ordered := by
  cases value with
  | number n => cases n <;> rfl
  | record properties =>
    have hall : ((sortByKey (orderedProperties properties)).all fun p => keys.any fun key => lit key = p.1)
        = properties.all fun p => keys.any fun key => lit key = p.1 := by
      have hperm : (sortByKey (orderedProperties properties)).Perm (orderedProperties properties) :=
        List.perm_insertionSort ..
      rw [hperm.all_eq, orderedProperties_eq, List.all_map]
      rfl
    rw [ordered, exactRecord, exactRecord, hall]
    split
    · rw [orderedProperties_eq]
      have hkey (key : String) : (((sortByKey (properties.map fun p => (p.1, ordered p.2))).find? fun p => p.1 = lit key).map
          fun p => (key, p.2)) = ((properties.find? fun p => p.1 = lit key).map fun p => (key, p.2)).map
            fun f => (f.1, ordered f.2) := by
        rw [find_sortByKey, List.find?_map, Option.map_map, Option.map_map]
        rfl
      simp only [hkey]
      exact mapM_option_map _ _ keys
    · rfl
  | _ => rfl

/-- Records of the same keys that print alike agree field by field. -/
theorem ordered_recordOf_inj (keys : List String) (fields fields' : Fields) (hfields : fields.map Prod.fst = keys)
    (hfields' : fields'.map Prod.fst = keys) (hkeys : (keys.map lit).Nodup)
    (h : ordered (recordOf fields) = ordered (recordOf fields')) : Fields.ordered fields = Fields.ordered fields' := by
  have hread := exactRecord_ordered (recordOf fields) (fields.map Prod.fst)
  have hread' := exactRecord_ordered (recordOf fields') (fields'.map Prod.fst)
  rw [exactRecord_recordOf fields (by rw [hfields]; exact hkeys)] at hread
  rw [exactRecord_recordOf fields' (by rw [hfields']; exact hkeys), hfields', ← hfields, ← h, hread] at hread'
  exact Option.some.inj hread'

theorem canonicalText_inj (v w : Value) (hv : printable v = true) (hw : printable w = true)
    (h : canonicalText v = canonicalText w) : ordered v = ordered w :=
  canonicalJson_bytes_inj v w _ _ (if_pos hv) (if_pos hw) (congrArg utf8 h)

theorem printable_recordOf (fields : Fields) : printable (recordOf fields) = true ↔ ∀ f ∈ fields, printable f.2 = true :=
  printable_object fields

end MoeNG.Kernel
