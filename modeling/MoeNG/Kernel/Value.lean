import MoeNG.Kernel.Primitives
import MoeNG.Lib.Lists

/-!
# Hostile runtime values (`runtime-shape.ts`, `kernel-primitives.ts:55-69`, `authority/authority-kernel.ts:128-163`)

The kernels take `unknown` arguments and read them through a hardened shape
layer. A value is `record` when it is a plain object whose own properties are
data properties with string keys, `array` when it is a plain array whose
indices are all data properties; whatever the shape layer refuses outright
(proxies, accessors, symbol keys, holes, class instances) is `exotic`.
-/

namespace MoeNG.Kernel
open MoeNG.Lib

inductive JsNumber where
  | integer (z : ℤ)
  | negativeZero
  | other
  deriving DecidableEq

inductive Value where
  | undefined
  | null
  | bool (b : Bool)
  | number (n : JsNumber)
  | string (s : JsString)
  | array (items : List Value)
  | record (properties : List (JsString × Value))
  | exotic

abbrev Fields := List (String × Value)

/-! ### Shape readers -/

def exactRecord (value : Value) (keys : List String) : Option Fields :=
  match value with
  | .record properties =>
    if properties.all fun p => keys.any fun key => lit key = p.1 then
      keys.mapM fun key => (properties.find? fun p => p.1 = lit key).map fun p => (key, p.2)
    else none
  | _ => none

def isPlainRecord : Value → Bool
  | .record _ => true
  | _ => false

def readOwnDataProperty (value : Value) (key : JsString) : Option Value :=
  match value with
  | .record properties => (properties.find? fun p => p.1 = key).map Prod.snd
  | _ => none

def Fields.field (fields : Fields) (key : String) : Value :=
  ((fields.find? fun f => f.1 = key).map Prod.snd).getD .undefined

def readList (value : Value) (maximum : ℕ) : Option (List Value) :=
  match value with
  | .array items => if items.length > maximum then none else some items
  | _ => none

/-- `record` of `admission/admission-model.ts:172-191`: only `allowed` keys, and all `required` ones. -/
def readRecord (value : Value) (allowed required : List String) : Option Fields :=
  match value with
  | .record properties =>
    if (properties.all fun p => allowed.any fun key => lit key = p.1)
        && required.all fun key => properties.any fun p => p.1 = lit key then
      some (allowed.filterMap fun key => (properties.find? fun p => p.1 = lit key).map fun p => (key, p.2))
    else none
  | _ => none

def maxAdmissionItems : ℕ := 256

def dense (value : Value) (minimum : ℕ) : Option (List Value) :=
  match value with
  | .array items => if items.length < minimum || maxAdmissionItems < items.length then none else some items
  | _ => none

/-! ### Guards

Each guard returns the narrowed value, as the type guards of the source do. -/

def refOf : Value → Option JsString
  | .string s => if isRef s then some s else none
  | _ => none

def boolOf : Value → Option Bool
  | .bool b => some b
  | _ => none

/-- `MAX_AUTHORITY_COUNT`: headroom for every increment the kernels make. -/
def maxAuthorityCount : ℤ := maxSafeInteger - 1000000

def isCount (z : ℤ) : Bool := 0 ≤ z ∧ z ≤ maxAuthorityCount

def countOf : Value → Option ℤ
  | .number (.integer z) => if isCount z then some z else none
  | _ => none

-- `isSafeCount`, under the name `isVersion` in the admission modules
def versionOf : Value → Option ℤ
  | .number (.integer z) => if isSafeCount z then some z else none
  | _ => none

def isDigest (s : JsString) : Bool :=
  s.length = 64 && s.all fun c => (48 ≤ c ∧ c ≤ 57) ∨ (97 ≤ c ∧ c ≤ 102)

theorem isDigest_zeros : isDigest (List.replicate 64 48) = true := by decide

def digestOf : Value → Option JsString
  | .string s => if isDigest s then some s else none
  | _ => none

/-- Membership in a closed vocabulary, given by the texts of its members. -/
def oneOf {α : Type} (text : α → String) (values : List α) : Value → Option α
  | .string s => values.find? fun v => lit (text v) = s
  | _ => none

def stringList (value : Value) (maximum : ℕ) : Option (List JsString) := do
  let items ← readList value maximum
  items.mapM refOf

/-! ### Reading back what was written -/

def recordOf (fields : Fields) : Value := .record (fields.map fun f => (lit f.1, f.2))

theorem find_recordOf (fields : Fields) (hkeys : ((fields.map Prod.fst).map lit).Nodup) (f : String × Value)
    (hf : f ∈ fields) :
    (fields.map fun f => (lit f.1, f.2)).find? (fun p => p.1 = lit f.1) = some (lit f.1, f.2) := by
  have hnodup : ((fields.map fun f => (lit f.1, f.2)).map Prod.fst).Nodup := by
    rw [List.map_map] at hkeys ⊢
    exact hkeys
  exact find_key_of_mem Prod.fst _ hnodup (lit f.1, f.2) (List.mem_map_of_mem hf)

/-- The fields come out in the order of the keys asked for. -/
theorem exactRecord_perm (fields out : Fields) (hperm : out.Perm fields) (h : ((fields.map Prod.fst).map lit).Nodup) :
    exactRecord (recordOf fields) (out.map Prod.fst) = some out := by
  unfold exactRecord recordOf
  dsimp only
  have hall : ((fields.map fun f => (lit f.1, f.2)).all fun p =>
      (out.map Prod.fst).any fun key => lit key = p.1) = true := by
    rw [List.all_eq_true]
    intro p hp
    obtain ⟨f, hf, rfl⟩ := List.mem_map.mp hp
    rw [List.any_eq_true]
    exact ⟨f.1, List.mem_map_of_mem (hperm.mem_iff.mpr hf), decide_eq_true rfl⟩
  rw [if_pos hall, List.mapM_map]
  refine mapM_eq_some _ out fun f hf => ?_
  rw [Function.comp_apply, find_recordOf fields h f (hperm.mem_iff.mp hf), Option.map_some]

theorem exactRecord_recordOf (fields : Fields) (h : ((fields.map Prod.fst).map lit).Nodup) :
    exactRecord (recordOf fields) (fields.map Prod.fst) = some fields :=
  exactRecord_perm fields fields (List.Perm.refl _) h

theorem exactRecord_keys (value : Value) (keys : List String) (fields : Fields) (h : exactRecord value keys = some fields) :
    fields.map Prod.fst = keys := by
  unfold exactRecord at h
  split at h
  · split at h
    · rename_i properties _
      clear * - h
      induction keys generalizing fields with
      | nil =>
        obtain rfl := Option.some.inj h
        rfl
      | cons key rest ih =>
        rw [List.mapM_cons] at h
        obtain ⟨f, hf, h⟩ := Option.bind_eq_some_iff.mp h
        obtain ⟨fs, hfs, h⟩ := Option.bind_eq_some_iff.mp h
        obtain rfl := Option.some.inj h
        obtain ⟨p, -, rfl⟩ := Option.map_eq_some_iff.mp hf
        rw [List.map_cons, ih fs hfs]
    · cases h
  · cases h

/-- What is read of a record is its keys with what stands under them. -/
theorem eq_fields (fields : Fields) (keys : List String) (hkeys : fields.map Prod.fst = keys) (hnodup : keys.Nodup) :
    fields = keys.map fun key => (key, fields.field key) := by
  subst hkeys
  rw [List.map_map]
  refine (List.map_id fields).symm.trans (List.map_congr_left fun f hf => ?_)
  have hfind := find_key_of_mem Prod.fst fields hnodup f hf
  unfold Fields.field
  rw [Function.comp_apply, hfind]
  rfl

theorem oneOf_some {α : Type} {text : α → String} {values : List α} {value : Value} {a : α}
    (h : oneOf text values value = some a) : value = .string (lit (text a)) := by
  cases value with
  | string s =>
    have htext := List.find?_some h
    rw [← of_decide_eq_true htext]
  | _ => cases h

theorem oneOf_mem {α : Type} {text : α → String} {values : List α} {value : Value} {a : α}
    (h : oneOf text values value = some a) : a ∈ values := by
  cases value with
  | string s => exact List.mem_of_find?_eq_some h
  | _ => cases h

theorem exactRecord_extra (fields : Fields) (keys : List String) (f : String × Value) (hf : f ∈ fields)
    (h : ∀ key ∈ keys, lit key ≠ lit f.1) : exactRecord (recordOf fields) keys = none := by
  refine if_neg fun hall => ?_
  have hkey := List.all_eq_true.mp hall (lit f.1, f.2) (List.mem_map_of_mem hf)
  obtain ⟨key, hmem, heq⟩ := List.any_eq_true.mp hkey
  exact h key hmem (of_decide_eq_true heq)

theorem readRecord_recordOf (fields : Fields) (keys : List String) (hfields : fields.map Prod.fst = keys)
    (hkeys : (keys.map lit).Nodup) : readRecord (recordOf fields) keys keys = some fields := by
  subst hfields
  have hallowed : ((fields.map fun f => (lit f.1, f.2)).all fun p =>
      (fields.map Prod.fst).any fun key => lit key = p.1) = true := by
    rw [List.all_eq_true]
    intro p hp
    obtain ⟨f, hf, rfl⟩ := List.mem_map.mp hp
    rw [List.any_eq_true]
    exact ⟨f.1, List.mem_map_of_mem hf, decide_eq_true rfl⟩
  have hrequired : ((fields.map Prod.fst).all fun key =>
      (fields.map fun f => (lit f.1, f.2)).any fun p => p.1 = lit key) = true := by
    rw [List.all_eq_true]
    intro key hkey
    obtain ⟨f, hf, rfl⟩ := List.mem_map.mp hkey
    rw [List.any_eq_true]
    exact ⟨(lit f.1, f.2), List.mem_map_of_mem hf, decide_eq_true rfl⟩
  have hread : (fields.map Prod.fst).filterMap (fun key =>
      ((fields.map fun f => (lit f.1, f.2)).find? fun p => p.1 = lit key).map fun p => (key, p.2)) = fields := by
    rw [List.filterMap_map]
    refine (List.filterMap_congr fun f hf => ?_).trans List.filterMap_some
    rw [Function.comp_apply, find_recordOf fields hkeys f hf, Option.map_some]
  unfold readRecord recordOf
  dsimp only
  rw [hallowed, hrequired, hread]
  rfl

theorem Fields.field_cons (name key : String) (value : Value) (rest : Fields) :
    Fields.field ((name, value) :: rest) key = if name = key then value else Fields.field rest key := by
  unfold Fields.field
  rw [List.find?_cons]
  by_cases h : name = key
  · simp [h]
  · simp [h]

theorem boolOf_bool (b : Bool) : boolOf (.bool b) = some b := rfl

theorem refOf_string (s : JsString) (h : isRef s = true) : refOf (.string s) = some s := if_pos h

theorem countOf_integer (z : ℤ) (h : isCount z = true) : countOf (.number (.integer z)) = some z := if_pos h

theorem digestOf_string (s : JsString) (h : isDigest s = true) : digestOf (.string s) = some s := if_pos h

theorem isRef_of_refOf (v : Value) (s : JsString) (h : refOf v = some s) : isRef s = true := by
  unfold refOf at h
  split at h
  · split at h
    · rename_i hs
      exact Option.some.inj h ▸ hs
    · cases h
  · cases h

theorem isCount_of_countOf (v : Value) (z : ℤ) (h : countOf v = some z) : isCount z = true := by
  unfold countOf at h
  split at h
  · split at h
    · rename_i hz
      exact Option.some.inj h ▸ hz
    · cases h
  · cases h

theorem isDigest_of_digestOf (v : Value) (s : JsString) (h : digestOf v = some s) : isDigest s = true := by
  unfold digestOf at h
  split at h
  · split at h
    · rename_i hs
      exact Option.some.inj h ▸ hs
    · cases h
  · cases h

end MoeNG.Kernel
