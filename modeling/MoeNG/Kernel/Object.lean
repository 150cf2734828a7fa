import Mathlib.Data.List.Perm.Basic
import MoeNG.Kernel.Utf8
import MoeNG.Kernel.Value

/-!
# Objects with their key order

An object keeps its own properties in the order they were inserted in. A spread
with an override keeps a property that is there in its place, and `JSON.stringify`
prints the properties in that order.
-/

namespace MoeNG.Kernel
open MoeNG.Lib

abbrev Obj := List (JsString × Value)

/-! ### Own properties -/

/-- `object[key]`. -/
def Obj.get (object : Obj) (key : String) : Value := ((object.find? fun p => p.1 = lit key).map Prod.snd).getD .undefined

def overwritten (key : String) (value : Value) (p : JsString × Value) : JsString × Value :=
  if p.1 = lit key then (p.1, value) else p

/-- `{ ...object, [key]: value }`. -/
def Obj.assign (object : Obj) (key : String) (value : Value) : Obj :=
  if object.any fun p => p.1 = lit key then object.map (overwritten key value)
  else object ++ [(lit key, value)]

def Obj.keys (object : Obj) : List JsString := object.map Prod.fst

/-- An object literal. -/
def objectOf (properties : List (String × Value)) : Obj := properties.map fun p => (lit p.1, p.2)

/-- `===` between primitives; two objects are never the same one here. -/
def strictEq : Value → Value → Bool
  | .undefined, .undefined => true
  | .null, .null => true
  | .bool a, .bool b => a = b
  | .number (.integer a), .number (.integer b) => a = b
  | .number .negativeZero, .number .negativeZero => true
  | .number (.integer a), .number .negativeZero => a = 0
  | .number .negativeZero, .number (.integer b) => b = 0
  | .string a, .string b => a = b
  | _, _ => false

theorem strictEq_comm (a b : Value) : strictEq a b = strictEq b a := by
  cases a with
  | number n => cases n <;> cases b <;> first | rfl | (rename_i m; cases m <;> simp [strictEq, eq_comm])
  | bool a => cases b <;> simp [strictEq, eq_comm]
  | string a => cases b <;> simp [strictEq, eq_comm]
  | _ => cases b <;> simp [strictEq]

theorem overwritten_key (key : String) (value : Value) (p : JsString × Value) : (overwritten key value p).1 = p.1 := by
  unfold overwritten
  split <;> rfl

theorem Obj.get_assign (object : Obj) (key other : String) (value : Value) :
    (object.assign key value).get other = if lit key = lit other then value else object.get other := by
  unfold Obj.assign Obj.get
  split
  · rename_i hany
    have hfind : (object.map (overwritten key value)).find? (fun p => p.1 = lit other)
        = (object.find? fun p => p.1 = lit other).map (overwritten key value) := by
      rw [List.find?_map]
      simp only [Function.comp_def, overwritten_key]
    rw [hfind]
    cases hfound : object.find? fun p => p.1 = lit other with
    | none =>
      by_cases hkey : lit key = lit other
      · obtain ⟨p, hp, hname⟩ := List.any_eq_true.mp hany
        exact absurd (hkey ▸ hname) (List.find?_eq_none.mp hfound p hp)
      · simp [hkey]
    | some p =>
      have hp : p.1 = lit other := by simpa using List.find?_some hfound
      by_cases hkey : lit key = lit other
      · simp [overwritten, hp, hkey]
      · simp [overwritten, hp, hkey, Ne.symm hkey]
  · rename_i hany
    rw [List.find?_append]
    by_cases hkey : lit key = lit other
    · rw [hkey] at hany ⊢
      have hnone : object.find? (fun p => p.1 = lit other) = none :=
        List.find?_eq_none.mpr fun p hp h => hany (List.any_eq_true.mpr ⟨p, hp, h⟩)
      simp [hnone]
    · simp [hkey]

theorem Obj.keys_assign (object : Obj) (key : String) (value : Value) (h : lit key ∈ object.keys) :
    (object.assign key value).keys = object.keys := by
  have hany : (object.any fun p => p.1 = lit key) = true := by
    obtain ⟨p, hp, hkey⟩ := List.mem_map.mp h
    exact List.any_eq_true.mpr ⟨p, hp, decide_eq_true hkey⟩
  unfold Obj.assign Obj.keys
  rw [if_pos hany, List.map_map]
  exact List.map_congr_left fun p _ => overwritten_key key value p

/-- A property overwritten with what it holds. -/
theorem Obj.assign_get (object : Obj) (key : String) (hnodup : object.keys.Nodup) (h : lit key ∈ object.keys) :
    object.assign key (object.get key) = object := by
  have hany : (object.any fun p => p.1 = lit key) = true := by
    obtain ⟨p, hp, hkey⟩ := List.mem_map.mp h
    exact List.any_eq_true.mpr ⟨p, hp, decide_eq_true hkey⟩
  unfold Obj.assign
  rw [if_pos hany]
  refine map_eq_self _ _ fun p hp => ?_
  unfold overwritten
  split
  · rename_i hkey
    have hfind := find_key_of_mem Prod.fst object hnodup p hp
    rw [hkey] at hfind
    simp [Obj.get, hfind]
  · rfl

theorem keys_objectOf (properties : List (String × Value)) :
    (objectOf properties).keys = (properties.map Prod.fst).map lit := by
  simp only [Obj.keys, objectOf, List.map_map, Function.comp_def]

/-! ### Reading a record (`Object.keys(value).sort()` against the sorted keys) -/

def exactObject (value : Value) (keys : List String) : Option Obj :=
  match value with
  | .record properties => if (Obj.keys properties).isPerm (keys.map lit) then some properties else none
  | _ => none

theorem exactObject_some (value : Value) (keys : List String) (object : Obj) (h : exactObject value keys = some object) :
    value = .record object ∧ object.keys.Perm (keys.map lit) := by
  unfold exactObject at h
  split at h
  · split at h
    · rename_i hperm
      obtain rfl := Option.some.inj h
      exact ⟨rfl, List.isPerm_iff.mp hperm⟩
    · cases h
  · cases h

theorem exactObject_record (object : Obj) (keys : List String) (h : object.keys.Perm (keys.map lit)) :
    exactObject (.record object) keys = some object := if_pos (List.isPerm_iff.mpr h)

/-! ### `JSON.stringify` -/

mutual

/-- A number that is not an integer prints as no integer does; neither `undefined` nor an exotic value is ever printed. -/
def stringify : Value → JsString
  | .undefined => []
  | .null => lit "null"
  | .bool b => if b then lit "true" else lit "false"
  | .number (.integer z) => decimalInt z
  | .number .negativeZero => lit "0"
  | .number .other => lit "null"
  | .string s => jsonText s
  | .array items => lit "[" ++ (lit ",").intercalate (stringifyItems items) ++ lit "]"
  | .record properties => lit "\x7b" ++ (lit ",").intercalate (stringifyProperties properties) ++ lit "\x7d"
  | .exotic => []

def stringifyItems : List Value → List JsString
  | [] => []
  | value :: rest => stringify value :: stringifyItems rest

def stringifyProperties : List (JsString × Value) → List JsString
  | [] => []
  | (key, value) :: rest => (jsonText key ++ lit ":" ++ stringify value) :: stringifyProperties rest

end

end MoeNG.Kernel
