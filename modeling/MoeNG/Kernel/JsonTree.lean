import Mathlib.Data.List.Sort
import MoeNG.Kernel.CanonicalJson
import MoeNG.Lib.Lists

/-!
# JSON values over any numbers

A JSON value whose numbers are of a type `N` with a text each. The entries of
an object stand in the order they are walked in.
-/

namespace MoeNG.Kernel
open MoeNG.Lib

inductive Json (N : Type) where
  | null
  | boolean (value : Bool)
  | number (value : N)
  | string (value : JsString)
  | array (items : List (Json N))
  | object (entries : List (JsString × Json N))

namespace Json
variable {N : Type} (text : N → JsString)

/-! ### Printing -/

def property (entry : JsString × JsString) : JsString := jsonText entry.1 ++ lit ":" ++ entry.2

def printObject (entries : List (JsString × JsString)) : JsString :=
  lit "\x7b" ++ (lit ",").intercalate (entries.map property) ++ lit "\x7d"

mutual

/-- `JSON.stringify` of the value. -/
def print : Json N → JsString
  | .null => lit "null"
  | .boolean value => if value then lit "true" else lit "false"
  | .number value => text value
  | .string value => jsonText value
  | .array items => jsonArray (printItems items)
  | .object entries => printObject (printEntries entries)

def printItems : List (Json N) → List JsString
  | [] => []
  | value :: rest => print value :: printItems rest

def printEntries : List (JsString × Json N) → List (JsString × JsString)
  | [] => []
  | (key, value) :: rest => (key, print value) :: printEntries rest

end

/-! ### The order of keys -/

mutual

/-- The value with the keys of every object in order. -/
def ordered : Json N → Json N
  | .array items => .array (orderedItems items)
  | .object entries => .object (sortByKey (orderedEntries entries))
  | value => value

def orderedItems : List (Json N) → List (Json N)
  | [] => []
  | value :: rest => ordered value :: orderedItems rest

def orderedEntries : List (JsString × Json N) → List (JsString × Json N)
  | [] => []
  | (key, value) :: rest => (key, ordered value) :: orderedEntries rest

end

/-! ### Other numbers -/

section Map
variable {M : Type} (f : M → N)

mutual

/-- The value with every number replaced. -/
def map : Json M → Json N
  | .null => .null
  | .boolean value => .boolean value
  | .number x => .number (f x)
  | .string value => .string value
  | .array items => .array (mapItems items)
  | .object entries => .object (mapEntries entries)

def mapItems : List (Json M) → List (Json N)
  | [] => []
  | value :: rest => map value :: mapItems rest

def mapEntries : List (JsString × Json M) → List (JsString × Json N)
  | [] => []
  | (key, value) :: rest => (key, map value) :: mapEntries rest

end

mutual

theorem print_map : ∀ v : Json M, print text (map f v) = print (text ∘ f) v
  | .null => rfl
  | .boolean _ => rfl
  | .number _ => rfl
  | .string _ => rfl
  | .array items => by rw [map, print, printItems_map items, print]
  | .object entries => by rw [map, print, printEntries_map entries, print]

theorem printItems_map : ∀ items : List (Json M), printItems text (mapItems f items) = printItems (text ∘ f) items
  | [] => rfl
  | v :: rest => by rw [mapItems, printItems, printItems, print_map v, printItems_map rest]

theorem printEntries_map : ∀ entries : List (JsString × Json M),
    printEntries text (mapEntries f entries) = printEntries (text ∘ f) entries
  | [] => rfl
  | (key, v) :: rest => by rw [mapEntries, printEntries, printEntries, print_map v, printEntries_map rest]

end

theorem mapItems_eq (items : List (Json M)) : mapItems f items = items.map (map f) := by
  induction items with
  | nil => rfl
  | cons v rest ih => rw [mapItems, ih, List.map_cons]

end Map

theorem printEntries_eq (entries : List (JsString × Json N)) :
    printEntries text entries = entries.map fun e => (e.1, print text e.2) := by
  induction entries with
  | nil => rfl
  | cons e rest ih =>
    obtain ⟨key, value⟩ := e
    rw [printEntries, ih, List.map_cons]

theorem orderedItems_eq (items : List (Json N)) : orderedItems items = items.map ordered := by
  induction items with
  | nil => rfl
  | cons value rest ih => rw [orderedItems, ih, List.map_cons]

theorem orderedEntries_eq (entries : List (JsString × Json N)) :
    orderedEntries entries = entries.map fun e => (e.1, ordered e.2) := by
  induction entries with
  | nil => rfl
  | cons e rest ih =>
    obtain ⟨key, value⟩ := e
    rw [orderedEntries, ih, List.map_cons]

theorem sortByKey_idem {A : Type} (entries : List (JsString × A)) : sortByKey (sortByKey entries) = sortByKey entries :=
  (List.pairwise_insertionSort (fun (a b : JsString × A) => a.1 ≤ b.1) entries).insertionSort_eq

mutual

theorem ordered_idem : ∀ v : Json N, ordered (ordered v) = ordered v
  | .null => rfl
  | .boolean _ => rfl
  | .number _ => rfl
  | .string _ => rfl
  | .array items => by rw [ordered, ordered, orderedItems_idem items]
  | .object entries => by
    have hfixed : orderedEntries (sortByKey (orderedEntries entries)) = sortByKey (orderedEntries entries) := by
      rw [orderedEntries_eq]
      refine map_eq_self _ _ fun e he => ?_
      rw [orderedEntries_fixed entries e ((List.mem_insertionSort _).mp he)]
    rw [ordered, ordered, hfixed, sortByKey_idem]

theorem orderedItems_idem : ∀ items : List (Json N), orderedItems (orderedItems items) = orderedItems items
  | [] => rfl
  | v :: rest => by rw [orderedItems, orderedItems, ordered_idem v, orderedItems_idem rest]

theorem orderedEntries_fixed : ∀ entries : List (JsString × Json N), ∀ e ∈ orderedEntries entries, ordered e.2 = e.2
  | [], _, he => by cases he
  | (key, v) :: rest, e, he => by
    rw [orderedEntries] at he
    obtain rfl | he := List.mem_cons.mp he
    · exact ordered_idem v
    · exact orderedEntries_fixed rest e he

end

end Json

end MoeNG.Kernel
