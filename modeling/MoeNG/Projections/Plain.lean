import MoeNG.Projections.Canonical

/-!
# What a fold reads (`packages/store/src/projections/projection-fold.ts:70-151`)

A caller can supply any value. The clone reads plain data through the
descriptors of own properties and refuses everything else, so it gives a plain
state back as it is.
-/

namespace MoeNG.Projections
open MoeNG.Kernel MoeNG.Lib

/-! ### Values -/

inductive OwnKey where
  | string (key : JsString)
  | symbol
  deriving DecidableEq

/-- `plain` is `null` or the built-in prototype of the kind of object. -/
inductive Prototype where
  | plain
  | alien
  deriving DecidableEq

/-- Own properties stand in the order of `Reflect.ownKeys`, an accessor without a value; the keys of an array are those of
its `slots`, then `length`, then `extra`. `enclosing` is an object that the value stands in, `foreign` is `undefined`, a
symbol or a function, and reading `hostile` throws. -/
inductive RawValue where
  | null
  | boolean (value : Bool)
  | number (text : JsString)
  | bigint (value : ℤ)
  | string (value : JsString)
  | object (prototype : Prototype) (own : List (OwnKey × Option RawValue))
  | array (prototype : Prototype) (slots : List (OwnKey × Option RawValue)) (length : ℕ) (extra : List OwnKey)
  | enclosing
  | foreign
  | hostile

/-! ### The clone (`projection-fold.ts:70-118`) -/

mutual

/-- `none` is `INVALID` or a throw, which the caller answers alike. -/
def plainClone : RawValue → Option PlainValue
  | .null => some .null
  | .boolean value => some (.boolean value)
  | .number text => some (.number text)
  | .bigint value => some (.bigint value)
  | .string value => some (.string value)
  | .object .plain own => (cloneSlots own).map .object
  | .array .plain slots length extra =>
    if extra = [] ∧ slots.length = length then (cloneSlots slots).map fun entries => .array (entries.map Prod.snd) else none
  | .object .alien _ | .array .alien _ _ _ | .enclosing | .foreign | .hostile => none

def cloneSlots : List (OwnKey × Option RawValue) → Option ProjectionState
  | [] => some []
  | (.string key, some value) :: rest =>
    if h : key ≠ lit "__proto__" then
      (plainClone value).bind fun item => (cloneSlots rest).map fun entries => (⟨key, h⟩, item) :: entries
    else none
  | (.symbol, _) :: _ | (.string _, none) :: _ => none

end

def plainRecord (value : RawValue) : Option ProjectionState :=
  match plainClone value with
  | some (.object entries) => some entries
  | _ => none

def normalizeCheckpoint : RawValue → Option ℤ
  | .object _ [(key, some (.bigint position))] =>
    if key = .string (lit "globalPosition") ∧ 0 ≤ position then some position else none
  | _ => none

/-! ### Plain values -/

mutual

def PlainValue.raw : PlainValue → RawValue
  | .null => .null
  | .boolean value => .boolean value
  | .number text => .number text
  | .bigint value => .bigint value
  | .string value => .string value
  | .array items => .array .plain (rawItems 0 items) items.length []
  | .object entries => .object .plain (rawEntries entries)

def rawItems (index : ℕ) : List PlainValue → List (OwnKey × Option RawValue)
  | [] => []
  | value :: rest => (.string (decimal index), some value.raw) :: rawItems (index + 1) rest

def rawEntries : ProjectionState → List (OwnKey × Option RawValue)
  | [] => []
  | (key, value) :: rest => (.string key.val, some value.raw) :: rawEntries rest

end

def rawState (state : ProjectionState) : RawValue := .object .plain (rawEntries state)

def rawCheckpoint (position : ℤ) : RawValue := .object .plain [(.string (lit "globalPosition"), some (.bigint position))]

theorem rawItems_length (index : ℕ) (items : List PlainValue) : (rawItems index items).length = items.length := by
  induction items generalizing index with
  | nil => rfl
  | cons value rest ih => rw [rawItems, List.length_cons, ih, List.length_cons]

/-- An index is written in digits. -/
theorem decimal_ne_proto (index : ℕ) : decimal index ≠ lit "__proto__" := by
  intro h
  have hdigit := decimal_digit index 95 (by rw [h]; decide)
  exact absurd hdigit.2 (by decide)

mutual

theorem plainClone_raw : ∀ value : PlainValue, plainClone value.raw = some value
  | .null => rfl
  | .boolean _ => rfl
  | .number _ => rfl
  | .bigint _ => rfl
  | .string _ => rfl
  | .array items => by
    obtain ⟨entries, hclone, hitems⟩ := cloneSlots_rawItems 0 items
    rw [PlainValue.raw, plainClone, if_pos ⟨rfl, rawItems_length 0 items⟩, hclone, Option.map_some, hitems]
  | .object entries => by rw [PlainValue.raw, plainClone, cloneSlots_rawEntries entries, Option.map_some]

theorem cloneSlots_rawItems : ∀ (index : ℕ) (items : List PlainValue),
    ∃ entries, cloneSlots (rawItems index items) = some entries ∧ entries.map Prod.snd = items
  | _, [] => ⟨[], rfl, rfl⟩
  | index, value :: rest => by
    obtain ⟨entries, hclone, hitems⟩ := cloneSlots_rawItems (index + 1) rest
    refine ⟨(⟨decimal index, decimal_ne_proto index⟩, value) :: entries, ?_, by rw [List.map_cons, hitems]⟩
    rw [rawItems, cloneSlots, dif_pos (decimal_ne_proto index), plainClone_raw value, Option.bind_some, hclone, Option.map_some]

theorem cloneSlots_rawEntries : ∀ entries : ProjectionState, cloneSlots (rawEntries entries) = some entries
  | [] => rfl
  | (key, value) :: rest => by
    rw [rawEntries, cloneSlots, dif_pos key.property, plainClone_raw value, Option.bind_some, cloneSlots_rawEntries rest,
      Option.map_some]

end

/-- A plain state is read as it is, the order of its keys included. -/
@[simp] theorem plainRecord_rawState (state : ProjectionState) : plainRecord (rawState state) = some state := by
  rw [plainRecord, rawState, plainClone, cloneSlots_rawEntries, Option.map_some]

theorem normalizeCheckpoint_rawCheckpoint (position : ℤ) :
    normalizeCheckpoint (rawCheckpoint position) = if 0 ≤ position then some position else none := by
  rw [rawCheckpoint, normalizeCheckpoint]
  simp

theorem normalizeCheckpoint_nonneg (value : RawValue) (position : ℤ) (h : normalizeCheckpoint value = some position) :
    0 ≤ position := by
  unfold normalizeCheckpoint at h
  split at h
  · split at h
    · rename_i hread
      obtain rfl := Option.some.inj h
      exact hread.2
    · cases h
  · cases h

end MoeNG.Projections
