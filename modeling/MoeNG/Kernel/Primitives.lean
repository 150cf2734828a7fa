import Mathlib.Data.List.Lex
import Mathlib.Data.List.Nodup
import Mathlib.Data.Nat.Digits.Defs
import Mathlib.Data.Fin.Basic
import Mathlib.Tactic.Common

/-!
# Scheduler value primitives (`packages/scheduler/src/kernel-primitives.ts`)

Strings are sequences of UTF-16 code units, since the kernels measure them
with `length`, join them with template literals and compare them with `<`.
Counters and amounts are integers; the safe-integer ceiling of the runtime is
the explicit guard `isSafeCount`, as in the source, and a sum that no guard
bounds rounds as a double does (`Budget/Reservation`).
-/

namespace MoeNG.Kernel

/-! ### Strings

`lit` reads a literal of the source, `decimal` is the text a template
literal prints for a count, and `isRef` (`kernel-primitives.ts:42-44`) is the
deliberately unbounded non-empty guard. -/

abbrev CodeUnit := Fin 65536

/-- A JavaScript string: `length` counts code units and `<` is lexicographic on them. -/
abbrev JsString := List CodeUnit

instance codeUnits_ne_zero : NeZero 65536 := ⟨by decide⟩

instance codeUnit_lawful : LawfulBEq CodeUnit := inferInstance

instance jsString_lawful : LawfulBEq JsString := inferInstance

/-- The code units of a literal of the source (`lit_eq`). The bytes of an ASCII literal are its
units already, and reading them off needs no decoding. -/
def lit (s : String) : JsString :=
  if s.toByteArray.data.toList.all (· < 128) then s.toByteArray.data.toList.map fun b => Fin.ofNat 65536 b.toNat
  else s.toList.map fun c => Fin.ofNat 65536 c.toNat

theorem encodeChar_ascii (c : Char) (h : (String.utf8EncodeChar c).all (· < 128) = true) :
    (String.utf8EncodeChar c).map (fun b => Fin.ofNat 65536 b.toNat) = [Fin.ofNat 65536 c.toNat] := by
  simp only [String.utf8EncodeChar] at h ⊢
  by_cases hone : c.val.toNat ≤ 127
  · simp only [if_pos hone, List.map_singleton, UInt8.toNat_ofNat', Char.toNat]
    rw [Nat.mod_eq_of_lt (by omega)]
  · exfalso
    revert h
    rw [if_neg hone]
    split_ifs <;> simp only [List.all_cons, Bool.and_eq_true, decide_eq_true_eq, UInt8.lt_iff_toNat_lt,
      UInt8.toNat_ofNat'] <;> intro h <;>
      have := h.1 <;> simp at this <;> omega

theorem lit_eq (s : String) : lit s = s.toList.map fun c => Fin.ofNat 65536 c.toNat := by
  have hbytes : s.toByteArray.data.toList = s.toList.flatMap String.utf8EncodeChar := by
    rw [← String.utf8Encode_toList, List.utf8Encode, List.toList_data_toByteArray]
  unfold lit
  split
  · rename_i hascii
    rw [hbytes] at hascii ⊢
    generalize s.toList = chars at hascii
    induction chars with
    | nil => rfl
    | cons c rest ih =>
      rw [List.flatMap_cons, List.all_append, Bool.and_eq_true] at hascii
      rw [List.flatMap_cons, List.map_append, encodeChar_ascii c hascii.1, ih hascii.2]
      rfl
  · rfl

def decimal (n : ℕ) : JsString :=
  if n = 0 then [48] else (Nat.digits 10 n).reverse.map fun d => Fin.ofNat 65536 (48 + d)

def decimalInt (z : ℤ) : JsString := if z < 0 then lit "-" ++ decimal z.natAbs else decimal z.toNat

def isRef (value : JsString) : Bool := 0 < value.length

/-- The issue text of the budget kernels: the code without its family marker,
lower case, with the underscores read as blanks. -/
def restate (family code : String) : JsString :=
  ((lit code).drop family.length).map fun c =>
    if c = 95 then 32 else if 65 ≤ c ∧ c ≤ 90 then c + 32 else c

example : restate "BUDGET_" "BUDGET_STALE_VERSION" = lit "stale version" := by decide

/-! ### Counts (`kernel-primitives.ts:51-53`) -/

def maxSafeInteger : ℤ := 2 ^ 53 - 1

def isSafeCount (value : ℤ) : Bool := 0 ≤ value ∧ value ≤ maxSafeInteger

theorem isSafeCount_one : isSafeCount 1 = true := by decide

theorem isSafeCount_nonneg (value : ℤ) (h : isSafeCount value = true) : 0 ≤ value := by
  simp only [isSafeCount, decide_eq_true_eq] at h
  exact h.1

/-! ### Ordered checks -/

/-- The FIRST failing check decides the single reported code. -/
def firstOf {α : Type} (checks : List (Bool × α)) : Option α :=
  (checks.find? fun check => check.1).map fun check => check.2

@[simp] theorem firstOf_nil {α : Type} : firstOf ([] : List (Bool × α)) = none := rfl

@[simp] theorem firstOf_cons_eq_none {α : Type} (failed : Bool) (code : α) (rest : List (Bool × α)) :
    firstOf ((failed, code) :: rest) = none ↔ failed = false ∧ firstOf rest = none := by
  cases failed <;> simp [firstOf]

@[simp] theorem firstOf_append_eq_none {α : Type} (checks rest : List (Bool × α)) :
    firstOf (checks ++ rest) = none ↔ firstOf checks = none ∧ firstOf rest = none := by
  simp only [firstOf, Option.map_eq_none_iff, List.find?_append, Option.or_eq_none_iff]

-- `new Set(keys).size !== keys.length`
def hasDuplicates {α : Type} [DecidableEq α] (keys : List α) : Bool := ¬ keys.Nodup

theorem hasDuplicates_eq_false {α : Type} [DecidableEq α] (keys : List α) :
    hasDuplicates keys = false ↔ keys.Nodup := by
  simp [hasDuplicates]

theorem hasDuplicates_perm {α : Type} [DecidableEq α] {keys keys' : List α} (h : keys'.Perm keys) :
    hasDuplicates keys' = hasDuplicates keys := by
  simp only [hasDuplicates, h.nodup_iff]

end MoeNG.Kernel
