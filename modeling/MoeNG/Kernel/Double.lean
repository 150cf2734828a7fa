import Mathlib.Order.WithBotTop
import MoeNG.Kernel.JsonReading

/-!
# Numbers

`F` is the type of the finite numbers other than `-0`, and `numberText` what
`String` prints for them.
-/

namespace MoeNG.Kernel

inductive Double (F : Type) where
  | nan
  | negativeInfinity
  | negativeZero
  | finite (value : F)
  | infinity
  deriving DecidableEq

section Order
variable {F : Type} [LinearOrder F] [NatCast F]

/-- The value that comparisons see; `NaN` has none. -/
def Double.numeric : Double F → Option (WithBot (WithTop F))
  | .nan => none
  | .negativeInfinity => some ⊥
  | .negativeZero => some ((0 : ℕ) : F)
  | .finite value => some value
  | .infinity => some (⊤ : WithTop F)

def Double.less (left right : Double F) : Bool :=
  match left.numeric, right.numeric with
  | some x, some y => x < y
  | _, _ => false

end Order

section Text
variable {F : Type} (numberText : F → JsString)

/-- `String` prints finite numbers as JSON numbers, no two of them alike and none of them as `-0`. -/
structure NumberText : Prop where
  lexeme : ∀ x, readLexeme (numberText x) = some (numberText x, [])
  injective : Function.Injective numberText
  ne_negativeZero : ∀ x, numberText x ≠ lit "-0"

variable {numberText}

theorem NumberText.ne_brace (h : NumberText numberText) (x : F) (rest : JsString) : numberText x ≠ 123 :: rest := by
  obtain ⟨c, tail, htext, hc⟩ := readLexeme_head (numberText x) (by rw [h.lexeme x]; rfl)
  intro heq
  rw [htext] at heq
  obtain rfl := (List.cons.inj heq).1
  obtain hc | hc := hc <;> exact absurd hc (by decide)

theorem NumberText.reads (h : NumberText numberText) (x : F) :
    Json.Reads numberText (Function.partialInv numberText) x :=
  ⟨h.lexeme x, Function.partialInv_left h.injective x⟩

theorem NumberText.readable (h : NumberText numberText) (v : Json F) :
    Json.Readable numberText (Function.partialInv numberText) v := Json.readable_of_reads h.reads v

theorem NumberText.ne_of_not_lexeme (h : NumberText numberText) (x : F) (text : JsString) (htext : readLexeme text = none) :
    numberText x ≠ text := by
  rintro rfl
  cases (h.lexeme x).symm.trans htext

theorem NumberText.wellFormed (h : NumberText numberText) (x : F) : wellFormed (numberText x) = true :=
  Json.wellFormed_print (.number x) (h.readable _)

theorem decimalInt_ne_negativeZero (z : ℤ) : decimalInt z ≠ lit "-0" := by
  intro h
  unfold decimalInt at h
  split at h
  · rename_i hz
    have hzero := decimal_injective (show decimal z.natAbs = decimal 0 from (List.cons.inj h).2)
    omega
  · have hmem : (45 : CodeUnit) ∈ decimal z.toNat := by
      rw [h]
      exact List.mem_cons_self ..
    exact absurd (decimal_digit _ 45 hmem).1 (by decide)

theorem numberText_decimalInt : NumberText decimalInt where
  lexeme := readLexeme_decimalInt
  injective := decimalInt_injective
  ne_negativeZero := decimalInt_ne_negativeZero

end Text

end MoeNG.Kernel
