import MoeNG.Context.Selection
import MoeNG.Kernel.JsonCode
import MoeNG.Lib.ComparatorSort

/-!
# What a context selection depends on

The selection depends on the order of its inputs exactly when the comparator of
optional items is not transitive on them, which takes a priority `NaN`.
-/

namespace MoeNG.Context
open MoeNG.Kernel MoeNG.Lib

/-! ### The comparators -/

section Priorities
variable {F : Type} [LinearOrder F] [NatCast F] {numberText : F → JsString}

end Priorities

/-! ### Byte counts -/

section Bytes
variable {F : Type} (numberText : F → JsString)

variable (mandatory : List MandatoryContextItem)

end Bytes

/-! ### The loop over the candidates -/

section Loop
variable {F : Type} (numberText : F → JsString)

def kept (excludedIds : List JsString) (candidates : List (OptionalContextItem F)) : List (OptionalContextItem F) :=
  candidates.filter fun item => ¬ excludedIds.contains item.id

end Loop

/-! ### The selection -/

section Law
variable {F : Type} [LinearOrder F] [NatCast F] (numberText : F → JsString) (sha256 : List Byte → JsString)

/-- The comparator of optional items is transitive on them. -/
def Consistent (optional : List (OptionalContextItem F)) : Prop :=
  TransOn (fun a b => compareOptional numberText a b ≤ 0) optional

variable {numberText} {sha256}

end Law

end MoeNG.Context
