import MoeNG.Context.CanonicalLaw
import MoeNG.Kernel.Value

/-!
# Context selection (`packages/context/src/context-selection.ts`, `context-wire.ts`, `context-render.ts`, `context-contract.ts`)

The mandatory items always stand in the context, the optional ones as far as
the byte budget goes. `Array.prototype.sort` is a stable insertion sort.
-/

namespace MoeNG.Context
open MoeNG.Kernel

/-! ### Contracts (`context-contract.ts:1-22`, `context-selection.ts:15-58`) -/

structure ContextItemBase where
  id : JsString
  section_ : JsString
  content : JsString
  deriving DecidableEq

structure OptionalContextItem (F : Type) extends ContextItemBase where
  priority : Double F
  deriving DecidableEq

section Wire
variable {F : Type} (numberText : F → JsString)

end Wire

/-! ### The comparators (`context-selection.ts:60-94`) -/

section Compare
variable {F : Type} [LinearOrder F] [NatCast F] (numberText : F → JsString)

def compareItemIdentity (left right : ContextItemBase) : ℤ :=
  if compareCodeUnits left.id right.id ≠ 0 then compareCodeUnits left.id right.id
  else if compareCodeUnits left.section_ right.section_ ≠ 0 then compareCodeUnits left.section_ right.section_
  else compareCodeUnits left.content right.content

def compareOptional (left right : OptionalContextItem F) : ℤ :=
  if right.priority.less left.priority then -1
  else if left.priority.less right.priority then 1
  else if compareItemIdentity left.toContextItemBase right.toContextItemBase ≠ 0 then
    compareItemIdentity left.toContextItemBase right.toContextItemBase
  else compareCodeUnits (encodeCanonical numberText (.number left.priority))
    (encodeCanonical numberText (.number right.priority))

def count (n : ℕ) : ContextValue F := .number (.finite (n : F))

end Compare

end MoeNG.Context
