import MoeNG.Kernel.CanonicalJson

/-!
# Data with a canonical text

A writer is canonical when its values have their keys in order and are never
refused, and when no two data share a value: the canonical text then tells the
data apart.
-/

namespace MoeNG.Kernel

abbrev SafeCount := { z : ℤ // isSafeCount z = true }

/-- Printed as it stands. -/
def Settled (v : Value) : Prop := ordered v = v ∧ printable v = true

structure CanonicalForm {A : Type} (f : A → Value) : Prop where
  settled : ∀ a, Settled (f a)
  injective : Function.Injective f

/-! ### Writers -/

def word (s : String) : Value := .string (lit s)

def writeCount (n : SafeCount) : Value := .number (.integer n.val)

def writeList {A : Type} (f : A → Value) (items : List A) : Value := .array (items.map f)

def writeOption (s : Option JsString) : Value :=
  match s with
  | none => .null
  | some s => .string s

theorem settled_string (s : JsString) : Settled (.string s) := ⟨rfl, rfl⟩

theorem settled_word (s : String) : Settled (word s) := ⟨rfl, rfl⟩

theorem settled_count (n : SafeCount) : Settled (writeCount n) := by
  have hn := n.property
  simp only [isSafeCount, decide_eq_true_eq] at hn
  refine ⟨rfl, ?_⟩
  show isSafeNumber n.val = true
  simp only [isSafeNumber, decide_eq_true_eq]
  have hmax : 0 ≤ maxSafeInteger := by decide
  omega

theorem settled_option (s : Option JsString) : Settled (writeOption s) := by
  cases s with
  | none => exact ⟨rfl, rfl⟩
  | some s => exact settled_string s

theorem canonicalForm_string : CanonicalForm Value.string := ⟨settled_string, fun _ _ h => Value.string.inj h⟩

theorem writeCount_injective : Function.Injective writeCount := fun _ _ h =>
  Subtype.ext (JsNumber.integer.inj (Value.number.inj h))

theorem writeOption_injective : Function.Injective writeOption := by
  intro a b h
  cases a <;> cases b <;> simp_all [writeOption]

theorem word_eq_iff (s t : String) : word s = word t ↔ lit s = lit t := ⟨Value.string.inj, congrArg Value.string⟩

/-- A closed vocabulary, given by a reader that undoes the writer. -/
theorem word_injective {A : Type} (text : A → String) (values : List A)
    (h : ∀ a, oneOf text values (word (text a)) = some a) : Function.Injective fun a => word (text a) := by
  intro a b hab
  have hread := h a
  rw [show word (text a) = word (text b) from hab, h b] at hread
  exact (Option.some.inj hread).symm

theorem CanonicalForm.list {A : Type} {f : A → Value} (hf : CanonicalForm f) : CanonicalForm (writeList f) where
  settled items := by
    refine ⟨?_, (printable_array _).mpr fun v hv => ?_⟩
    · unfold writeList
      rw [ordered_array, List.map_map]
      exact congrArg _ (List.map_congr_left fun a _ => (hf.settled a).1)
    · obtain ⟨a, -, rfl⟩ := List.mem_map.mp hv
      exact (hf.settled a).2
  injective _ _ h := List.map_injective_iff.mpr hf.injective (Value.array.inj h)

theorem objectOf_injective (fields fields' : List (String × Value)) (hkeys : fields.map Prod.fst = fields'.map Prod.fst)
    (h : objectOf fields = objectOf fields') : fields = fields' := by
  induction fields generalizing fields' with
  | nil =>
    cases fields' with
    | nil => rfl
    | cons p' rest' => cases h
  | cons p rest ih =>
    cases fields' with
    | nil => cases h
    | cons p' rest' =>
      obtain ⟨hkey, hkeys⟩ := List.cons.inj hkeys
      obtain ⟨hhead, htail⟩ := List.cons.inj h
      rw [ih rest' hkeys htail, Prod.ext hkey (Prod.mk.inj hhead).2]

theorem settled_record (fields : List (String × Value)) (keys : List String) (hkeys : fields.map Prod.fst = keys)
    (hsorted : (keys.map lit).Pairwise (· ≤ ·)) (hfields : ∀ p ∈ fields, Settled p.2) :
    Settled (.record (objectOf fields)) := by
  refine ⟨?_, (printable_object fields).mpr fun p hp => (hfields p hp).2⟩
  rw [ordered_object fields keys hkeys hsorted]
  refine congrArg (fun l => Value.record (objectOf l)) ((List.map_congr_left fun p hp => ?_).trans (List.map_id' fields))
  exact Prod.ext rfl (hfields p hp).1

theorem CanonicalForm.record {A : Type} (fields : A → List (String × Value)) (keys : List String)
    (hkeys : ∀ a, (fields a).map Prod.fst = keys) (hsorted : (keys.map lit).Pairwise (· ≤ ·))
    (hfields : ∀ a, ∀ p ∈ fields a, Settled p.2) (hinj : ∀ a b, fields a = fields b → a = b) :
    CanonicalForm fun a => .record (objectOf (fields a)) where
  settled a := settled_record (fields a) keys (hkeys a) hsorted (hfields a)
  injective a b h := hinj a b (objectOf_injective _ _ ((hkeys a).trans (hkeys b).symm) (Value.record.inj h))

/-! ### The text -/

/-- The code points of the text determine the datum. -/
theorem CanonicalForm.text_inj {A : Type} {f : A → Value} (hf : CanonicalForm f) (a b : A)
    (h : codePoints (canonicalText (f a)) = codePoints (canonicalText (f b))) : a = b := by
  have hbytes := (utf8_eq_iff _ _).mpr h
  have hordered := canonicalJson_bytes_inj (f a) (f b) _ _ (if_pos (hf.settled a).2) (if_pos (hf.settled b).2) hbytes
  rw [(hf.settled a).1, (hf.settled b).1] at hordered
  exact hf.injective hordered

end MoeNG.Kernel
