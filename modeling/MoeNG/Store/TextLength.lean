import MoeNG.Store.Input
import MoeNG.Kernel.WellFormed

/-!
# The stored length of a text

`utf8Length` counts the bytes of a well-formed string, and a JSON string of it
takes six times as many at most.
-/

namespace MoeNG.Store
open MoeNG.Kernel

/-! ### Bytes of a string -/

theorem utf8Length_append (s t : JsString) : utf8Length (s ++ t) = utf8Length s + utf8Length t := by
  unfold utf8Length
  rw [List.map_append, List.sum_append]

theorem utf8Length_cons (c : CodeUnit) (s : JsString) : utf8Length (c :: s) = utf8Units c + utf8Length s := by
  unfold utf8Length
  rw [List.map_cons, List.sum_cons]

theorem utf8Units_surrogate (c : CodeUnit) (h : isSurrogate c = true) : utf8Units c = 2 := by
  have hval := (isSurrogate_iff c).mp h
  unfold isSurrogate at h
  unfold utf8Units
  rw [if_neg (by rw [Fin.lt_def]; show ¬ c.val < 0x80; omega), if_neg (by rw [Fin.lt_def]; show ¬ c.val < 0x800; omega), if_pos h]

theorem pointBytes_length_unitPoint (c : CodeUnit) (h : isSurrogate c = false) :
    (pointBytes (unitPoint c)).length = utf8Units c := by
  have hval : (unitPoint c).val = c.val := by
    rw [unitPoint_eq c h]
    exact Nat.mod_eq_of_lt (by omega)
  have hc := c.isLt
  have h1 : c < 0x80 ↔ c.val < 0x80 := Iff.rfl
  have h2 : c < 0x800 ↔ c.val < 0x800 := Iff.rfl
  unfold isSurrogate at h
  unfold pointBytes utf8Units
  dsimp only
  rw [hval, h]
  simp only [h1, h2, Bool.false_eq_true, if_false]
  split_ifs <;> rfl

theorem pointBytes_length_pairPoint (high low : CodeUnit) (hh : isHighSurrogate high = true) (hl : isLowSurrogate low = true) :
    (pointBytes (pairPoint high low)).length = 4 := by
  have hval := pairPoint_val high low hh hl
  unfold pointBytes
  dsimp only
  rw [if_neg (by omega), if_neg (by omega), if_neg (by omega)]
  rfl

theorem utf8_length (s : JsString) (h : wellFormed s = true) : (utf8 s).length = utf8Length s := by
  unfold utf8
  induction s using codePoints.induct with
  | case1 => rfl
  | case2 c =>
    have hc : isSurrogate c = false := by simpa [wellFormed] using h
    rw [codePoints, List.flatMap_singleton, pointBytes_length_unitPoint c hc]
    exact (Nat.add_zero _).symm
  | case3 high low rest hpair ih =>
    rw [wellFormed, if_pos hpair] at h
    obtain ⟨hh, hl⟩ := Bool.and_eq_true_iff.mp hpair
    have hhigh : isSurrogate high = true := by rw [isSurrogate, hh]; rfl
    have hlow : isSurrogate low = true := by rw [isSurrogate, hl, Bool.or_true]
    rw [codePoints, if_pos hpair, List.flatMap_cons, List.length_append, ih h, pointBytes_length_pairPoint high low hh hl,
      utf8Length_cons, utf8Length_cons, utf8Units_surrogate high hhigh, utf8Units_surrogate low hlow]
    omega
  | case4 high low rest hpair ih =>
    rw [wellFormed, if_neg hpair, Bool.and_eq_true, Bool.not_eq_true'] at h
    rw [codePoints, if_neg hpair, List.flatMap_cons, List.length_append, ih h.2, pointBytes_length_unitPoint high h.1,
      utf8Length_cons high]

theorem utf8Units_pos (c : CodeUnit) : 1 ≤ utf8Units c := by
  unfold utf8Units
  split_ifs <;> omega

theorem utf8Length_ascii (s : JsString) (h : ∀ c ∈ s, c.val < 0x80) : utf8Length s = s.length := by
  induction s with
  | nil => rfl
  | cons c rest ih =>
    obtain ⟨hc, hrest⟩ := List.forall_mem_cons.mp h
    have hunit : utf8Units c = 1 := if_pos hc
    rw [utf8Length_cons, hunit, ih hrest, List.length_cons]
    omega

theorem hexDigit_ascii (n : ℕ) (h : n < 16) : (hexDigit n).val < 0x80 := by
  revert n
  decide

/-! ### JSON texts -/

/-- An escaped unit takes six bytes at most. -/
theorem utf8Length_jsonUnit (c : CodeUnit) : utf8Length (jsonUnit c) ≤ 6 * utf8Units c := by
  have hpos := utf8Units_pos c
  have hshort (t : JsString) (ht : utf8Length t ≤ 6) : utf8Length t ≤ 6 * utf8Units c := by omega
  unfold jsonUnit
  split_ifs with h1 h2 h3 h4 h5 h6 h7 h8
  · exact hshort _ (by decide)
  · exact hshort _ (by decide)
  · exact hshort _ (by decide)
  · exact hshort _ (by decide)
  · exact hshort _ (by decide)
  · exact hshort _ (by decide)
  · exact hshort _ (by decide)
  · have hc : c.val < 32 := h8
    refine hshort _ (le_of_eq ?_)
    rw [utf8Length_append, utf8Length_ascii [_, _]]
    · rfl
    · exact List.forall_mem_cons.mpr ⟨hexDigit_ascii _ (by omega), List.forall_mem_singleton.mpr (hexDigit_ascii _ (by omega))⟩
  · rw [show utf8Length [c] = utf8Units c from Nat.add_zero _]
    omega

theorem utf8Length_jsonLone (c : CodeUnit) : utf8Length (jsonLone c) ≤ 6 * utf8Units c := by
  unfold jsonLone
  split
  · have hc := c.isLt
    have hpos := utf8Units_pos c
    have hdigits : ∀ d ∈ [hexDigit (c.val / 4096), hexDigit (c.val / 256 % 16), hexDigit (c.val / 16 % 16),
      hexDigit (c.val % 16)],
        d.val < 0x80 := by
      simp only [List.forall_mem_cons, List.not_mem_nil, false_implies, implies_true, and_true]
      exact ⟨hexDigit_ascii _ (by omega), hexDigit_ascii _ (by omega), hexDigit_ascii _ (by omega), hexDigit_ascii _ (by omega)⟩
    rw [utf8Length_append, utf8Length_ascii _ hdigits, show utf8Length (lit "\\u") = 2 from rfl]
    simp only [List.length_cons, List.length_nil]
    omega
  · exact utf8Length_jsonUnit c

theorem utf8Length_jsonText (s : JsString) : utf8Length (jsonText s) ≤ 6 * utf8Length s + 2 := by
  have hunits : utf8Length (jsonUnits s) ≤ 6 * utf8Length s := by
    induction s using jsonUnits.induct with
    | case1 => exact Nat.le_refl 0
    | case2 c =>
      rw [jsonUnits, show utf8Length [c] = utf8Units c from Nat.add_zero _]
      exact utf8Length_jsonLone c
    | case3 high low rest hpair ih =>
      rw [jsonUnits, if_pos hpair]
      simp only [utf8Length_cons]
      omega
    | case4 high low rest hpair ih =>
      have hhigh := utf8Length_jsonLone high
      rw [jsonUnits, if_neg hpair, utf8Length_append, utf8Length_cons high]
      omega
  rw [jsonText, utf8Length_append, utf8Length_append, show utf8Length (lit "\"") = 1 from rfl]
  omega

/-- ASCII that `JSON.stringify` leaves as it is. -/
def isPlain (c : CodeUnit) : Bool := 32 ≤ c.val && c.val < 128 && c.val ≠ 34 && c.val ≠ 92

theorem isPlain_ascii (c : CodeUnit) (h : isPlain c = true) : c.val < 0x80 := by
  simp only [isPlain, Bool.and_eq_true, decide_eq_true_eq] at h
  exact h.1.1.2

theorem jsonLone_plain (c : CodeUnit) (h : isPlain c = true) : jsonLone c = [c] := by
  simp only [isPlain, Bool.and_eq_true, decide_eq_true_eq] at h
  have hne (n : CodeUnit) (hn : n.val ≠ c.val) : ¬ c = n := fun heq => hn (congrArg Fin.val heq).symm
  have hlow : ¬ c < 32 := fun hlt => absurd (show c.val < 32 from hlt) (by omega)
  unfold jsonLone
  rw [isSurrogate_of_lt c (by omega), if_neg (by decide), jsonUnit, if_neg (hne 34 (Ne.symm h.1.2)),
    if_neg (hne 92 (Ne.symm h.2)),
    if_neg (hne 8 (by show 8 ≠ c.val; omega)), if_neg (hne 12 (by show 12 ≠ c.val; omega)),
    if_neg (hne 10 (by show 10 ≠ c.val; omega)), if_neg (hne 13 (by show 13 ≠ c.val; omega)),
    if_neg (hne 9 (by show 9 ≠ c.val; omega)), if_neg hlow]

theorem jsonUnits_plain (s : JsString) (h : ∀ c ∈ s, isPlain c = true) : jsonUnits s = s := by
  induction s using jsonUnits.induct with
  | case1 => rfl
  | case2 c => exact jsonLone_plain c (h c (List.mem_singleton_self c))
  | case3 high low rest hpair ih =>
    obtain ⟨-, hrest⟩ := List.forall_mem_cons.mp h
    rw [jsonUnits, if_pos hpair, ih (List.forall_mem_cons.mp hrest).2]
  | case4 high low rest hpair ih =>
    obtain ⟨hhigh, hrest⟩ := List.forall_mem_cons.mp h
    rw [jsonUnits, if_neg hpair, ih hrest, jsonLone_plain high hhigh]
    rfl

theorem utf8Length_jsonText_plain (s : JsString) (h : ∀ c ∈ s, isPlain c = true) : utf8Length (jsonText s) = s.length + 2 := by
  rw [jsonText, jsonUnits_plain s h, utf8Length_append, utf8Length_append,
    utf8Length_ascii s fun c hc => isPlain_ascii c (h c hc), show utf8Length (lit "\"") = 1 from rfl]
  omega

theorem utf8Length_decimal_le (n k : ℕ) (hk : 0 < k) (h : n < 10 ^ k) : utf8Length (decimal n) ≤ k := by
  rw [utf8Length_ascii _ (decimal_ascii n)]
  exact decimal_length_le n k hk h

theorem utf8Length_jsonArray (items : List JsString) :
    utf8Length (jsonArray items) ≤ (items.map fun item => utf8Length item + 1).sum + 2 := by
  have hcommas (texts : List JsString) : utf8Length (commaTexts texts) = (texts.map fun item => utf8Length item + 1).sum := by
    induction texts with
    | nil => rfl
    | cons item rest ih =>
      show utf8Length (44 :: item ++ commaTexts rest) = _
      rw [List.cons_append, utf8Length_cons, utf8Length_append, ih, List.map_cons, List.sum_cons,
        show utf8Units 44 = 1 from rfl]
      omega
  unfold jsonArray
  rw [utf8Length_append, utf8Length_append, show utf8Length (lit "[") = 1 from rfl, show utf8Length (lit "]") = 1 from rfl]
  cases items with
  | nil => exact Nat.le_refl 2
  | cons item rest =>
    rw [intercalate_eq, utf8Length_append, hcommas, List.map_cons, List.sum_cons]
    omega

end MoeNG.Store
