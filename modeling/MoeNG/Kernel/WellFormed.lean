import MoeNG.Kernel.JsonCode

/-!
# Well-formed strings

The code points of a string are scalar values, and a string of scalar values is
well formed. `toWellFormed` replaces every surrogate that stands alone.
-/

namespace MoeNG.Kernel

/-! ### Code points -/

def isScalar (p : CodePoint) : Prop := p.val < 0xD800 ∨ 0xE000 ≤ p.val

theorem isSurrogate_iff (c : CodeUnit) : isSurrogate c = true ↔ 0xD800 ≤ c.val ∧ c.val ≤ 0xDFFF := by
  simp only [isSurrogate, isHighSurrogate, isLowSurrogate, Bool.or_eq_true, decide_eq_true_eq, Fin.le_def]
  have h1 : (0xD800 : CodeUnit).val = 0xD800 := rfl
  have h2 : (0xDBFF : CodeUnit).val = 0xDBFF := rfl
  have h3 : (0xDC00 : CodeUnit).val = 0xDC00 := rfl
  have h4 : (0xDFFF : CodeUnit).val = 0xDFFF := rfl
  omega

theorem unitPoint_eq (c : CodeUnit) (hc : isSurrogate c = false) : unitPoint c = Fin.ofNat 0x110000 c := by
  unfold unitPoint
  unfold isSurrogate at hc
  rw [hc]
  rfl

theorem unitPoint_scalar (c : CodeUnit) : isScalar (unitPoint c) := by
  cases hc : isSurrogate c with
  | true =>
    unfold isSurrogate at hc
    rw [unitPoint, if_pos hc]
    exact Or.inr (by decide)
  | false =>
    have hval := mt (isSurrogate_iff c).mpr (Bool.eq_false_iff.mp hc)
    rw [unitPoint_eq c hc]
    show c.val % 0x110000 < 0xD800 ∨ 0xE000 ≤ c.val % 0x110000
    omega

theorem pairPoint_val (high low : CodeUnit) (hh : isHighSurrogate high = true) (hl : isLowSurrogate low = true) :
    0x10000 ≤ (pairPoint high low).val := by
  simp only [isHighSurrogate, isLowSurrogate, decide_eq_true_eq] at hh hl
  have hhigh : 0xD800 ≤ high.val ∧ high.val ≤ 0xDBFF := hh
  have hlow : 0xDC00 ≤ low.val ∧ low.val ≤ 0xDFFF := hl
  show 0x10000 ≤ (0x10000 + (high.val - 0xD800) * 1024 + (low.val - 0xDC00)) % 0x110000
  omega

theorem codePoints_scalar (s : JsString) : ∀ p ∈ codePoints s, isScalar p := by
  induction s using codePoints.induct with
  | case1 => exact fun p hp => absurd hp List.not_mem_nil
  | case2 c =>
    intro p hp
    rw [List.mem_singleton.mp hp]
    exact unitPoint_scalar c
  | case3 high low rest hpair ih =>
    rw [codePoints, if_pos hpair]
    have hboth := Bool.and_eq_true_iff.mp hpair
    have hval := pairPoint_val high low hboth.1 hboth.2
    exact List.forall_mem_cons.mpr ⟨Or.inr (by omega), ih⟩
  | case4 high low rest hpair ih =>
    rw [codePoints, if_neg hpair]
    exact List.forall_mem_cons.mpr ⟨unitPoint_scalar high, ih⟩

theorem codePoints_cons (c : CodeUnit) (t : JsString) (hc : isSurrogate c = false) :
    codePoints (c :: t) = unitPoint c :: codePoints t := codePoints_append_cons [] t c hc

theorem codePoints_append_wellFormed (s t : JsString) (h : wellFormed s = true) : codePoints (s ++ t)
    = codePoints s ++ codePoints t := by
  induction s using codePoints.induct with
  | case1 => rfl
  | case2 c =>
    have hc : isSurrogate c = false := by simpa [wellFormed] using h
    exact codePoints_cons c t hc
  | case3 high low rest hpair ih =>
    rw [wellFormed, if_pos hpair] at h
    rw [List.cons_append, List.cons_append, codePoints, codePoints, if_pos hpair, if_pos hpair, ih h, List.cons_append]
  | case4 high low rest hpair ih =>
    rw [wellFormed, if_neg hpair, Bool.and_eq_true, Bool.not_eq_true'] at h
    rw [List.cons_append, codePoints_cons high _ h.1, ih h.2, codePoints, if_neg hpair, List.cons_append]

theorem highUnit (n : ℕ) (h : n < 1024) : isHighSurrogate (Fin.ofNat 65536 (0xD800 + n)) = true := by
  have hval : (Fin.ofNat 65536 (0xD800 + n)).val = 0xD800 + n := by
    show (0xD800 + n) % 65536 = _
    omega
  simp only [isHighSurrogate, decide_eq_true_eq, Fin.le_def, hval]
  have h1 : (0xD800 : CodeUnit).val = 0xD800 := rfl
  have h2 : (0xDBFF : CodeUnit).val = 0xDBFF := rfl
  omega

theorem lowUnit (n : ℕ) (h : n < 1024) : isLowSurrogate (Fin.ofNat 65536 (0xDC00 + n)) = true := by
  have hval : (Fin.ofNat 65536 (0xDC00 + n)).val = 0xDC00 + n := by
    show (0xDC00 + n) % 65536 = _
    omega
  simp only [isLowSurrogate, decide_eq_true_eq, Fin.le_def, hval]
  have h1 : (0xDC00 : CodeUnit).val = 0xDC00 := rfl
  have h2 : (0xDFFF : CodeUnit).val = 0xDFFF := rfl
  omega

/-- The units of a code point that is no surrogate. -/
theorem pointUnits_spec (p : CodePoint) (h : isScalar p) (t : JsString) :
    wellFormed (pointUnits p ++ t) = wellFormed t ∧ codePoints (pointUnits p ++ t) = p :: codePoints t := by
  have hp := p.isLt
  unfold pointUnits
  split
  · rename_i hsmall
    have hval : (Fin.ofNat 65536 p.val).val = p.val := Nat.mod_eq_of_lt hsmall
    have hc : isSurrogate (Fin.ofNat 65536 p.val) = false := by
      rw [Bool.eq_false_iff, ne_eq, isSurrogate_iff, hval]
      rcases h with h | h <;> omega
    rw [List.singleton_append, wellFormed_cons _ t hc, codePoints_cons _ t hc, unitPoint_eq _ hc]
    exact ⟨rfl, congrArg (· :: codePoints t) (Fin.ext (show (Fin.ofNat 65536 p.val).val % 0x110000 = p.val by omega))⟩
  · rename_i hlarge
    have hhigh := highUnit ((p.val - 0x10000) / 1024) (by omega)
    have hlow := lowUnit ((p.val - 0x10000) % 1024) (by omega)
    have hpair : pairPoint (Fin.ofNat 65536 (0xD800 + (p.val - 0x10000) / 1024))
      (Fin.ofNat 65536 (0xDC00 + (p.val - 0x10000) % 1024))
        = p := by
      refine Fin.ext ?_
      show (0x10000 + ((0xD800 + (p.val - 0x10000) / 1024) % 65536 - 0xD800) * 1024
        + ((0xDC00 + (p.val - 0x10000) % 1024) % 65536 - 0xDC00)) % 0x110000 = p.val
      omega
    rw [List.cons_append, List.singleton_append, wellFormed, codePoints, hhigh, hlow, hpair]
    exact ⟨rfl, rfl⟩

theorem units_spec (points : List CodePoint) (h : ∀ p ∈ points, isScalar p) :
    wellFormed (points.flatMap pointUnits) = true ∧ codePoints (points.flatMap pointUnits) = points := by
  induction points with
  | nil => exact ⟨rfl, rfl⟩
  | cons p rest ih =>
    obtain ⟨hp, hrest⟩ := List.forall_mem_cons.mp h
    obtain ⟨hwellFormed, hpoints⟩ := ih hrest
    obtain ⟨hfirst, hcodes⟩ := pointUnits_spec p hp (rest.flatMap pointUnits)
    rw [List.flatMap_cons, hfirst, hcodes, hpoints]
    exact ⟨hwellFormed, rfl⟩

/-! ### `String.prototype.toWellFormed` -/

def toWellFormed (s : JsString) : JsString := (codePoints s).flatMap pointUnits

theorem codePoints_toWellFormed (s : JsString) : codePoints (toWellFormed s) = codePoints s :=
  (units_spec _ (codePoints_scalar s)).2

theorem toWellFormed_of_wellFormed (s : JsString) (h : wellFormed s = true) : toWellFormed s = s := codePoints_units s h

/-- The encoder tells strings apart as far as their well-formed versions differ. -/
theorem utf8_eq_iff_toWellFormed (s t : JsString) : utf8 s = utf8 t ↔ toWellFormed s = toWellFormed t := by
  rw [utf8_eq_iff]
  refine ⟨fun h => congrArg (List.flatMap pointUnits) h, fun h => ?_⟩
  rw [← codePoints_toWellFormed s, h, codePoints_toWellFormed t]

/-! ### Lengths -/

theorem utf8_ascii (s : JsString) (h : ∀ c ∈ s, c.val < 0x80) : utf8 s = s.map fun c => octet c.val := by
  have hplain : ∀ c ∈ s, c.val < 0xD800 := fun c hc => (h c hc).trans (by decide)
  unfold utf8
  rw [codePoints_plain s hplain, List.flatMap_map]
  induction s with
  | nil => rfl
  | cons c rest ih =>
    obtain ⟨hc, hrest⟩ := List.forall_mem_cons.mp h
    have hpoint := unitPoint_val c (hplain c (List.mem_cons_self ..))
    have hone : pointBytes (unitPoint c) = [octet c.val] := by
      unfold pointBytes
      dsimp only
      rw [hpoint, if_pos hc]
    rw [List.flatMap_cons, hone, ih hrest fun d hd => hplain d (List.mem_cons_of_mem _ hd)]
    rfl

theorem utf8_ascii_length (s : JsString) (h : ∀ c ∈ s, c.val < 0x80) : (utf8 s).length = s.length := by
  rw [utf8_ascii s h, List.length_map]

theorem decimal_length_le (n k : ℕ) (hk : 0 < k) (h : n < 10 ^ k) : (decimal n).length ≤ k := by
  unfold decimal
  split
  · exact hk
  · rw [List.length_map, List.length_reverse]
    exact (Nat.digits_length_le_iff (by decide) n).mpr h

theorem decimal_ascii (n : ℕ) : ∀ c ∈ decimal n, c.val < 0x80 := by
  intro c hc
  have h := decimal_digit n c hc
  omega

theorem utf8_decimal_length (n : ℕ) : (utf8 (decimal n)).length = (decimal n).length :=
  utf8_ascii_length _ (decimal_ascii n)

end MoeNG.Kernel
