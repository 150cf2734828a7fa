import MoeNG.Kernel.WellFormed

/-!
# Reading UTF-8

`new TextDecoder("utf-8", { fatal: true })`: no overlong form, no surrogate and
no value over U+10FFFF, and nothing that ends inside a sequence.
-/

namespace MoeNG.Kernel

/-! ### Sequences -/

def isTrail (b : Byte) : Bool := 0x80 ≤ b.val ∧ b.val ≤ 0xBF

def isPair (a b : Byte) : Bool := (0xC2 ≤ a.val ∧ a.val ≤ 0xDF) && isTrail b

-- `E0` is followed by `A0` at least, and `ED` by `9F` at most
def isTriple (a b c : Byte) : Bool :=
  (0xE0 ≤ a.val ∧ a.val ≤ 0xEF) && isTrail b && isTrail c && (a.val = 0xE0 → 0xA0 ≤ b.val) && (a.val = 0xED → b.val ≤ 0x9F)

-- `F0` is followed by `90` at least, and `F4` by `8F` at most
def isQuad (a b c d : Byte) : Bool :=
  (0xF0 ≤ a.val ∧ a.val ≤ 0xF4) && isTrail b && isTrail c && isTrail d && (a.val = 0xF0 → 0x90 ≤ b.val) &&
    (a.val = 0xF4 → b.val ≤ 0x8F)

def pairValue (a b : Byte) : CodePoint := Fin.ofNat 0x110000 ((a.val - 0xC0) * 64 + (b.val - 0x80))

def tripleValue (a b c : Byte) : CodePoint :=
  Fin.ofNat 0x110000 ((a.val - 0xE0) * 4096 + (b.val - 0x80) * 64 + (c.val - 0x80))

def quadValue (a b c d : Byte) : CodePoint :=
  Fin.ofNat 0x110000 ((a.val - 0xF0) * 262144 + (b.val - 0x80) * 4096 + (c.val - 0x80) * 64 + (d.val - 0x80))

def decodePoints : List Byte → Option (List CodePoint)
  | [] => some []
  | a :: rest =>
    if a.val < 0x80 then (decodePoints rest).map (Fin.ofNat 0x110000 a.val :: ·)
    else
      match rest with
      | [] => none
      | b :: rest =>
        if isPair a b then (decodePoints rest).map (pairValue a b :: ·)
        else
          match rest with
          | [] => none
          | c :: rest =>
            if isTriple a b c then (decodePoints rest).map (tripleValue a b c :: ·)
            else
              match rest with
              | [] => none
              | d :: rest => if isQuad a b c d then (decodePoints rest).map (quadValue a b c d :: ·) else none

/-- The text of the bytes, a byte order mark included. -/
def decodeText (bytes : List Byte) : Option JsString := (decodePoints bytes).map (List.flatMap pointUnits)

/-- `decode` without `ignoreBOM`: one byte order mark in front is dropped. -/
def decodeTextAfterMark : List Byte → Option JsString
  | 0xEF :: 0xBB :: 0xBF :: rest => decodeText rest
  | bytes => decodeText bytes

example : decodeText (utf8 [0x61, 0xD83D, 0xDE00, 0x20AC]) = some [0x61, 0xD83D, 0xDE00, 0x20AC] := by decide
example : decodeText [0xC0, 0x80] = none ∧ decodeText [0xED, 0xA0, 0x80] = none := by decide

/-! ### A sequence and its code point -/

theorem isPair_iff (a b : Byte) :
    isPair a b = true ↔ (0xC2 ≤ a.val ∧ a.val ≤ 0xDF) ∧ 0x80 ≤ b.val ∧ b.val ≤ 0xBF := by
  simp [isPair, isTrail]

theorem isTriple_iff (a b c : Byte) :
    isTriple a b c = true ↔ (0xE0 ≤ a.val ∧ a.val ≤ 0xEF) ∧ (0x80 ≤ b.val ∧ b.val ≤ 0xBF) ∧ (0x80 ≤ c.val ∧ c.val ≤ 0xBF)
      ∧ (a.val = 0xE0 → 0xA0 ≤ b.val) ∧ (a.val = 0xED → b.val ≤ 0x9F) := by
  simp [isTriple, isTrail, and_assoc, imp_iff_not_or]

theorem isQuad_iff (a b c d : Byte) :
    isQuad a b c d = true ↔ (0xF0 ≤ a.val ∧ a.val ≤ 0xF4) ∧ (0x80 ≤ b.val ∧ b.val ≤ 0xBF) ∧ (0x80 ≤ c.val ∧ c.val ≤ 0xBF)
      ∧ (0x80 ≤ d.val ∧ d.val ≤ 0xBF) ∧ (a.val = 0xF0 → 0x90 ≤ b.val) ∧ (a.val = 0xF4 → b.val ≤ 0x8F) := by
  simp [isQuad, isTrail, and_assoc, imp_iff_not_or]

theorem octet_eq (n : ℕ) (b : Byte) (h : n = b.val) : octet n = b := by
  subst h
  exact Fin.ext (Nat.mod_eq_of_lt b.isLt)

theorem single_spec (a : Byte) (h : a.val < 0x80) :
    pointBytes (Fin.ofNat 0x110000 a.val) = [a] ∧ isScalar (Fin.ofNat 0x110000 a.val) := by
  have hval : (Fin.ofNat 0x110000 a.val).val = a.val := Nat.mod_eq_of_lt (by omega)
  refine ⟨?_, Or.inl (by omega)⟩
  unfold pointBytes
  dsimp only
  rw [hval, if_pos h, octet_eq _ a rfl]

theorem pair_spec (a b : Byte) (h : isPair a b = true) : pointBytes (pairValue a b) = [a, b] ∧ isScalar (pairValue a b) := by
  obtain ⟨ha, hb⟩ := (isPair_iff a b).mp h
  have hval : (pairValue a b).val = (a.val - 0xC0) * 64 + (b.val - 0x80) := Nat.mod_eq_of_lt (by omega)
  refine ⟨?_, Or.inl (by omega)⟩
  unfold pointBytes
  dsimp only
  rw [hval, if_neg (by omega), if_pos (by omega), octet_eq _ a (by omega), octet_eq _ b (by omega)]

theorem triple_spec (a b c : Byte) (h : isTriple a b c = true) :
    pointBytes (tripleValue a b c) = [a, b, c] ∧ isScalar (tripleValue a b c) := by
  obtain ⟨ha, hb, hc, hlow, hhigh⟩ := (isTriple_iff a b c).mp h
  have hval : (tripleValue a b c).val = (a.val - 0xE0) * 4096 + (b.val - 0x80) * 64 + (c.val - 0x80) :=
    Nat.mod_eq_of_lt (by omega)
  have hscalar : isScalar (tripleValue a b c) := by
    unfold isScalar
    omega
  refine ⟨?_, hscalar⟩
  unfold pointBytes
  dsimp only
  rw [hval, if_neg (by omega), if_neg (by omega), if_pos (by omega), octet_eq _ a (by omega), octet_eq _ b (by omega),
    octet_eq _ c (by omega)]

theorem quad_spec (a b c d : Byte) (h : isQuad a b c d = true) :
    pointBytes (quadValue a b c d) = [a, b, c, d] ∧ isScalar (quadValue a b c d) := by
  obtain ⟨ha, hb, hc, hd, hlow, hhigh⟩ := (isQuad_iff a b c d).mp h
  have hval : (quadValue a b c d).val
      = (a.val - 0xF0) * 262144 + (b.val - 0x80) * 4096 + (c.val - 0x80) * 64 + (d.val - 0x80) := Nat.mod_eq_of_lt (by omega)
  refine ⟨?_, Or.inr (by omega)⟩
  unfold pointBytes
  dsimp only
  rw [hval, if_neg (by omega), if_neg (by omega), if_neg (by omega), octet_eq _ a (by omega), octet_eq _ b (by omega),
    octet_eq _ c (by omega), octet_eq _ d (by omega)]

/-! ### What is decoded was encoded -/

theorem decodePoints_single (a : Byte) (rest : List Byte) (h : a.val < 0x80) :
    decodePoints (a :: rest) = (decodePoints rest).map (Fin.ofNat 0x110000 a.val :: ·) := by
  rw [decodePoints.eq_def]
  dsimp only
  rw [if_pos h]

theorem decodePoints_pair (a b : Byte) (rest : List Byte) (h : isPair a b = true) :
    decodePoints (a :: b :: rest) = (decodePoints rest).map (pairValue a b :: ·) := by
  have hlead := (isPair_iff a b).mp h
  rw [decodePoints.eq_def]
  dsimp only
  rw [if_neg (by omega), if_pos h]

theorem decodePoints_triple (a b c : Byte) (rest : List Byte) (h : isTriple a b c = true) :
    decodePoints (a :: b :: c :: rest) = (decodePoints rest).map (tripleValue a b c :: ·) := by
  have hlead := (isTriple_iff a b c).mp h
  have hpair : ¬ isPair a b = true := by
    rw [isPair_iff]
    omega
  rw [decodePoints.eq_def]
  dsimp only
  rw [if_neg (by omega), if_neg hpair, if_pos h]

theorem decodePoints_quad (a b c d : Byte) (rest : List Byte) (h : isQuad a b c d = true) :
    decodePoints (a :: b :: c :: d :: rest) = (decodePoints rest).map (quadValue a b c d :: ·) := by
  have hlead := (isQuad_iff a b c d).mp h
  have hpair : ¬ isPair a b = true := by
    rw [isPair_iff]
    omega
  have htriple : ¬ isTriple a b c = true := by
    rw [isTriple_iff]
    omega
  rw [decodePoints.eq_def]
  dsimp only
  rw [if_neg (by omega), if_neg hpair, if_neg htriple, if_pos h]

theorem decodePoints_sound (bytes : List Byte) (points : List CodePoint) (h : decodePoints bytes = some points) :
    points.flatMap pointBytes = bytes ∧ ∀ p ∈ points, isScalar p := by
  have hstep (p : CodePoint) (front rest : List Byte) (points : List CodePoint)
      (hp : pointBytes p = front ∧ isScalar p) (h : (decodePoints rest).map (p :: ·) = some points)
      (ih : ∀ more, decodePoints rest = some more → more.flatMap pointBytes = rest ∧ ∀ q ∈ more, isScalar q) :
      points.flatMap pointBytes = front ++ rest ∧ ∀ q ∈ points, isScalar q := by
    obtain ⟨more, hmore, rfl⟩ := Option.map_eq_some_iff.mp h
    obtain ⟨hbytes, hscalar⟩ := ih more hmore
    rw [List.flatMap_cons, hp.1, hbytes]
    exact ⟨rfl, List.forall_mem_cons.mpr ⟨hp.2, hscalar⟩⟩
  induction bytes using decodePoints.induct generalizing points with
  | case1 =>
    obtain rfl := Option.some.inj h
    exact ⟨rfl, nofun⟩
  | case2 a rest ha ih => exact hstep _ [a] rest points (single_spec a ha) (decodePoints_single a rest ha ▸ h) ih
  | case4 a ha b rest hb ih => exact hstep _ [a, b] rest points (pair_spec a b hb) (decodePoints_pair a b rest hb ▸ h) ih
  | case6 a ha b hb c rest hc ih =>
    exact hstep _ [a, b, c] rest points (triple_spec a b c hc) (decodePoints_triple a b c rest hc ▸ h) ih
  | case8 a ha b hb c hc d rest hd ih =>
    exact hstep _ [a, b, c, d] rest points (quad_spec a b c d hd) (decodePoints_quad a b c d rest hd ▸ h) ih
  | case3 a ha => simp [decodePoints.eq_def, ha] at h
  | case5 a ha b hb => simp [decodePoints.eq_def, ha, hb] at h
  | case7 a ha b hb c hc => simp [decodePoints.eq_def, ha, hb, hc] at h
  | case9 a ha b hb c hc d rest hd => simp [decodePoints.eq_def, ha, hb, hc, hd] at h

theorem octet_val (n : ℕ) (h : n < 256) : (octet n).val = n := Nat.mod_eq_of_lt h

theorem decodePoints_pointBytes (p : CodePoint) (rest : List Byte) (h : isScalar p) :
    decodePoints (pointBytes p ++ rest) = (decodePoints rest).map (p :: ·) := by
  have hp := p.isLt
  unfold isScalar at h
  unfold pointBytes
  dsimp only
  split_ifs with h1 h2 h3
  · have hval := octet_val p.val (by omega)
    rw [List.singleton_append, decodePoints_single _ _ (by omega), hval]
    rw [show Fin.ofNat 0x110000 p.val = p from Fin.ext (Nat.mod_eq_of_lt hp)]
  · have ha := octet_val (0xC0 + p.val / 64) (by omega)
    have hb := octet_val (0x80 + p.val % 64) (by omega)
    show decodePoints (_ :: _ :: rest) = _
    rw [decodePoints_pair _ _ _ ((isPair_iff _ _).mpr (by omega))]
    rw [show pairValue _ _ = p from Fin.ext (by rw [pairValue, ha, hb, Fin.val_ofNat]; omega)]
  · have ha := octet_val (0xE0 + p.val / 4096) (by omega)
    have hb := octet_val (0x80 + p.val / 64 % 64) (by omega)
    have hc := octet_val (0x80 + p.val % 64) (by omega)
    show decodePoints (_ :: _ :: _ :: rest) = _
    rw [decodePoints_triple _ _ _ _ ((isTriple_iff _ _ _).mpr (by omega))]
    rw [show tripleValue _ _ _ = p from Fin.ext (by rw [tripleValue, ha, hb, hc, Fin.val_ofNat]; omega)]
  · have ha := octet_val (0xF0 + p.val / 262144) (by omega)
    have hb := octet_val (0x80 + p.val / 4096 % 64) (by omega)
    have hc := octet_val (0x80 + p.val / 64 % 64) (by omega)
    have hd := octet_val (0x80 + p.val % 64) (by omega)
    show decodePoints (_ :: _ :: _ :: _ :: rest) = _
    rw [decodePoints_quad _ _ _ _ _ ((isQuad_iff _ _ _ _).mpr (by omega))]
    rw [show quadValue _ _ _ _ = p from Fin.ext (by rw [quadValue, ha, hb, hc, hd, Fin.val_ofNat]; omega)]

theorem decodePoints_complete (points : List CodePoint) (h : ∀ p ∈ points, isScalar p) :
    decodePoints (points.flatMap pointBytes) = some points := by
  induction points with
  | nil => rfl
  | cons p rest ih =>
    obtain ⟨hp, hrest⟩ := List.forall_mem_cons.mp h
    rw [List.flatMap_cons, decodePoints_pointBytes p _ hp, ih hrest]
    rfl

/-- Exactly the encodings of well-formed strings are decoded. -/
theorem decodeText_eq_some_iff (bytes : List Byte) (s : JsString) :
    decodeText bytes = some s ↔ wellFormed s = true ∧ utf8 s = bytes := by
  unfold decodeText
  rw [Option.map_eq_some_iff]
  constructor
  · rintro ⟨points, hpoints, rfl⟩
    obtain ⟨hbytes, hscalar⟩ := decodePoints_sound bytes points hpoints
    obtain ⟨hwellFormed, hcodes⟩ := units_spec points hscalar
    rw [utf8, hcodes]
    exact ⟨hwellFormed, hbytes⟩
  · rintro ⟨hwellFormed, rfl⟩
    exact ⟨codePoints s, decodePoints_complete _ (codePoints_scalar s), codePoints_units s hwellFormed⟩

/-- A part in front of an encoding that is itself an encoding encodes a part in front of the string. -/
theorem utf8_prefix (s t : JsString) (hs : wellFormed s = true) (ht : wellFormed t = true) (h : utf8 t <+: utf8 s) : t <+: s := by
  obtain ⟨tail, htail⟩ := pointBytes_prefixCode.flatMap_prefix pointBytes_ne_nil _ _ h
  rw [← toWellFormed_of_wellFormed s hs, ← toWellFormed_of_wellFormed t ht, toWellFormed, toWellFormed, ← htail,
    List.flatMap_append]
  exact List.prefix_append ..

theorem utf8_cons (c : CodeUnit) (rest : JsString) (hc : c.val < 0x80) : utf8 (c :: rest) = octet c.val :: utf8 rest := by
  rw [utf8, codePoints_cons c rest (isSurrogate_of_lt c (by omega)), List.flatMap_cons, pointBytes, unitPoint_val c (by omega),
    if_pos hc]
  rfl

theorem decodeTextAfterMark_ascii (a : Byte) (rest : List Byte) (ha : a.val < 0x80) :
    decodeTextAfterMark (a :: rest) = decodeText (a :: rest) := by
  unfold decodeTextAfterMark
  split
  · rename_i heq
    have hval := congrArg Fin.val (List.cons.inj heq).1
    have h239 : (0xEF : Byte).val = 239 := rfl
    omega
  · rfl

theorem decodeTextAfterMark_utf8 (c : CodeUnit) (rest : JsString) (hc : c.val < 0x80) (h : wellFormed (c :: rest) = true) :
    decodeTextAfterMark (utf8 (c :: rest)) = some (c :: rest) := by
  have hdecode := (decodeText_eq_some_iff (utf8 (c :: rest)) (c :: rest)).mpr ⟨h, rfl⟩
  rw [utf8_cons c rest hc] at hdecode ⊢
  rw [decodeTextAfterMark_ascii _ _ (by rw [octet_val _ (by omega)]; exact hc)]
  exact hdecode

end MoeNG.Kernel
