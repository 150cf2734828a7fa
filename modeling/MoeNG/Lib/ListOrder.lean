import Mathlib.Data.List.Lex
import Mathlib.Order.Lattice
import Mathlib.Order.Monotone.Basic
import MoeNG.Lib.Codes

/-!
# Lists in lexicographic order

A prefix code that is monotone on its letters is monotone on words; and the
words with a given front are an interval whose upper end is the front with its
last letter that is not maximal raised.
-/

namespace MoeNG.Lib

/-! ### Codes -/

section Codes
variable {A S : Type} [LinearOrder S]

/-- Words of which neither begins the other are ordered whatever follows them. -/
theorem append_lt_append {l l' : List S} (h : l < l') (hfront : ¬ l <+: l') (x y : List S) : l ++ x < l' ++ y := by
  induction l generalizing l' with
  | nil => exact absurd List.nil_prefix hfront
  | cons a rest ih =>
    cases l' with
    | nil => exact absurd h (List.not_lt_nil _)
    | cons b rest' =>
      rw [List.cons_append, List.cons_append, List.cons_lt_cons_iff]
      rcases List.cons_lt_cons_iff.mp h with hab | ⟨rfl, hrest⟩
      · exact Or.inl hab
      · exact Or.inr ⟨rfl, ih hrest fun hp => hfront (List.cons_prefix_cons.mpr ⟨rfl, hp⟩)⟩

variable [LinearOrder A] {f : A → List S}

theorem PrefixCode.flatMap_lt (hf : PrefixCode f) (hword : ∀ a, f a ≠ []) (hmono : StrictMono f) {l l' : List A} (h : l < l') :
    l.flatMap f < l'.flatMap f := by
  induction l generalizing l' with
  | nil =>
    cases l' with
    | nil => exact absurd h (List.not_lt_nil _)
    | cons b rest' =>
      obtain ⟨s, tail, hs⟩ := List.exists_cons_of_ne_nil (hword b)
      rw [List.flatMap_nil, List.flatMap_cons, hs]
      exact List.nil_lt_cons _ _
  | cons a rest ih =>
    cases l' with
    | nil => exact absurd h (List.not_lt_nil _)
    | cons b rest' =>
      rw [List.flatMap_cons, List.flatMap_cons]
      rcases List.cons_lt_cons_iff.mp h with hab | ⟨rfl, hrest⟩
      · refine append_lt_append (hmono hab) ?_ _ _
        rintro ⟨tail, htail⟩
        obtain ⟨rfl, -⟩ := hf a b tail [] (by rw [htail, List.append_nil])
        exact lt_irrefl a hab
      · exact List.append_left_lt (ih hrest)

theorem PrefixCode.flatMap_lt_iff (hf : PrefixCode f) (hword : ∀ a, f a ≠ []) (hmono : StrictMono f) (l l' : List A) :
    l.flatMap f < l'.flatMap f ↔ l < l' :=
  StrictMono.lt_iff_lt fun _ _ h => hf.flatMap_lt hword hmono h

theorem PrefixCode.flatMap_le_iff (hf : PrefixCode f) (hword : ∀ a, f a ≠ []) (hmono : StrictMono f) (l l' : List A) :
    l.flatMap f ≤ l'.flatMap f ↔ l ≤ l' :=
  StrictMono.le_iff_le fun _ _ h => hf.flatMap_lt hword hmono h

end Codes

/-! ### Fronts -/

section Fronts
variable {A : Type} [LinearOrder A]

theorem cons_le_iff (a b : A) (l l' : List A) : a :: l ≤ b :: l' ↔ a < b ∨ a = b ∧ l ≤ l' := by
  rw [← not_lt, List.cons_lt_cons_iff, not_or, not_and, not_lt, not_lt]
  constructor
  · rintro ⟨hle, htail⟩
    exact hle.lt_or_eq.imp_right fun heq => ⟨heq, htail heq.symm⟩
  · rintro (hlt | ⟨rfl, htail⟩)
    · exact ⟨hlt.le, fun heq => absurd heq (ne_of_gt hlt)⟩
    · exact ⟨le_rfl, fun _ => htail⟩

/-- Between a front and a word that begins with it every word begins with it. -/
theorem prefix_between (front l tail : List A) (hlow : front ≤ l) (hhigh : l ≤ front ++ tail) : front <+: l := by
  induction front generalizing l with
  | nil => exact List.nil_prefix
  | cons a front ih =>
    cases l with
    | nil => exact absurd hlow (not_le.mpr (List.nil_lt_cons a front))
    | cons b l =>
      rw [cons_le_iff] at hlow
      rw [List.cons_append, cons_le_iff] at hhigh
      obtain hlt | ⟨rfl, hlow⟩ := hlow
      · obtain hgt | ⟨rfl, -⟩ := hhigh
        · exact absurd hgt hlt.asymm
        · exact absurd hlt (lt_irrefl _)
      · obtain hgt | ⟨-, hhigh⟩ := hhigh
        · exact absurd hgt (lt_irrefl _)
        · exact List.cons_prefix_cons.mpr ⟨rfl, ih l hlow hhigh⟩

theorem prefix_le (front tail : List A) : front ≤ front ++ tail := by
  induction front with
  | nil => exact not_lt.mp (List.not_lt_nil _)
  | cons a front ih =>
    rw [List.cons_append, cons_le_iff]
    exact .inr ⟨rfl, ih⟩

/-- From a word of greatest letters on every word begins with it. -/
theorem tops_le_iff {tops l : List A} (htops : ∀ t ∈ tops, ∀ x ∈ l, x ≤ t) : tops ≤ l ↔ tops <+: l := by
  induction tops generalizing l with
  | nil => exact iff_of_true (not_lt.mp (List.not_lt_nil l)) List.nil_prefix
  | cons t tops ih =>
    cases l with
    | nil => simp
    | cons x rest =>
      have hrest := ih fun t' ht' y hy => htops t' (List.mem_cons_of_mem _ ht') y (List.mem_cons_of_mem _ hy)
      have hle := htops t (List.mem_cons_self ..) x (List.mem_cons_self ..)
      rw [cons_le_iff, List.cons_prefix_cons, hrest]
      exact ⟨fun h => h.elim (fun hlt => absurd hle (not_le.mpr hlt)) id, Or.inr⟩

/-- The words between a front and its raised front are those that begin with it. -/
theorem front_range_iff {front tops l : List A} {c d : A} (htops : ∀ t ∈ tops, ∀ x ∈ l, x ≤ t) (hcover : c < d)
    (hnext : ∀ x ∈ l, x < d → x ≤ c) : front ++ c :: tops ≤ l ∧ l < front ++ [d] ↔ front ++ c :: tops <+: l := by
  induction front generalizing l with
  | nil =>
    rw [List.nil_append, List.nil_append]
    cases l with
    | nil => simp
    | cons x rest =>
      have hrest := tops_le_iff fun t ht y hy => htops t ht y (List.mem_cons_of_mem _ hy)
      rw [cons_le_iff, List.cons_lt_cons_iff, List.cons_prefix_cons, hrest]
      constructor
      · rintro ⟨hlow, hhigh⟩
        have hlt : x < d := hhigh.elim id fun h => absurd h.2 (List.not_lt_nil _)
        have hle := hnext x (List.mem_cons_self ..) hlt
        exact hlow.elim (fun hcx => absurd hle (not_le.mpr hcx)) id
      · rintro ⟨rfl, hp⟩
        exact ⟨Or.inr ⟨rfl, hp⟩, Or.inl hcover⟩
  | cons f front ih =>
    cases l with
    | nil => simp
    | cons x rest =>
      have hrest := ih (l := rest) (fun t ht y hy => htops t ht y (List.mem_cons_of_mem _ hy))
        fun y hy => hnext y (List.mem_cons_of_mem _ hy)
      rw [List.cons_append, List.cons_append, cons_le_iff, List.cons_lt_cons_iff, List.cons_prefix_cons, ← hrest]
      constructor
      · rintro ⟨hlow, hhigh⟩
        rcases hlow with hfx | ⟨rfl, hle⟩
        · exact absurd (hhigh.elim le_of_lt fun h => h.1.le) (not_le.mpr hfx)
        · exact ⟨rfl, hle, hhigh.elim (fun h => absurd h (lt_irrefl _)) fun h => h.2⟩
      · rintro ⟨rfl, hle, hlt⟩
        exact ⟨Or.inr ⟨rfl, hle⟩, Or.inr ⟨rfl, hlt⟩⟩

end Fronts

end MoeNG.Lib
