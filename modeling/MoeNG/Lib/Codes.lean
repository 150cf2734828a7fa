import Mathlib.Algebra.GroupWithZero.Nat
import Mathlib.Data.List.Basic
import Mathlib.Data.Option.Basic
import Mathlib.Tactic.Common

/-!
# Prefix codes

A printer is a prefix code when the printed value and whatever follows it can
be told apart, so that a sequence of words determines what was printed.
-/

namespace MoeNG.Lib

variable {A S : Type}

def PrefixCode (f : A → List S) : Prop := ∀ a b x y, f a ++ x = f b ++ y → a = b ∧ x = y

theorem PrefixCode.flatMap_injective {f : A → List S} (hf : PrefixCode f) (hword : ∀ a, f a ≠ []) (l l' : List A)
    (h : l.flatMap f = l'.flatMap f) : l = l' := by
  induction l generalizing l' with
  | nil =>
    cases l' with
    | nil => rfl
    | cons b rest => exact absurd (List.append_eq_nil_iff.mp h.symm).1 (hword b)
  | cons a rest ih =>
    cases l' with
    | nil => exact absurd (List.append_eq_nil_iff.mp h).1 (hword a)
    | cons b rest' =>
      obtain ⟨rfl, hrest⟩ := hf a b _ _ h
      rw [ih rest' hrest]

/-- Sequences of the same number of words, before anything. -/
theorem PrefixCode.flatMap_append_inj {f : A → List S} (hf : PrefixCode f) (l l' : List A) (x y : List S)
    (hlength : l.length = l'.length) (h : l.flatMap f ++ x = l'.flatMap f ++ y) : l = l' ∧ x = y := by
  induction l generalizing l' with
  | nil =>
    obtain rfl := List.length_eq_zero_iff.mp hlength.symm
    exact ⟨rfl, h⟩
  | cons a rest ih =>
    cases l' with
    | nil => cases hlength
    | cons b rest' =>
      rw [List.flatMap_cons, List.flatMap_cons, List.append_assoc, List.append_assoc] at h
      obtain ⟨rfl, htail⟩ := hf a b _ _ h
      obtain ⟨rfl, hxy⟩ := ih rest' (Nat.succ.inj hlength) htail
      exact ⟨rfl, hxy⟩

/-- Sequences of the same number of words that depend on their place, before anything. -/
theorem mapIdx_flatten_inj (P : A → Prop) (f : ℕ → A → List S)
    (hf : ∀ i a b x y, P a → P b → f i a ++ x = f i b ++ y → a = b ∧ x = y) (l l' : List A) (x y : List S)
    (hl : ∀ a ∈ l, P a) (hl' : ∀ a ∈ l', P a) (hlength : l.length = l'.length)
    (h : (l.mapIdx f).flatten ++ x = (l'.mapIdx f).flatten ++ y) : l = l' ∧ x = y := by
  induction l generalizing l' f with
  | nil =>
    obtain rfl := List.length_eq_zero_iff.mp hlength.symm
    exact ⟨rfl, h⟩
  | cons a rest ih =>
    cases l' with
    | nil => cases hlength
    | cons b rest' =>
      rw [List.mapIdx_cons, List.mapIdx_cons, List.flatten_cons, List.flatten_cons, List.append_assoc, List.append_assoc] at h
      obtain ⟨ha, hrest⟩ := List.forall_mem_cons.mp hl
      obtain ⟨hb, hrest'⟩ := List.forall_mem_cons.mp hl'
      obtain ⟨rfl, htail⟩ := hf 0 a b _ _ ha hb h
      obtain ⟨rfl, hxy⟩ := ih (fun i => f (i + 1)) (fun i => hf (i + 1)) rest' hrest hrest' (Nat.succ.inj hlength) htail
      exact ⟨rfl, hxy⟩

/-- Blocks of one length. -/
theorem flatMap_blocks_inj (f : A → List S) (n : ℕ) (hn : 0 < n) (hf : ∀ a, (f a).length = n) (l l' : List A)
    (h : l.flatMap f = l'.flatMap f) : l.map f = l'.map f := by
  have hword (a : A) : f a ≠ [] := List.ne_nil_of_length_pos (by rw [hf]; exact hn)
  induction l generalizing l' with
  | nil =>
    cases l' with
    | nil => rfl
    | cons b rest => exact absurd (List.append_eq_nil_iff.mp h.symm).1 (hword b)
  | cons a rest ih =>
    cases l' with
    | nil => exact absurd (List.append_eq_nil_iff.mp h).1 (hword a)
    | cons b rest' =>
      obtain ⟨hblock, hrest⟩ := List.append_inj h ((hf a).trans (hf b).symm)
      rw [List.map_cons, List.map_cons, hblock, ih rest' hrest]

theorem intercalate_snoc (separator : List S) (words : List (List S)) (last : List S) :
    separator.intercalate (words ++ [last]) = words.flatMap (· ++ separator) ++ last := by
  induction words with
  | nil => simp
  | cons word rest ih =>
    cases rest with
    | nil => simp [List.intercalate]
    | cons next rest =>
      rw [List.cons_append, List.cons_append, List.intercalate_cons_cons, ← List.cons_append, ih]
      simp only [List.flatMap_cons, List.append_assoc]

/-- Two words without the separator, each followed by it. -/
theorem append_separator_inj (stop : S) (l l' x y : List S) (hl : stop ∉ l) (hl' : stop ∉ l')
    (h : l ++ stop :: x = l' ++ stop :: y) : l = l' ∧ x = y := by
  induction l generalizing l' with
  | nil =>
    cases l' with
    | nil => exact ⟨rfl, (List.cons.inj h).2⟩
    | cons s rest => exact absurd (List.mem_cons.mpr (Or.inl (List.cons.inj h).1)) hl'
  | cons s rest ih =>
    cases l' with
    | nil => exact absurd (List.mem_cons.mpr (Or.inl (List.cons.inj h).1.symm)) hl
    | cons s' rest' =>
      obtain ⟨rfl, htail⟩ := List.cons.inj h
      obtain ⟨rfl, hxy⟩ := ih rest' (fun hm => hl (List.mem_cons_of_mem _ hm))
        (fun hm => hl' (List.mem_cons_of_mem _ hm)) htail
      exact ⟨rfl, hxy⟩

/-- Two words of the same size, when every symbol has one. -/
theorem append_size_inj (size : S → ℕ) (hsize : ∀ s, 0 < size s) (l l' x y : List S)
    (hsum : (l.map size).sum = (l'.map size).sum) (h : l ++ x = l' ++ y) : l = l' ∧ x = y := by
  induction l generalizing l' with
  | nil =>
    cases l' with
    | nil => exact ⟨rfl, h⟩
    | cons s rest =>
      have hs := hsize s
      simp only [List.map_nil, List.sum_nil, List.map_cons, List.sum_cons] at hsum
      omega
  | cons s rest ih =>
    have hs := hsize s
    cases l' with
    | nil =>
      simp only [List.map_nil, List.sum_nil, List.map_cons, List.sum_cons] at hsum
      omega
    | cons s' rest' =>
      obtain ⟨rfl, htail⟩ := List.cons.inj h
      simp only [List.map_cons, List.sum_cons, Nat.add_left_cancel_iff] at hsum
      obtain ⟨rfl, hxy⟩ := ih rest' hsum htail
      exact ⟨rfl, hxy⟩

/-- Two words of `P` symbols, each cut off by a symbol that is not one. -/
theorem append_span_inj (P : S → Prop) (l l' x y : List S) (hl : ∀ s ∈ l, P s) (hl' : ∀ s ∈ l', P s)
    (hx : ∀ s ∈ x.head?, ¬ P s) (hy : ∀ s ∈ y.head?, ¬ P s) (h : l ++ x = l' ++ y) : l = l' ∧ x = y := by
  induction l generalizing l' with
  | nil =>
    cases l' with
    | nil => exact ⟨rfl, h⟩
    | cons s rest =>
      subst h
      exact absurd (hl' s (List.mem_cons_self ..)) (hx s rfl)
  | cons s rest ih =>
    cases l' with
    | nil =>
      subst h
      exact absurd (hl s (List.mem_cons_self ..)) (hy s rfl)
    | cons s' rest' =>
      obtain ⟨rfl, htail⟩ := List.cons.inj h
      obtain ⟨rfl, hxy⟩ := ih rest' (fun t ht => hl t (List.mem_cons_of_mem _ ht))
        (fun t ht => hl' t (List.mem_cons_of_mem _ ht)) htail
      exact ⟨rfl, hxy⟩

/-- Two words, each behind a header of one size that tells its length. -/
theorem framed_inj (header : ℕ → List S) (size bound : ℕ) (hsize : ∀ n, (header n).length = size)
    (hheader : ∀ m n, m < bound → n < bound → header m = header n → m = n) (l l' x y : List S)
    (hl : l.length < bound) (hl' : l'.length < bound) (h : header l.length ++ l ++ x = header l'.length ++ l' ++ y) :
    l = l' ∧ x = y := by
  rw [List.append_assoc, List.append_assoc] at h
  obtain ⟨hlength, h⟩ := List.append_inj h ((hsize _).trans (hsize _).symm)
  exact List.append_inj h (hheader _ _ hl hl' hlength)

/-! ### Prefixes of sequences -/

/-- A sequence whose print is a prefix of another print is a prefix. -/
theorem PrefixCode.flatMap_prefix {f : A → List S} (hf : PrefixCode f) (hword : ∀ a, f a ≠ []) (l l' : List A)
    (h : l.flatMap f <+: l'.flatMap f) : l <+: l' := by
  induction l generalizing l' with
  | nil => exact List.nil_prefix
  | cons a rest ih =>
    obtain ⟨tail, htail⟩ := h
    cases l' with
    | nil => exact absurd (List.append_eq_nil_iff.mp (List.append_eq_nil_iff.mp htail).1).1 (hword a)
    | cons b rest' =>
      rw [List.flatMap_cons, List.flatMap_cons, List.append_assoc] at htail
      obtain ⟨rfl, hrest⟩ := hf a b _ _ htail
      exact List.cons_prefix_cons.mpr ⟨rfl, ih rest' ⟨tail, hrest⟩⟩

/-! ### Words that a separator ends -/

def terminated (stop : S) (words : List (List S)) : List S := words.flatMap (· ++ [stop])

theorem terminated_cons (stop : S) (word : List S) (rest : List (List S)) :
    terminated stop (word :: rest) = word ++ stop :: terminated stop rest := by
  rw [terminated, List.flatMap_cons, List.append_assoc]
  rfl

theorem terminated_append (stop : S) (words more : List (List S)) :
    terminated stop (words ++ more) = terminated stop words ++ terminated stop more := List.flatMap_append

theorem splitOn_terminated_append [BEq S] [LawfulBEq S] (stop : S) (words : List (List S)) (last : List S)
    (h : ∀ word ∈ words, stop ∉ word) : (terminated stop words ++ last).splitOn stop = words ++ last.splitOn stop := by
  induction words with
  | nil => rfl
  | cons word rest ih =>
    obtain ⟨hword, hrest⟩ := List.forall_mem_cons.mp h
    rw [terminated_cons, List.append_assoc, List.cons_append, List.splitOn_append_cons_self_of_not_mem hword, ih hrest]
    rfl

theorem splitOn_terminated [BEq S] [LawfulBEq S] (stop : S) (words : List (List S)) (hne : words ≠ [])
    (h : ∀ word ∈ words, stop ∉ word) : (terminated stop words).dropLast.splitOn stop = words := by
  obtain ⟨front, last, rfl⟩ := (List.eq_nil_or_concat words).resolve_left hne
  rw [List.concat_eq_append] at h ⊢
  obtain ⟨hfront, hlast⟩ := List.forall_mem_append.mp h
  have htext : terminated stop (front ++ [last]) = terminated stop front ++ last ++ [stop] := by
    rw [terminated_append, terminated_cons, List.append_assoc]
    rfl
  rw [htext, List.dropLast_concat, splitOn_terminated_append stop front last hfront,
    List.splitOn_eq_singleton (hlast last (List.mem_singleton_self last))]

/-- What is cut behind a separator is cut behind a word. -/
theorem terminated_cut (stop : S) (words : List (List S)) (h : ∀ word ∈ words, stop ∉ word) (front : List S)
    (hfront : front <+: terminated stop words) (hend : front = [] ∨ front.getLast? = some stop) :
    ∃ n, front = terminated stop (words.take n) := by
  induction words generalizing front with
  | nil => exact ⟨0, List.prefix_nil.mp hfront⟩
  | cons word rest ih =>
    rw [terminated_cons] at hfront
    obtain hend | hend := hend
    · exact ⟨0, hend⟩
    obtain ⟨hword, hrest⟩ := List.forall_mem_cons.mp h
    by_cases hlength : front.length ≤ word.length
    · have hfronts : front <+: word := List.prefix_of_prefix_length_le hfront (List.prefix_append ..) hlength
      exact absurd (hfronts.subset (List.mem_of_getLast? hend)) hword
    · have hfronts : word ++ [stop] <+: front := by
        refine List.prefix_of_prefix_length_le ?_ hfront ?_
        · exact ⟨terminated stop rest, by rw [List.append_assoc]; rfl⟩
        · rw [List.length_append, List.length_singleton]
          omega
      obtain ⟨tail, rfl⟩ := hfronts
      have htail : tail <+: terminated stop rest := by
        have hwhole : word ++ stop :: terminated stop rest = word ++ [stop] ++ terminated stop rest := by
          rw [List.append_assoc]
          rfl
        exact (List.prefix_append_right_inj (word ++ [stop])).mp (hwhole ▸ hfront)
      have hlast : tail = [] ∨ tail.getLast? = some stop := by
        cases htails : tail with
        | nil => exact .inl rfl
        | cons s more =>
          refine .inr ?_
          rwa [htails, List.getLast?_append_of_ne_nil _ (List.cons_ne_nil _ _)] at hend
      obtain ⟨n, hn⟩ := ih hrest tail htail hlast
      refine ⟨n + 1, ?_⟩
      rw [List.take_succ_cons, terminated_cons, ← hn, List.append_assoc]
      rfl

end MoeNG.Lib

/-!
## Strict codecs

A decoder that accepts what the encoder writes for a canonical value, and
nothing else. Decoders get there by encoding what they read once more and
comparing.
-/

namespace MoeNG.Lib

structure StrictCodec {A B : Type} (canonical : A → Prop) (encode : A → Option B) (decode : B → Option A) : Prop where
  decode_encode : ∀ a b, canonical a → encode a = some b → decode b = some a
  decode_sound : ∀ a b, decode b = some a → canonical a ∧ encode a = some b

namespace StrictCodec
variable {A B : Type} {canonical : A → Prop} {encode : A → Option B} {decode : B → Option A}

/-- Reading, then encoding what was read and comparing. -/
def checked [DecidableEq B] (encode : A → Option B) (read : B → Option A) (b : B) : Option A :=
  (read b).bind fun a => if encode a = some b then some a else none

theorem checked_eq_some_iff [DecidableEq B] (read : B → Option A) (a : A) (b : B) :
    checked encode read b = some a ↔ read b = some a ∧ encode a = some b := by
  unfold checked
  rw [Option.bind_eq_some_iff]
  constructor
  · rintro ⟨a', hread, h⟩
    obtain ⟨hencode, h⟩ := Option.ite_none_right_eq_some.mp h
    obtain rfl := Option.some.inj h
    exact ⟨hread, hencode⟩
  · rintro ⟨hread, hencode⟩
    exact ⟨a, hread, if_pos hencode⟩

theorem of_checked [DecidableEq B] (read : B → Option A) (hread : ∀ a b, canonical a → encode a = some b → read b = some a)
    (hcanonical : ∀ a b, read b = some a → encode a = some b → canonical a) :
    StrictCodec canonical encode (checked encode read) where
  decode_encode a b ha hb := (checked_eq_some_iff read a b).mpr ⟨hread a b ha hb, hb⟩
  decode_sound a b h := by
    obtain ⟨ha, hb⟩ := (checked_eq_some_iff read a b).mp h
    exact ⟨hcanonical a b ha hb, hb⟩

end StrictCodec

end MoeNG.Lib
