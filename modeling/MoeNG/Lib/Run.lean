import Mathlib.Data.Int.Cast.Lemmas
import Mathlib.Data.List.Basic
import Mathlib.Tactic.Common

/-!
# Runs of a transition function

A run applies a list of calls to a state. Every safety result is an invariant
that holds at the start and is kept by one call. An accepted call of a fallible
function is taken apart with the two `Except` rules.
-/

namespace MoeNG.Lib

section Run
variable {S C : Type} (step : S → C → S)

def run (s : S) (calls : List C) : S := calls.foldl step s

@[simp] theorem run_nil (s : S) : run step s [] = s := rfl

@[simp] theorem run_cons (s : S) (c : C) (calls : List C) : run step s (c :: calls) = run step (step s c) calls := rfl

theorem run_append (s : S) (first second : List C) :
    run step s (first ++ second) = run step (run step s first) second :=
  List.foldl_append

theorem run_invariant (inv : S → Prop) (hstep : ∀ s c, inv s → inv (step s c)) (s : S) (h : inv s)
    (calls : List C) : inv (run step s calls) := by
  induction calls generalizing s with
  | nil => exact h
  | cons c rest ih => exact ih (step s c) (hstep s c h)

/-- Every call of the run meets `P` in the state it is made in. -/
def Along (P : S → C → Prop) (s : S) : List C → Prop
  | [] => True
  | c :: rest => P s c ∧ Along P (step s c) rest

instance Along.decidable (P : S → C → Prop) [∀ s c, Decidable (P s c)] : ∀ s calls, Decidable (Along step P s calls)
  | _, [] => isTrue trivial
  | s, c :: rest => @instDecidableAnd _ _ _ (Along.decidable P (step s c) rest)

/-- An invariant that only calls meeting `P` keep holds after a run of such calls. -/
theorem Along.invariant {P : S → C → Prop} (inv : S → Prop) (hstep : ∀ s c, inv s → P s c → inv (step s c)) (s : S)
    (hs : inv s) (calls : List C) (h : Along step P s calls) : inv (run step s calls) := by
  induction calls generalizing s with
  | nil => exact hs
  | cons c rest ih => exact ih (step s c) (hstep s c hs h.1) h.2

theorem Along.imp {P Q : S → C → Prop} (inv : S → Prop) (hinv : ∀ s c, inv s → inv (step s c))
    (himp : ∀ s c, inv s → P s c → Q s c) (s : S) (hs : inv s) (calls : List C) (h : Along step P s calls) :
    Along step Q s calls := by
  induction calls generalizing s with
  | nil => trivial
  | cons c rest ih => exact ⟨himp s c hs h.1, ih (step s c) (hinv s c hs) h.2⟩

theorem Along.and_iff (P : S → C → Prop) (Q : C → Prop) (s : S) (calls : List C) :
    Along step (fun s c => P s c ∧ Q c) s calls ↔ Along step P s calls ∧ ∀ c ∈ calls, Q c := by
  induction calls generalizing s with
  | nil => simp [Along]
  | cons c rest ih =>
    simp only [Along, ih, List.forall_mem_cons]
    tauto

theorem Along.append_iff (P : S → C → Prop) (s : S) (first second : List C) :
    Along step P s (first ++ second) ↔ Along step P s first ∧ Along step P (run step s first) second := by
  induction first generalizing s with
  | nil => simp [Along]
  | cons c rest ih => simp only [List.cons_append, Along, run_cons, ih, and_assoc]

theorem Along.iff_split (P : S → C → Prop) (s : S) (calls : List C) :
    Along step P s calls ↔ ∀ before c after, calls = before ++ c :: after → P (run step s before) c := by
  constructor
  · rintro h before c after rfl
    exact ((Along.append_iff step P s before (c :: after)).mp h).2.1
  · intro h
    induction calls generalizing s with
    | nil => trivial
    | cons c rest ih =>
      refine ⟨h [] c rest rfl, ih (step s c) fun before c' after hrest => ?_⟩
      exact h (c :: before) c' after (by rw [hrest, List.cons_append])

/-- How many calls of the run meet `P`. -/
def countAlong (P : S → C → Bool) (s : S) : List C → ℕ
  | [] => 0
  | c :: rest => (if P s c then 1 else 0) + countAlong P (step s c) rest

theorem countAlong_append (P : S → C → Bool) (s : S) (first second : List C) :
    countAlong step P s (first ++ second) = countAlong step P s first + countAlong step P (run step s first) second := by
  induction first generalizing s with
  | nil => simp [countAlong]
  | cons c rest ih =>
    simp only [List.cons_append, countAlong, run_cons, ih]
    omega

/-- A measure that drops on every call that misses is used up: some call hits before it is. -/
theorem Along.hit {P : S → C → Prop} (measure : S → ℤ) (hit : S → C → Prop) (inv : S → Prop)
    (hinv : ∀ s c, inv s → inv (step s c)) (hpos : ∀ s, inv s → 0 < measure s)
    (hdrop : ∀ s c, inv s → P s c → ¬ hit s c → measure (step s c) < measure s) (s : S) (hs : inv s)
    (calls : List C) (h : Along step P s calls) (hlength : measure s ≤ calls.length) :
    ∃ (k : ℕ) (c : C), (k : ℤ) < measure s ∧ calls[k]? = some c ∧ hit (run step s (calls.take k)) c := by
  induction calls generalizing s with
  | nil =>
    have hp := hpos s hs
    simp only [List.length_nil, Nat.cast_zero] at hlength
    omega
  | cons c rest ih =>
    by_cases hhit : hit s c
    · exact ⟨0, c, hpos s hs, rfl, hhit⟩
    · have hless := hdrop s c hs h.1 hhit
      simp only [List.length_cons, Nat.cast_add, Nat.cast_one] at hlength
      obtain ⟨k, c', hk, hc', hhit'⟩ := ih (step s c) (hinv s c hs) h.2 (by omega)
      exact ⟨k + 1, c', by push_cast; omega, hc', hhit'⟩

end Run

section Outcome
variable {ε α β : Type}

theorem except_bind_ok (x : Except ε α) (f : α → Except ε β) (b : β) (h : (x >>= f) = .ok b) :
    ∃ a, x = .ok a ∧ f a = .ok b := by
  cases x with
  | error e => cases h
  | ok a => exact ⟨a, rfl, h⟩

/-- One `do` line, for `simp only [↓except_bind_iff]`, which takes a block apart from its first line on. -/
theorem except_bind_iff (x : Except ε α) (f : α → Except ε β) (b : β) : (x >>= f) = .ok b ↔ ∃ a, x = .ok a ∧ f a = .ok b :=
  ⟨except_bind_ok x f b, by rintro ⟨a, rfl, h⟩; exact h⟩

theorem except_map_ok (x : Except ε α) (f : α → β) (b : β) (h : x.map f = .ok b) : ∃ a, x = .ok a ∧ b = f a := by
  cases x with
  | error e => cases h
  | ok a => exact ⟨a, rfl, (Except.ok.inj h).symm⟩

theorem ite_error_ok_iff (c : Prop) [Decidable c] (e : ε) (x : Except ε α) (a : α) :
    (if c then .error e else x) = .ok a ↔ ¬ c ∧ x = .ok a := by
  by_cases h : c <;> simp [h]

theorem ite_some_none_iff (c : Prop) [Decidable c] (e : α) (x : Option α) : (if c then some e else x) = none ↔ ¬ c
    ∧ x = none := by
  by_cases h : c <;> simp [h]

/-- A fallible fold, when one step succeeds exactly where `P` holds and then gives `next`. -/
theorem foldlM_ok_iff {S C : Type} (step : S → C → Except ε S) (P : S → C → Prop) (next : S → C → S)
    (hstep : ∀ s c s', step s c = .ok s' ↔ P s c ∧ s' = next s c) (calls : List C) (s s' : S) :
    calls.foldlM step s = .ok s' ↔ Along next P s calls ∧ s' = run next s calls := by
  induction calls generalizing s with
  | nil => exact ⟨fun h => ⟨trivial, (Except.ok.inj h).symm⟩, fun h => congrArg Except.ok h.2.symm⟩
  | cons c rest ih =>
    rw [List.foldlM_cons]
    constructor
    · intro h
      obtain ⟨mid, hmid, h⟩ := except_bind_ok _ _ _ h
      obtain ⟨hc, rfl⟩ := (hstep s c mid).mp hmid
      obtain ⟨hrest, hs'⟩ := (ih (next s c)).mp h
      exact ⟨⟨hc, hrest⟩, hs'⟩
    · rintro ⟨⟨hc, hrest⟩, hs'⟩
      rw [(hstep s c (next s c)).mpr ⟨hc, rfl⟩]
      exact (ih (next s c)).mpr ⟨hrest, hs'⟩

end Outcome

end MoeNG.Lib

/-!
## What a fallible computation yields

`Yields r P`: whatever `r` returns has `P`. A sequence of readers yields what
its last one does, given what the ones before it yield.
-/

namespace MoeNG.Lib

variable {ε α β : Type}

def Yields (r : Except ε α) (P : α → Prop) : Prop := ∀ a, r = .ok a → P a

theorem yields_ok {P : α → Prop} (a : α) (h : P a) : Yields (.ok a : Except ε α) P := fun _ hb => Except.ok.inj hb ▸ h

theorem yields_error {P : α → Prop} (e : ε) : Yields (.error e : Except ε α) P := nofun

theorem Yields.bind {P : α → Prop} {Q : β → Prop} {r : Except ε α} {f : α → Except ε β} (h : Yields r P)
    (hf : ∀ a, P a → Yields (f a) Q) : Yields (r >>= f) Q := by
  intro b hb
  cases hr : r with
  | error e =>
    rw [hr] at hb
    cases hb
  | ok a =>
    rw [hr] at hb
    exact hf a (h a hr) b hb

theorem Yields.mono {P Q : α → Prop} {r : Except ε α} (h : Yields r P) (hPQ : ∀ a, P a → Q a) : Yields r Q :=
  fun a ha => hPQ a (h a ha)

/-- A check that is passed tells what it checks. -/
theorem yields_guard {Q : α → Prop} (c : Prop) [Decidable c] (e : ε) {r : Except ε α} (h : ¬ c → Yields r Q) :
    Yields (if c then .error e else r) Q := by
  by_cases hc : c
  · rw [if_pos hc]
    exact yields_error e
  · rw [if_neg hc]
    exact h hc

end MoeNG.Lib

/-!
## Fallible folds up to a normal form

A step that cannot tell a state from its normal form may be folded in pieces,
with the state normalised in between: the result has the normal form of the
plain fold.
-/

namespace MoeNG.Lib

section NormalFold
variable {S E ε : Type} (step : S → E → Except ε S) (normal : S → S)

/-- The step cannot tell a state from its normal form. -/
def Blind : Prop := ∀ s e, (step (normal s) e).map normal = (step s e).map normal

variable {step normal}

theorem Blind.congr (h : Blind step normal) {s t : S} (hst : normal s = normal t) (e : E) :
    (step s e).map normal = (step t e).map normal := by
  rw [← h s e, ← h t e, hst]

theorem Blind.foldlM_congr (h : Blind step normal) (l : List E) {s t : S} (hst : normal s = normal t) :
    (l.foldlM step s).map normal = (l.foldlM step t).map normal := by
  induction l generalizing s t with
  | nil => exact congrArg Except.ok hst
  | cons e rest ih =>
    have hstep := h.congr hst e
    rw [List.foldlM_cons, List.foldlM_cons]
    cases hs : step s e with
    | error x =>
      cases ht : step t e with
      | error y =>
        rw [hs, ht] at hstep
        exact congrArg Except.error (Except.error.inj hstep)
      | ok t' => simp [hs, ht, Except.map] at hstep
    | ok s' =>
      cases ht : step t e with
      | error y => simp [hs, ht, Except.map] at hstep
      | ok t' =>
        rw [hs, ht] at hstep
        exact ih (Except.ok.inj hstep)

/-- A fold resumed from a state with the same normal form ends in the normal form of the whole fold. -/
theorem Blind.resume (h : Blind step normal) (first second : List E) {s t r : S} (hfirst : first.foldlM step s = .ok r)
    (hnormal : normal t = normal r) :
    (second.foldlM step t).map normal = ((first ++ second).foldlM step s).map normal := by
  rw [List.foldlM_append, hfirst]
  exact h.foldlM_congr second hnormal

end NormalFold

end MoeNG.Lib
