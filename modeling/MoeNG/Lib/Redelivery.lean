import Mathlib.Data.List.Basic
import Mathlib.Data.List.Induction
import Mathlib.Tactic.Common
import MoeNG.Lib.Run

/-!
# Event logs with redelivery

A log is folded event by event into a state. A delivery of the log may repeat
any event after its first occurrence, and a fold that ignores repeats reads the
delivery as the log itself.
-/

namespace MoeNG.Lib

section Redelivered
variable {E : Type}

/-- The second list delivers the first one: every event in order, and any number of copies of it later on. -/
inductive Redelivered : List E → List E → Prop where
  | nil : Redelivered [] []
  | first (log delivered : List E) (e : E) (h : Redelivered log delivered) : Redelivered (log ++ [e]) (delivered ++ [e])
  | again (log delivered : List E) (e : E) (h : Redelivered log delivered) (he : e ∈ log) :
    Redelivered log (delivered ++ [e])

theorem Redelivered.append_again {log delivered : List E} (h : Redelivered log delivered) (again : List E)
    (hmem : ∀ e ∈ again, e ∈ log) : Redelivered log (delivered ++ again) := by
  induction again generalizing delivered with
  | nil => rwa [List.append_nil]
  | cons e rest ih =>
    rw [List.append_cons]
    exact ih (.again _ _ e h (hmem e List.mem_cons_self)) fun x hx => hmem x (List.mem_cons_of_mem e hx)

theorem Redelivered.mem_iff {log delivered : List E} (h : Redelivered log delivered) (x : E) :
    x ∈ delivered ↔ x ∈ log := by
  induction h with
  | nil => rfl
  | first log delivered e _ ih => rw [List.mem_append, List.mem_append, ih]
  | again log delivered e _ he ih =>
    rw [List.mem_append, List.mem_singleton, ih]
    constructor
    · rintro (hx | rfl)
      · exact hx
      · exact he
    · exact Or.inl

end Redelivered

section Replay
variable {E S ε : Type} (apply : Option S → E → Except ε S)

/-- The events, applied in order from the empty history, give the state. -/
inductive Chain : List E → Option S → Prop where
  | nil : Chain [] none
  | snoc (log : List E) (s : Option S) (e : E) (t : S) (h : Chain log s) (happly : apply s e = .ok t) :
    Chain (log ++ [e]) (some t)

theorem Chain.eq_nil {log : List E} (h : Chain apply log none) : log = [] := by
  cases h
  rfl

structure Replayed (E S : Type) where
  events : List E
  current : Option S

theorem foldlM_concat (step : Replayed E S → E → Except ε (Replayed E S)) (r : Replayed E S) (l : List E) (e : E) :
    (l ++ [e]).foldlM step r = (l.foldlM step r >>= fun t => step t e) := by
  rw [List.foldlM_append]
  refine bind_congr fun t => ?_
  rw [List.foldlM_cons]
  exact bind_pure (step t e)

variable (step : Replayed E S → E → Except ε (Replayed E S))

/-- A fold that extends by a new event and ignores a repeated one reads a delivery as its log. -/
theorem Chain.replay (hnew : ∀ log s e t, Chain apply log s → apply s e = .ok t →
      step ⟨log, s⟩ e = .ok ⟨log ++ [e], some t⟩)
    (hagain : ∀ log s e, Chain apply log s → e ∈ log → step ⟨log, s⟩ e = .ok ⟨log, s⟩)
    (log delivered : List E) (hd : Redelivered log delivered) (s : Option S) (h : Chain apply log s) :
    delivered.foldlM step ⟨[], none⟩ = .ok ⟨log, s⟩ := by
  induction hd generalizing s with
  | nil =>
    generalize hlog : ([] : List E) = log at h
    cases h with
    | nil => rfl
    | snoc log s e t h happly => simp at hlog
  | first log delivered e _ ih =>
    generalize hlog : log ++ [e] = whole at h
    cases h with
    | nil => simp at hlog
    | snoc log' s' e' t h happly =>
      obtain ⟨rfl, he⟩ := List.append_inj' hlog rfl
      obtain rfl := List.singleton_inj.mp he
      rw [foldlM_concat, ih s' h]
      exact hnew log s' e t h happly
  | again log delivered e _ he ih =>
    rw [foldlM_concat, ih s h]
    exact hagain log s e h he

/-- What such a fold accepts is a delivery of a log that applies event by event. -/
theorem Chain.of_replay (hstep : ∀ log s e r, Chain apply log s → step ⟨log, s⟩ e = .ok r →
      (r = ⟨log, s⟩ ∧ e ∈ log) ∨ ∃ t, apply s e = .ok t ∧ r = ⟨log ++ [e], some t⟩)
    (delivered : List E) (r : Replayed E S) (h : delivered.foldlM step ⟨[], none⟩ = .ok r) :
    Redelivered r.events delivered ∧ Chain apply r.events r.current := by
  induction delivered using List.reverseRecOn generalizing r with
  | nil =>
    obtain rfl : (⟨[], none⟩ : Replayed E S) = r := Except.ok.inj h
    exact ⟨.nil, .nil⟩
  | append_singleton delivered e ih =>
    rw [foldlM_concat] at h
    obtain ⟨q, hq, hr⟩ := except_bind_ok _ _ _ h
    obtain ⟨hdelivered, hchain⟩ := ih q hq
    rcases hstep q.events q.current e r hchain hr with ⟨rfl, he⟩ | ⟨t, ht, rfl⟩
    · exact ⟨.again _ _ _ hdelivered he, hchain⟩
    · exact ⟨.first _ _ _ hdelivered, .snoc _ _ _ _ hchain ht⟩

end Replay

end MoeNG.Lib

/-!
## Queues interleaved in one list

One flat list holds several first-in first-out queues; an item's key names the
queue it sits in. The head of a queue is found by index, replaced in place or
removed, and the lemmas say what that does to every queue.
-/

namespace MoeNG.Lib

section Queues
variable {A K : Type} [DecidableEq K] (key : A → K)

def queue (l : List A) (k : K) : List A := l.filter fun a => key a = k

def headIndex (l : List A) (k : K) : Option ℕ := l.findIdx? fun a => key a = k

@[simp] theorem queue_append (l r : List A) (k : K) : queue key (l ++ r) k = queue key l k ++ queue key r k :=
  List.filter_append ..

theorem queue_cons (a : A) (l : List A) (k : K) :
    queue key (a :: l) k = if key a = k then a :: queue key l k else queue key l k := by
  unfold queue
  rw [List.filter_cons]
  simp only [decide_eq_true_eq]

theorem key_of_mem_queue (l : List A) (k : K) (a : A) (h : a ∈ queue key l k) : key a = k :=
  of_decide_eq_true (List.mem_filter.mp h).2

theorem headIndex_eq_none (l : List A) (k : K) : headIndex key l k = none ↔ queue key l k = [] := by
  simp [headIndex, queue, List.findIdx?_eq_none_iff, List.filter_eq_nil_iff]

/-- The list around the head of a queue. -/
theorem headIndex_split (l : List A) (k : K) (i : ℕ) (h : headIndex key l k = some i) :
    ∃ before head after, l = before ++ head :: after ∧ before.length = i ∧ key head = k ∧ queue key before k = [] := by
  induction l generalizing i with
  | nil => cases h
  | cons a l ih =>
    unfold headIndex at h
    rw [List.findIdx?_cons] at h
    by_cases ha : key a = k
    · rw [if_pos (decide_eq_true ha)] at h
      exact ⟨[], a, l, rfl, Option.some.inj h, ha, rfl⟩
    · rw [if_neg (by simpa using ha)] at h
      obtain ⟨j, hj, rfl⟩ := Option.map_eq_some_iff.mp h
      obtain ⟨before, head, after, rfl, rfl, hhead, hbefore⟩ := ih j hj
      refine ⟨a :: before, head, after, rfl, rfl, hhead, ?_⟩
      rw [queue_cons, if_neg ha, hbefore]

theorem getElem?_headIndex (l : List A) (k : K) (i : ℕ) (h : headIndex key l k = some i) :
    l[i]? = (queue key l k).head? := by
  obtain ⟨before, head, after, rfl, rfl, hhead, hbefore⟩ := headIndex_split key l k i h
  rw [queue_append, hbefore, queue_cons, if_pos hhead]
  simp

/-- Replacing the head of one queue leaves the others alone. -/
theorem queue_set_head (l : List A) (k : K) (i : ℕ) (h : headIndex key l k = some i) (a : A) (ha : key a = k) (k' : K) :
    queue key (l.set i a) k' = if k' = k then a :: (queue key l k).tail else queue key l k' := by
  obtain ⟨before, head, after, rfl, rfl, hhead, hbefore⟩ := headIndex_split key l k i h
  rw [List.set_append_right _ _ (Nat.le_refl _), Nat.sub_self, List.set_cons_zero]
  simp only [queue_append, queue_cons, ha, hhead]
  by_cases hk : k' = k
  · subst hk
    simp [hbefore]
  · rw [if_neg (Ne.symm hk), if_neg (Ne.symm hk), if_neg hk]

/-- Removing the head of one queue leaves the others alone. -/
theorem queue_eraseIdx_head (l : List A) (k : K) (i : ℕ) (h : headIndex key l k = some i) (k' : K) :
    queue key (l.eraseIdx i) k' = if k' = k then (queue key l k).tail else queue key l k' := by
  obtain ⟨before, head, after, rfl, rfl, hhead, hbefore⟩ := headIndex_split key l k i h
  rw [List.eraseIdx_append_of_length_le (Nat.le_refl _), Nat.sub_self, List.eraseIdx_cons_zero]
  simp only [queue_append, queue_cons, hhead]
  by_cases hk : k' = k
  · subst hk
    simp [hbefore]
  · rw [if_neg (Ne.symm hk), if_neg hk]

theorem headIndex_set_head (l : List A) (k : K) (i : ℕ) (h : headIndex key l k = some i) (a : A) (ha : key a = k)
    (k' : K) : headIndex key (l.set i a) k' = headIndex key l k' := by
  obtain ⟨before, head, after, rfl, rfl, hhead, -⟩ := headIndex_split key l k i h
  rw [List.set_append_right _ _ (Nat.le_refl _), Nat.sub_self, List.set_cons_zero]
  simp only [headIndex, List.findIdx?_append, List.findIdx?_cons, ha, hhead]

/-! ### Two interleavings of the same queues -/

def SameQueues (l l' : List A) : Prop := ∀ k, queue key l k = queue key l' k

theorem mem_queue_key (l : List A) (a : A) : a ∈ queue key l (key a) ↔ a ∈ l := by
  simp [queue, List.mem_filter]

theorem SameQueues.mem_iff {l l' : List A} (h : SameQueues key l l') (a : A) : a ∈ l ↔ a ∈ l' := by
  rw [← mem_queue_key key l, ← mem_queue_key key l', h]

theorem SameQueues.filter {l l' : List A} (h : SameQueues key l l') (p : A → Bool) :
    SameQueues key (l.filter p) (l'.filter p) := by
  intro k
  have hk := congrArg (List.filter p) (h k)
  unfold queue at hk ⊢
  rwa [List.filter_comm, List.filter_comm (p := p)] at hk

theorem SameQueues.headIndex {l l' : List A} (h : SameQueues key l l') (k : K) (i : ℕ)
    (hi : headIndex key l k = some i) : ∃ i', headIndex key l' k = some i' ∧ l'[i']? = l[i]? := by
  cases hi' : MoeNG.Lib.headIndex key l' k with
  | none =>
    have hnone := (headIndex_eq_none key l k).mpr ((h k).trans ((headIndex_eq_none key l' k).mp hi'))
    rw [hi] at hnone
    cases hnone
  | some i' => exact ⟨i', rfl, by rw [getElem?_headIndex key _ _ _ hi', getElem?_headIndex key _ _ _ hi, h]⟩

theorem SameQueues.headIndex_none {l l' : List A} (h : SameQueues key l l') (k : K)
    (hi : MoeNG.Lib.headIndex key l k = none) : MoeNG.Lib.headIndex key l' k = none :=
  (headIndex_eq_none key l' k).mpr ((h k).symm.trans ((headIndex_eq_none key l k).mp hi))

theorem SameQueues.set_head {l l' : List A} (h : SameQueues key l l') (k : K) (i i' : ℕ)
    (hi : MoeNG.Lib.headIndex key l k = some i) (hi' : MoeNG.Lib.headIndex key l' k = some i') (a : A)
    (ha : key a = k) : SameQueues key (l.set i a) (l'.set i' a) := by
  intro k'
  rw [queue_set_head key l k i hi a ha, queue_set_head key l' k i' hi' a ha, h k, h k']

theorem SameQueues.eraseIdx_head {l l' : List A} (h : SameQueues key l l') (k : K) (i i' : ℕ)
    (hi : MoeNG.Lib.headIndex key l k = some i) (hi' : MoeNG.Lib.headIndex key l' k = some i') :
    SameQueues key (l.eraseIdx i) (l'.eraseIdx i') := by
  intro k'
  rw [queue_eraseIdx_head key l k i hi, queue_eraseIdx_head key l' k i' hi', h k, h k']

end Queues

end MoeNG.Lib
