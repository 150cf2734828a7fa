import Mathlib.Data.List.Nodup
import Mathlib.Data.List.Perm.Basic
import Mathlib.Logic.Relation
import Mathlib.Tactic.Common

/-!
# Reachability along the arcs of a finite graph

A vertex has a list of heads. A search keeps what it has scanned, a queue, and
the heads that are still to be looked at; when all of them are used up, it has
scanned exactly what the start reaches.
-/

namespace MoeNG.Lib

variable {A K : Type}

abbrev Reaches (out : A → List A) : A → A → Prop := Relation.ReflTransGen fun u v => v ∈ out u

/-- There is a path of at least one arc. -/
abbrev Precedes (out : A → List A) : A → A → Prop := Relation.TransGen fun u v => v ∈ out u

def Connected (out : A → List A) (u v : A) : Prop := Reaches out u v ∧ Reaches out v u

theorem Connected.symm {out : A → List A} {u v : A} (h : Connected out u v) : Connected out v u := ⟨h.2, h.1⟩

theorem Connected.trans {out : A → List A} {u v w : A} (huv : Connected out u v) (hvw : Connected out v w) :
    Connected out u w := ⟨huv.1.trans hvw.1, hvw.2.trans huv.2⟩

theorem precedes_step {out : A → List A} (u v : A) : Precedes out u v ↔ ∃ w ∈ out u, w = v ∨ Precedes out w v := by
  refine Relation.TransGen.head'_iff.trans (exists_congr fun w => and_congr_right fun _ => ?_)
  rw [Relation.reflTransGen_iff_eq_or_transGen, eq_comm]

/-- A vertex without a loop is on a cycle when it is connected with another one. -/
theorem precedes_self_iff {out : A → List A} {u : A} (hu : u ∉ out u) : Precedes out u u ↔ ∃ v, v ≠ u ∧ Connected out u v := by
  constructor
  · intro h
    obtain ⟨v, harc, hback⟩ := Relation.TransGen.head'_iff.mp h
    exact ⟨v, fun heq => hu (heq ▸ harc), Relation.ReflTransGen.single harc, hback⟩
  · rintro ⟨v, hne, hto, hback⟩
    rcases Relation.reflTransGen_iff_eq_or_transGen.mp hto with heq | hto
    · exact absurd heq hne
    · exact hto.trans_left hback

/-! ### Names of the vertices -/

section Names
variable {out : A → List A} {step : K → K → Prop} {place : K → A} {vertex : K → Prop}

/-- The names of the vertices stand for them: a step between names is an arc between their vertices. -/
structure Places (out : A → List A) (step : K → K → Prop) (place : K → A) (vertex : K → Prop) : Prop where
  inj : ∀ u v, vertex u → vertex v → place u = place v → u = v
  ends : ∀ u v, step u v → vertex u ∧ vertex v
  arc : ∀ u v, step u v → place v ∈ out (place u)
  named : ∀ u, vertex u → ∀ x ∈ out (place u), ∃ v, step u v ∧ place v = x

theorem Places.arc_iff (h : Places out step place vertex) {u v : K} (hu : vertex u) (hv : vertex v) :
    place v ∈ out (place u) ↔ step u v := by
  refine ⟨fun harc => ?_, h.arc u v⟩
  obtain ⟨w, hstep, heq⟩ := h.named u hu (place v) harc
  rwa [h.inj w v (h.ends u w hstep).2 hv heq] at hstep

theorem Places.reaches (h : Places out step place vertex) {u : K} (hu : vertex u) {x : A} (hreach : Reaches out (place u) x) :
    ∃ v, vertex v ∧ place v = x ∧ Relation.ReflTransGen step u v := by
  induction hreach with
  | refl => exact ⟨u, hu, rfl, Relation.ReflTransGen.refl⟩
  | tail _ harc ih =>
    obtain ⟨v, hv, rfl, huv⟩ := ih
    obtain ⟨w, hstep, rfl⟩ := h.named v hv _ harc
    exact ⟨w, (h.ends v w hstep).2, rfl, huv.tail hstep⟩

theorem Places.reaches_iff (h : Places out step place vertex) {u v : K} (hu : vertex u) (hv : vertex v) :
    Reaches out (place u) (place v) ↔ Relation.ReflTransGen step u v := by
  constructor
  · intro hreach
    obtain ⟨w, hw, heq, huw⟩ := h.reaches hu hreach
    rwa [h.inj w v hw hv heq] at huw
  · exact fun hreach => hreach.lift place h.arc

theorem Places.precedes_iff (h : Places out step place vertex) {u v : K} (hu : vertex u) (hv : vertex v) :
    Precedes out (place u) (place v) ↔ Relation.TransGen step u v := by
  constructor
  · intro hpath
    obtain ⟨x, harc, hreach⟩ := Relation.TransGen.head'_iff.mp hpath
    obtain ⟨w, hstep, rfl⟩ := h.named u hu x harc
    exact Relation.TransGen.head' hstep ((h.reaches_iff (h.ends u w hstep).2 hv).mp hreach)
  · exact fun hpath => hpath.lift place h.arc

end Names

/-! ### Searching -/

structure Sweep (out : A → List A) (all : List A) (start : A) (done queue todo : List A) : Prop where
  nodup : (done ++ queue).Nodup
  mem : ∀ x ∈ done ++ queue, x ∈ all
  begun : start ∈ done ++ queue
  sound : ∀ x ∈ done ++ queue, Reaches out start x
  scanned : ∀ x ∈ done, ∀ y ∈ out x, y ∈ done ++ queue ∨ y ∈ todo
  ahead : ∀ y ∈ todo, y ∈ all ∧ Reaches out start y

namespace Sweep

variable {out : A → List A} {all done queue todo : List A} {start u y : A}

theorem begin (h : start ∈ all) : Sweep out all start [] [start] [] where
  nodup := List.nodup_singleton start
  mem x hx := by
    rw [List.mem_singleton.mp hx]
    exact h
  begun := List.mem_singleton_self start
  sound x hx := by
    rw [List.mem_singleton.mp hx]
  scanned := nofun
  ahead := nofun

theorem length_le (h : Sweep out all start done queue todo) : done.length + queue.length ≤ all.length := by
  rw [← List.length_append]
  exact (List.subperm_of_subset h.nodup h.mem).length_le

theorem pop (h : Sweep out all start done (u :: queue) []) (hout : ∀ y ∈ out u, y ∈ all) :
    Sweep out all start (done ++ [u]) queue (out u) := by
  have hassoc : done ++ [u] ++ queue = done ++ u :: queue := by simp
  have hu : u ∈ done ++ u :: queue := List.mem_append_right _ (List.mem_cons_self ..)
  refine ⟨hassoc ▸ h.nodup, hassoc ▸ h.mem, hassoc ▸ h.begun, hassoc ▸ h.sound, fun x hx y hy => ?_, fun y hy =>
    ⟨hout y hy, (h.sound u hu).tail hy⟩⟩
  rcases List.mem_append.mp hx with hx | hx
  · rw [hassoc]
    exact Or.inl ((h.scanned x hx y hy).resolve_right List.not_mem_nil)
  · rw [List.mem_singleton.mp hx] at hy
    exact Or.inr hy

theorem old (h : Sweep out all start done queue (y :: todo)) (hy : y ∈ done ++ queue) : Sweep out all start done queue todo where
  nodup := h.nodup
  mem := h.mem
  begun := h.begun
  sound := h.sound
  scanned x hx z hz := by
    rcases h.scanned x hx z hz with hold | hz
    · exact Or.inl hold
    · rcases List.mem_cons.mp hz with rfl | hz
      · exact Or.inl hy
      · exact Or.inr hz
  ahead z hz := h.ahead z (List.mem_cons_of_mem _ hz)

theorem new (h : Sweep out all start done queue (y :: todo)) (hy : y ∉ done ++ queue) :
    Sweep out all start done (queue ++ [y]) todo := by
  have hassoc : done ++ (queue ++ [y]) = (done ++ queue) ++ [y] := (List.append_assoc ..).symm
  obtain ⟨hmem, hreach⟩ := h.ahead y (List.mem_cons_self ..)
  refine ⟨?_, fun x hx => ?_, ?_, fun x hx => ?_, fun x hx z hz => ?_, fun z hz => h.ahead z (List.mem_cons_of_mem _ hz)⟩
  · rw [hassoc, List.nodup_append]
    refine ⟨h.nodup, List.nodup_singleton y, fun x hx z hz heq => ?_⟩
    rw [List.mem_singleton.mp hz] at heq
    exact hy (heq ▸ hx)
  · rw [hassoc] at hx
    rcases List.mem_append.mp hx with hx | hx
    · exact h.mem x hx
    · rw [List.mem_singleton.mp hx]
      exact hmem
  · rw [hassoc]
    exact List.mem_append_left _ h.begun
  · rw [hassoc] at hx
    rcases List.mem_append.mp hx with hx | hx
    · exact h.sound x hx
    · rw [List.mem_singleton.mp hx]
      exact hreach
  · rw [hassoc]
    rcases h.scanned x hx z hz with hold | hz
    · exact Or.inl (List.mem_append_left _ hold)
    · rcases List.mem_cons.mp hz with rfl | hz
      · exact Or.inl (List.mem_append_right _ (List.mem_singleton_self z))
      · exact Or.inr hz

/-- With nothing queued the search has met exactly what the start reaches. -/
theorem exact (h : Sweep out all start done [] []) (x : A) : x ∈ done ↔ Reaches out start x := by
  have hstart := h.begun
  have hsound := h.sound
  rw [List.append_nil] at hstart hsound
  refine ⟨hsound x, fun hreach => ?_⟩
  induction hreach with
  | refl => exact hstart
  | tail _ harc ih =>
    have hmem := (h.scanned _ ih _ harc).resolve_right List.not_mem_nil
    rwa [List.append_nil] at hmem

end Sweep

end MoeNG.Lib
