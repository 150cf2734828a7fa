import MoeNG.Lib.Run
import MoeNG.Kernel.CanonicalJson

/-!
# Bounded snapshots (`packages/core/src/planning/planning-snapshot.ts:90-164`)

A snapshot copies hostile data once, within a budget of nodes. Whether it
succeeds depends on the depth, the lengths and the nodes of the data.
-/

namespace MoeNG.Core
open MoeNG.Kernel MoeNG.Lib

structure SnapshotDataBounds where
  maxArrayLength : ℕ
  maxDepth : ℕ
  maxNodes : ℕ

/-! ### The visit -/

/-- The first check of a visit, with the nodes that remain after it; the error tells whether a limit is exceeded. -/
def enter (bounds : SnapshotDataBounds) (depth remaining : ℕ) : Except Bool ℕ :=
  if remaining = 0 || bounds.maxDepth < depth then .error true else .ok (remaining - 1)

mutual

def visit (bounds : SnapshotDataBounds) : Value → ℕ → ℕ → Except Bool ℕ
  | .array items, depth, remaining => (enter bounds depth remaining).bind fun remaining =>
    if bounds.maxArrayLength < items.length || remaining < items.length then .error true
    else visitItems bounds items (depth + 1) remaining
  | .record properties, depth, remaining => (enter bounds depth remaining).bind fun remaining =>
    if remaining < properties.length then .error true else visitProperties bounds properties (depth + 1) remaining
  | .exotic, depth, remaining => (enter bounds depth remaining).bind fun _ => .error false
  | _, depth, remaining => enter bounds depth remaining

def visitItems (bounds : SnapshotDataBounds) : List Value → ℕ → ℕ → Except Bool ℕ
  | [], _, remaining => .ok remaining
  | v :: rest, depth, remaining => (visit bounds v depth remaining).bind fun remaining => visitItems bounds rest depth remaining

def visitProperties (bounds : SnapshotDataBounds) : List (JsString × Value) → ℕ → ℕ → Except Bool ℕ
  | [], _, remaining => .ok remaining
  | (_, v) :: rest, depth, remaining =>
    (visit bounds v depth remaining).bind fun remaining => visitProperties bounds rest depth remaining

end

def snapshotDataBounded (value : Value) (bounds : SnapshotDataBounds) : Except Bool Value :=
  (visit bounds value 0 bounds.maxNodes).map fun _ => value

/-! ### What a snapshot asks of a value -/

mutual

def nodes : Value → ℕ
  | .array items => nodesItems items + 1
  | .record properties => nodesProperties properties + 1
  | _ => 1

def nodesItems : List Value → ℕ
  | [] => 0
  | v :: rest => nodes v + nodesItems rest

def nodesProperties : List (JsString × Value) → ℕ
  | [] => 0
  | (_, v) :: rest => nodes v + nodesProperties rest

end

mutual

/-- Data within the depth, with arrays within their length. -/
def Inert (bounds : SnapshotDataBounds) : Value → ℕ → Prop
  | .array items, depth => depth ≤ bounds.maxDepth ∧ items.length ≤ bounds.maxArrayLength ∧ InertItems bounds items (depth + 1)
  | .record properties, depth => depth ≤ bounds.maxDepth ∧ InertProperties bounds properties (depth + 1)
  | .exotic, _ => False
  | _, depth => depth ≤ bounds.maxDepth

def InertItems (bounds : SnapshotDataBounds) : List Value → ℕ → Prop
  | [], _ => True
  | v :: rest, depth => Inert bounds v depth ∧ InertItems bounds rest depth

def InertProperties (bounds : SnapshotDataBounds) : List (JsString × Value) → ℕ → Prop
  | [], _ => True
  | (_, v) :: rest, depth => Inert bounds v depth ∧ InertProperties bounds rest depth

end

theorem nodes_pos (v : Value) : 0 < nodes v := by
  cases v with
  | array items => exact Nat.succ_pos _
  | record properties => exact Nat.succ_pos _
  | _ => exact Nat.one_pos

theorem length_le_nodesItems (items : List Value) : items.length ≤ nodesItems items := by
  induction items with
  | nil => exact Nat.le_refl 0
  | cons v rest ih =>
    have hv := nodes_pos v
    rw [List.length_cons, nodesItems]
    omega

theorem length_le_nodesProperties (properties : List (JsString × Value)) : properties.length ≤ nodesProperties properties := by
  induction properties with
  | nil => exact Nat.le_refl 0
  | cons p rest ih =>
    obtain ⟨key, v⟩ := p
    have hv := nodes_pos v
    rw [List.length_cons, nodesProperties]
    omega

theorem enter_ok_iff (bounds : SnapshotDataBounds) (depth remaining left : ℕ) :
    enter bounds depth remaining = .ok left ↔ depth ≤ bounds.maxDepth ∧ 1 ≤ remaining ∧ left + 1 = remaining := by
  unfold enter
  split
  · rename_i h
    simp only [Bool.or_eq_true, decide_eq_true_eq] at h
    refine ⟨nofun, fun hleft => ?_⟩
    omega
  · rename_i h
    simp only [Bool.or_eq_true, decide_eq_true_eq, not_or, not_lt] at h
    refine ⟨fun heq => ?_, fun hleft => congrArg Except.ok (by omega)⟩
    have hleft := Except.ok.inj heq
    omega

theorem array_fits_iff (bounds : SnapshotDataBounds) (items : List Value) (remaining : ℕ) :
    ¬ (decide (bounds.maxArrayLength < items.length) || decide (remaining < items.length)) = true ↔
      items.length ≤ bounds.maxArrayLength ∧ items.length ≤ remaining := by
  simp only [Bool.or_eq_true, decide_eq_true_eq, not_or, not_lt]

theorem visit_scalar (bounds : SnapshotDataBounds) (depth remaining left : ℕ) :
    enter bounds depth remaining = .ok left ↔ depth ≤ bounds.maxDepth ∧ left + 1 = remaining := by
  rw [enter_ok_iff]
  omega

mutual

theorem visit_ok_iff (bounds : SnapshotDataBounds) : ∀ (v : Value) (depth remaining left : ℕ),
    visit bounds v depth remaining = .ok left ↔ Inert bounds v depth ∧ left + nodes v = remaining
  | .undefined, depth, remaining, left => visit_scalar bounds depth remaining left
  | .null, depth, remaining, left => visit_scalar bounds depth remaining left
  | .bool _, depth, remaining, left => visit_scalar bounds depth remaining left
  | .number _, depth, remaining, left => visit_scalar bounds depth remaining left
  | .string _, depth, remaining, left => visit_scalar bounds depth remaining left
  | .array items, depth, remaining, left => by
    have hlength := length_le_nodesItems items
    rw [visit, Inert, nodes]
    constructor
    · intro h
      obtain ⟨inner, henter, h⟩ := except_bind_ok _ _ _ h
      obtain ⟨hbounds, h⟩ := (ite_error_ok_iff _ _ _ _).mp h
      obtain ⟨hdepth, -, hinner⟩ := (enter_ok_iff bounds depth remaining inner).mp henter
      obtain ⟨hitems, hleft⟩ := (visitItems_ok_iff bounds items (depth + 1) inner left).mp h
      exact ⟨⟨hdepth, ((array_fits_iff bounds items inner).mp hbounds).1, hitems⟩, by omega⟩
    · rintro ⟨⟨hdepth, harray, hitems⟩, hleft⟩
      rw [(enter_ok_iff bounds depth remaining (left + nodesItems items)).mpr ⟨hdepth, by omega, by omega⟩]
      refine (ite_error_ok_iff _ _ _ _).mpr ⟨?_, (visitItems_ok_iff bounds items (depth + 1) _ left).mpr ⟨hitems, rfl⟩⟩
      exact (array_fits_iff bounds items _).mpr ⟨harray, by omega⟩
  | .record properties, depth, remaining, left => by
    have hlength := length_le_nodesProperties properties
    rw [visit, Inert, nodes]
    constructor
    · intro h
      obtain ⟨inner, henter, h⟩ := except_bind_ok _ _ _ h
      obtain ⟨-, h⟩ := (ite_error_ok_iff _ _ _ _).mp h
      obtain ⟨hdepth, -, hinner⟩ := (enter_ok_iff bounds depth remaining inner).mp henter
      obtain ⟨hproperties, hleft⟩ := (visitProperties_ok_iff bounds properties (depth + 1) inner left).mp h
      exact ⟨⟨hdepth, hproperties⟩, by omega⟩
    · rintro ⟨⟨hdepth, hproperties⟩, hleft⟩
      rw [(enter_ok_iff bounds depth remaining (left + nodesProperties properties)).mpr ⟨hdepth, by omega, by omega⟩]
      refine (ite_error_ok_iff _ _ _ _).mpr ⟨by omega, ?_⟩
      exact (visitProperties_ok_iff bounds properties (depth + 1) _ left).mpr ⟨hproperties, rfl⟩
  | .exotic, depth, remaining, left => by
    rw [visit, Inert]
    refine ⟨fun h => ?_, fun h => h.1.elim⟩
    obtain ⟨_, -, h⟩ := except_bind_ok _ _ _ h
    cases h

theorem visitItems_ok_iff (bounds : SnapshotDataBounds) : ∀ (items : List Value) (depth remaining left : ℕ),
    visitItems bounds items depth remaining = .ok left ↔ InertItems bounds items depth ∧ left + nodesItems items = remaining
  | [], depth, remaining, left => by
    rw [visitItems, InertItems, nodesItems]
    exact ⟨fun h => ⟨trivial, (Except.ok.inj h).symm⟩, fun h => congrArg Except.ok h.2.symm⟩
  | v :: rest, depth, remaining, left => by
    rw [visitItems, InertItems, nodesItems]
    constructor
    · intro h
      obtain ⟨inner, hv, h⟩ := except_bind_ok _ _ _ h
      obtain ⟨hinert, hinner⟩ := (visit_ok_iff bounds v depth remaining inner).mp hv
      obtain ⟨hrest, hleft⟩ := (visitItems_ok_iff bounds rest depth inner left).mp h
      exact ⟨⟨hinert, hrest⟩, by omega⟩
    · rintro ⟨⟨hinert, hrest⟩, hleft⟩
      rw [(visit_ok_iff bounds v depth remaining (left + nodesItems rest)).mpr ⟨hinert, by omega⟩]
      exact (visitItems_ok_iff bounds rest depth _ left).mpr ⟨hrest, rfl⟩

theorem visitProperties_ok_iff (bounds : SnapshotDataBounds) : ∀ (properties : List (JsString × Value))
    (depth remaining left : ℕ),
    visitProperties bounds properties depth remaining = .ok left ↔
      InertProperties bounds properties depth ∧ left + nodesProperties properties = remaining
  | [], depth, remaining, left => by
    rw [visitProperties, InertProperties, nodesProperties]
    exact ⟨fun h => ⟨trivial, (Except.ok.inj h).symm⟩, fun h => congrArg Except.ok h.2.symm⟩
  | (key, v) :: rest, depth, remaining, left => by
    rw [visitProperties, InertProperties, nodesProperties]
    constructor
    · intro h
      obtain ⟨inner, hv, h⟩ := except_bind_ok _ _ _ h
      obtain ⟨hinert, hinner⟩ := (visit_ok_iff bounds v depth remaining inner).mp hv
      obtain ⟨hrest, hleft⟩ := (visitProperties_ok_iff bounds rest depth inner left).mp h
      exact ⟨⟨hinert, hrest⟩, by omega⟩
    · rintro ⟨⟨hinert, hrest⟩, hleft⟩
      rw [(visit_ok_iff bounds v depth remaining (left + nodesProperties rest)).mpr ⟨hinert, by omega⟩]
      exact (visitProperties_ok_iff bounds rest depth _ left).mpr ⟨hrest, rfl⟩

end

theorem snapshotDataBounded_ok_iff (value copy : Value) (bounds : SnapshotDataBounds) :
    snapshotDataBounded value bounds = .ok copy ↔ copy = value ∧ Inert bounds value 0 ∧ nodes value ≤ bounds.maxNodes := by
  unfold snapshotDataBounded
  constructor
  · intro h
    obtain ⟨left, hvisit, hcopy⟩ := except_map_ok _ _ _ h
    obtain ⟨hinert, hleft⟩ := (visit_ok_iff bounds value 0 bounds.maxNodes left).mp hvisit
    exact ⟨hcopy, hinert, by omega⟩
  · rintro ⟨rfl, hinert, hnodes⟩
    rw [(visit_ok_iff bounds copy 0 bounds.maxNodes (bounds.maxNodes - nodes copy)).mpr ⟨hinert, by omega⟩]
    rfl

end MoeNG.Core
