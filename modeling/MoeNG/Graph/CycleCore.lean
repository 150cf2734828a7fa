import MoeNG.Graph.TopoOrder
import MoeNG.Lib.Tarjan

/-!
# The cycle core is exact (`graph-traversal.ts:143-243`)

The iterative pass keeps the invariant of the depth-first search, and the
components it numbers are the strongly connected ones.
-/

namespace MoeNG.Graph
open MoeNG.Kernel MoeNG.Lib

/-! ### The state of the pass as a search -/

def TarjanState.number (state : TarjanState) (x : ℕ) : ℤ := state.vindex.getD x 0

def TarjanState.low (state : TarjanState) (x : ℕ) : ℤ := state.lowlink.getD x 0

def TarjanState.component (state : TarjanState) (x : ℕ) : ℤ := state.sccId.getD x 0

def examinedAt (index : HardGraphIndex) (frames : List TarjanFrame) : List (ℕ × List ℕ) :=
  frames.map fun frame => (frame.node, (index.heads frame.node).take frame.arc)

/-- The arrays have a slot for every node, and the flags agree with the stack. -/
structure Slots (index : HardGraphIndex) (state : TarjanState) : Prop where
  vindex : state.vindex.length = index.size
  lowlink : state.lowlink.length = index.size
  onStack : state.onStack.length = index.size
  sccId : state.sccId.length = index.size
  bounded : ∀ x ∈ state.tarjan, x < index.size
  flags : ∀ x, state.onStack.getD x false = true ↔ x ∈ state.tarjan
  numbered : ∀ x, state.number x = -1 ∨ 0 ≤ state.number x
  counter : 0 ≤ state.counter

/-- The components closed so far are numbered from zero, each with its size. -/
structure Classes (index : HardGraphIndex) (state : TarjanState) : Prop where
  pending : ∀ x < index.size, state.component x = -1 ↔ state.number x = -1 ∨ x ∈ state.tarjan
  range : ∀ x < index.size, state.component x ≠ -1 → 0 ≤ state.component x ∧ state.component x < state.sccSize.length
  same : ∀ x < index.size, ∀ y < index.size, state.component x ≠ -1 → state.component y ≠ -1 →
    (state.component x = state.component y ↔ Connected index.heads x y)
  sizes : ∀ id < state.sccSize.length,
    state.sccSize.getD id 0 = (List.range index.size).countP fun x => state.component x = (id : ℤ)

structure Walking (index : HardGraphIndex) (state : TarjanState) (frames : List TarjanFrame) : Prop where
  slots : Slots index state
  classes : Classes index state
  walk : Walk index.heads state.number state.low state.counter state.tarjan (examinedAt index frames)
  resumed : ∀ frame ∈ frames.tail, 0 < frame.arc

variable {index : HardGraphIndex} {state : TarjanState} {frames rest : List TarjanFrame} {v w arc : ℕ}

theorem getD_set_update {B : Type} (l : List B) (i : ℕ) (a d : B) (hi : i < l.length) :
    (fun x => (l.set i a).getD x d) = Function.update (fun x => l.getD x d) i a := by
  funext x
  by_cases hx : x = i
  · subst hx
    rw [Function.update_self, List.getD, List.getElem?_set_self hi, Option.getD_some]
  · rw [Function.update_of_ne hx, List.getD, List.getElem?_set_ne (Ne.symm hx)]
    rfl

theorem getD_set_eq {B : Type} (l : List B) (i x : ℕ) (a d : B) (hi : i < l.length) :
    (l.set i a).getD x d = if x = i then a else l.getD x d := by
  have h := congrFun (getD_set_update l i a d hi) x
  rw [h, Function.update_apply]

/-! ### Entering -/

theorem enterNode_walking (h : Walking index state frames) (hw : w < index.size) (hnew : state.number w = -1)
    {frames' : List TarjanFrame} (hentering : Walk.Entering index.heads (examinedAt index frames) (examinedAt index frames') w)
    (harcs : ∀ frame ∈ frames', 0 < frame.arc) : Walking index (enterNode state w) (⟨w, 0⟩ :: frames') := by
  have hfresh : w ∉ state.tarjan := fun hm => by
    have hpos := (h.walk.counted w hm).1
    omega
  have hnumber : (enterNode state w).number = Function.update state.number w state.counter :=
    getD_set_update _ _ _ _ (by rw [h.slots.vindex]; exact hw)
  have hlow : (enterNode state w).low = Function.update state.low w state.counter :=
    getD_set_update _ _ _ _ (by rw [h.slots.lowlink]; exact hw)
  have hcounter := h.slots.counter
  have hpending : state.component w = -1 := (h.classes.pending w hw).mpr (Or.inl hnew)
  refine ⟨⟨?_, ?_, ?_, h.slots.sccId, ?_, ?_, ?_, ?_⟩, ⟨?_, h.classes.range, h.classes.same, h.classes.sizes⟩, ?_, harcs⟩
  · exact (List.length_set ..).trans h.slots.vindex
  · exact (List.length_set ..).trans h.slots.lowlink
  · exact (List.length_set ..).trans h.slots.onStack
  · exact List.forall_mem_cons.mpr ⟨hw, h.slots.bounded⟩
  · intro x
    show (state.onStack.set w true).getD x false = true ↔ x ∈ w :: state.tarjan
    rw [getD_set_eq _ _ _ _ _ (by rw [h.slots.onStack]; exact hw), List.mem_cons, ← h.slots.flags x]
    by_cases hx : x = w <;> simp [hx]
  · intro x
    rw [hnumber, Function.update_apply]
    split
    · exact Or.inr hcounter
    · exact h.slots.numbered x
  · show 0 ≤ state.counter + 1
    omega
  · intro x hx
    show state.component x = -1 ↔ (enterNode state w).number x = -1 ∨ x ∈ w :: state.tarjan
    rw [hnumber, Function.update_apply, List.mem_cons]
    by_cases hxw : x = w
    · rw [hxw, if_pos rfl]
      exact ⟨fun _ => Or.inr (Or.inl rfl), fun _ => hpending⟩
    · rw [if_neg hxw, h.classes.pending x hx]
      simp [hxw]
  · rw [hnumber, hlow]
    exact h.walk.enter hnew hcounter hentering

/-! ### Scanning -/

theorem examinedAt_succ (index : HardGraphIndex) (v arc : ℕ) (rest : List TarjanFrame) (hw : (index.heads v)[arc]? = some w) :
    examinedAt index (⟨v, arc + 1⟩ :: rest) = (v, (index.heads v).take arc ++ [w]) :: examinedAt index rest := by
  show (v, (index.heads v).take (arc + 1)) :: _ = _
  rw [List.take_add_one, hw]
  rfl

theorem heads_split (index : HardGraphIndex) (v arc : ℕ) (hw : (index.heads v)[arc]? = some w) :
    index.heads v = (index.heads v).take arc ++ w :: (index.heads v).drop (arc + 1) := by
  obtain ⟨hlt, hget⟩ := List.getElem?_eq_some_iff.mp hw
  rw [← hget, ← List.drop_eq_getElem_cons hlt, List.take_append_drop]

theorem lowerLink_parts (hslots : Slots index state) (hclasses : Classes index state) (bound : ℤ) (hv : v < index.size) :
    Slots index (lowerLink state v bound) ∧ Classes index (lowerLink state v bound)
      ∧ (lowerLink state v bound).low = Function.update state.low v (min (state.low v) bound) := by
  refine ⟨⟨hslots.vindex, (List.length_set ..).trans hslots.lowlink, hslots.onStack, hslots.sccId, hslots.bounded,
    hslots.flags, hslots.numbered, hslots.counter⟩,
    ⟨hclasses.pending, hclasses.range, hclasses.same, hclasses.sizes⟩, ?_⟩
  exact getD_set_update _ _ _ _ (by rw [hslots.lowlink]; exact hv)

/-- One arc to a node met before. -/
theorem scan_step (h : Walking index state (⟨v, arc⟩ :: rest)) (hw : (index.heads v)[arc]? = some w)
    (hmet : state.number w ≠ -1) :
    Walking index (if state.onStack.getD w false then lowerLink state v (state.number w) else state) (⟨v, arc + 1⟩ :: rest) := by
  have hv : v < index.size := h.slots.bounded v (h.walk.path_mem v (List.mem_cons_self ..))
  have hpos : 0 ≤ state.number w := (h.slots.numbered w).resolve_left hmet
  have hexamine := h.walk.examine (heads_split index v arc hw) hpos
  have hframes := examinedAt_succ index v arc rest hw
  by_cases hstack : w ∈ state.tarjan
  · rw [if_pos ((h.slots.flags w).mpr hstack)]
    obtain ⟨hslots, hclasses, hlow⟩ := lowerLink_parts h.slots h.classes (state.number w) hv
    refine ⟨hslots, hclasses, ?_, h.resumed⟩
    rw [if_pos hstack] at hexamine
    rw [hframes, hlow]
    exact hexamine
  · rw [if_neg fun hflag => hstack ((h.slots.flags w).mp hflag)]
    refine ⟨h.slots, h.classes, ?_, h.resumed⟩
    rw [if_neg hstack] at hexamine
    rw [hframes]
    exact hexamine

/-- What a scan leaves: the arcs are all examined, or the next one leads to a new node. -/
def Scanned (index : HardGraphIndex) (v : ℕ) (rest : List TarjanFrame) : TarjanState × ℕ × Option ℕ → Prop
  | (state, arc, none) => Walking index state (⟨v, arc⟩ :: rest) ∧ (index.heads v).length ≤ arc
  | (state, arc, some w) => ∃ last, arc = last + 1 ∧ Walking index state (⟨v, last⟩ :: rest)
      ∧ (index.heads v)[last]? = some w ∧ state.number w = -1

theorem scanArcs_scanned (arcs : List HardArc) (arc : ℕ) (state : TarjanState) (h : Walking index state (⟨v, arc⟩ :: rest))
    (harcs : arcs = (index.outArcs v).drop arc) :
    Scanned index v rest (scanArcs v arcs arc state) ∧ (scanArcs v arcs arc state).1.number = state.number := by
  induction arcs generalizing arc state with
  | nil =>
    refine ⟨⟨h, ?_⟩, rfl⟩
    have hlength := List.drop_eq_nil_iff.mp harcs.symm
    rwa [HardGraphIndex.heads, List.length_map]
  | cons next tail ih =>
    have hnext : (index.outArcs v)[arc]? = some next := by
      have hhead := congrArg List.head? harcs
      rw [List.head?_drop] at hhead
      exact hhead.symm
    have hw : (index.heads v)[arc]? = some next.nodeIndex := by
      rw [HardGraphIndex.heads, List.getElem?_map, hnext, Option.map_some]
    have htail : tail = (index.outArcs v).drop (arc + 1) := by
      have hdrop := congrArg List.tail harcs
      rwa [List.tail_drop] at hdrop
    unfold scanArcs
    dsimp only
    by_cases hnew : state.vindex.getD next.nodeIndex 0 = -1
    · rw [if_pos hnew]
      exact ⟨⟨arc, rfl, h, hw, hnew⟩, rfl⟩
    · rw [if_neg hnew]
      have hstep := scan_step h hw hnew
      by_cases hflag : state.onStack.getD next.nodeIndex false = true
      · rw [if_pos hflag] at hstep ⊢
        exact ih (arc + 1) _ hstep htail
      · rw [if_neg hflag] at hstep ⊢
        exact ih (arc + 1) _ hstep htail

/-! ### Closing a component -/

/-- What popping a component does to the arrays. -/
structure Popped (state popped : TarjanState) (component below : List ℕ) (id : ℤ) : Prop where
  tarjan : popped.tarjan = below
  vindex : popped.vindex = state.vindex
  lowlink : popped.lowlink = state.lowlink
  counter : popped.counter = state.counter
  sccSize : popped.sccSize = state.sccSize
  flagSlots : popped.onStack.length = state.onStack.length
  idSlots : popped.sccId.length = state.sccId.length
  onStack : ∀ x, popped.onStack.getD x false = if x ∈ component then false else state.onStack.getD x false
  sccId : ∀ x, popped.component x = if x ∈ component then id else state.component x

theorem popComponent_popped (id : ℕ) (segment below : List ℕ) (state : TarjanState) (size : ℕ) (hv : v ∉ segment)
    (hflags : ∀ x ∈ segment ++ [v], x < state.onStack.length) (hids : ∀ x ∈ segment ++ [v], x < state.sccId.length) :
    Popped state (popComponent v id (segment ++ v :: below) state size).1 (segment ++ [v]) below id
      ∧ (popComponent v id (segment ++ v :: below) state size).2 = size + segment.length + 1 := by
  induction segment generalizing state size with
  | nil =>
    rw [List.nil_append, popComponent, if_pos rfl]
    refine ⟨⟨rfl, rfl, rfl, rfl, rfl, List.length_set .., List.length_set .., fun x => ?_, fun x => ?_⟩, rfl⟩
    · rw [getD_set_eq _ _ _ _ _ (hflags v (List.mem_singleton_self v))]
      simp
    · show (state.sccId.set v id).getD x 0 = _
      rw [getD_set_eq _ _ _ _ _ (hids v (List.mem_singleton_self v))]
      simp [TarjanState.component]
  | cons w segment ih =>
    rw [List.mem_cons, not_or] at hv
    have hwflag := hflags w (List.mem_cons_self ..)
    have hwid := hids w (List.mem_cons_self ..)
    rw [List.cons_append, popComponent, if_neg fun heq => hv.1 heq.symm]
    obtain ⟨hpopped, hsize⟩ := ih
      { state with
        tarjan := segment ++ v :: below
        onStack := state.onStack.set w false
        sccId := state.sccId.set w id } (size + 1) hv.2
      (fun x hx => (hflags x (List.mem_cons_of_mem _ hx)).trans_eq (List.length_set ..).symm)
      (fun x hx => (hids x (List.mem_cons_of_mem _ hx)).trans_eq (List.length_set ..).symm)
    refine ⟨⟨hpopped.tarjan, hpopped.vindex, hpopped.lowlink, hpopped.counter, hpopped.sccSize,
      hpopped.flagSlots.trans (List.length_set ..), hpopped.idSlots.trans (List.length_set ..), fun x => ?_, fun x => ?_⟩, ?_⟩
    · rw [hpopped.onStack x]
      dsimp only
      rw [getD_set_eq _ _ _ _ _ hwflag]
      by_cases hxw : x = w <;> simp [hxw]
    · rw [hpopped.sccId x]
      show (if x ∈ segment ++ [v] then (id : ℤ) else (state.sccId.set w id).getD x 0) = _
      rw [getD_set_eq _ _ _ _ _ hwid]
      by_cases hxw : x = w <;> simp [hxw, TarjanState.component]
    · rw [hsize, List.length_cons]
      omega

theorem countP_range_mem (n : ℕ) (l : List ℕ) (hl : l.Nodup) (hbound : ∀ x ∈ l, x < n) :
    (List.range n).countP (fun x => x ∈ l) = l.length := by
  rw [List.countP_eq_length_filter]
  refine List.Perm.length_eq ((List.perm_ext_iff_of_nodup (List.nodup_range.filter _) hl).mpr fun x => ?_)
  rw [List.mem_filter, List.mem_range, decide_eq_true_eq]
  exact ⟨fun h => h.2, fun h => ⟨hbound x h, h⟩⟩

theorem finished_top (h : Walking index state (⟨v, arc⟩ :: rest)) (hdone : (index.heads v).length ≤ arc) :
    Walk index.heads state.number state.low state.counter state.tarjan ((v, index.heads v) :: examinedAt index rest) := by
  have hwalk := h.walk
  rw [examinedAt, List.map_cons, List.take_of_length_le hdone] at hwalk
  exact hwalk

theorem closeComponent_walking (h : Walking index state (⟨v, arc⟩ :: rest)) (hdone : (index.heads v).length ≤ arc)
    (hroot : state.low v = state.number v) :
    Walking index (closeComponent state v) rest ∧ (closeComponent state v).number = state.number
      ∧ (closeComponent state v).low = state.low := by
  have hwalk := finished_top h hdone
  have hv : v ∈ state.tarjan := hwalk.path_mem v (List.mem_cons_self ..)
  obtain ⟨segment, below, hstack⟩ := List.append_of_mem hv
  have hsplit : state.tarjan = (segment ++ [v]) ++ below := by rw [hstack]; simp
  have hsub : ∀ x ∈ segment ++ [v], x ∈ state.tarjan := fun x hx => Walk.segment_sub hstack x hx
  have hbound : ∀ x ∈ segment ++ [v], x < index.size := fun x hx => h.slots.bounded x (hsub x hx)
  have hnodup : (segment ++ [v]).Nodup := by
    have hall := hwalk.nodup
    rw [hsplit] at hall
    exact (List.nodup_append.mp hall).1
  have hbelow : ∀ x ∈ below, x ∈ state.tarjan := fun x hx => by
    rw [hstack]
    exact List.mem_append_right _ (List.mem_cons_of_mem _ hx)
  have hdisjoint : ∀ x ∈ segment ++ [v], x ∉ below := by
    have hall := hwalk.nodup
    rw [hsplit] at hall
    exact fun x hx hb => (List.disjoint_of_nodup_append hall) hx hb
  have hvfresh : v ∉ segment := by
    have hsplit := List.disjoint_of_nodup_append hnodup
    exact fun hm => hsplit hm (List.mem_singleton_self v)
  have hclose := hwalk.close hroot hstack
  have hconnected := hwalk.segment_connected hroot hstack
  have hapart : ∀ x y, x < index.size → state.component x ≠ -1 → y ∈ segment ++ [v] → ¬ Connected index.heads x y := by
    intro x y hx hne hy hxy
    have hdone := mt (h.classes.pending x hx).mpr hne
    rw [not_or] at hdone
    exact (hwalk.closed_reach ⟨(h.slots.numbered x).resolve_left hdone.1, hdone.2⟩ hxy.1).2 (hsub y hy)
  obtain ⟨hpopped, hsize⟩ := popComponent_popped state.sccSize.length segment below state 0 hvfresh
    (fun x hx => by rw [h.slots.onStack]; exact hbound x hx) (fun x hx => by rw [h.slots.sccId]; exact hbound x hx)
  have heq : closeComponent state v =
      { (popComponent v state.sccSize.length (segment ++ v :: below) state 0).1 with
        sccSize := (popComponent v state.sccSize.length (segment ++ v :: below) state 0).1.sccSize
          ++ [(popComponent v state.sccSize.length (segment ++ v :: below) state 0).2] } := by
    have hroot' : state.lowlink.getD v 0 = state.vindex.getD v 0 := hroot
    rw [closeComponent, if_pos hroot', ← hstack]
  generalize popComponent v state.sccSize.length (segment ++ v :: below) state 0 = result at hpopped hsize heq
  obtain ⟨popped, size⟩ := result
  dsimp only at hpopped hsize heq
  rw [heq]
  have hnumber : popped.number = state.number := funext fun x => by
    rw [TarjanState.number, hpopped.vindex]
    rfl
  have hlow : popped.low = state.low := funext fun x => by
    rw [TarjanState.low, hpopped.lowlink]
    rfl
  have hcomponent := hpopped.sccId
  have hlive : ∀ x ∈ segment ++ [v], state.component x = -1 := fun x hx =>
    (h.classes.pending x (hbound x hx)).mpr (Or.inr (hsub x hx))
  refine ⟨⟨⟨?_, ?_, ?_, ?_, ?_, ?_, ?_, ?_⟩, ⟨?_, ?_, ?_, ?_⟩, ?_, fun frame hf => ?_⟩, hnumber, hlow⟩
  · exact (congrArg List.length hpopped.vindex).trans h.slots.vindex
  · exact (congrArg List.length hpopped.lowlink).trans h.slots.lowlink
  · exact hpopped.flagSlots.trans h.slots.onStack
  · exact hpopped.idSlots.trans h.slots.sccId
  · intro x hx
    exact h.slots.bounded x (hbelow x (hpopped.tarjan ▸ hx))
  · intro x
    show popped.onStack.getD x false = true ↔ x ∈ popped.tarjan
    rw [hpopped.onStack, hpopped.tarjan]
    by_cases hx : x ∈ segment ++ [v]
    · rw [if_pos hx]
      exact ⟨nofun, fun hm => absurd hm (hdisjoint x hx)⟩
    · rw [if_neg hx, h.slots.flags, hsplit, List.mem_append]
      exact ⟨fun hm => hm.resolve_left hx, Or.inr⟩
  · intro x
    show popped.number x = -1 ∨ 0 ≤ popped.number x
    rw [hnumber]
    exact h.slots.numbered x
  · show 0 ≤ popped.counter
    rw [hpopped.counter]
    exact h.slots.counter
  · intro x hx
    show popped.component x = -1 ↔ popped.number x = -1 ∨ x ∈ popped.tarjan
    rw [hcomponent, hnumber, hpopped.tarjan]
    by_cases hin : x ∈ segment ++ [v]
    · have hpos := (hwalk.counted x (hsub x hin)).1
      rw [if_pos hin]
      exact ⟨fun h => by omega, fun h => h.elim (fun h => by omega) fun hm => absurd hm (hdisjoint x hin)⟩
    · rw [if_neg hin, h.classes.pending x hx, hsplit, List.mem_append, or_iff_right hin]
  · intro x hx hne
    show 0 ≤ popped.component x ∧ popped.component x < (popped.sccSize ++ [size]).length
    rw [hpopped.sccSize, List.length_append, List.length_singleton]
    have hne' : popped.component x ≠ -1 := hne
    rw [hcomponent] at hne' ⊢
    by_cases hin : x ∈ segment ++ [v]
    · rw [if_pos hin]
      omega
    · rw [if_neg hin] at hne' ⊢
      have hrange := h.classes.range x hx hne'
      omega
  · intro x hx y hy hxne hyne
    have hx' : popped.component x ≠ -1 := hxne
    have hy' : popped.component y ≠ -1 := hyne
    show popped.component x = popped.component y ↔ _
    rw [hcomponent] at hx' hy'
    rw [hcomponent, hcomponent]
    by_cases hxin : x ∈ segment ++ [v] <;> by_cases hyin : y ∈ segment ++ [v]
    · rw [if_pos hxin, if_pos hyin]
      exact ⟨fun _ => (hconnected x hxin).symm.trans (hconnected y hyin), fun _ => rfl⟩
    · rw [if_neg hyin] at hy'
      rw [if_pos hxin, if_neg hyin]
      refine ⟨fun heq => ?_, fun hxy => absurd hxy.symm (hapart y x hy hy' hxin)⟩
      have hrange := h.classes.range y hy hy'
      omega
    · rw [if_neg hxin] at hx'
      rw [if_neg hxin, if_pos hyin]
      refine ⟨fun heq => ?_, fun hxy => absurd hxy (hapart x y hx hx' hyin)⟩
      have hrange := h.classes.range x hx hx'
      omega
    · rw [if_neg hxin] at hx'
      rw [if_neg hyin] at hy'
      rw [if_neg hxin, if_neg hyin]
      exact h.classes.same x hx y hy hx' hy'
  · intro id hid
    show (popped.sccSize ++ [size]).getD id 0 = (List.range index.size).countP fun x => popped.component x = (id : ℤ)
    have hid' : id < (popped.sccSize ++ [size]).length := hid
    rw [hpopped.sccSize, List.length_append, List.length_singleton] at hid'
    rw [hpopped.sccSize]
    rcases Nat.lt_succ_iff_lt_or_eq.mp hid' with hlt | rfl
    · rw [List.getD, List.getElem?_append_left hlt]
      refine (h.classes.sizes id hlt).trans (List.countP_congr fun x hx => ?_)
      rw [decide_eq_true_eq, decide_eq_true_eq, hcomponent]
      by_cases hin : x ∈ segment ++ [v]
      · rw [if_pos hin, hlive x hin]
        omega
      · rw [if_neg hin]
    · rw [List.getD, List.getElem?_concat_length, Option.getD_some, hsize]
      have hcount := countP_range_mem index.size (segment ++ [v]) hnodup hbound
      rw [List.length_append, List.length_singleton] at hcount
      rw [Nat.zero_add, ← hcount]
      refine List.countP_congr fun x hx => ?_
      rw [decide_eq_true_eq, decide_eq_true_eq, hcomponent]
      by_cases hin : x ∈ segment ++ [v]
      · simp [hin]
      · rw [if_neg hin]
        refine ⟨fun hm => absurd hm hin, fun heq => ?_⟩
        have hne : state.component x ≠ -1 := by omega
        have hrange := h.classes.range x (List.mem_range.mp hx) hne
        omega
  · show Walk index.heads popped.number popped.low popped.counter popped.tarjan _
    rw [hnumber, hlow, hpopped.counter, hpopped.tarjan]
    exact hclose
  · refine h.resumed frame ?_
    exact List.mem_of_mem_tail hf

/-! ### Leaving -/

/-- What the parent of a finished node does with its link. -/
def leaveNode (state : TarjanState) (v : ℕ) : List TarjanFrame → TarjanState
  | [] => closeComponent state v
  | parent :: _ => lowerLink (closeComponent state v) parent.node ((closeComponent state v).low v)

theorem leaveNode_number (state : TarjanState) (v : ℕ) (rest : List TarjanFrame) :
    (leaveNode state v rest).number = (closeComponent state v).number := by
  cases rest <;> rfl

theorem leaveNode_walking (h : Walking index state (⟨v, arc⟩ :: rest)) (hdone : (index.heads v).length ≤ arc) :
    Walking index (leaveNode state v rest) rest ∧ (leaveNode state v rest).number = state.number := by
  have hwalk := finished_top h hdone
  have hv : v ∈ state.tarjan := hwalk.path_mem v (List.mem_cons_self ..)
  have hle := hwalk.low_le v hv
  rw [leaveNode_number]
  rcases hle.eq_or_lt with hroot | hlt
  · obtain ⟨hclosed, hnumber, hlow⟩ := closeComponent_walking h hdone hroot
    refine ⟨?_, hnumber⟩
    cases rest with
    | nil => exact hclosed
    | cons parent rest =>
      have hp : parent.node ∈ state.tarjan := hwalk.path_mem parent.node (List.mem_cons_of_mem _ (List.mem_cons_self ..))
      have hbefore := hwalk.below_lt parent.node (List.mem_cons_self ..)
      have hparent := hwalk.low_le parent.node hp
      obtain ⟨hslots, hclasses, hupdate⟩ := lowerLink_parts hclosed.slots hclosed.classes
        ((closeComponent state v).low v) (h.slots.bounded parent.node hp)
      refine ⟨hslots, hclasses, ?_, hclosed.resumed⟩
      rw [hlow] at hupdate
      rw [leaveNode, hlow, hupdate, min_eq_left (by omega), Function.update_eq_self, ← hlow]
      exact hclosed.walk
  · have hkept : closeComponent state v = state := if_neg hlt.ne
    refine ⟨?_, by rw [hkept]⟩
    cases rest with
    | nil => exact absurd hwalk.root_low hlt.ne
    | cons parent rest =>
      have hp : parent.node ∈ state.tarjan := hwalk.path_mem parent.node (List.mem_cons_of_mem _ (List.mem_cons_self ..))
      obtain ⟨hslots, hclasses, hupdate⟩ := lowerLink_parts h.slots h.classes (state.low v) (h.slots.bounded parent.node hp)
      rw [leaveNode, hkept]
      refine ⟨hslots, hclasses, ?_, fun frame hf => h.resumed frame (List.mem_of_mem_tail hf)⟩
      rw [hupdate]
      exact hwalk.keep hlt

/-! ### The loop -/

/-- How a round of the loop finds the stack: a frame to go on with, a root, or a node that an arc came to. -/
inductive Ready (index : HardGraphIndex) (state : TarjanState) : List TarjanFrame → Prop
  | ended : Walking index state [] → Ready index state []
  | resumed {v arc : ℕ} {rest : List TarjanFrame} : Walking index state (⟨v, arc⟩ :: rest) → 0 < arc →
    Ready index state (⟨v, arc⟩ :: rest)
  | root {w : ℕ} : Walking index state [] → w < index.size → state.number w = -1 → Ready index state [⟨w, 0⟩]
  | child {v w last : ℕ} {rest : List TarjanFrame} : Walking index state (⟨v, last⟩ :: rest) → (index.heads v)[last]? = some w →
    state.number w = -1 → Ready index state (⟨w, 0⟩ :: ⟨v, last + 1⟩ :: rest)

def entered (state : TarjanState) (frame : TarjanFrame) : TarjanState :=
  if frame.arc = 0 then enterNode state frame.node else state

def unmet (index : HardGraphIndex) (state : TarjanState) : ℕ := (List.range index.size).countP fun x => state.number x = -1

theorem entering_root (index : HardGraphIndex) (w : ℕ) : Walk.Entering index.heads (examinedAt index [])
    (examinedAt index []) w :=
  ⟨rfl, fun _ _ h => Or.inl h, nofun⟩

theorem entering_child (h : (index.heads v)[arc]? = some w) :
    Walk.Entering index.heads (examinedAt index (⟨v, arc⟩ :: rest)) (examinedAt index (⟨v, arc + 1⟩ :: rest)) w := by
  refine ⟨rfl, fun x u hex => ?_, fun f hf => ?_⟩
  · by_cases hu : u = w
    · exact Or.inr hu
    refine Or.inl ⟨hex.1, fun f hf hfx => ?_⟩
    rcases List.mem_cons.mp hf with rfl | hf
    · have hin := hex.2 _ (List.mem_cons_self ..) hfx
      have hin' : u ∈ (index.heads v).take (arc + 1) := hin
      rw [List.take_add_one, h] at hin'
      exact (List.mem_append.mp hin').resolve_right fun hm => hu (List.mem_singleton.mp hm)
    · exact hex.2 f (List.mem_cons_of_mem _ hf) hfx
  · obtain rfl := Option.some.inj hf
    exact List.mem_of_getElem? h

/-- Entering leaves a new node's frame on top, and the node is not new any more. -/
structure Entered (index : HardGraphIndex) (before after : TarjanState) (frame : TarjanFrame)
    (rest : List TarjanFrame) : Prop where
  walking : Walking index after (frame :: rest)
  unmet : unmet index after + (if frame.arc = 0 then 1 else 0) = unmet index before
  kept : ∀ x, before.number x ≠ -1 → after.number x ≠ -1

theorem enterNode_number (h : Slots index state) (hw : w < index.size) :
    (enterNode state w).number = Function.update state.number w state.counter :=
  getD_set_update _ _ _ _ (by rw [h.vindex]; exact hw)

theorem enterNode_unmet (h : Slots index state) (hw : w < index.size) (hnew : state.number w = -1) :
    unmet index (enterNode state w) + 1 = unmet index state := by
  have hcounter := h.counter
  have hperm := List.perm_cons_erase (List.mem_range.mpr hw)
  have hmet : ¬ decide ((enterNode state w).number w = -1) = true := by
    rw [enterNode_number h hw, Function.update_self, decide_eq_true_eq]
    omega
  have hnodup : (List.range index.size).Nodup := List.nodup_range
  unfold unmet
  rw [hperm.countP_eq, hperm.countP_eq, List.countP_cons, List.countP_cons, if_neg hmet, if_pos (decide_eq_true hnew)]
  refine congrArg (· + 1) (List.countP_congr fun x hx => ?_)
  rw [enterNode_number h hw, Function.update_of_ne (hnodup.mem_erase_iff.mp hx).1]

theorem enterNode_kept (h : Slots index state) (hw : w < index.size) (x : ℕ) (hx : state.number x ≠ -1) :
    (enterNode state w).number x ≠ -1 := by
  have hcounter := h.counter
  rw [enterNode_number h hw, Function.update_apply]
  split
  · omega
  · exact hx

theorem entered_of_ready (hindex : index.Coherent) {frame : TarjanFrame} (h : Ready index state (frame :: rest)) :
    Entered index state (entered state frame) frame rest := by
  generalize hframes : frame :: rest = frames at h
  cases h with
  | ended => cases hframes
  | resumed h harc =>
    obtain ⟨rfl, rfl⟩ := List.cons.inj hframes
    rw [entered, if_neg harc.ne']
    exact ⟨h, by rw [if_neg harc.ne', Nat.add_zero], fun x hx => hx⟩
  | root h hw hnew =>
    obtain ⟨rfl, rfl⟩ := List.cons.inj hframes
    exact ⟨enterNode_walking h hw hnew (entering_root index _) nofun, enterNode_unmet h.slots hw hnew,
      enterNode_kept h.slots hw⟩
  | child h harc hnew =>
    rename_i v w last rest'
    obtain ⟨rfl, rfl⟩ := List.cons.inj hframes
    have hv : v < index.size := h.slots.bounded v (h.walk.path_mem v (List.mem_cons_self ..))
    have hw := hindex.bounded v hv w (List.mem_of_getElem? harc)
    refine ⟨enterNode_walking h hw hnew (entering_child harc) fun frame hf => ?_, enterNode_unmet h.slots hw hnew,
      enterNode_kept h.slots hw⟩
    rcases List.mem_cons.mp hf with rfl | hf
    · exact Nat.succ_pos _
    · exact h.resumed frame hf

/-- What is left of the loop: two rounds for each node not met, and one for each frame. -/
def roundsLeft (index : HardGraphIndex) (state : TarjanState) : List TarjanFrame → ℕ
  | [] => 0
  | frame :: rest => 2 * unmet index (entered state frame) + rest.length + 1

theorem roundsLeft_resumed {frame : TarjanFrame} (harc : 0 < frame.arc) :
    roundsLeft index state (frame :: rest) = 2 * unmet index state + rest.length + 1 := by
  rw [roundsLeft, entered, if_neg harc.ne']

theorem walkStack_next {frame : TarjanFrame} {scanned : TarjanState} {next : ℕ} (fuel : ℕ)
    (hscan : scanArcs frame.node ((index.outArcs frame.node).drop frame.arc) frame.arc (entered state frame)
      = (scanned, next, some w)) :
    walkStack index (fuel + 1) (frame :: rest) state = walkStack index fuel (⟨w, 0⟩ :: ⟨frame.node, next⟩ :: rest) scanned := by
  rw [entered] at hscan
  rw [walkStack]
  dsimp only
  rw [hscan]

theorem walkStack_leave {frame : TarjanFrame} {scanned : TarjanState} {next : ℕ} (fuel : ℕ)
    (hscan : scanArcs frame.node ((index.outArcs frame.node).drop frame.arc) frame.arc (entered state frame)
      = (scanned, next, none)) :
    walkStack index (fuel + 1) (frame :: rest) state = walkStack index fuel rest (leaveNode scanned frame.node rest) := by
  rw [entered] at hscan
  rw [walkStack]
  dsimp only
  rw [hscan]
  cases rest <;> rfl

theorem unmet_of_number {state' : TarjanState} (h : state'.number = state.number) : unmet index state' = unmet index state := by
  rw [unmet, unmet, h]

/-- The loop ends with no frame left; what was met stays met, and so does what had a frame. -/
theorem walkStack_spec (hindex : index.Coherent) (fuel : ℕ) (frames : List TarjanFrame) (state : TarjanState)
    (h : Ready index state frames) (hfuel : roundsLeft index state frames ≤ fuel) :
    Walking index (walkStack index fuel frames state) []
      ∧ ∀ x, state.number x ≠ -1 ∨ x ∈ frames.map TarjanFrame.node → (walkStack index fuel frames state).number x ≠ -1 := by
  induction fuel generalizing frames state with
  | zero =>
    cases frames with
    | nil =>
      cases h with
      | ended h => exact ⟨h, fun x hx => hx.elim id fun hm => absurd hm List.not_mem_nil⟩
    | cons frame rest =>
      rw [roundsLeft] at hfuel
      omega
  | succ fuel ih =>
    cases frames with
    | nil =>
      cases h with
      | ended h => exact ⟨h, fun x hx => hx.elim id fun hm => absurd hm List.not_mem_nil⟩
    | cons frame rest =>
      have hentered := entered_of_ready hindex h
      obtain ⟨hscanned, hnumber⟩ := scanArcs_scanned _ frame.arc _ hentered.walking rfl
      have htop : (entered state frame).number frame.node ≠ -1 := by
        have hmem := hentered.walking.walk.path_mem frame.node (List.mem_cons_self ..)
        have hpos := (hentered.walking.walk.counted frame.node hmem).1
        omega
      rw [roundsLeft] at hfuel
      rcases hscan : scanArcs frame.node ((index.outArcs frame.node).drop frame.arc) frame.arc (entered state frame)
        with ⟨scanned, next, _ | w⟩
      · rw [hscan] at hscanned hnumber
        obtain ⟨hwalking, hdone⟩ := hscanned
        obtain ⟨hleft, hsame⟩ := leaveNode_walking hwalking hdone
        have hkeep := hsame.trans hnumber
        have hunmet : unmet index (leaveNode scanned frame.node rest) = unmet index (entered state frame) := unmet_of_number hkeep
        have hready : Ready index (leaveNode scanned frame.node rest) rest := by
          cases rest with
          | nil => exact Ready.ended hleft
          | cons parent rest => exact Ready.resumed hleft (hwalking.resumed parent (List.mem_cons_self ..))
        have hrounds : roundsLeft index (leaveNode scanned frame.node rest) rest ≤ fuel := by
          cases rest with
          | nil => exact Nat.zero_le _
          | cons parent rest =>
            rw [roundsLeft_resumed (hwalking.resumed parent (List.mem_cons_self ..)), hunmet]
            rw [List.length_cons] at hfuel
            omega
        obtain ⟨hresult, hmet⟩ := ih rest (leaveNode scanned frame.node rest) hready hrounds
        rw [walkStack_leave fuel hscan]
        refine ⟨hresult, fun x hx => hmet x ?_⟩
        rw [hkeep]
        rcases hx with hx | hx
        · exact Or.inl (hentered.kept x hx)
        · rcases List.mem_cons.mp hx with rfl | hx
          · exact Or.inl htop
          · exact Or.inr hx
      · rw [hscan] at hscanned hnumber
        obtain ⟨last, rfl, hwalking, harc, hnew⟩ := hscanned
        have hready := Ready.child hwalking harc hnew
        have hstep := (entered_of_ready hindex hready).unmet
        have hunmet : unmet index scanned = unmet index (entered state frame) := unmet_of_number hnumber
        rw [if_pos rfl, hunmet] at hstep
        have hrounds : roundsLeft index scanned (⟨w, 0⟩ :: ⟨frame.node, last + 1⟩ :: rest) ≤ fuel := by
          rw [roundsLeft, List.length_cons]
          omega
        obtain ⟨hresult, hmet⟩ := ih _ scanned hready hrounds
        rw [walkStack_next fuel hscan]
        refine ⟨hresult, fun x hx => hmet x ?_⟩
        rw [hnumber]
        rcases hx with hx | hx
        · exact Or.inl (hentered.kept x hx)
        · exact Or.inr (List.mem_cons_of_mem _ hx)

/-! ### The components -/

theorem start_walking (hslots : index.hardOut.length = index.size) :
    Walking index ⟨List.replicate index.size (-1), List.replicate index.size 0, List.replicate index.size false,
      List.replicate index.size (-1), [], [], 0⟩ [] := by
  have hnumber : ∀ x, (List.replicate index.size (-1 : ℤ)).getD x 0 = if x < index.size then -1 else 0 := by
    intro x
    rw [List.getD, List.getElem?_replicate]
    split <;> rfl
  refine ⟨⟨List.length_replicate, List.length_replicate, List.length_replicate, List.length_replicate, nofun, fun x => ?_,
    fun x => ?_, le_refl 0⟩, ⟨fun x hx => ?_, fun x hx hne => ?_, fun x hx y hy hne => ?_, nofun⟩, ?_, nofun⟩
  · show (List.replicate index.size false).getD x false = true ↔ x ∈ []
    rw [List.getD, List.getElem?_replicate]
    split <;> simp
  · show (List.replicate index.size (-1 : ℤ)).getD x 0 = -1 ∨ 0 ≤ (List.replicate index.size (-1 : ℤ)).getD x 0
    rw [hnumber]
    split
    · exact Or.inl rfl
    · exact Or.inr (le_refl 0)
  · show (List.replicate index.size (-1 : ℤ)).getD x 0 = -1 ↔ (List.replicate index.size (-1 : ℤ)).getD x 0 = -1 ∨ x ∈ []
    simp
  · exact absurd ((hnumber x).trans (if_pos hx)) hne
  · exact absurd ((hnumber x).trans (if_pos hx)) hne
  · refine ⟨nofun, List.Pairwise.nil, List.Sublist.slnil, nofun, fun x hx _ w hw => ?_, nofun, nofun, nofun, nofun, nofun⟩
    have hx' : 0 ≤ (List.replicate index.size (-1 : ℤ)).getD x 0 := hx
    rw [hnumber] at hx'
    have hout : index.heads x = [] := by
      split at hx'
      · omega
      · rename_i hge
        rw [HardGraphIndex.heads, HardGraphIndex.outArcs, List.getD, List.getElem?_eq_none (by omega)]
        rfl
    rw [hout] at hw
    cases hw

theorem walkFrom_spec (hindex : index.Coherent) (starts : List ℕ) (hstarts : ∀ x ∈ starts, x < index.size) (state : TarjanState)
    (h : Walking index state []) :
    let result := starts.foldl (fun state start =>
      if state.vindex.getD start 0 = -1 then walkStack index (2 * index.size + 1) [⟨start, 0⟩] state else state) state
    Walking index result [] ∧ ∀ x, state.number x ≠ -1 ∨ x ∈ starts → result.number x ≠ -1 := by
  induction starts generalizing state with
  | nil => exact ⟨h, fun x hx => hx.resolve_right List.not_mem_nil⟩
  | cons start rest ih =>
    have hstart := hstarts start (List.mem_cons_self ..)
    have hrest := fun x hx => hstarts x (List.mem_cons_of_mem _ hx)
    rw [List.foldl_cons]
    by_cases hnew : state.vindex.getD start 0 = -1
    · rw [if_pos hnew]
      have hrounds : roundsLeft index state [⟨start, 0⟩] ≤ 2 * index.size + 1 := by
        have hle : unmet index (entered state ⟨start, 0⟩) ≤ (List.range index.size).length := List.countP_le_length
        rw [List.length_range] at hle
        rw [roundsLeft, List.length_nil]
        omega
      obtain ⟨hwalking, hmet⟩ := walkStack_spec hindex _ _ state (Ready.root h hstart hnew) hrounds
      obtain ⟨hresult, hkept⟩ := ih hrest _ hwalking
      refine ⟨hresult, fun x hx => hkept x ?_⟩
      rcases hx with hx | hx
      · exact Or.inl (hmet x (Or.inl hx))
      · rcases List.mem_cons.mp hx with rfl | hx
        · exact Or.inl (hmet x (Or.inr (List.mem_singleton_self x)))
        · exact Or.inr hx
    · rw [if_neg hnew]
      obtain ⟨hresult, hkept⟩ := ih hrest state h
      refine ⟨hresult, fun x hx => hkept x ?_⟩
      rcases hx with hx | hx
      · exact Or.inl hx
      · rcases List.mem_cons.mp hx with rfl | hx
        · exact Or.inl hnew
        · exact Or.inr hx

theorem components_walking (hindex : index.Coherent) (hslots : index.hardOut.length = index.size) :
    Walking index (components index) [] ∧ ∀ x < index.size, (components index).number x ≠ -1 := by
  obtain ⟨hwalking, hmet⟩ := walkFrom_spec hindex (List.range index.size) (fun x hx => List.mem_range.mp hx) _
    (start_walking hslots)
  exact ⟨hwalking, fun x hx => hmet x (Or.inr (List.mem_range.mpr hx))⟩

/-- Two nodes are in one component exactly when they reach each other, and a component is as large as it says. -/
theorem components_spec (hindex : index.Coherent) (hslots : index.hardOut.length = index.size) (x : ℕ) (hx : x < index.size) :
    0 ≤ (components index).component x
      ∧ (∀ y < index.size, (components index).component x = (components index).component y ↔ Connected index.heads x y)
      ∧ (components index).sccSize.getD ((components index).component x).toNat 0
        = (List.range index.size).countP fun y => (components index).component x = (components index).component y := by
  obtain ⟨hwalking, hmet⟩ := components_walking hindex hslots
  have hclosed : ∀ y < index.size, (components index).component y ≠ -1 := by
    intro y hy heq
    rcases (hwalking.classes.pending y hy).mp heq with hnew | hm
    · exact hmet y hy hnew
    · rw [hwalking.walk.stack_nil] at hm
      cases hm
  obtain ⟨hpos, hlt⟩ := hwalking.classes.range x hx (hclosed x hx)
  refine ⟨hpos, fun y hy => hwalking.classes.same x hx y hy (hclosed x hx) (hclosed y hy), ?_⟩
  rw [hwalking.classes.sizes _ (by omega)]
  refine List.countP_congr fun y _ => ?_
  rw [decide_eq_true_eq, decide_eq_true_eq, Int.toNat_of_nonneg hpos]
  exact eq_comm

end MoeNG.Graph
