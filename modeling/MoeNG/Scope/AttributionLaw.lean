import MoeNG.Scope.Attribution
import MoeNG.Lib.ListOrder
import Mathlib.Data.List.GetD

/-!
# What an attribution says

The class of a declared path as the strongest of what git reported at it, and
where git reported nothing at it, below it.
-/

namespace MoeNG.Scope
open MoeNG.Kernel MoeNG.Lib

/-! ### The strongest of some classes -/

def Strongest (S : ScopeAttributionClass → Prop) (c : ScopeAttributionClass) : Prop := S c ∧ ∀ d, S d → RANK c ≤ RANK d

def Best (S : ScopeAttributionClass → Prop) : Option ScopeAttributionClass → Prop
  | none => ∀ c, ¬ S c
  | some c => Strongest S c

theorem rank_injective : Function.Injective RANK := by
  intro c d h
  cases c <;> cases d <;> first | rfl | cases h

theorem Strongest.unique {S : ScopeAttributionClass → Prop} {c d : ScopeAttributionClass} (hc : Strongest S c)
    (hd : Strongest S d) :
    c = d := rank_injective (le_antisymm (hc.2 d hd.1) (hd.2 c hc.1))

theorem Best.congr {S T : ScopeAttributionClass → Prop} {best : Option ScopeAttributionClass} (h : Best S best)
    (hiff : ∀ c, S c ↔ T c) : Best T best := by
  rwa [show T = S from funext fun c => propext (hiff c).symm]

theorem Best.of_strongest {S : ScopeAttributionClass → Prop} {best : Option ScopeAttributionClass} (h : Best S best)
    {c : ScopeAttributionClass} (hc : Strongest S c) : best = some c := by
  cases best with
  | none => exact absurd hc.1 (h c)
  | some d => exact congrArg some (Strongest.unique h hc)

theorem Best.of_none {S : ScopeAttributionClass → Prop} {best : Option ScopeAttributionClass} (h : Best S best)
    (hnone : ∀ c, ¬ S c) : best = none := by
  cases best with
  | none => rfl
  | some d => exact absurd h.1 (hnone d)

def stronger (a : ScopeAttributionClass) : Option ScopeAttributionClass → ScopeAttributionClass
  | none => a
  | some current => if RANK a < RANK current then a else current

theorem best_stronger {S : ScopeAttributionClass → Prop} {best : Option ScopeAttributionClass} (a : ScopeAttributionClass)
    (h : Best S best) : Best (fun c => S c ∨ c = a) (some (stronger a best)) := by
  cases best with
  | none =>
    refine ⟨.inr rfl, fun d hd => ?_⟩
    obtain hd | rfl := hd
    · exact absurd hd (h d)
    · exact le_rfl
  | some current =>
    unfold stronger
    dsimp only
    split
    · rename_i hlt
      refine ⟨.inr rfl, fun d hd => ?_⟩
      obtain hd | rfl := hd
      · exact hlt.le.trans (h.2 d hd)
      · exact le_rfl
    · rename_i hle
      refine ⟨.inl h.1, fun d hd => ?_⟩
      obtain hd | rfl := hd
      · exact h.2 d hd
      · exact not_lt.mp hle

/-! ### The map -/

/-- The map holds the strongest class that `S` says of a path. -/
def Holds (known : Known) (S : JsString → ScopeAttributionClass → Prop) : Prop := ∀ path, Best (S path) (known.get path)

theorem get_assign (known : Known) (path : JsString) (a : ScopeAttributionClass) (p : JsString) :
    (assign known path a).get p = if p = path then some (stronger a (known.get path)) else known.get p := by
  unfold assign
  cases hget : known.get path with
  | none => rw [OrdMap.get_set]; rfl
  | some current =>
    unfold stronger
    dsimp only
    split
    · rw [OrdMap.get_set]
    · split
      · rename_i hp
        rw [hp, hget]
      · rfl

theorem Holds.congr {known : Known} {S T : JsString → ScopeAttributionClass → Prop} (h : Holds known S)
    (hiff : ∀ path c, S path c ↔ T path c) : Holds known T := fun path => (h path).congr (hiff path)

theorem Holds.assign {known : Known} {S : JsString → ScopeAttributionClass → Prop} (h : Holds known S) (path : JsString)
    (a : ScopeAttributionClass) : Holds (assign known path a) fun p c => S p c ∨ p = path ∧ c = a := by
  intro p
  rw [get_assign]
  split
  · rename_i hp
    subst hp
    exact (best_stronger a (h p)).congr fun c => by simp
  · rename_i hp
    exact (h p).congr fun c => by simp [hp]

theorem Holds.assignAll {known : Known} {S : JsString → ScopeAttributionClass → Prop} (a : ScopeAttributionClass)
    (paths : List JsString) (h : Holds known S) : Holds (assignAll a known paths) fun p c => S p c ∨ p ∈ paths ∧ c = a := by
  induction paths generalizing known S with
  | nil => exact h.congr fun p c => by simp
  | cons path rest ih =>
    refine (ih (h.assign path a)).congr fun p c => ?_
    rw [List.mem_cons, or_and_right, or_assoc]

theorem Holds.readIgnored (entries : List JsString) {known : Known} {S : JsString → ScopeAttributionClass → Prop}
    (directories : List JsString) (h : Holds known S) :
    Holds (readIgnored entries (known, directories)).1
      (fun p c => S p c ∨ (p ∈ entries ∧ endsWithSlash p = false) ∧ c = .IGNORED)
      ∧ ∀ directory, directory ∈ (readIgnored entries (known, directories)).2
        ↔ directory ∈ directories ∨ directory ++ [47] ∈ entries := by
  induction entries generalizing known S directories with
  | nil => exact ⟨h.congr fun p c => by simp, fun directory => by simp [Scope.readIgnored]⟩
  | cons entry rest ih =>
    rw [Scope.readIgnored]
    split
    · rename_i hslash
      obtain ⟨hholds, hdirectories⟩ := ih (directories ++ [entry.dropLast]) h
      have hentry : entry = entry.dropLast ++ [47] := (List.dropLast_append_getLast? 47 (of_decide_eq_true hslash)).symm
      refine ⟨hholds.congr fun p c => ?_, fun directory => ?_⟩
      · refine or_congr_right (and_congr_left fun _ => ?_)
        constructor
        · exact fun ⟨hmem, hfile⟩ => ⟨List.mem_cons_of_mem _ hmem, hfile⟩
        · rintro ⟨hmem, hfile⟩
          obtain rfl | hmem := List.mem_cons.mp hmem
          · rw [hslash] at hfile
            cases hfile
          · exact ⟨hmem, hfile⟩
      · rw [hdirectories, List.mem_append, List.mem_singleton, List.mem_cons, or_assoc]
        refine or_congr_right (or_congr_left ?_)
        rw [hentry]
        simp
    · rename_i hslash
      obtain ⟨hholds, hdirectories⟩ := ih directories (h.assign entry .IGNORED)
      refine ⟨hholds.congr fun p c => ?_, fun directory => ?_⟩
      · rw [or_assoc, ← or_and_right]
        refine or_congr_right (and_congr_left fun _ => ?_)
        constructor
        · rintro (rfl | ⟨hmem, hfile⟩)
          · exact ⟨List.mem_cons_self .., Bool.eq_false_iff.mpr hslash⟩
          · exact ⟨List.mem_cons_of_mem _ hmem, hfile⟩
        · rintro ⟨hmem, hfile⟩
          obtain rfl | hmem := List.mem_cons.mp hmem
          · exact .inl rfl
          · exact .inr ⟨hmem, hfile⟩
      · rw [hdirectories, List.mem_cons]
        refine or_congr_right (Iff.symm (or_iff_right fun heq => hslash ?_))
        rw [← heq]
        simp [endsWithSlash]

/-! ### Entries -/

section Entries
variable (manifests : GitStatusManifests) (tracked ignored : List JsString)

/-- A list gives the path itself the class. -/
def Reported (path : JsString) : ScopeAttributionClass → Prop
  | .IGNORED => path ∈ ignored ++ manifests.ignored ∧ endsWithSlash path = false
  | .CLEAN => path ∈ tracked
  | .DIRTY => path ∈ manifests.dirty
  | .STAGED => path ∈ manifests.staged
  | .UNTRACKED => path ∈ manifests.untracked
  | .UNMERGED => path ∈ manifests.unmerged
  | .UNKNOWN => path ∈ manifests.contradictory
  | .ABSENT => False

/-- The ignored directory stands in a list with its slash. -/
def Collapsed (directory : JsString) : Prop := directory ++ [47] ∈ ignored ++ manifests.ignored

theorem holds_build : Holds (buildAttributionIndex manifests tracked ignored).known (Reported manifests tracked ignored) := by
  have hempty : Holds (OrdMap.empty : Known) fun _ _ => False := fun path c hc => hc
  have hignored := (Holds.readIgnored (ignored ++ manifests.ignored) [] hempty).1
  refine ((((((hignored.assignAll .CLEAN tracked).assignAll .DIRTY manifests.dirty).assignAll .STAGED manifests.staged).assignAll
    .UNTRACKED manifests.untracked).assignAll .UNMERGED manifests.unmerged).assignAll .UNKNOWN manifests.contradictory).congr ?_
  intro path c
  cases c <;> simp [Reported]

theorem directories_build (directory : JsString) :
    directory ∈ (buildAttributionIndex manifests tracked ignored).ignoredDirectories ↔ Collapsed manifests ignored directory := by
  have hempty : Holds (OrdMap.empty : Known) fun _ _ => False := fun path c hc => hc
  refine ((Holds.readIgnored (ignored ++ manifests.ignored) [] hempty).2 directory).trans ?_
  rw [or_iff_right List.not_mem_nil]
  rfl

end Entries

/-! ### Binary search -/

theorem getD_le (sorted : List JsString) (hsorted : sorted.Pairwise (· ≤ ·)) (i j : ℕ) (hij : i ≤ j) (hj : j < sorted.length) :
    sorted.getD i [] ≤ sorted.getD j [] := by
  rw [List.getD_eq_getElem sorted [] (by omega), List.getD_eq_getElem sorted [] hj]
  obtain rfl | hlt := hij.eq_or_lt
  · exact le_rfl
  · exact List.pairwise_iff_getElem.mp hsorted i j (by omega) hj hlt

theorem lowerBoundFrom_spec (sorted : List JsString) (target : JsString) (hsorted : sorted.Pairwise (· ≤ ·)) (fuel low high : ℕ)
    (hfuel : high - low ≤ fuel) (hlow : low ≤ high) (hhigh : high ≤ sorted.length)
    (hbelow : ∀ i < low, sorted.getD i [] < target) (habove : ∀ i, high ≤ i → i < sorted.length → ¬ sorted.getD i [] < target) :
    (∀ i < lowerBoundFrom sorted target fuel low high, sorted.getD i [] < target)
      ∧ ∀ i, lowerBoundFrom sorted target fuel low high ≤ i → i < sorted.length → ¬ sorted.getD i [] < target := by
  induction fuel generalizing low high with
  | zero =>
    have heq : low = high := by omega
    subst heq
    exact ⟨hbelow, habove⟩
  | succ fuel ih =>
    rw [lowerBoundFrom]
    split
    · rename_i hlt
      dsimp only
      split
      · rename_i hmiddle
        refine ih _ _ (by omega) (by omega) hhigh (fun i hi => ?_) habove
        exact (getD_le sorted hsorted i _ (by omega) (by omega)).trans_lt hmiddle
      · rename_i hmiddle
        refine ih _ _ (by omega) (by omega) (by omega) hbelow fun i hi hlength => ?_
        exact fun h => hmiddle ((getD_le sorted hsorted _ i hi hlength).trans_lt h)
    · have heq : low = high := by omega
      subst heq
      exact ⟨hbelow, habove⟩

theorem mem_drop_lowerBound (sorted : List JsString) (target : JsString) (hsorted : sorted.Pairwise (· ≤ ·)) (path : JsString) :
    path ∈ sorted.drop (lowerBound sorted target) ↔ path ∈ sorted ∧ target ≤ path := by
  obtain ⟨hbelow, habove⟩ := lowerBoundFrom_spec sorted target hsorted sorted.length 0 sorted.length (by omega) (by omega) le_rfl
    nofun fun i hi hlength => absurd hi (by omega)
  rw [List.mem_drop_iff_getElem]
  constructor
  · rintro ⟨i, hi, rfl⟩
    refine ⟨List.getElem_mem _, not_lt.mp ?_⟩
    have h := habove (lowerBound sorted target + i) (Nat.le_add_right _ _) (by omega)
    rwa [List.getD_eq_getElem sorted [] (by omega)] at h
  · rintro ⟨hmem, hle⟩
    obtain ⟨i, hi, rfl⟩ := List.getElem_of_mem hmem
    have hge : lowerBound sorted target ≤ i := by
      by_contra hlt
      have h := hbelow i (not_le.mp hlt)
      rw [List.getD_eq_getElem sorted [] hi] at h
      exact absurd hle (not_le.mpr h)
    obtain ⟨j, rfl⟩ := Nat.exists_eq_add_of_le hge
    exact ⟨j, by omega, rfl⟩

/-! ### Below a path -/

/-- From its first entry on, the words with the front come first. -/
theorem mem_takeWhile_front (front : JsString) (l : List JsString) (hsorted : l.Pairwise (· ≤ ·)) (hlow : ∀ p ∈ l, front ≤ p)
    (path : JsString) : path ∈ l.takeWhile (fun p => front.isPrefixOf p) ↔ path ∈ l ∧ front <+: path := by
  induction l with
  | nil => simp
  | cons p rest ih =>
    obtain ⟨hp, hrest⟩ := List.pairwise_cons.mp hsorted
    obtain ⟨hfront, hlowRest⟩ := List.forall_mem_cons.mp hlow
    by_cases hfronts : front <+: p
    · rw [List.takeWhile_cons_of_pos (List.isPrefixOf_iff_prefix.mpr hfronts), List.mem_cons, List.mem_cons, ih hrest hlowRest]
      constructor
      · rintro (rfl | ⟨hmem, h⟩)
        · exact ⟨.inl rfl, hfronts⟩
        · exact ⟨.inr hmem, h⟩
      · rintro ⟨rfl | hmem, h⟩
        · exact .inl rfl
        · exact .inr ⟨hmem, h⟩
    · rw [List.takeWhile_cons_of_neg (by rwa [List.isPrefixOf_iff_prefix])]
      refine ⟨nofun, fun ⟨hmem, tail, htail⟩ => ?_⟩
      refine absurd ?_ hfronts
      obtain rfl | hmem := List.mem_cons.mp hmem
      · exact ⟨tail, htail⟩
      · exact prefix_between front p tail hfront (htail ▸ hp path hmem)

theorem strongestFrom_spec (known : Known) (front : JsString) (l : List JsString) (best : Option ScopeAttributionClass)
    (S : ScopeAttributionClass → Prop) (h : Best S best) :
    Best (fun c => S c ∨ ∃ p ∈ l.takeWhile (fun p => front.isPrefixOf p), c = (known.get p).getD .ABSENT)
      (strongestFrom known front l best) := by
  induction l generalizing best S with
  | nil => exact h.congr fun c => by simp
  | cons p rest ih =>
    by_cases hfronts : front.isPrefixOf p = true
    · have hstep := ih _ _ (best_stronger ((known.get p).getD .ABSENT) h)
      have heq : strongestFrom known front (p :: rest) best
          = strongestFrom known front rest (some (stronger ((known.get p).getD .ABSENT) best)) := by
        rw [strongestFrom, hfronts]
        cases best with
        | none => rfl
        | some current =>
          show strongestFrom known front rest (if _ then some _ else some current) = _
          rw [← apply_ite some]
          rfl
      rw [heq]
      refine hstep.congr fun c => ?_
      rw [List.takeWhile_cons_of_pos hfronts, List.exists_mem_cons_iff, or_assoc]
    · rw [strongestFrom, (Bool.not_eq_true _).mp hfronts, List.takeWhile_cons_of_neg hfronts]
      exact h.congr fun c => by simp

def Below (path p : JsString) : Prop := path ++ [47] <+: p

theorem mem_visited (known : Known) (path p : JsString) :
    p ∈ ((known.keys.insertionSort (· ≤ ·)).drop (lowerBound (known.keys.insertionSort (· ≤ ·)) (path ++ [47]))).takeWhile
      (fun p => (path ++ [47]).isPrefixOf p) ↔ p ∈ known.keys ∧ Below path p := by
  have hsorted := List.pairwise_insertionSort (· ≤ ·) known.keys
  rw [mem_takeWhile_front _ _ (hsorted.sublist (List.drop_sublist _ _))
    (fun q hq => ((mem_drop_lowerBound _ _ hsorted q).mp hq).2), mem_drop_lowerBound _ _ hsorted, List.mem_insertionSort]
  refine ⟨fun ⟨⟨hmem, _⟩, h⟩ => ⟨hmem, h⟩, fun ⟨hmem, h⟩ => ⟨⟨hmem, ?_⟩, h⟩⟩
  obtain ⟨tail, rfl⟩ := h
  exact prefix_le _ tail

theorem Holds.some {known : Known} {S : JsString → ScopeAttributionClass → Prop} (h : Holds known S) {p : JsString}
    {d : ScopeAttributionClass} (hd : S p d) : ∃ c, known.get p = some c ∧ RANK c ≤ RANK d := by
  have hp := h p
  cases hget : known.get p with
  | none =>
    rw [hget] at hp
    exact absurd hd (hp d)
  | some c =>
    rw [hget] at hp
    exact ⟨c, rfl, hp.2 d hd⟩

/-- The loop finds the strongest class that is said of a path below. -/
theorem strongestFrom_below (known : Known) (S : JsString → ScopeAttributionClass → Prop) (h : Holds known S) (path : JsString) :
    Best (fun c => ∃ p, Below path p ∧ S p c) (strongestFrom known (path ++ [47])
      ((known.keys.insertionSort (· ≤ ·)).drop (lowerBound (known.keys.insertionSort (· ≤ ·)) (path ++ [47]))) none) := by
  have hbest := strongestFrom_spec known (path ++ [47])
    ((known.keys.insertionSort (· ≤ ·)).drop (lowerBound (known.keys.insertionSort (· ≤ ·)) (path ++ [47]))) none (fun _ => False)
    fun c hc => hc
  have hvisited (p : JsString) (d : ScopeAttributionClass) (hbelow : Below path p) (hd : S p d) :
      ∃ c, known.get p = some c ∧ RANK c ≤ RANK d ∧ p ∈ known.keys := by
    obtain ⟨c, hget, hle⟩ := h.some hd
    exact ⟨c, hget, hle, (known.has_iff p).mp (by rw [OrdMap.has, hget]; rfl)⟩
  cases hresult : strongestFrom known (path ++ [47])
      ((known.keys.insertionSort (· ≤ ·)).drop (lowerBound (known.keys.insertionSort (· ≤ ·)) (path ++ [47]))) none with
  | none =>
    rw [hresult] at hbest
    rintro d ⟨p, hbelow, hd⟩
    obtain ⟨c, hget, -, hkeys⟩ := hvisited p d hbelow hd
    exact hbest c (.inr ⟨p, (mem_visited known path p).mpr ⟨hkeys, hbelow⟩, by rw [hget]; rfl⟩)
  | some c =>
    rw [hresult] at hbest
    obtain ⟨hc, hleast⟩ := hbest
    obtain ⟨p, hp, hclass⟩ := hc.resolve_left id
    obtain ⟨hkeys, hbelow⟩ := (mem_visited known path p).mp hp
    obtain ⟨e, he⟩ := Option.isSome_iff_exists.mp ((known.has_iff p).mpr hkeys)
    rw [he] at hclass
    have hpath := h p
    rw [he] at hpath
    refine ⟨⟨p, hbelow, hclass ▸ hpath.1⟩, ?_⟩
    rintro d ⟨q, hq, hd⟩
    obtain ⟨f, hf, hle, hkeysQ⟩ := hvisited q d hq hd
    exact (hleast f (.inr ⟨q, (mem_visited known path q).mpr ⟨hkeysQ, hq⟩, by rw [hf]; rfl⟩)).trans hle

/-! ### Classes of a path -/

section Classes
variable (manifests : GitStatusManifests) (tracked ignored : List JsString)

/-- A list gives a path below it the class. -/
def Inside (path : JsString) (c : ScopeAttributionClass) : Prop := ∃ p, Below path p ∧ Reported manifests tracked ignored p c

/-- The path is an ignored directory, or below one. -/
def Covered (path : JsString) : Prop := ∃ directory, Collapsed manifests ignored directory
    ∧ (path = directory ∨ Below directory path)

theorem strongestInSubtree_best (path : JsString) :
    Best (Inside manifests tracked ignored path) (strongestInSubtree (buildAttributionIndex manifests tracked ignored) path) :=
  strongestFrom_below _ _ (holds_build manifests tracked ignored) path

theorem covered_iff (path : JsString) :
    ((buildAttributionIndex manifests tracked ignored).ignoredDirectories.any fun directory =>
      path = directory || (directory ++ [47]).isPrefixOf path) = true ↔ Covered manifests ignored path := by
  rw [List.any_eq_true]
  refine exists_congr fun directory => and_congr (directories_build manifests tracked ignored directory) ?_
  rw [Bool.or_eq_true, decide_eq_true_eq, List.isPrefixOf_iff_prefix]
  rfl

/-- The class of a path, in every case. -/
structure Classified (path : JsString) (result : Attribution) : Prop where
  own : ∀ c, Strongest (Reported manifests tracked ignored path) c → result = attributed c
  inside : (∀ c, ¬ Reported manifests tracked ignored path c) → ∀ c, Strongest (Inside manifests tracked ignored path) c →
    result = attributed c
  covered : (∀ c, ¬ Reported manifests tracked ignored path c) → (∀ c, ¬ Inside manifests tracked ignored path c) →
    Covered manifests ignored path → result = attributed .IGNORED
  absent : (∀ c, ¬ Reported manifests tracked ignored path c) → (∀ c, ¬ Inside manifests tracked ignored path c) →
    ¬ Covered manifests ignored path → result = attributed .ABSENT

theorem classify_classified (path : JsString) :
    Classified manifests tracked ignored path (classify (buildAttributionIndex manifests tracked ignored) path) := by
  have hown := holds_build manifests tracked ignored path
  have hinside := strongestInSubtree_best manifests tracked ignored path
  refine ⟨fun c hc => ?_, fun hnone c hc => ?_, fun hnone hempty hcovered => ?_, fun hnone hempty hcovered => ?_⟩
  · unfold classify
    rw [hown.of_strongest hc]
    rfl
  · unfold classify
    rw [hown.of_none hnone, hinside.of_strongest hc]
    rfl
  · unfold classify
    rw [hown.of_none hnone, hinside.of_none hempty]
    show attributed (if _ then _ else _) = _
    rw [if_pos ((covered_iff manifests tracked ignored path).mpr hcovered)]
  · unfold classify
    rw [hown.of_none hnone, hinside.of_none hempty]
    show attributed (if _ then _ else _) = _
    rw [if_neg (mt (covered_iff manifests tracked ignored path).mp hcovered)]

-- a directory that holds nothing but a collapsed one
example : classify (buildAttributionIndex emptyBuckets [] [lit "a/b/"]) (lit "a") = attributed .ABSENT := by decide +kernel

/-! ### Everything at a path or below it -/

/-- An ignored directory at the path or below it ignores the path. -/
def Gathered (path : JsString) : Prop := ∃ directory, Collapsed manifests ignored directory
    ∧ (directory = path ∨ Below path directory)

def Evidence (path : JsString) (c : ScopeAttributionClass) : Prop :=
  Reported manifests tracked ignored path c ∨ Inside manifests tracked ignored path c ∨ c = .IGNORED
    ∧ Gathered manifests ignored path

/-- The strongest class of all evidence, an exact entry no more than any other. -/
structure StrongestOfAll (path : JsString) (result : Attribution) : Prop where
  strongest : ∀ c, Strongest (Evidence manifests tracked ignored path) c → result = attributed c
  covered : (∀ c, ¬ Evidence manifests tracked ignored path c) → Covered manifests ignored path → result = attributed .IGNORED
  absent : (∀ c, ¬ Evidence manifests tracked ignored path c) → ¬ Covered manifests ignored path → result = attributed .ABSENT

/-- An exact entry first. Without one the strongest class of all evidence, where a listed path gives it or the path is covered. -/
structure ExactFirst (path : JsString) (result : Attribution) : Prop where
  own : ∀ c, Strongest (Reported manifests tracked ignored path) c → result = attributed c
  below : (∀ c, ¬ Reported manifests tracked ignored path c) → ∀ c, Strongest (Evidence manifests tracked ignored path) c →
    c ≠ .IGNORED ∨ Inside manifests tracked ignored path .IGNORED
      ∨ (∀ d, ¬ Inside manifests tracked ignored path d) ∧ Covered manifests ignored path →
    result = attributed c
  covered : (∀ c, ¬ Evidence manifests tracked ignored path c) → Covered manifests ignored path → result = attributed .IGNORED
  absent : (∀ c, ¬ Evidence manifests tracked ignored path c) → ¬ Covered manifests ignored path → result = attributed .ABSENT

theorem classify_exactFirst (path : JsString) :
    ExactFirst manifests tracked ignored path (classify (buildAttributionIndex manifests tracked ignored) path) := by
  have h := classify_classified manifests tracked ignored path
  have hown (hnone : ∀ c, ¬ Evidence manifests tracked ignored path c) (c : ScopeAttributionClass) :
      ¬ Reported manifests tracked ignored path c := fun hc => hnone c (.inl hc)
  have hinside (hnone : ∀ c, ¬ Evidence manifests tracked ignored path c) (c : ScopeAttributionClass) :
      ¬ Inside manifests tracked ignored path c := fun hc => hnone c (.inr (.inl hc))
  refine ⟨h.own, fun hnone c hc hcase => ?_, fun hnone => h.covered (hown hnone) (hinside hnone),
    fun hnone => h.absent (hown hnone) (hinside hnone)⟩
  have hleast (d : ScopeAttributionClass) (hd : Inside manifests tracked ignored path d) : RANK c ≤ RANK d :=
    hc.2 d (.inr (.inl hd))
  have hlisted : Inside manifests tracked ignored path c ∨ c = .IGNORED := by
    obtain hreported | hlisted | hgathered := hc.1
    · exact absurd hreported (hnone c)
    · exact .inl hlisted
    · exact .inr hgathered.1
  obtain hother | hignored | ⟨hempty, hcovered⟩ := hcase
  · exact h.inside hnone c ⟨hlisted.resolve_right hother, hleast⟩
  · obtain hlisted | rfl := hlisted
    · exact h.inside hnone c ⟨hlisted, hleast⟩
    · exact h.inside hnone _ ⟨hignored, hleast⟩
  · obtain rfl := hlisted.resolve_left (hempty c)
    exact h.covered hnone hempty hcovered

end Classes

/-! ### Listing an ignored directory -/

section Listing
variable (manifests : GitStatusManifests) (tracked ignored : List JsString)

theorem exists_strongest (S : ScopeAttributionClass → Prop) (c : ScopeAttributionClass) (h : S c) : ∃ d, Strongest S d := by
  obtain ⟨d, hd, hmin⟩ := (measure RANK).wf.has_min {c | S c} ⟨c, h⟩
  exact ⟨d, hd, fun e he => not_lt.mp (hmin e he)⟩

theorem below_ne {path p : JsString} (h : Below path p) : p ≠ path := by
  rintro rfl
  have hle := h.length_le
  rw [List.length_append, List.length_singleton] at hle
  omega

theorem below_trans {path directory p : JsString} (h : path = directory ∨ Below path directory) (hp : Below directory p) :
    Below path p := by
  obtain rfl | h := h
  · exact hp
  · exact h.trans ((List.prefix_append ..).trans hp)

theorem reported_files (files : List JsString) (path : JsString) (c : ScopeAttributionClass) :
    Reported manifests tracked (ignored ++ files) path c
      ↔ Reported manifests tracked ignored path c ∨ c = .IGNORED ∧ path ∈ files ∧ endsWithSlash path = false := by
  cases c with
  | IGNORED =>
    simp only [Reported, List.mem_append, true_and]
    tauto
  | _ => simp [Reported]

theorem reported_directory (directory path : JsString) (c : ScopeAttributionClass) :
    Reported manifests tracked (ignored ++ [directory ++ [47]]) path c ↔ Reported manifests tracked ignored path c := by
  rw [reported_files]
  refine or_iff_left ?_
  rintro ⟨-, hmem, hfile⟩
  rw [List.mem_singleton.mp hmem] at hfile
  simp [endsWithSlash] at hfile

/-- Files below a directory, or the directory with its slash, where something listed already says as much or nothing is listed. -/
theorem classify_collapsed (directory : JsString) (files : List JsString) (hne : files ≠ [])
    (hfiles : ∀ file ∈ files, Below directory file ∧ endsWithSlash file = false) (path : JsString)
    (hpath : path = directory ∨ Below path directory)
    (hcase : (∃ c, Reported manifests tracked ignored path c)
      ∨ (∃ c, Inside manifests tracked ignored path c ∧ RANK c ≤ RANK .IGNORED)
      ∨ path = directory ∧ ∀ c, ¬ Inside manifests tracked ignored path c) :
    classify (buildAttributionIndex manifests tracked (ignored ++ files)) path
      = classify (buildAttributionIndex manifests tracked (ignored ++ [directory ++ [47]])) path := by
  have hlisted := classify_classified manifests tracked (ignored ++ files) path
  have hcollapsed := classify_classified manifests tracked (ignored ++ [directory ++ [47]]) path
  have hbelow (file : JsString) (hfile : file ∈ files) : Below path file := below_trans hpath (hfiles file hfile).1
  have hown (c : ScopeAttributionClass) :
      Reported manifests tracked (ignored ++ files) path c ↔ Reported manifests tracked ignored path c := by
    rw [reported_files]
    refine or_iff_left ?_
    rintro ⟨-, hmem, -⟩
    exact below_ne (hbelow path hmem) rfl
  have hownCollapsed := reported_directory manifests tracked ignored directory path
  have hinside (c : ScopeAttributionClass) : Inside manifests tracked (ignored ++ files) path c
      ↔ Inside manifests tracked ignored path c ∨ c = .IGNORED := by
    constructor
    · rintro ⟨p, hp, hc⟩
      obtain hc | hc := (reported_files _ _ _ _ _ _).mp hc
      · exact .inl ⟨p, hp, hc⟩
      · exact .inr hc.1
    · rintro (⟨p, hp, hc⟩ | rfl)
      · exact ⟨p, hp, (reported_files _ _ _ _ _ _).mpr (.inl hc)⟩
      · obtain ⟨file, hfile⟩ := List.exists_mem_of_ne_nil files hne
        exact ⟨file, hbelow file hfile, (reported_files _ _ _ _ _ _).mpr (.inr ⟨rfl, hfile, (hfiles file hfile).2⟩)⟩
  have hinsideCollapsed (c : ScopeAttributionClass) : Inside manifests tracked (ignored ++ [directory ++ [47]]) path c
      ↔ Inside manifests tracked ignored path c :=
    exists_congr fun p => and_congr_right fun _ => reported_directory manifests tracked ignored directory p c
  by_cases hreported : ∃ c, Reported manifests tracked ignored path c
  · obtain ⟨c, hc⟩ := hreported
    obtain ⟨d, hd, hleast⟩ := exists_strongest _ c hc
    rw [hlisted.own d ⟨(hown d).mpr hd, fun e he => hleast e ((hown e).mp he)⟩,
      hcollapsed.own d ⟨(hownCollapsed d).mpr hd, fun e he => hleast e ((hownCollapsed e).mp he)⟩]
  · have hnone (c : ScopeAttributionClass) : ¬ Reported manifests tracked ignored path c := fun hc => hreported ⟨c, hc⟩
    have hnoneListed (c : ScopeAttributionClass) := mt (hown c).mp (hnone c)
    have hnoneCollapsed (c : ScopeAttributionClass) := mt (hownCollapsed c).mp (hnone c)
    obtain ⟨c, hc, hrank⟩ | ⟨rfl, hempty⟩ := hcase.resolve_left hreported
    · obtain ⟨d, hd, hleast⟩ := exists_strongest _ c hc
      have hignored : RANK d ≤ RANK .IGNORED := (hleast c hc).trans hrank
      rw [hcollapsed.inside hnoneCollapsed d
        ⟨(hinsideCollapsed d).mpr hd, fun e he => hleast e ((hinsideCollapsed e).mp he)⟩]
      refine hlisted.inside hnoneListed d ⟨(hinside d).mpr (.inl hd), fun e he => ?_⟩
      obtain he | rfl := (hinside e).mp he
      · exact hleast e he
      · exact hignored
    · rw [hcollapsed.covered hnoneCollapsed (fun c => mt (hinsideCollapsed c).mp (hempty c))
        ⟨path, List.mem_append_left _ (List.mem_append_right _ (List.mem_singleton_self _)), .inl rfl⟩]
      refine hlisted.inside hnoneListed .IGNORED ⟨(hinside _).mpr (.inr rfl), fun e he => ?_⟩
      obtain rfl := ((hinside e).mp he).resolve_left (hempty e)
      exact le_rfl

/-- The class of every path, and what collapsing a directory leaves as it is. -/
theorem attribution_exact_first :
    (∀ path, ExactFirst manifests tracked ignored path (classify (buildAttributionIndex manifests tracked ignored) path))
      ∧ ∀ directory files path, files ≠ [] → (∀ file ∈ files, Below directory file ∧ endsWithSlash file = false) →
        path = directory ∨ Below path directory →
        (∃ c, Reported manifests tracked ignored path c)
          ∨ (∃ c, Inside manifests tracked ignored path c ∧ RANK c ≤ RANK .IGNORED)
          ∨ path = directory ∧ (∀ c, ¬ Inside manifests tracked ignored path c) →
        classify (buildAttributionIndex manifests tracked (ignored ++ files)) path
          = classify (buildAttributionIndex manifests tracked (ignored ++ [directory ++ [47]])) path :=
  ⟨classify_exactFirst manifests tracked ignored, fun directory files path hne hfiles hpath =>
    classify_collapsed manifests tracked ignored directory files hne hfiles path hpath⟩

end Listing

/-- A file that a directory with an untracked file replaced. -/
def replacedManifests : GitStatusManifests := { emptyBuckets with dirty := [lit "a"], untracked := [lit "a/x"] }

/-- The exact entry wins over the stronger one below it. -/
theorem replaced_not_strongest : ¬ StrongestOfAll replacedManifests [lit "a"] [] (lit "a")
    (classify (buildAttributionIndex replacedManifests [lit "a"] []) (lit "a")) := by
  intro h
  have hbelow : Inside replacedManifests [lit "a"] [] (lit "a") .UNTRACKED :=
    ⟨lit "a/x", List.isPrefixOf_iff_prefix.mp (by decide), List.mem_singleton_self _⟩
  have hresult := h.strongest .UNTRACKED ⟨.inr (.inl hbelow), fun c hc => ?_⟩
  · exact absurd hresult (by decide +kernel)
  · cases c with
    | UNKNOWN | UNMERGED =>
      obtain hc | ⟨p, -, hc⟩ | ⟨hc, -⟩ := hc
      · cases hc
      · cases hc
      · cases hc
    | _ => decide

theorem replaced_exact_first : classify (buildAttributionIndex replacedManifests [lit "a"] ([] ++ [lit "b/c"])) (lit "b")
    = classify (buildAttributionIndex replacedManifests [lit "a"] ([] ++ [lit "b" ++ [47]])) (lit "b") := by
  refine (attribution_exact_first replacedManifests [lit "a"] []).2 (lit "b") [lit "b/c"] (lit "b") (List.cons_ne_nil _ _)
    (List.forall_mem_singleton.mpr ⟨List.isPrefixOf_iff_prefix.mp (by decide), by decide⟩) (.inl rfl) (.inr (.inr ⟨rfl, ?_⟩))
  rintro c ⟨p, hp, hc⟩
  have hfree : ∀ q ∈ [lit "a", lit "a/x"], ¬ Below (lit "b") q := by
    intro q hq hbelow
    exact absurd (List.isPrefixOf_iff_prefix.mpr hbelow)
      (of_decide_eq_true (List.all_eq_true.mp (show [lit "a", lit "a/x"].all
        (fun q => decide (¬ (lit "b" ++ [47]).isPrefixOf q = true))
        = true by decide) q hq))
  cases c with
  | CLEAN => exact hfree p (List.mem_cons.mpr (.inl (List.mem_singleton.mp hc))) hp
  | DIRTY => exact hfree p (List.mem_cons.mpr (.inl (List.mem_singleton.mp hc))) hp
  | UNTRACKED => exact hfree p (List.mem_cons_of_mem _ hc) hp
  | IGNORED => cases hc.1
  | _ => cases hc

end MoeNG.Scope
