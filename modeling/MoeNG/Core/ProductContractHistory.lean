import MoeNG.Core.ProductContractLineage
import MoeNG.Lib.Run

/-!
# Histories of product contracts

The check of an amendment accepts what a registry of ids allows, so that over
a history of amendments an id of a requirement or a criterion means one thing.
-/

namespace MoeNG.Core.ProductContract
open MoeNG.Kernel MoeNG.Lib

/-! ### The items of a section by their ids -/

section Changes
variable {E M : Type} (idOf : E → JsString) (supersedes : E → Option JsString) (same : Comparison E)

theorem byId_mem {entries : List E} {id : JsString} {item : E} (h : byId idOf entries id = some item) :
    item ∈ entries ∧ idOf item = id := by
  unfold byId at h
  exact ⟨List.mem_of_find?_eq_some h, by simpa using List.find?_some h⟩

theorem byId_of_mem {entries : List E} (hunique : (entries.map idOf).Nodup) {item : E} (h : item ∈ entries) :
    byId idOf entries (idOf item) = some item := find_key_of_mem idOf entries hunique item h

/-- An item that the loop over the candidate lets through. -/
structure Passes (current candidate : List E) (retired : List JsString) (next : E) : Prop where
  carried : ∀ carried, byId idOf current (idOf next) = some carried → same.sameCarried carried next = true ∧ idOf next ∉ retired
  added : byId idOf current (idOf next) = none → supersedes next = none → ∀ prior ∈ current, same.sameMeaning prior next = true →
    byId idOf candidate (idOf prior) ≠ none
  replaced : byId idOf current (idOf next) = none → ∀ id, supersedes next = some id → ∃ prior, byId idOf current id = some prior
    ∧ byId idOf candidate id = none ∧ id ∈ retired ∧ same.sameMeaning prior next = false

/-- What an item that is new supersedes. -/
def newlySuperseded (current : List E) (next : E) : Option JsString :=
  if byId idOf current (idOf next) = none then supersedes next else none

theorem historicalChange_iff (candidate : List E) (retired historical : List JsString) :
    historicalChange idOf candidate retired historical = none ↔
      ∀ id ∈ historical, byId idOf candidate id = none ∧ id ∈ retired := by
  induction historical with
  | nil => simp [historicalChange]
  | cons id rest ih =>
    rw [historicalChange, List.forall_mem_cons]
    cases hfind : byId idOf candidate id with
    | some item => simp
    | none =>
      by_cases hretired : id ∈ retired
      · simp [hretired, ih]
      · simp [hretired]

section Passes
variable {idOf supersedes same} {current candidate : List E} {retired : List JsString} {next : E}

theorem passes_carried_iff {carried : E} (hcurrent : byId idOf current (idOf next) = some carried) :
    Passes idOf supersedes same current candidate retired next
      ↔ same.sameCarried carried next = true ∧ idOf next ∉ retired := by
  constructor
  · exact fun h => h.carried carried hcurrent
  · refine fun h => ⟨fun found hfound => ?_, fun hnone => ?_, fun hnone => ?_⟩
    · obtain rfl := Option.some.inj (hcurrent.symm.trans hfound)
      exact h
    · simp [hcurrent] at hnone
    · simp [hcurrent] at hnone

theorem passes_added_iff (hcurrent : byId idOf current (idOf next) = none) (hsupersedes : supersedes next = none) :
    Passes idOf supersedes same current candidate retired next
      ↔ ∀ prior ∈ current, same.sameMeaning prior next = true → byId idOf candidate (idOf prior) ≠ none := by
  constructor
  · exact fun h => h.added hcurrent hsupersedes
  · refine fun h => ⟨fun found hfound => ?_, fun _ _ => h, fun _ id hid => ?_⟩
    · simp [hcurrent] at hfound
    · simp [hsupersedes] at hid

theorem passes_replaced_iff {id : JsString} {prior : E} (hcurrent : byId idOf current (idOf next) = none)
    (hsupersedes : supersedes next = some id) (hprior : byId idOf current id = some prior) :
    Passes idOf supersedes same current candidate retired next
      ↔ byId idOf candidate id = none ∧ id ∈ retired ∧ same.sameMeaning prior next = false := by
  constructor
  · intro h
    obtain ⟨found, hfound, hrest⟩ := h.replaced hcurrent id hsupersedes
    obtain rfl := Option.some.inj (hprior.symm.trans hfound)
    exact hrest
  · refine fun h => ⟨fun found hfound => ?_, fun _ hnone => ?_, fun _ other hother => ?_⟩
    · simp [hcurrent] at hfound
    · simp [hsupersedes] at hnone
    · obtain rfl := Option.some.inj (hsupersedes.symm.trans hother)
      exact ⟨prior, hprior, h⟩

end Passes

theorem candidateChange_iff (current candidate : List E) (retired superseded : List JsString) (items : List E) :
    candidateChange idOf supersedes same current candidate retired superseded items = none ↔
      (∀ next ∈ items, Passes idOf supersedes same current candidate retired next)
        ∧ (items.filterMap (newlySuperseded idOf supersedes current)).Nodup
        ∧ ∀ id ∈ items.filterMap (newlySuperseded idOf supersedes current), id ∉ superseded := by
  induction items generalizing superseded with
  | nil => simp [candidateChange]
  | cons next rest ih =>
    rw [candidateChange, List.forall_mem_cons]
    cases hcurrent : byId idOf current (idOf next) with
    | some carried =>
      have hfresh : newlySuperseded idOf supersedes current next = none := if_neg (by simp [hcurrent])
      rw [List.filterMap_cons_none hfresh]
      rw [passes_carried_iff hcurrent]
      by_cases hsame : same.sameCarried carried next = true
      · by_cases hretired : idOf next ∈ retired
        · simp [hsame, hretired]
        · simp [hsame, hretired, ih]
      · simp [hsame]
    | none =>
      dsimp only
      cases hsupersedes : supersedes next with
      | none =>
        have hfresh : newlySuperseded idOf supersedes current next = none := (if_pos hcurrent).trans hsupersedes
        rw [List.filterMap_cons_none hfresh]
        have hany : (current.any fun prior => same.sameMeaning prior next && (byId idOf candidate (idOf prior)).isNone) = true
            ↔ ¬ Passes idOf supersedes same current candidate retired next := by
          rw [passes_added_iff hcurrent hsupersedes, List.any_eq_true]
          push Not
          simp
        dsimp only
        by_cases hpass : Passes idOf supersedes same current candidate retired next
        · rw [if_neg (fun h => hany.mp h hpass), ih]
          simp [hpass]
        · rw [if_pos (hany.mpr hpass)]
          simp [hpass]
      | some id =>
        have hfresh : newlySuperseded idOf supersedes current next = some id := (if_pos hcurrent).trans hsupersedes
        rw [List.filterMap_cons_some hfresh, List.nodup_cons, List.forall_mem_cons]
        dsimp only
        cases hprior : byId idOf current id with
        | none =>
          have hfails : ¬ Passes idOf supersedes same current candidate retired next := fun h => by
            obtain ⟨prior, hfound, -⟩ := h.replaced hcurrent id hsupersedes
            simp [hprior] at hfound
          simp [hfails]
        | some prior =>
          rw [passes_replaced_iff hcurrent hsupersedes hprior]
          have hguard : ((byId idOf candidate id).isSome || !retired.contains id || superseded.contains id) = true
              ↔ ¬ (byId idOf candidate id = none ∧ id ∈ retired ∧ id ∉ superseded) := by
            cases byId idOf candidate id <;> simp [or_iff_not_imp_left]
          dsimp only
          by_cases hopen : byId idOf candidate id = none ∧ id ∈ retired ∧ id ∉ superseded
          · rw [if_neg (fun h => hguard.mp h hopen)]
            obtain ⟨hgone, hretired, hnew⟩ := hopen
            by_cases hmeaning : same.sameMeaning prior next = true
            · simp [hmeaning]
            · rw [if_neg hmeaning, ih]
              simp only [Bool.not_eq_true] at hmeaning
              simp only [hgone, hretired, hnew, hmeaning, List.mem_cons, not_or, true_and, not_false_eq_true]
              constructor
              · rintro ⟨hrest, hnodup, hfree⟩
                exact ⟨hrest, ⟨fun hmem => (hfree id hmem).1 rfl, hnodup⟩, fun other hother => (hfree other hother).2⟩
              · rintro ⟨hrest, ⟨hnot, hnodup⟩, hfree⟩
                exact ⟨hrest, hnodup, fun other hother => ⟨fun heq => hnot (heq ▸ hother), hfree other hother⟩⟩
          · rw [if_pos (hguard.mpr hopen)]
            constructor
            · intro h
              cases h
            · rintro ⟨⟨⟨hgone, hretired, -⟩, -⟩, -, hnew, -⟩
              exact absurd ⟨hgone, hretired, hnew⟩ hopen

/-! ### Their registry -/

variable (meaning : E → M) (replaces : M → Option JsString)

def registryOf (entries : List E) (retired : List JsString) : Registry JsString M where
  entry id := (byId idOf entries id).map meaning
  retired := { id | id ∈ retired }

theorem registryOf_none {entries : List E} {retired : List JsString} {id : JsString} :
    (registryOf idOf meaning entries retired).entry id = none ↔ byId idOf entries id = none := Option.map_eq_none_iff

/-- An item that is new and replaces none means what no dropped item meant, and what it replaces meant something else. -/
structure Reworded (current candidate : List E) : Prop where
  added : ∀ next ∈ candidate, byId idOf current (idOf next) = none → supersedes next = none → ∀ prior ∈ current,
    same.sameMeaning prior next = true → byId idOf candidate (idOf prior) ≠ none
  replaced : ∀ next ∈ candidate, byId idOf current (idOf next) = none → ∀ prior, byId idOf current (idOf prior) = some prior →
    supersedes next = some (idOf prior) → same.sameMeaning prior next = false

variable {idOf supersedes same meaning replaces} {current candidate : List E} {historical retired : List JsString}

theorem validChanges_none_iff : validChanges idOf supersedes same current candidate historical retired = none ↔
    (∀ id ∈ historical, byId idOf candidate id = none ∧ id ∈ retired)
      ∧ (∀ next ∈ candidate, Passes idOf supersedes same current candidate retired next)
      ∧ (candidate.filterMap (newlySuperseded idOf supersedes current)).Nodup
      ∧ (∀ id ∈ retired, (byId idOf current id ≠ none ∨ id ∈ historical) ∧ byId idOf candidate id = none)
      ∧ ∀ prior ∈ current, byId idOf candidate (idOf prior) ≠ none ∨ idOf prior ∈ retired := by
  unfold validChanges
  cases hhistorical : historicalChange idOf candidate retired historical with
  | some code =>
    have hnot : ¬ ∀ id ∈ historical, byId idOf candidate id = none ∧ id ∈ retired := fun h => by
      rw [(historicalChange_iff idOf candidate retired historical).mpr h] at hhistorical
      cases hhistorical
    simp only [reduceCtorEq, false_iff]
    exact fun h => hnot h.1
  | none =>
    have hkept := (historicalChange_iff idOf candidate retired historical).mp hhistorical
    dsimp only
    cases hcandidate : candidateChange idOf supersedes same current candidate retired [] candidate with
    | some code =>
      simp only [reduceCtorEq, false_iff]
      intro h
      rw [(candidateChange_iff idOf supersedes same current candidate retired [] candidate).mpr
        ⟨h.2.1, h.2.2.1, fun _ _ => List.not_mem_nil⟩] at hcandidate
      cases hcandidate
    | none =>
      obtain ⟨hpasses, hnodup, -⟩ :=
        (candidateChange_iff idOf supersedes same current candidate retired [] candidate).mp hcandidate
      have hany : (retired.any fun id => ((byId idOf current id).isNone && !historical.contains id)
          || (byId idOf candidate id).isSome) = true
          ↔ ¬ ∀ id ∈ retired, (byId idOf current id ≠ none ∨ id ∈ historical) ∧ byId idOf candidate id = none := by
        rw [List.any_eq_true]
        push Not
        refine exists_congr fun id => and_congr_right fun _ => ?_
        cases byId idOf current id <;> cases byId idOf candidate id <;> simp
      have hall : (current.all fun prior => (byId idOf candidate (idOf prior)).isSome || retired.contains (idOf prior)) = true
          ↔ ∀ prior ∈ current, byId idOf candidate (idOf prior) ≠ none ∨ idOf prior ∈ retired := by
        rw [List.all_eq_true]
        refine forall₂_congr fun prior _ => ?_
        cases byId idOf candidate (idOf prior) <;> simp
      dsimp only
      by_cases hretired : ∀ id ∈ retired, (byId idOf current id ≠ none ∨ id ∈ historical) ∧ byId idOf candidate id = none
      · rw [if_neg (fun h => hany.mp h hretired)]
        by_cases hcurrent : ∀ prior ∈ current, byId idOf candidate (idOf prior) ≠ none ∨ idOf prior ∈ retired
        · rw [if_pos (hall.mpr hcurrent)]
          exact ⟨fun _ => ⟨hkept, hpasses, hnodup, hretired, hcurrent⟩, fun _ => rfl⟩
        · rw [if_neg (fun h => hcurrent (hall.mp h))]
          simp only [reduceCtorEq, false_iff]
          exact fun h => hcurrent h.2.2.2.2
      · rw [if_pos (hany.mpr hretired)]
        simp only [reduceCtorEq, false_iff]
        exact fun h => hretired h.2.2.2.1

/-- Items with one value in a list of values without repetition are one item. -/
theorem eq_of_filterMap_nodup {f : E → Option JsString} {entries : List E} (h : (entries.filterMap f).Nodup)
    {left right : E} (hleft : left ∈ entries) (hright : right ∈ entries) {id : JsString}
    (hid : f left = some id) (hid' : f right = some id) : left = right := by
  rw [List.Nodup, List.pairwise_filterMap] at h
  by_contra hne
  have hsymm : Std.Symm fun a a' => ∀ b, f a = some b → ∀ b', f a' = some b' → b ≠ b' :=
    ⟨fun a a' haa b hb b' hb' heq => haa b' hb' b hb heq.symm⟩
  exact h.forall hleft hright hne id hid id hid' rfl

theorem newlySuperseded_iff {next : E} {id : JsString} : newlySuperseded idOf supersedes current next = some id ↔
    byId idOf current (idOf next) = none ∧ supersedes next = some id := by
  unfold newlySuperseded
  by_cases hcurrent : byId idOf current (idOf next) = none
  · simp [hcurrent]
  · simp [hcurrent]

/-- Items with ids of their own: none of what they newly supersede is superseded twice. -/
theorem superseded_nodup_iff (hunique : (candidate.map idOf).Nodup) :
    (candidate.filterMap (newlySuperseded idOf supersedes current)).Nodup ↔
      ∀ next ∈ candidate, ∀ next' ∈ candidate, ∀ id, newlySuperseded idOf supersedes current next = some id →
        newlySuperseded idOf supersedes current next' = some id → next = next' := by
  constructor
  · exact fun h next hnext next' hnext' id hid hid' => eq_of_filterMap_nodup h hnext hnext' hid hid'
  · intro h
    rw [List.Nodup, List.pairwise_filterMap]
    refine List.Pairwise.imp_of_mem (fun {next next'} hnext hnext' hne id hid id' hid' heq => ?_)
      (List.pairwise_map.mp hunique)
    subst heq
    exact hne (congrArg idOf (h next hnext next' hnext' id hid hid'))

section Law
variable (hunique : (candidate.map idOf).Nodup) (hreplaces : ∀ item, replaces (meaning item) = supersedes item)
  (hsame : ∀ left right, idOf left = idOf right → (same.sameCarried left right = true ↔ meaning left = meaning right))
include hunique hreplaces hsame

theorem amends_of_validChanges (h : validChanges idOf supersedes same current candidate historical retired = none) :
    Registry.Amends replaces (registryOf idOf meaning current historical) (registryOf idOf meaning candidate retired)
      ∧ Reworded idOf supersedes same current candidate := by
  rw [validChanges_none_iff, superseded_nodup_iff hunique] at h
  obtain ⟨hhistorical, hpasses, honce, hretired, hcurrent⟩ := h
  have hnew (id : JsString) (m : M) (other : JsString) (hid : (registryOf idOf meaning current historical).entry id = none)
      (hm : (registryOf idOf meaning candidate retired).entry id = some m) (hother : replaces m = some other) :
      ∃ next ∈ candidate, idOf next = id ∧ newlySuperseded idOf supersedes current next = some other := by
    obtain ⟨next, hfind, rfl⟩ := Option.map_eq_some_iff.mp hm
    obtain ⟨hmem, rfl⟩ := byId_mem idOf hfind
    rw [hreplaces] at hother
    exact ⟨next, hmem, rfl, newlySuperseded_iff.mpr ⟨(registryOf_none idOf meaning).mp hid, hother⟩⟩
  refine ⟨⟨fun id m m' hm hm' => ?_, fun id => ⟨fun hid => ?_, ?_⟩, fun id hid => ?_, fun id m other hid hm hother => ?_,
    fun id id' m m' other hid hid' hm hm' hother hother' => ?_⟩, ⟨fun next hnext => (hpasses next hnext).added,
    fun next hnext hfresh prior hprior hreplaced => ?_⟩⟩
  · obtain ⟨carried, hcarried, rfl⟩ := Option.map_eq_some_iff.mp hm
    obtain ⟨next, hnext, rfl⟩ := Option.map_eq_some_iff.mp hm'
    obtain ⟨-, rfl⟩ := byId_mem idOf hcarried
    obtain ⟨hmem, heq⟩ := byId_mem idOf hnext
    rw [← heq] at hcarried
    exact (hsame carried next heq.symm).mp ((hpasses next hmem).carried carried hcarried).1
  · obtain ⟨hknown | hknown, hgone⟩ := hretired id hid
    · exact .inr ⟨fun h => hknown ((registryOf_none idOf meaning).mp h), (registryOf_none idOf meaning).mpr hgone⟩
    · exact .inl hknown
  · rintro (hid | ⟨hpresent, hgone⟩)
    · exact (hhistorical id hid).2
    · obtain ⟨prior, hprior⟩ := Option.ne_none_iff_exists'.mp fun h => hpresent ((registryOf_none idOf meaning).mpr h)
      obtain ⟨hmem, rfl⟩ := byId_mem idOf hprior
      exact (hcurrent prior hmem).resolve_left fun h => h ((registryOf_none idOf meaning).mp hgone)
  · exact (registryOf_none idOf meaning).mpr (hhistorical id hid).1
  · obtain ⟨next, hmem, -, hnewly⟩ := hnew id m other hid hm hother
    obtain ⟨hfresh, hsupersedes⟩ := newlySuperseded_iff.mp hnewly
    obtain ⟨prior, hprior, hgone, -, -⟩ := (hpasses next hmem).replaced hfresh other hsupersedes
    exact ⟨fun h => by simp [(registryOf_none idOf meaning).mp h] at hprior, (registryOf_none idOf meaning).mpr hgone⟩
  · obtain ⟨next, hmem, rfl, hnewly⟩ := hnew id m other hid hm hother
    obtain ⟨next', hmem', rfl, hnewly'⟩ := hnew id' m' other hid' hm' hother'
    exact congrArg idOf (honce next hmem next' hmem' other hnewly hnewly')
  · obtain ⟨found, hfound, -, -, hmeaning⟩ := (hpasses next hnext).replaced hfresh _ hreplaced
    obtain rfl := Option.some.inj (hprior.symm.trans hfound)
    exact hmeaning

theorem validChanges_of_amends
    (hamends : Registry.Amends replaces (registryOf idOf meaning current historical)
      (registryOf idOf meaning candidate retired))
    (hreworded : Reworded idOf supersedes same current candidate) :
    validChanges idOf supersedes same current candidate historical retired = none := by
  rw [validChanges_none_iff, superseded_nodup_iff hunique]
  have hretired (id : JsString) :
      id ∈ retired ↔ id ∈ historical ∨ byId idOf current id ≠ none ∧ byId idOf candidate id = none := by
    have hiff := hamends.retired id
    rw [registryOf_none, Ne, registryOf_none] at hiff
    exact hiff
  have hfresh (id : JsString) (hid : id ∈ historical) : byId idOf candidate id = none :=
    (registryOf_none idOf meaning).mp (hamends.fresh id hid)
  have hgone (id : JsString) (hid : id ∈ retired) : byId idOf candidate id = none := by
    obtain hid | hid := (hretired id).mp hid
    · exact hfresh id hid
    · exact hid.2
  have hentry (next : E) (hnext : next ∈ candidate) :
      (registryOf idOf meaning candidate retired).entry (idOf next) = some (meaning next) := by
    show (byId idOf candidate (idOf next)).map meaning = _
    rw [byId_of_mem idOf hunique hnext]
    rfl
  refine ⟨fun id hid => ⟨hfresh id hid, (hretired id).mpr (.inl hid)⟩, fun next hnext =>
    ⟨fun carried hcarried => ⟨?_, fun hid => ?_⟩, hreworded.added next hnext, fun hnew id hid => ?_⟩,
    fun next hnext next' hnext' id hid hid' => ?_, fun id hid => ⟨?_, hgone id hid⟩, fun prior hprior => ?_⟩
  · obtain ⟨-, heq⟩ := byId_mem idOf hcarried
    refine (hsame carried next heq).mpr (hamends.kept (idOf next) _ _ ?_ (hentry next hnext))
    show (byId idOf current (idOf next)).map meaning = _
    rw [hcarried]
    rfl
  · have hnone := hgone _ hid
    rw [byId_of_mem idOf hunique hnext] at hnone
    cases hnone
  · obtain ⟨hknown, hdropped⟩ := hamends.replaced (idOf next) (meaning next) id ((registryOf_none idOf meaning).mpr hnew)
      (hentry next hnext) ((hreplaces next).trans hid)
    rw [Ne, registryOf_none] at hknown
    rw [registryOf_none] at hdropped
    obtain ⟨prior, hprior⟩ := Option.ne_none_iff_exists'.mp hknown
    obtain ⟨-, rfl⟩ := byId_mem idOf hprior
    exact ⟨prior, hprior, hdropped, (hretired _).mpr (.inr ⟨hknown, hdropped⟩),
      hreworded.replaced next hnext hnew prior hprior hid⟩
  · obtain ⟨hnew, hsupersedes⟩ := newlySuperseded_iff.mp hid
    obtain ⟨hnew', hsupersedes'⟩ := newlySuperseded_iff.mp hid'
    have heq := hamends.once (idOf next) (idOf next') (meaning next) (meaning next') id
      ((registryOf_none idOf meaning).mpr hnew) ((registryOf_none idOf meaning).mpr hnew') (hentry next hnext)
      (hentry next' hnext') ((hreplaces next).trans hsupersedes) ((hreplaces next').trans hsupersedes')
    have hfind := byId_of_mem idOf hunique hnext
    rw [heq, byId_of_mem idOf hunique hnext'] at hfind
    exact (Option.some.inj hfind).symm
  · obtain hid | hid := (hretired id).mp hid
    · exact .inr hid
    · exact .inl hid.1
  · by_cases hkept : byId idOf candidate (idOf prior) = none
    · refine .inr ((hretired _).mpr (.inr ⟨fun hnone => ?_, hkept⟩))
      have hall := List.find?_eq_none.mp hnone prior hprior
      simp at hall
    · exact .inl hkept

/-- The loops let through exactly the amendments of the registry that say what they change. -/
theorem validChanges_iff : validChanges idOf supersedes same current candidate historical retired = none ↔
    Registry.Amends replaces (registryOf idOf meaning current historical) (registryOf idOf meaning candidate retired)
      ∧ Reworded idOf supersedes same current candidate :=
  ⟨amends_of_validChanges hunique hreplaces hsame, fun h => validChanges_of_amends hunique hreplaces hsame h.1 h.2⟩

end Law

theorem registryOf_sound (hreplaces : ∀ item, replaces (meaning item) = supersedes item)
    (hretired : ∀ id ∈ candidate.map idOf, id ∉ retired) (hsupersedes : Supersedes (candidate.filterMap supersedes) retired) :
    Registry.Sound replaces (registryOf idOf meaning candidate retired) where
  disjoint id hid := by
    refine (registryOf_none idOf meaning).mpr (Option.eq_none_iff_forall_ne_some.mpr fun item hitem => ?_)
    obtain ⟨hmem, rfl⟩ := byId_mem idOf hitem
    exact hretired _ (List.mem_map_of_mem hmem) hid
  gone id m other hm hother := by
    obtain ⟨item, hitem, rfl⟩ := Option.map_eq_some_iff.mp hm
    rw [hreplaces] at hother
    exact hsupersedes.retired other (List.mem_filterMap.mpr ⟨item, (byId_mem idOf hitem).1, hother⟩)
  once id id' m m' other hm hm' hother hother' := by
    obtain ⟨item, hitem, rfl⟩ := Option.map_eq_some_iff.mp hm
    obtain ⟨item', hitem', rfl⟩ := Option.map_eq_some_iff.mp hm'
    obtain ⟨hmem, rfl⟩ := byId_mem idOf hitem
    obtain ⟨hmem', rfl⟩ := byId_mem idOf hitem'
    rw [hreplaces] at hother hother'
    exact congrArg idOf (eq_of_filterMap_nodup hsupersedes.once hmem hmem' hother hother')

end Changes

/-! ### Requirements and criteria -/

/-- What an amendment compares of a requirement, which leaves out `environmentVariableNames`. -/
structure RequirementMeaning where
  requirementSection : RequirementSection
  statement : JsString
  priority : Priority
  dependsOnRequirementIds : List JsString
  supersedesRequirementId : Option JsString

def requirementMeaning (entry : Requirement × RequirementSection) : RequirementMeaning where
  requirementSection := entry.2
  statement := entry.1.statement
  priority := entry.1.priority
  dependsOnRequirementIds := entry.1.dependsOnRequirementIds
  supersedesRequirementId := entry.1.supersedesRequirementId

def requirementRegistry (body : Draft) : Registry JsString RequirementMeaning :=
  registryOf entryId requirementMeaning (requirementEntries body) body.retiredRequirementIds

/-- Criteria are carried as they are. -/
def criterionRegistry (body : Draft) : Registry JsString Criterion :=
  registryOf Criterion.criterionId id body.criteria body.retiredCriterionIds

theorem requirementEntries_ids (body : Draft) : (requirementEntries body).map entryId = requirementIds body := by
  simp [requirementEntries, requirementIds, requirementsOf, entryId, Function.comp_def]

theorem requirementEntries_supersedes (body : Draft) :
    ((requirementEntries body).filterMap fun entry => entry.1.supersedesRequirementId)
      = (requirementsOf body).filterMap Requirement.supersedesRequirementId := by
  simp [requirementEntries, requirementsOf, List.filterMap_append, List.filterMap_map]

theorem sameCarriedRequirement_iff (left right : Requirement × RequirementSection) :
    sameCarriedRequirement left right = true ↔ requirementMeaning left = requirementMeaning right := by
  simp [sameCarriedRequirement, sameRequirementMeaning, requirementMeaning, and_assoc]

theorem sameCarriedCriterion_iff (left right : Criterion) (h : left.criterionId = right.criterionId) :
    sameCarriedCriterion left right = true ↔ left = right := by
  obtain ⟨criterionId, requirementId, statement, supersedes, verification⟩ := left
  obtain ⟨criterionId', requirementId', statement', supersedes', verification'⟩ := right
  obtain rfl : criterionId = criterionId' := h
  simp only [sameCarriedCriterion, Bool.and_eq_true, decide_eq_true_eq, Criterion.mk.injEq]
  tauto

theorem requirementRegistry_sound (body : Draft) (h : Closed body) :
    Registry.Sound RequirementMeaning.supersedesRequirementId (requirementRegistry body) := by
  have hreplaces (entry : Requirement × RequirementSection) :
      (requirementMeaning entry).supersedesRequirementId = entry.1.supersedesRequirementId := rfl
  refine registryOf_sound hreplaces ?_ ?_
  · rw [requirementEntries_ids]
    exact h.requirementRetired
  · rw [requirementEntries_supersedes]
    exact h.requirementSupersedes

theorem criterionRegistry_sound (body : Draft) (h : Closed body) :
    Registry.Sound Criterion.supersedesCriterionId (criterionRegistry body) :=
  registryOf_sound (fun _ => rfl) h.criterionRetired h.criterionSupersedes

theorem yields_any {A : Type} (r : Except Refusal A) : Yields r fun _ => True := fun _ _ => trivial

theorem readAscending_ascending {T : Type} (read : Value → Except Refusal T) (idOf : T → JsString) (last : Option JsString)
    (values : List Value) : Yields (readAscending read idOf last values) fun items =>
      (items.map idOf).Pairwise (· < ·) ∧ ∀ id ∈ last, ∀ item ∈ items, id < idOf item := by
  induction values generalizing last with
  | nil => exact yields_ok [] ⟨.nil, by simp⟩
  | cons v rest ih =>
    refine (yields_any _).bind fun item _ => yields_guard _ _ fun hlast => (ih _).bind fun items hitems => yields_ok _ ?_
    obtain ⟨hpairwise, hafter⟩ := hitems
    have hfirst (id : JsString) (hid : id ∈ last) : id < idOf item := by
      obtain rfl := Option.mem_def.mp hid
      simpa using hlast
    refine ⟨List.pairwise_cons.mpr ⟨fun id hid => ?_, hpairwise⟩, fun id hid other hother => ?_⟩
    · obtain ⟨other, hother, rfl⟩ := List.mem_map.mp hid
      exact hafter _ rfl other hother
    · obtain rfl | hother := List.mem_cons.mp hother
      · exact hfirst id hid
      · exact (hfirst id hid).trans (hafter _ rfl other hother)

theorem readSortedItems_unique {T : Type} (allowEmpty : Bool) (maximum : ℕ) (read : Value → Except Refusal T)
    (idOf : T → JsString) (v : Value) :
    Yields (readSortedItems allowEmpty maximum read idOf v) fun items => (items.map idOf).Nodup := by
  cases v with
  | array items =>
    refine yields_guard _ _ fun _ => yields_guard _ _ fun _ =>
      (readAscending_ascending read idOf none items).mono fun out h => ?_
    exact h.1.imp fun hlt => hlt.ne
  | _ => exact yields_error invalid

theorem criteria_unique (normalize : JsString → JsString) (value : Value) (revision : Revision)
    (h : admitProductContractRevisionV2 normalize value = .ok revision) :
    (revision.criteria.map Criterion.criterionId).Nodup := by
  obtain ⟨fields, -, -, -, -, hbody, -⟩ := admit_spec normalize value revision h
  obtain ⟨hread, -, -⟩ := validBody_semantics normalize _ _ hbody
  have hyields : Yields (readBody normalize fields) fun body => (body.criteria.map Criterion.criterionId).Nodup := by
    unfold readBody
    -- the sections before the criteria
    iterate 16 refine (yields_any _).bind fun _ _ => ?_
    refine (readSortedItems_unique _ _ _ _ _).bind fun criteria hcriteria => ?_
    iterate 6 refine (yields_any _).bind fun _ _ => ?_
    exact yields_ok _ hcriteria
  exact hyields _ hread

/-- What the check asks of requirements, and of criteria. -/
structure Amended (current candidate : Draft) : Prop where
  requirements : Registry.Amends RequirementMeaning.supersedesRequirementId (requirementRegistry current)
    (requirementRegistry candidate)
  requirementsReworded : Reworded entryId (fun entry => entry.1.supersedesRequirementId) requirementComparison
    (requirementEntries current) (requirementEntries candidate)
  criteria : Registry.Amends Criterion.supersedesCriterionId (criterionRegistry current) (criterionRegistry candidate)
  criteriaReworded : Reworded Criterion.criterionId Criterion.supersedesCriterionId (criterionComparison current candidate)
    current.criteria candidate.criteria

theorem validRequirementChanges_iff (current candidate : Draft) (hunique : (requirementIds candidate).Nodup) :
    validRequirementChanges current candidate = none ↔
      Registry.Amends RequirementMeaning.supersedesRequirementId (requirementRegistry current) (requirementRegistry candidate)
        ∧ Reworded entryId (fun entry => entry.1.supersedesRequirementId) requirementComparison (requirementEntries current)
          (requirementEntries candidate) := by
  refine validChanges_iff ?_ (fun _ => rfl) fun left right _ => sameCarriedRequirement_iff left right
  rw [requirementEntries_ids]
  exact hunique

theorem validCriterionChanges_iff (current candidate : Draft) (hunique : (candidate.criteria.map Criterion.criterionId).Nodup) :
    validCriterionChanges current candidate = none ↔
      Registry.Amends Criterion.supersedesCriterionId (criterionRegistry current) (criterionRegistry candidate)
        ∧ Reworded Criterion.criterionId Criterion.supersedesCriterionId (criterionComparison current candidate)
          current.criteria candidate.criteria :=
  validChanges_iff hunique (fun _ => rfl) sameCarriedCriterion_iff

section Amendment
variable (normalize : JsString → JsString) (sha256 : List Byte → JsString)

theorem validRevision_admitted (value : Value) (revision : Revision) (h : validRevision normalize sha256 value = .ok revision) :
    admitProductContractRevisionV2 normalize value = .ok revision := by
  obtain ⟨_, -, hadmit⟩ := except_bind_ok _ _ _ h
  exact hadmit

theorem mapError_ok {E E' A : Type} (r : Except E A) (f : E → E') (a : A) : r.mapError f = .ok a ↔ r = .ok a := by
  cases r <;> simp [Except.mapError]

theorem amendment_accepted (currentValue candidateValue : Value) (current candidate : Revision)
    (hcurrent : validRevision normalize sha256 currentValue = .ok current)
    (hcandidate : validRevision normalize sha256 candidateValue = .ok candidate)
    (hcontract : current.contractId = candidate.contractId) (hfresh : candidate.revisionId ≠ current.revisionId)
    (hparent : candidate.lineage
      = some { parentRevisionDigest := current.revisionDigest, parentRevisionId := current.revisionId })
    (hrequirements : validRequirementChanges current.toDraft candidate.toDraft = none)
    (hcriteria : validCriterionChanges current.toDraft candidate.toDraft = none) :
    validateProductContractV2Amendment normalize sha256 currentValue candidateValue
      = .ok { parentRevisionDigest := current.revisionDigest, revisionDigest := candidate.revisionDigest } := by
  unfold validateProductContractV2Amendment
  rw [hcurrent, hcandidate]
  show (if current.contractId ≠ candidate.contractId then _ else _) = _
  rw [if_neg (not_not.mpr hcontract), if_neg (by simp [hfresh, hparent]), hrequirements]
  dsimp only
  rw [hcriteria]

theorem amended_iff (value : Value) (current candidate : Revision) (h : validRevision normalize sha256 value = .ok candidate) :
    Amended current.toDraft candidate.toDraft ↔ validRequirementChanges current.toDraft candidate.toDraft = none
      ∧ validCriterionChanges current.toDraft candidate.toDraft = none := by
  have hadmit := validRevision_admitted normalize sha256 value candidate h
  rw [validRequirementChanges_iff _ _ (admit_closed normalize _ _ hadmit).unique,
    validCriterionChanges_iff _ _ (criteria_unique normalize _ _ hadmit)]
  exact ⟨fun h => ⟨⟨h.1, h.2⟩, ⟨h.3, h.4⟩⟩, fun h => ⟨h.1.1, h.1.2, h.2.1, h.2.2⟩⟩

/-- What the check of an amendment asks of the revisions. -/
structure AmendmentOf (current candidate : Revision) (amendment : Amendment) : Prop where
  contract : current.contractId = candidate.contractId
  fresh : candidate.revisionId ≠ current.revisionId
  parent : candidate.lineage = some { parentRevisionDigest := current.revisionDigest, parentRevisionId := current.revisionId }
  amended : Amended current.toDraft candidate.toDraft
  result : amendment = { parentRevisionDigest := current.revisionDigest, revisionDigest := candidate.revisionDigest }

theorem amendment_spec (currentValue candidateValue : Value) (amendment : Amendment)
    (h : validateProductContractV2Amendment normalize sha256 currentValue candidateValue = .ok amendment) :
    ∃ current candidate, validRevision normalize sha256 currentValue = .ok current
      ∧ validRevision normalize sha256 candidateValue = .ok candidate ∧ AmendmentOf current candidate amendment := by
  unfold validateProductContractV2Amendment at h
  obtain ⟨current, hcurrent, h⟩ := except_bind_ok _ _ _ h
  obtain ⟨candidate, hcandidate, h⟩ := except_bind_ok _ _ _ h
  obtain ⟨hcontract, h⟩ := (ite_error_ok_iff _ _ _ _).mp h
  obtain ⟨hparent, h⟩ := (ite_error_ok_iff _ _ _ _).mp h
  rw [mapError_ok] at hcurrent hcandidate
  simp only [Bool.or_eq_true, decide_eq_true_eq, not_or, not_not, ne_eq] at hparent
  cases hrequirements : validRequirementChanges current.toDraft candidate.toDraft with
  | some code => simp [hrequirements] at h
  | none =>
    cases hcriteria : validCriterionChanges current.toDraft candidate.toDraft with
    | some code => simp [hrequirements, hcriteria] at h
    | none =>
      simp only [hrequirements, hcriteria, Except.ok.injEq] at h
      exact ⟨current, candidate, hcurrent, hcandidate, not_not.mp hcontract, hparent.1, hparent.2,
        (amended_iff normalize sha256 candidateValue current candidate hcandidate).mpr ⟨hrequirements, hcriteria⟩, h.symm⟩

/-- An amendment is accepted exactly when it names its parent and changes nothing but what it declares. -/
theorem validateProductContractV2Amendment_iff (currentValue candidateValue : Value) (amendment : Amendment) :
    validateProductContractV2Amendment normalize sha256 currentValue candidateValue = .ok amendment ↔
      ∃ current candidate, validRevision normalize sha256 currentValue = .ok current
        ∧ validRevision normalize sha256 candidateValue = .ok candidate ∧ AmendmentOf current candidate amendment := by
  constructor
  · exact amendment_spec normalize sha256 currentValue candidateValue amendment
  · rintro ⟨current, candidate, hcurrent, hcandidate, h⟩
    obtain ⟨hrequirements, hcriteria⟩ := (amended_iff normalize sha256 candidateValue current candidate hcandidate).mp h.amended
    rw [h.result]
    exact amendment_accepted normalize sha256 _ _ current candidate hcurrent hcandidate h.contract h.fresh h.parent hrequirements
      hcriteria

/-! ### Histories -/

/-- What holds over a history of revisions. -/
structure ContractHistory (revisions : ℕ → Revision) (n : ℕ) : Prop where
  contract : ∀ i ≤ n, (revisions i).contractId = (revisions 0).contractId
  parents : ∀ i < n, (revisions (i + 1)).lineage
    = some { parentRevisionDigest := (revisions i).revisionDigest, parentRevisionId := (revisions i).revisionId }
  requirements : Lifecycle RequirementMeaning.supersedesRequirementId (fun i => requirementRegistry (revisions i).toDraft) n
  criteria : Lifecycle Criterion.supersedesCriterionId (fun i => criterionRegistry (revisions i).toDraft) n

def Amends (current candidate : Revision) : Prop :=
  ∃ currentValue candidateValue amendment, validRevision normalize sha256 currentValue = .ok current
    ∧ validRevision normalize sha256 candidateValue = .ok candidate
    ∧ validateProductContractV2Amendment normalize sha256 currentValue candidateValue = .ok amendment

theorem amends_spec (current candidate : Revision) (h : Amends normalize sha256 current candidate) :
    current.contractId = candidate.contractId
      ∧ candidate.lineage = some { parentRevisionDigest := current.revisionDigest, parentRevisionId := current.revisionId }
      ∧ Amended current.toDraft candidate.toDraft := by
  obtain ⟨currentValue, candidateValue, amendment, hcurrent, hcandidate, hamendment⟩ := h
  obtain ⟨found, found', hfound, hfound', hspec⟩ := amendment_spec normalize sha256 _ _ _ hamendment
  obtain rfl := Except.ok.inj (hcurrent.symm.trans hfound)
  obtain rfl := Except.ok.inj (hcandidate.symm.trans hfound')
  exact ⟨hspec.contract, hspec.parent, hspec.amended⟩

theorem amends_history (revisions : ℕ → Revision) (n : ℕ) (hclosed : Closed (revisions 0).toDraft)
    (h : ∀ i < n, Amends normalize sha256 (revisions i) (revisions (i + 1))) : ContractHistory revisions n where
  contract i hi := by
    induction i with
    | zero => rfl
    | succ i ih => rw [← (amends_spec normalize sha256 _ _ (h i (by omega))).1, ih (by omega)]
  parents i hi := (amends_spec normalize sha256 _ _ (h i hi)).2.1
  requirements :=
    lifecycle (fun i hi => (amends_spec normalize sha256 _ _ (h i hi)).2.2.requirements) (requirementRegistry_sound _ hclosed)
  criteria :=
    lifecycle (fun i hi => (amends_spec normalize sha256 _ _ (h i hi)).2.2.criteria) (criterionRegistry_sound _ hclosed)

/-- Over revisions each accepted as an amendment of the one before, an id means one thing. -/
theorem contractHistory (revisions : ℕ → Revision) (n : ℕ) (value : Value)
    (hfirst : validRevision normalize sha256 value = .ok (revisions 0))
    (h : ∀ i < n, Amends normalize sha256 (revisions i) (revisions (i + 1))) : ContractHistory revisions n :=
  amends_history normalize sha256 revisions n
    (admit_closed normalize _ _ (validRevision_admitted normalize sha256 value _ hfirst)) h

end Amendment

/-- The requirement `r6` and its criterion are replaced. -/
def sampleCandidate : Revision :=
  { sampleRevision with
    criteria := [sampleCriterion "c1" "r1", sampleCriterion "c2" "r2", sampleCriterion "c3" "r3", sampleCriterion "c4" "r4",
      sampleCriterion "c5" "r5",
      { sampleCriterion "c7" "r7" with supersedesCriterionId := some (lit "c6"), statement := lit "t" }]
    lineage := some ⟨DIGEST_PLACEHOLDER, lit "revision"⟩
    productCompleteDefinition := ⟨[lit "c1", lit "c2", lit "c3", lit "c4", lit "c5", lit "c7"], lit "s"⟩
    retiredCriterionIds := [lit "c6"]
    retiredRequirementIds := [lit "r6"]
    revisionDigest := List.replicate 64 49
    revisionId := lit "next"
    uxAccessibilityRequirements :=
      [{ sampleRequirement "r7" "" with supersedesRequirementId := some (lit "r6"), statement := lit "t" }] }

/-- Tells the samples apart. -/
def sampleDigest (bytes : List Byte) : JsString := List.replicate 64 (if bytes.length < 2500 then 48 else 49)

theorem samples_checked : (validRevision id sampleDigest sampleRevision.toValue = .ok sampleRevision
      ∧ validRevision id sampleDigest sampleCandidate.toValue = .ok sampleCandidate)
    ∧ sampleCandidate.revisionId ≠ sampleRevision.revisionId
    ∧ validRequirementChanges sampleRevision.toDraft sampleCandidate.toDraft = none
    ∧ validCriterionChanges sampleRevision.toDraft sampleCandidate.toDraft = none := by decide +kernel

theorem samples_amend : Amends id sampleDigest sampleRevision sampleCandidate := by
  obtain ⟨⟨hcurrent, hcandidate⟩, hfresh, hrequirements, hcriteria⟩ := samples_checked
  have hparent : sampleCandidate.lineage = some ⟨sampleRevision.revisionDigest, sampleRevision.revisionId⟩ := rfl
  exact ⟨_, _, _, hcurrent, hcandidate, amendment_accepted id sampleDigest _ _ sampleRevision sampleCandidate hcurrent
    hcandidate rfl hfresh hparent hrequirements hcriteria⟩

def sampleRevisions (i : ℕ) : Revision := if i = 0 then sampleRevision else sampleCandidate

theorem sampleRevisions_amends : ∀ i < 1, Amends id sampleDigest (sampleRevisions i) (sampleRevisions (i + 1)) := by
  intro i hi
  obtain rfl : i = 0 := by omega
  unfold sampleRevisions
  rw [if_pos rfl, if_neg (by omega)]
  exact samples_amend

theorem contractHistory_sample : ContractHistory sampleRevisions 1 :=
  contractHistory id sampleDigest sampleRevisions 1 _ samples_checked.1.1 sampleRevisions_amends

end MoeNG.Core.ProductContract
