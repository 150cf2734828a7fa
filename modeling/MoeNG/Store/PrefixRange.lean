import Mathlib.Data.List.Sort
import Mathlib.Order.Fin.Basic
import MoeNG.Kernel.WellFormed
import MoeNG.Lib.ListOrder
import MoeNG.Store.Input

/-!
# Prefix ranges of aggregate ids (`event-read-query.ts:33-54`, `event-read-query.ts:154-189`)

SQLite compares ids as UTF-8 bytes, which is the order of their code points;
the ids with a prefix are those from it to the prefix with its last code point
that is not maximal raised.
-/

namespace MoeNG.Store
open MoeNG.Kernel MoeNG.Lib

/-! ### The upper bound (`event-read-query.ts:44-54`) -/

/-- The code points that iterating a string gives: a surrogate that stands alone is one itself. -/
def iterated : JsString → List CodePoint
  | [] => []
  | [c] => [Fin.ofNat 0x110000 c]
  | high :: low :: rest =>
    if isHighSurrogate high && isLowSurrogate low then pairPoint high low :: iterated rest
    else Fin.ofNat 0x110000 high :: iterated (low :: rest)

def raised (code : CodePoint) : CodePoint := if code.val + 1 = 0xD800 then 0xE000 else Fin.ofNat 0x110000 (code.val + 1)

/-- The loop from the last code point down, over the code points in reverse. -/
def raiseLast : List CodePoint → Option (List CodePoint)
  | [] => none
  | code :: front => if code < 0x10FFFF then some (front.reverse ++ [raised code]) else raiseLast front

def aggregateIdPrefixUpperBound (aggregateIdPrefix : JsString) : Option JsString :=
  (raiseLast (iterated aggregateIdPrefix).reverse).map fun points => points.flatMap pointUnits

example : aggregateIdPrefixUpperBound [97, 0xD7FF, 0xDBFF, 0xDFFF] = some [97, 0xE000] := by decide

/-! ### The enumeration (`event-read-query.ts:154-189`) -/

def inRange (lower : JsString) (upper : Option JsString) (id : JsString) : Bool :=
  utf8 lower ≤ utf8 id && upper.all fun bound => utf8 id < utf8 bound

/-- `aggregate_id` of every stored event in, every distinct one with the prefix out. -/
def aggregateIdPrefixEnumeration (aggregateIds : List JsString) (aggregateIdPrefix : JsString) : StoreResult (List JsString) := do
  let safePrefix ← requireIdentifier aggregateIdPrefix "aggregateIdPrefix"
  .ok ((aggregateIds.filter (inRange safePrefix (aggregateIdPrefixUpperBound safePrefix))).dedup.insertionSort
    fun a b => utf8 a ≤ utf8 b)

/-! ### Code points of well-formed strings -/

theorem iterated_eq (s : JsString) (h : wellFormed s = true) : iterated s = codePoints s := by
  induction s using codePoints.induct with
  | case1 => rfl
  | case2 c =>
    have hc : isSurrogate c = false := by simpa [wellFormed] using h
    rw [iterated, codePoints, unitPoint_eq c hc]
  | case3 high low rest hpair ih =>
    rw [wellFormed, if_pos hpair] at h
    rw [iterated, codePoints, if_pos hpair, if_pos hpair, ih h]
  | case4 high low rest hpair ih =>
    rw [wellFormed, if_neg hpair, Bool.and_eq_true, Bool.not_eq_true'] at h
    rw [iterated, codePoints, if_neg hpair, if_neg hpair, unitPoint_eq high h.1, ih h.2]

/-- A string begins with another one when its code points do. -/
theorem starts_iff (s t : JsString) (hs : wellFormed s = true) (ht : wellFormed t = true) :
    s <+: t ↔ codePoints s <+: codePoints t := by
  constructor
  · rintro ⟨rest, rfl⟩
    rw [codePoints_append_wellFormed s rest hs]
    exact List.prefix_append _ _
  · rintro ⟨points, hpoints⟩
    have hunits := congrArg (List.flatMap pointUnits) hpoints
    rw [List.flatMap_append, codePoints_units s hs, codePoints_units t ht] at hunits
    exact ⟨_, hunits⟩

/-! ### The byte order -/

theorem octet_lt_iff (a b : ℕ) : octet a < octet b ↔ a % 256 < b % 256 := Iff.rfl

theorem tail_mod (n : ℕ) : (0x80 + n % 64) % 256 = 0x80 + n % 64 := by omega

theorem sixtyFours (n : ℕ) : n / 4096 = n / 64 / 64 ∧ n / 262144 = n / 64 / 64 / 64 := by omega

/-- The first byte tells the length, and the payload stands most significant first. -/
theorem pointBytes_strictMono : StrictMono pointBytes := by
  intro a b hab
  have ha := a.isLt
  have hb := b.isLt
  rw [Fin.lt_def] at hab
  unfold pointBytes
  dsimp only
  split_ifs <;> simp only [List.cons_lt_cons_iff, octet_lt_iff, octet_eq_iff, tail_mod, (sixtyFours _).1, (sixtyFours _).2,
    List.not_lt_nil, and_false, or_false] <;> omega

theorem utf8_lt_iff (s t : JsString) : utf8 s < utf8 t ↔ codePoints s < codePoints t :=
  pointBytes_prefixCode.flatMap_lt_iff pointBytes_ne_nil pointBytes_strictMono _ _

theorem utf8_le_iff (s t : JsString) : utf8 s ≤ utf8 t ↔ codePoints s ≤ codePoints t :=
  pointBytes_prefixCode.flatMap_le_iff pointBytes_ne_nil pointBytes_strictMono _ _

/-! ### The raised code points -/

def topPoint : CodePoint := 0x10FFFF

theorem le_topPoint (p : CodePoint) : p ≤ topPoint := Nat.le_of_lt_succ p.isLt

/-- The last code point that is not maximal is raised, and what follows it is dropped. -/
theorem raiseLast_some (points : List CodePoint) (upper : List CodePoint) (h : raiseLast points.reverse = some upper) :
    ∃ front code tops, points = front ++ code :: tops ∧ (∀ t ∈ tops, t = topPoint) ∧ code < topPoint
      ∧ upper = front ++ [raised code] := by
  induction points using List.reverseRecOn with
  | nil => cases h
  | append_singleton rest code ih =>
    rw [List.reverse_append, List.reverse_singleton, List.singleton_append, raiseLast] at h
    split at h
    · rename_i hlt
      rw [List.reverse_reverse] at h
      exact ⟨rest, code, [], rfl, nofun, hlt, (Option.some.inj h).symm⟩
    · rename_i htop
      obtain ⟨front, last, tops, rfl, htops, hlt, hupper⟩ := ih h
      refine ⟨front, last, tops ++ [code], by simp, fun t ht => ?_, hlt, hupper⟩
      rcases List.mem_append.mp ht with ht | ht
      · exact htops t ht
      · rw [List.mem_singleton.mp ht]
        exact le_antisymm (le_topPoint code) (not_lt.mp htop)

theorem raiseLast_none (points : List CodePoint) (h : raiseLast points.reverse = none) : ∀ t ∈ points, t = topPoint := by
  induction points using List.reverseRecOn with
  | nil => nofun
  | append_singleton rest code ih =>
    rw [List.reverse_append, List.reverse_singleton, List.singleton_append, raiseLast] at h
    split at h
    · cases h
    · rename_i htop
      intro t ht
      rcases List.mem_append.mp ht with ht | ht
      · exact ih h t ht
      · rw [List.mem_singleton.mp ht]
        exact le_antisymm (le_topPoint code) (not_lt.mp htop)

/-- No code point but a surrogate lies between one and its raised one. -/
theorem raised_spec {code : CodePoint} (hcode : isScalar code) (hlt : code < topPoint) :
    code < raised code ∧ isScalar (raised code) ∧ ∀ x, isScalar x → x < raised code → x ≤ code := by
  have htop : topPoint.val = 0x10FFFF := rfl
  rw [Fin.lt_def, htop] at hlt
  unfold raised
  split
  · rename_i hgap
    have hval : (0xE000 : CodePoint).val = 0xE000 := rfl
    refine ⟨Fin.lt_def.mpr (by omega), Or.inr (by omega), fun x hx hxlt => Fin.le_def.mpr ?_⟩
    rw [Fin.lt_def] at hxlt
    rcases hx with hx | hx <;> omega
  · rename_i hgap
    have hval : (Fin.ofNat 0x110000 (code.val + 1)).val = code.val + 1 := Nat.mod_eq_of_lt (by omega)
    refine ⟨Fin.lt_def.mpr (by omega), ?_, fun x _ hxlt => Fin.le_def.mpr ?_⟩
    · show (Fin.ofNat 0x110000 (code.val + 1)).val < 0xD800 ∨ 0xE000 ≤ (Fin.ofNat 0x110000 (code.val + 1)).val
      rcases hcode with hcode | hcode <;> omega
    · rw [Fin.lt_def, hval] at hxlt
      omega

/-! ### The law of prefix ranges -/

/-- What the range of a prefix holds, in the byte order and in the order of the code points. -/
structure PrefixLaw (aggregateIdPrefix : JsString) : Prop where
  bounded : ∀ upper, aggregateIdPrefixUpperBound aggregateIdPrefix = some upper → isWellFormed upper = true
    ∧ ∀ id, isWellFormed id = true →
      (utf8 aggregateIdPrefix ≤ utf8 id ∧ utf8 id < utf8 upper ↔ aggregateIdPrefix <+: id)
        ∧ (codePoints aggregateIdPrefix ≤ codePoints id ∧ codePoints id < codePoints upper ↔ aggregateIdPrefix <+: id)
  unbounded : aggregateIdPrefixUpperBound aggregateIdPrefix = none → ∀ id, isWellFormed id = true →
    (utf8 aggregateIdPrefix ≤ utf8 id ↔ aggregateIdPrefix <+: id)
      ∧ (codePoints aggregateIdPrefix ≤ codePoints id ↔ aggregateIdPrefix <+: id)
  enumerated : ∀ aggregateIds found, (∀ id ∈ aggregateIds, isWellFormed id = true) →
    aggregateIdPrefixEnumeration aggregateIds aggregateIdPrefix = .ok found →
      found.Pairwise (fun a b => utf8 a < utf8 b) ∧ ∀ id, id ∈ found ↔ id ∈ aggregateIds ∧ aggregateIdPrefix <+: id

theorem bounded_range {aggregateIdPrefix upper : JsString} (hwellFormed : wellFormed aggregateIdPrefix = true)
    (h : aggregateIdPrefixUpperBound aggregateIdPrefix = some upper) :
    wellFormed upper = true ∧ ∀ id, wellFormed id = true →
      (codePoints aggregateIdPrefix ≤ codePoints id ∧ codePoints id < codePoints upper ↔ aggregateIdPrefix <+: id) := by
  unfold aggregateIdPrefixUpperBound at h
  rw [iterated_eq _ hwellFormed] at h
  obtain ⟨points, hpoints, rfl⟩ := Option.map_eq_some_iff.mp h
  obtain ⟨front, code, tops, hsplit, htops, hlt, rfl⟩ := raiseLast_some _ _ hpoints
  have hscalar := codePoints_scalar aggregateIdPrefix
  rw [hsplit] at hscalar
  have hcode := hscalar code (List.mem_append_right _ (List.mem_cons_self ..))
  obtain ⟨hcover, hraised, hnext⟩ := raised_spec hcode hlt
  have hupper : ∀ p ∈ front ++ [raised code], isScalar p := by
    intro p hp
    rcases List.mem_append.mp hp with hp | hp
    · exact hscalar p (List.mem_append_left _ hp)
    · rwa [List.mem_singleton.mp hp]
  obtain ⟨hunits, hcodes⟩ := units_spec _ hupper
  refine ⟨hunits, fun id hid => ?_⟩
  rw [starts_iff _ id hwellFormed hid, hcodes, hsplit]
  exact front_range_iff (fun t ht x _ => htops t ht ▸ le_topPoint x) hcover
    fun x hx => hnext x (codePoints_scalar id x hx)

theorem unbounded_range {aggregateIdPrefix : JsString} (hwellFormed : wellFormed aggregateIdPrefix = true)
    (h : aggregateIdPrefixUpperBound aggregateIdPrefix = none) (id : JsString) (hid : wellFormed id = true) :
    codePoints aggregateIdPrefix ≤ codePoints id ↔ aggregateIdPrefix <+: id := by
  unfold aggregateIdPrefixUpperBound at h
  rw [iterated_eq _ hwellFormed] at h
  have htops := raiseLast_none _ (Option.map_eq_none_iff.mp h)
  rw [starts_iff _ id hwellFormed hid]
  exact tops_le_iff fun t ht x _ => htops t ht ▸ le_topPoint x

theorem inRange_iff {aggregateIdPrefix : JsString} (hwellFormed : wellFormed aggregateIdPrefix = true) (id : JsString)
    (hid : wellFormed id = true) :
    inRange aggregateIdPrefix (aggregateIdPrefixUpperBound aggregateIdPrefix) id = true ↔ aggregateIdPrefix <+: id := by
  rw [inRange, Bool.and_eq_true, decide_eq_true_eq, utf8_le_iff]
  cases h : aggregateIdPrefixUpperBound aggregateIdPrefix with
  | none =>
    rw [← unbounded_range hwellFormed h id hid]
    exact and_iff_left rfl
  | some upper =>
    rw [← (bounded_range hwellFormed h).2 id hid, Option.all_some, decide_eq_true_eq, utf8_lt_iff]

theorem enumeration_spec {aggregateIdPrefix : JsString} (hwellFormed : wellFormed aggregateIdPrefix = true)
    (aggregateIds found : List JsString) (hids : ∀ id ∈ aggregateIds, isWellFormed id = true)
    (h : aggregateIdPrefixEnumeration aggregateIds aggregateIdPrefix = .ok found) :
    found.Pairwise (fun a b => utf8 a < utf8 b) ∧ ∀ id, id ∈ found ↔ id ∈ aggregateIds ∧ aggregateIdPrefix <+: id := by
  unfold aggregateIdPrefixEnumeration requireIdentifier at h
  split at h
  · obtain rfl := Except.ok.inj h
    have hmem : ∀ id, id ∈ (aggregateIds.filter (inRange aggregateIdPrefix (aggregateIdPrefixUpperBound aggregateIdPrefix))).dedup
        ↔ id ∈ aggregateIds ∧ aggregateIdPrefix <+: id := by
      intro id
      rw [List.mem_dedup, List.mem_filter]
      exact and_congr_right fun hid => inRange_iff hwellFormed id (isWellFormed_eq id ▸ hids id hid)
    refine ⟨?_, fun id => (List.mem_insertionSort _).trans (hmem id)⟩
    have hsorted := List.pairwise_insertionSort (fun a b : JsString => utf8 a ≤ utf8 b)
      (aggregateIds.filter (inRange aggregateIdPrefix (aggregateIdPrefixUpperBound aggregateIdPrefix))).dedup
    have hnodup := (List.perm_insertionSort (fun a b : JsString => utf8 a ≤ utf8 b) _).nodup_iff.mpr
      (List.nodup_dedup (aggregateIds.filter (inRange aggregateIdPrefix (aggregateIdPrefixUpperBound aggregateIdPrefix))))
    refine List.Pairwise.imp_of_mem (fun {a b} ha hb hab => ?_) (hsorted.and hnodup)
    refine lt_of_le_of_ne hab.1 fun heq => hab.2 ?_
    have hof : ∀ id ∈ List.insertionSort (fun a b : JsString => utf8 a ≤ utf8 b) _, wellFormed id = true := fun id hid =>
      isWellFormed_eq id ▸ hids id ((hmem id).mp ((List.mem_insertionSort _).mp hid)).1
    exact utf8_wellFormed_inj a b (hof a ha) (hof b hb) heq
  · cases h

theorem prefix_law (aggregateIdPrefix : JsString) (h : isWellFormed aggregateIdPrefix = true) : PrefixLaw aggregateIdPrefix := by
  rw [isWellFormed_eq] at h
  refine ⟨fun upper hupper => ?_, fun hnone id hid => ?_, enumeration_spec h⟩
  · obtain ⟨hwellFormed, hrange⟩ := bounded_range h hupper
    refine ⟨(isWellFormed_eq upper).trans hwellFormed, fun id hid => ?_⟩
    rw [isWellFormed_eq] at hid
    rw [utf8_le_iff, utf8_lt_iff]
    exact ⟨hrange id hid, hrange id hid⟩
  · rw [isWellFormed_eq] at hid
    rw [utf8_le_iff]
    exact ⟨unbounded_range h hnone id hid, unbounded_range h hnone id hid⟩

/-- A prefix that ends before the gap of the surrogates, with a maximal code point behind. -/
theorem prefix_law_gap : PrefixLaw [0xD7FF, 0xDBFF, 0xDFFF]
    ∧ aggregateIdPrefixUpperBound [0xD7FF, 0xDBFF, 0xDFFF] = some [0xE000] :=
  ⟨prefix_law _ (by decide), by decide⟩

end MoeNG.Store
