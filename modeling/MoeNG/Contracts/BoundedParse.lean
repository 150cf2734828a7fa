import MoeNG.Contracts.BoundedGrammar

/-!
# The bounded parser and its grammar

Each reader of the parser takes exactly what the grammar has for it.
-/

namespace MoeNG.Contracts
open MoeNG.Kernel MoeNG.Lib MoeNG.Kernel.Json

variable {N : Type} {number : JsString → Option N}

/-! ### What a reader tells -/

/-- A reader that met no key twice returns the value itself; one that did met it in the value. -/
def Told {A : Type} (found : Bool) (read value : A) (distinct : Prop) : Prop :=
  if found then ¬ distinct else read = value ∧ distinct

theorem told_false {A : Type} {value : A} {distinct : Prop} (h : distinct) : Told false value value distinct := ⟨rfl, h⟩

theorem Told.map {A B : Type} {found : Bool} {read value : A} {P Q : Prop} (f : A → B) (h : Told found read value P)
    (hiff : Q ↔ P) : Told found (f read) (f value) Q := by
  cases found with
  | true => exact fun hq => h (hiff.mp hq)
  | false => exact ⟨congrArg f h.1, hiff.mpr h.2⟩

theorem Told.both {A B C : Type} {first second : Bool} {a a' : A} {b b' : B} {P Q R : Prop} (f : A → B → C)
    (ha : Told first a a' P) (hb : Told second b b' Q) (hiff : R ↔ P ∧ Q) : Told (first || second) (f a b) (f a' b') R := by
  cases first with
  | true => exact fun hr => ha (hiff.mp hr).1
  | false =>
    cases second with
    | true => exact fun hr => hb (hiff.mp hr).2
    | false => exact ⟨by rw [ha.1, hb.1], hiff.mpr ⟨ha.2, hb.2⟩⟩

/-- No key of the entries is met twice, nor is it one of the given keys. -/
def FreshKeys {A : Type} (keys : List JsString) (entries : List (JsString × A)) : Prop :=
  (entries.map Prod.fst).Nodup ∧ ∀ key ∈ entries.map Prod.fst, key ∉ keys

theorem freshKeys_nil {A : Type} (entries : List (JsString × A)) : FreshKeys [] entries ↔ (entries.map Prod.fst).Nodup :=
  and_iff_left fun _ _ => List.not_mem_nil

theorem freshKeys_cons {A : Type} (keys : List JsString) (key : JsString) (v : A) (entries : List (JsString × A)) :
    FreshKeys keys ((key, v) :: entries) ↔ key ∉ keys ∧ FreshKeys (key :: keys) entries := by
  show (key :: entries.map Prod.fst).Nodup ∧ (∀ k ∈ key :: entries.map Prod.fst, k ∉ keys) ↔ _
  rw [List.nodup_cons, List.forall_mem_cons]
  constructor
  · rintro ⟨⟨hkey, hnodup⟩, hfresh, hrest⟩
    exact ⟨hfresh, hnodup, fun k hk => List.not_mem_cons_of_ne_of_not_mem (fun h => hkey (h ▸ hk)) (hrest k hk)⟩
  · rintro ⟨hfresh, hnodup, hrest⟩
    exact ⟨⟨fun hkey => hrest key hkey (List.mem_cons_self ..), hnodup⟩, hfresh,
      fun k hk => List.not_mem_of_not_mem_cons (hrest k hk)⟩

/-! ### What is read is spelled -/

variable (number) in
structure ValueRead (depth : ℕ) (s : JsString) (w : Json N) (found : Bool) (rest : JsString) (v : Json N) (text : JsString) :
    Prop where
  split : s = text ++ rest
  spells : Spells number v text
  fits : Fits depth v
  told : Told found w v (KeysDistinct v)

variable (number) in
structure ItemsRead (depth : ℕ) (s : JsString) (ws : List (Json N)) (found : Bool) (rest : JsString) (vs : List (Json N))
    (body : JsString) : Prop where
  split : s = body ++ 93 :: rest
  spells : SpellsItems number vs body
  fits : FitsItems (depth + 1) vs
  told : Told found ws vs (KeysDistinctItems vs)

variable (number) in
structure EntriesRead (depth : ℕ) (keys : List JsString) (s : JsString) (ws : List (JsString × Json N)) (found : Bool)
    (rest : JsString) (vs : List (JsString × Json N)) (body : JsString) : Prop where
  split : s = body ++ 125 :: rest
  spells : SpellsEntries number vs body
  fits : FitsEntries (depth + 1) vs
  told : Told found ws vs (FreshKeys keys vs ∧ KeysDistinctEntries vs)

variable (number) in
structure SoundAt (fuel : ℕ) : Prop where
  value : ∀ depth s w found rest, depth ≤ maxJsonDepth → parseValue number fuel depth s = .ok (w, found, rest) →
    ∃ v text, ValueRead number depth s w found rest v text
  items : ∀ depth s ws found rest, depth < maxJsonDepth → parseItems number fuel depth s = .ok (ws, found, rest) →
    ∃ vs body, ItemsRead number depth s ws found rest vs body
  entries : ∀ depth keys s ws found rest, depth < maxJsonDepth → parseEntries number fuel depth keys s = .ok (ws, found, rest) →
    ∃ vs body, EntriesRead number depth keys s ws found rest vs body

theorem fits_scalar {depth : ℕ} {v : Json N} (hdepth : depth ≤ maxJsonDepth) (hnesting : nesting v = 0)
    (htexts : ∀ s ∈ texts v, TextFits s) : Fits depth v := ⟨by rwa [hnesting, Nat.zero_add], htexts⟩

theorem parseLiteral_sound (source : String) (value : Json N) (depth : ℕ) (s : JsString) (w : Json N) (found : Bool)
    (rest : JsString) (hdepth : depth ≤ maxJsonDepth) (hspells : Spells number value (lit source)) (hnesting : nesting value = 0)
    (htexts : texts value = []) (hkeys : KeysDistinct value) (h : parseLiteral source value s = .ok (w, found, rest)) :
    ValueRead number depth s w found rest value (lit source) := by
  unfold parseLiteral at h
  split at h
  · rename_i hstart
    simp only [Except.ok.injEq, Prod.mk.injEq] at h
    obtain ⟨rfl, rfl, rfl⟩ := h
    refine ⟨?_, hspells, fits_scalar hdepth hnesting (by rw [htexts]; nofun), told_false hkeys⟩
    obtain ⟨tail, rfl⟩ := List.isPrefixOf_iff_prefix.mp hstart
    rw [List.drop_left]
  · cases h

theorem parseNumber_sound (depth : ℕ) (s : JsString) (w : Json N) (found : Bool) (rest : JsString)
    (hdepth : depth ≤ maxJsonDepth) (h : parseNumber number s = .ok (w, found, rest)) :
    ∃ v text, ValueRead number depth s w found rest v text := by
  unfold parseNumber at h
  split at h
  · cases h
  · rename_i lexeme after hscan
    split at h
    · cases h
    · rename_i x hx
      simp only [Except.ok.injEq, Prod.mk.injEq] at h
      obtain ⟨rfl, rfl, rfl⟩ := h
      obtain ⟨hsplit, hlexeme⟩ := scanNumber_split s lexeme after hscan
      exact ⟨.number x, lexeme, hsplit, .number hlexeme hx, fits_scalar hdepth rfl nofun, told_false trivial⟩

theorem SpellsItems.blank {vs : List (Json N)} {body : JsString} (h : SpellsItems number vs body) (blank : JsString)
    (hblank : Blank blank) : SpellsItems number vs (blank ++ body) := by
  cases h with
  | last hbefore hv hafter =>
    rw [← List.append_assoc]
    exact .last (hblank.append hbefore) hv hafter
  | cons hbefore hv hafter h =>
    rw [← List.append_assoc]
    exact .cons (hblank.append hbefore) hv hafter h

theorem SpellsEntries.blank {vs : List (JsString × Json N)} {body : JsString} (h : SpellsEntries number vs body)
    (blank : JsString) (hblank : Blank blank) : SpellsEntries number vs (blank ++ body) := by
  cases h with
  | last hbefore hkey hbeforeColon hafterColon hv hafter =>
    rw [← List.append_assoc]
    exact .last (hblank.append hbefore) hkey hbeforeColon hafterColon hv hafter
  | cons hbefore hkey hbeforeColon hafterColon hv hafter h =>
    rw [← List.append_assoc]
    exact .cons (hblank.append hbefore) hkey hbeforeColon hafterColon hv hafter h

theorem parseItems_sound (fuel : ℕ) (ih : SoundAt number fuel) (depth : ℕ) (s : JsString) (ws : List (Json N)) (found : Bool)
    (rest : JsString) (hdepth : depth < maxJsonDepth) (h : parseItems number (fuel + 1) depth s = .ok (ws, found, rest)) :
    ∃ vs body, ItemsRead number depth s ws found rest vs body := by
  unfold parseItems at h
  obtain ⟨⟨w, foundItem, afterItem⟩, hitem, h⟩ := except_bind_ok _ _ _ h
  obtain ⟨v, text, hv⟩ := ih.value _ _ _ _ _ hdepth hitem
  obtain ⟨before, hbefore, hs⟩ := skipSpace_split s
  dsimp only at h
  split at h
  · rename_i after hafter
    simp only [Except.ok.injEq, Prod.mk.injEq] at h
    obtain ⟨rfl, rfl, rfl⟩ := h
    obtain ⟨blank, hblank, rfl⟩ := skipSpace_to _ _ _ hafter
    refine ⟨[v], before ++ (text ++ blank), ⟨?_, .last hbefore hv.spells hblank, ?_, ?_⟩⟩
    · rw [hs, hv.split]
      simp only [List.append_assoc]
    · exact fitsItems_cons.mpr ⟨hv.fits, fitsItems_nil hdepth⟩
    · exact hv.told.map (fun w => [w]) (and_iff_left trivial)
  · rename_i after hafter
    obtain ⟨⟨ws', foundRest, rest'⟩, hrest, heq⟩ := except_map_ok _ _ _ h
    obtain ⟨blank, hblank, rfl⟩ := skipSpace_to _ _ _ hafter
    obtain ⟨vs, tail, hvs⟩ := ih.items _ _ _ _ _ hdepth hrest
    simp only [Prod.mk.injEq] at heq
    obtain ⟨rfl, rfl, rfl⟩ := heq
    refine ⟨v :: vs, before ++ (text ++ (blank ++ 44 :: tail)), ⟨?_, .cons hbefore hv.spells hblank hvs.spells, ?_, ?_⟩⟩
    · rw [hs, hv.split, hvs.split]
      simp only [List.append_assoc, List.cons_append]
    · exact fitsItems_cons.mpr ⟨hv.fits, hvs.fits⟩
    · exact hv.told.both List.cons hvs.told Iff.rfl
  · cases h

/-- An entry in front of others, left out when its key was met before. -/
theorem told_entry {foundValue foundRest : Bool} {w v : Json N} (keys : List JsString) (key : JsString)
    (ws vs : List (JsString × Json N)) (hv : Told foundValue w v (KeysDistinct v))
    (hvs : Told foundRest ws vs (FreshKeys (key :: keys) vs ∧ KeysDistinctEntries vs)) :
    Told (decide (key ∈ keys) || foundValue || foundRest) ((if decide (key ∈ keys) then [] else [(key, w)]) ++ ws)
      ((key, v) :: vs)
      (FreshKeys keys ((key, v) :: vs) ∧ KeysDistinctEntries ((key, v) :: vs)) := by
  by_cases hkey : key ∈ keys
  · rw [decide_eq_true hkey, Bool.true_or, Bool.true_or]
    exact fun h => ((freshKeys_cons keys key v vs).mp h.1).1 hkey
  · rw [decide_eq_false hkey, Bool.false_or]
    refine hv.both (fun w ws => [(key, w)] ++ ws) hvs ?_
    rw [freshKeys_cons, KeysDistinctEntries]
    tauto

theorem parseEntries_sound (fuel : ℕ) (ih : SoundAt number fuel) (depth : ℕ) (keys : List JsString) (s : JsString)
    (ws : List (JsString × Json N)) (found : Bool) (rest : JsString) (hdepth : depth < maxJsonDepth)
    (h : parseEntries number (fuel + 1) depth keys s = .ok (ws, found, rest)) :
    ∃ vs body, EntriesRead number depth keys s ws found rest vs body := by
  unfold parseEntries at h
  split at h
  · rename_i afterQuote hquote
    obtain ⟨⟨key, afterKey⟩, hkey, hbehindKey⟩ := except_bind_ok _ _ _ h
    obtain ⟨before, hbefore, rfl⟩ := skipSpace_to _ _ _ hquote
    obtain ⟨body, rfl, hchars, hwell, hlength⟩ := scanBoundedJsonString_sound _ _ _ hkey
    dsimp only at hbehindKey
    split at hbehindKey
    · rename_i afterColon hcolon
      obtain ⟨⟨w, foundValue, afterValue⟩, hvalue, hbehind⟩ := except_bind_ok _ _ _ hbehindKey
      obtain ⟨blankKey, hblankKey, rfl⟩ := skipSpace_to _ _ _ hcolon
      obtain ⟨v, text, hv⟩ := ih.value _ _ _ _ _ hdepth hvalue
      obtain ⟨blankColon, hblankColon, hs⟩ := skipSpace_split afterColon
      dsimp only at hbehind
      split at hbehind
      · rename_i after hafter
        simp only [Except.ok.injEq, Prod.mk.injEq] at hbehind
        obtain ⟨rfl, rfl, rfl⟩ := hbehind
        obtain ⟨blank, hblank, rfl⟩ := skipSpace_to _ _ _ hafter
        refine ⟨[(key, v)], _, ⟨?_, .last hbefore hchars hblankKey hblankColon hv.spells hblank, ?_, ?_⟩⟩
        · rw [hs, hv.split]
          simp only [List.append_assoc, List.cons_append]
        · exact fitsEntries_cons.mpr ⟨⟨hwell, hlength⟩, hv.fits, fitsEntries_nil hdepth⟩
        · have htold := told_entry keys key [] [] hv.told (told_false ⟨⟨List.nodup_nil, nofun⟩, trivial⟩)
          rwa [Bool.or_false, List.append_nil] at htold
      · rename_i after hafter
        obtain ⟨⟨ws', foundRest, rest'⟩, hrest, heq⟩ := except_map_ok _ _ _ hbehind
        obtain ⟨blank, hblank, rfl⟩ := skipSpace_to _ _ _ hafter
        obtain ⟨vs, tail, hvs⟩ := ih.entries _ _ _ _ _ _ hdepth hrest
        simp only [Prod.mk.injEq] at heq
        obtain ⟨rfl, rfl, rfl⟩ := heq
        refine ⟨(key, v) :: vs, _, ⟨?_, .cons hbefore hchars hblankKey hblankColon hv.spells hblank hvs.spells, ?_, ?_⟩⟩
        · rw [hs, hv.split, hvs.split]
          simp only [List.append_assoc, List.cons_append]
        · exact fitsEntries_cons.mpr ⟨⟨hwell, hlength⟩, hv.fits, hvs.fits⟩
        · exact told_entry keys key ws' vs hv.told hvs.told
      · cases hbehind
    · cases hbehindKey
  · cases h

theorem parseValue_sound (fuel : ℕ) (ih : SoundAt number fuel) (depth : ℕ) (s : JsString) (w : Json N) (found : Bool)
    (rest : JsString) (hdepth : depth ≤ maxJsonDepth) (h : parseValue number (fuel + 1) depth s = .ok (w, found, rest)) :
    ∃ v text, ValueRead number depth s w found rest v text := by
  cases s with
  | nil => cases h
  | cons c tail =>
    unfold parseValue at h
    split_ifs at h with hquote hopen hlimit hbrace hlimit ht hf hn hnumber
    · obtain ⟨⟨t, rest'⟩, hscan, heq⟩ := except_map_ok _ _ _ h
      obtain ⟨body, rfl, hchars, hwell, hlength⟩ := scanBoundedJsonString_sound _ _ _ hscan
      simp only [Prod.mk.injEq] at heq
      obtain ⟨rfl, rfl, rfl⟩ := heq
      refine ⟨.string t, _, ⟨?_, .string hchars, fits_scalar hdepth rfl ?_, told_false trivial⟩⟩
      · rw [hquote]
        simp only [List.append_assoc, List.cons_append, List.nil_append]
      · exact List.forall_mem_singleton.mpr ⟨hwell, hlength⟩
    · subst hopen
      split at h
      · rename_i after hclose
        simp only [Except.ok.injEq, Prod.mk.injEq] at h
        obtain ⟨rfl, rfl, rfl⟩ := h
        obtain ⟨blank, hblank, rfl⟩ := skipSpace_to _ _ _ hclose
        refine ⟨.array [], _, ⟨?_, .emptyArray hblank, fits_array.mpr (fitsItems_nil ?_), told_false trivial⟩⟩
        · simp only [List.append_assoc, List.cons_append, List.nil_append]
        · omega
      · obtain ⟨⟨ws, foundItems, rest'⟩, hitems, heq⟩ := except_map_ok _ _ _ h
        obtain ⟨vs, body, hvs⟩ := ih.items _ _ _ _ _ (not_le.mp hlimit) hitems
        obtain ⟨blank, hblank, hs⟩ := skipSpace_split tail
        simp only [Prod.mk.injEq] at heq
        obtain ⟨rfl, rfl, rfl⟩ := heq
        refine ⟨.array vs, _, ⟨?_, .array (hvs.spells.blank blank hblank), fits_array.mpr hvs.fits, hvs.told.map _ Iff.rfl⟩⟩
        rw [hs, hvs.split]
        simp only [List.append_assoc, List.cons_append, List.nil_append]
    · subst hbrace
      split at h
      · rename_i after hclose
        simp only [Except.ok.injEq, Prod.mk.injEq] at h
        obtain ⟨rfl, rfl, rfl⟩ := h
        obtain ⟨blank, hblank, rfl⟩ := skipSpace_to _ _ _ hclose
        refine ⟨.object [], _, ⟨?_, .emptyObject hblank, fits_object.mpr (fitsEntries_nil ?_),
          told_false ⟨List.nodup_nil, trivial⟩⟩⟩
        · simp only [List.append_assoc, List.cons_append, List.nil_append]
        · omega
      · obtain ⟨⟨ws, foundEntries, rest'⟩, hentries, heq⟩ := except_map_ok _ _ _ h
        obtain ⟨vs, body, hvs⟩ := ih.entries _ _ _ _ _ _ (not_le.mp hlimit) hentries
        obtain ⟨blank, hblank, hs⟩ := skipSpace_split tail
        simp only [Prod.mk.injEq] at heq
        obtain ⟨rfl, rfl, rfl⟩ := heq
        refine ⟨.object vs, _, ⟨?_, .object (hvs.spells.blank blank hblank), fits_object.mpr hvs.fits,
          hvs.told.map _ (and_congr_left' (freshKeys_nil vs).symm)⟩⟩
        rw [hs, hvs.split]
        simp only [List.append_assoc, List.cons_append, List.nil_append]
    · exact ⟨_, _, parseLiteral_sound "true" _ depth _ w found rest hdepth .isTrue rfl rfl trivial h⟩
    · exact ⟨_, _, parseLiteral_sound "false" _ depth _ w found rest hdepth .isFalse rfl rfl trivial h⟩
    · exact ⟨_, _, parseLiteral_sound "null" _ depth _ w found rest hdepth .null rfl rfl trivial h⟩
    · exact parseNumber_sound depth _ w found rest hdepth h

theorem parse_sound (fuel : ℕ) : SoundAt number fuel := by
  induction fuel with
  | zero => exact ⟨nofun, nofun, nofun⟩
  | succ fuel ih => exact ⟨parseValue_sound fuel ih, parseItems_sound fuel ih, parseEntries_sound fuel ih⟩

/-! ### What is spelled is read -/

theorem wellFormed_behind (s : JsString) (c : CodeUnit) (t : JsString) (hc : isSurrogate c = false)
    (h : wellFormed (s ++ c :: t) = true) : wellFormed t = true := by
  induction s using wellFormed.induct with
  | case1 => rwa [List.nil_append, wellFormed_cons c t hc] at h
  | case2 d =>
    cases hd : isSurrogate d with
    | true =>
      obtain ⟨low, rest, hsplit, -, hlow, -⟩ := wellFormed_surrogate d _ hd h
      obtain rfl := (List.cons.inj hsplit).1
      rw [isSurrogate_low c hlow] at hc
      cases hc
    | false =>
      rw [List.singleton_append, wellFormed_cons d _ hd, wellFormed_cons c t hc] at h
      exact h
  | case3 high low tail hpair ih =>
    obtain ⟨hhigh, hlow⟩ := Bool.and_eq_true_iff.mp hpair
    rw [List.cons_append, List.cons_append, (pair_cons high low _ hhigh hlow).1] at h
    exact ih h
  | case4 high low tail hpair ih =>
    refine ih ?_
    cases hd : isSurrogate high with
    | true =>
      obtain ⟨low', rest, hsplit, hhigh, hlow, -⟩ := wellFormed_surrogate high _ hd h
      obtain rfl := (List.cons.inj hsplit).1
      exact absurd (by rw [hhigh, hlow]; rfl) hpair
    | false =>
      rw [List.cons_append, wellFormed_cons high _ hd] at h
      exact h

theorem IsLexeme.head {s : JsString} (h : IsLexeme s) : ∃ c rest, s = c :: rest ∧ (c = 45 ∨ isDigitUnit c = true) :=
  readLexeme_head s (by
    have hread := (readLexeme_lexeme s [] h nofun).1
    rw [List.append_nil] at hread
    rw [hread]
    rfl)

theorem Spells.head {v : Json N} {text : JsString} (h : Spells number v text) :
    ∃ c rest, text = c :: rest ∧ isSpace c = false ∧ c ≠ 93 ∧ c ≠ 125 := by
  cases h with
  | null => exact ⟨110, _, rfl, by decide, by decide, by decide⟩
  | isTrue => exact ⟨116, _, rfl, by decide, by decide, by decide⟩
  | isFalse => exact ⟨102, _, rfl, by decide, by decide, by decide⟩
  | number hs hx =>
    obtain ⟨c, rest, htext, hc⟩ := hs.head
    refine ⟨c, rest, htext, ?_⟩
    obtain rfl | hc := hc
    · exact ⟨by decide, by decide, by decide⟩
    · exact ⟨isSpace_digit c hc, digit_ne c 93 hc (by decide), digit_ne c 125 hc (by decide)⟩
  | string h => exact ⟨34, _, rfl, by decide, by decide, by decide⟩
  | emptyArray h => exact ⟨91, _, rfl, by decide, by decide, by decide⟩
  | array h => exact ⟨91, _, rfl, by decide, by decide, by decide⟩
  | emptyObject h => exact ⟨123, _, rfl, by decide, by decide, by decide⟩
  | object h => exact ⟨123, _, rfl, by decide, by decide, by decide⟩

theorem Spells.skipSpace {v : Json N} {text : JsString} (h : Spells number v text) (blank rest : JsString)
    (hblank : Blank blank) :
    Kernel.skipSpace (blank ++ (text ++ rest)) = text ++ rest := by
  obtain ⟨c, tail, rfl, hc, -, -⟩ := h.head
  exact skipSpace_behind blank c (tail ++ rest) hblank hc

variable (number) in
structure CompleteAt (fuel : ℕ) : Prop where
  value : ∀ depth v text rest, Spells number v text → Fits depth v → KeysDistinct v → wellFormed (text ++ rest) = true →
    Ends rest → 2 * text.length ≤ fuel → parseValue number fuel depth (text ++ rest) = .ok (v, false, rest)
  items : ∀ depth vs body rest, SpellsItems number vs body → FitsItems (depth + 1) vs → KeysDistinctItems vs →
    wellFormed (body ++ 93 :: rest) = true → 2 * body.length + 1 ≤ fuel →
    parseItems number fuel depth (body ++ 93 :: rest) = .ok (vs, false, rest)
  entries : ∀ depth keys vs body rest, SpellsEntries number vs body → FitsEntries (depth + 1) vs → FreshKeys keys vs →
    KeysDistinctEntries vs → wellFormed (body ++ 125 :: rest) = true → 2 * body.length + 1 ≤ fuel →
    parseEntries number fuel depth keys (body ++ 125 :: rest) = .ok (vs, false, rest)

theorem parseItems_item (fuel depth : ℕ) (s : JsString) (v : Json N) (found : Bool) (afterItem : JsString)
    (h : parseValue number fuel (depth + 1) (skipSpace s) = .ok (v, found, afterItem)) :
    parseItems number (fuel + 1) depth s = match skipSpace afterItem with
      | 93 :: rest => .ok ([v], found, rest)
      | 44 :: rest => (parseItems number fuel depth rest).map fun p => (v :: p.1, found || p.2.1, p.2.2)
      | _ => .error .JSON_SYNTAX_INVALID := by
  rw [parseItems, h]
  rfl

theorem parseItems_complete (fuel : ℕ) (ih : CompleteAt number fuel) (depth : ℕ) (vs : List (Json N)) (body rest : JsString)
    (h : SpellsItems number vs body) (hfits : FitsItems (depth + 1) vs) (hkeys : KeysDistinctItems vs)
    (hwell : wellFormed (body ++ 93 :: rest) = true) (hfuel : 2 * body.length + 1 ≤ fuel + 1) :
    parseItems number (fuel + 1) depth (body ++ 93 :: rest) = .ok (vs, false, rest) := by
  cases h with
  | @last v before text after hbefore hv hafter =>
    simp only [List.append_assoc] at hwell ⊢
    simp only [List.length_append] at hfuel
    rw [hbefore.wellFormed] at hwell
    have hread := ih.value (depth + 1) v text (after ++ 93 :: rest) hv (fitsItems_cons.mp hfits).1 hkeys.1 hwell
      (ends_blank after 93 rest hafter (.inr (.inl rfl))) (by omega)
    rw [← hv.skipSpace before _ hbefore] at hread
    rw [parseItems_item fuel depth _ v false _ hread, skipSpace_behind after 93 rest hafter (by decide)]
    rfl
  | @cons v items before text after tail hbefore hv hafter hitems =>
    simp only [List.append_assoc, List.cons_append] at hwell ⊢
    simp only [List.length_append, List.length_cons] at hfuel
    rw [hbefore.wellFormed] at hwell
    have hread := ih.value (depth + 1) v text (after ++ 44 :: (tail ++ 93 :: rest)) hv (fitsItems_cons.mp hfits).1 hkeys.1 hwell
      (ends_blank after 44 _ hafter (.inl rfl)) (by omega)
    rw [← hv.skipSpace before _ hbefore] at hread
    rw [← List.append_assoc] at hwell
    have htail := ih.items depth items tail rest hitems (fitsItems_cons.mp hfits).2 hkeys.2
      (wellFormed_behind _ 44 _ (by decide) hwell) (by omega)
    rw [parseItems_item fuel depth _ v false _ hread, skipSpace_behind after 44 _ hafter (by decide)]
    show (parseItems number fuel depth (tail ++ 93 :: rest)).map _ = _
    rw [htail]
    rfl

theorem parseEntries_entry (fuel depth : ℕ) (keys : List JsString) (s afterQuote key afterKey afterColon : JsString) (v : Json N)
    (found : Bool) (afterValue : JsString) (hquote : skipSpace s = 34 :: afterQuote)
    (hkey : scanBoundedJsonString afterQuote = .ok (key, afterKey)) (hcolon : skipSpace afterKey = 58 :: afterColon)
    (hvalue : parseValue number fuel (depth + 1) (skipSpace afterColon) = .ok (v, found, afterValue)) (hfresh : key ∉ keys) :
    parseEntries number (fuel + 1) depth keys s = match skipSpace afterValue with
      | 125 :: rest => .ok ([(key, v)], found, rest)
      | 44 :: rest =>
        (parseEntries number fuel depth (key :: keys) rest).map fun p => ((key, v) :: p.1, found || p.2.1, p.2.2)
      | _ => .error .JSON_SYNTAX_INVALID := by
  rw [parseEntries, hquote]
  show (scanBoundedJsonString afterQuote).bind _ = _
  rw [hkey, Except.bind]
  dsimp only
  rw [hcolon]
  show (parseValue number fuel (depth + 1) (skipSpace afterColon)).bind _ = _
  rw [hvalue, Except.bind]
  dsimp only
  rw [decide_eq_false hfresh]
  rfl

theorem parseEntries_complete (fuel : ℕ) (ih : CompleteAt number fuel) (depth : ℕ) (keys : List JsString)
    (vs : List (JsString × Json N)) (body rest : JsString) (h : SpellsEntries number vs body)
    (hfits : FitsEntries (depth + 1) vs) (hfresh : FreshKeys keys vs) (hkeys : KeysDistinctEntries vs)
    (hwell : wellFormed (body ++ 125 :: rest) = true) (hfuel : 2 * body.length + 1 ≤ fuel + 1) :
    parseEntries number (fuel + 1) depth keys (body ++ 125 :: rest) = .ok (vs, false, rest) := by
  cases h with
  | @last key v before body beforeColon afterColon text after hbefore hkey hbeforeColon hafterColon hv hafter =>
    obtain ⟨hfitsKey, hfitsValue, -⟩ := fitsEntries_cons.mp hfits
    simp only [List.append_assoc, List.cons_append] at hwell ⊢
    simp only [List.length_append, List.length_cons] at hfuel
    rw [hbefore.wellFormed, wellFormed_cons 34 _ (by decide)] at hwell
    have hscan := scanBoundedJsonString_complete body key _ hkey hfitsKey.wellFormed hwell hfitsKey.length
    have hwellKey := wellFormed_behind _ 34 _ (by decide) hwell
    rw [hbeforeColon.wellFormed, wellFormed_cons 58 _ (by decide), hafterColon.wellFormed] at hwellKey
    have hread := ih.value (depth + 1) v text (after ++ 125 :: rest) hv hfitsValue hkeys.1 hwellKey
      (ends_blank after 125 rest hafter (.inr (.inr rfl))) (by omega)
    rw [← hv.skipSpace afterColon _ hafterColon] at hread
    rw [parseEntries_entry fuel depth keys _ _ key _ _ v false _ (skipSpace_behind before 34 _ hbefore (by decide)) hscan
      (skipSpace_behind beforeColon 58 _ hbeforeColon (by decide)) hread ((freshKeys_cons keys key v []).mp hfresh).1,
      skipSpace_behind after 125 rest hafter (by decide)]
    rfl
  | @cons key v entries before body beforeColon afterColon text after tail hbefore hkey hbeforeColon hafterColon hv hafter
      hentries =>
    obtain ⟨hfitsKey, hfitsValue, hfitsRest⟩ := fitsEntries_cons.mp hfits
    obtain ⟨hnew, hfreshRest⟩ := (freshKeys_cons keys key v entries).mp hfresh
    simp only [List.append_assoc, List.cons_append] at hwell ⊢
    simp only [List.length_append, List.length_cons] at hfuel
    rw [hbefore.wellFormed, wellFormed_cons 34 _ (by decide)] at hwell
    have hscan := scanBoundedJsonString_complete body key _ hkey hfitsKey.wellFormed hwell hfitsKey.length
    have hwellKey := wellFormed_behind _ 34 _ (by decide) hwell
    rw [hbeforeColon.wellFormed, wellFormed_cons 58 _ (by decide), hafterColon.wellFormed] at hwellKey
    have hread := ih.value (depth + 1) v text (after ++ 44 :: (tail ++ 125 :: rest)) hv hfitsValue hkeys.1 hwellKey
      (ends_blank after 44 _ hafter (.inl rfl)) (by omega)
    rw [← hv.skipSpace afterColon _ hafterColon] at hread
    rw [← List.append_assoc] at hwellKey
    have htail := ih.entries depth (key :: keys) entries tail rest hentries hfitsRest hfreshRest hkeys.2
      (wellFormed_behind _ 44 _ (by decide) hwellKey) (by omega)
    rw [parseEntries_entry fuel depth keys _ _ key _ _ v false _ (skipSpace_behind before 34 _ hbefore (by decide)) hscan
      (skipSpace_behind beforeColon 58 _ hbeforeColon (by decide)) hread hnew,
      skipSpace_behind after 44 _ hafter (by decide)]
    show (parseEntries number fuel depth (key :: keys) (tail ++ 125 :: rest)).map _ = _
    rw [htail]
    rfl

theorem parseLiteral_append (source : String) (value : Json N) (rest : JsString) :
    parseLiteral source value (lit source ++ rest) = .ok (value, false, rest) := by
  unfold parseLiteral
  rw [if_pos (List.isPrefixOf_iff_prefix.mpr (List.prefix_append ..)), List.drop_left]

theorem parseNumber_append (s : JsString) (x : N) (rest : JsString) (hs : IsLexeme s) (hx : number s = some x)
    (hrest : Ends rest) :
    parseNumber number (s ++ rest) = .ok (.number x, false, rest) := by
  unfold parseNumber
  rw [(readLexeme_lexeme s rest hs hrest).2]
  dsimp only
  rw [hx]

theorem parseValue_number (fuel depth : ℕ) (s : JsString) (x : N) (rest : JsString) (hs : IsLexeme s) (hx : number s = some x)
    (hrest : Ends rest) : parseValue number (fuel + 1) depth (s ++ rest) = .ok (.number x, false, rest) := by
  have hread := parseNumber_append s x rest hs hx hrest
  obtain ⟨c, tail, rfl, hc⟩ := hs.head
  have hne (n : CodeUnit) (hn : n.val < 45 ∨ 57 < n.val) : c ≠ n := by
    obtain rfl | hc := hc
    · rintro rfl
      exact absurd hn (by decide)
    · exact digit_ne c n hc (by omega)
  have hnumber : (c = 45 || isDigitUnit c) = true := by
    obtain rfl | hc := hc
    · rfl
    · rw [hc, Bool.or_true]
  rw [List.cons_append] at hread ⊢
  unfold parseValue
  rw [if_neg (hne 34 (by decide)), if_neg (hne 91 (by decide)), if_neg (hne 123 (by decide)), if_neg (hne 116 (by decide)),
    if_neg (hne 102 (by decide)), if_neg (hne 110 (by decide)), if_pos hnumber]
  exact hread

theorem parseItems_skip (fuel depth : ℕ) (s : JsString) : parseItems number fuel depth (skipSpace s)
    = parseItems number fuel depth s := by
  cases fuel with
  | zero => rfl
  | succ fuel => rw [parseItems, parseItems, skipSpace_idem]

theorem parseEntries_skip (fuel depth : ℕ) (keys : List JsString) (s : JsString) :
    parseEntries number fuel depth keys (skipSpace s) = parseEntries number fuel depth keys s := by
  cases fuel with
  | zero => rfl
  | succ fuel => rw [parseEntries, parseEntries, skipSpace_idem]

theorem parseValue_open (fuel depth : ℕ) (s : JsString) (hdepth : depth < maxJsonDepth) (hs : ∀ rest, skipSpace s ≠ 93 :: rest) :
    parseValue number (fuel + 1) depth (91 :: s) = (parseItems number fuel depth s).map fun p => (.array p.1, p.2) := by
  unfold parseValue
  rw [if_neg (by decide), if_pos rfl, if_neg (not_le.mpr hdepth)]
  split
  · rename_i rest heq
    exact absurd heq (hs rest)
  · rw [parseItems_skip]

theorem parseValue_brace (fuel depth : ℕ) (s : JsString) (hdepth : depth < maxJsonDepth)
    (hs : ∀ rest, skipSpace s ≠ 125 :: rest) :
    parseValue number (fuel + 1) depth (123 :: s) = (parseEntries number fuel depth [] s).map fun p => (.object p.1, p.2) := by
  unfold parseValue
  rw [if_neg (by decide), if_neg (by decide), if_pos rfl, if_neg (not_le.mpr hdepth)]
  split
  · rename_i rest heq
    exact absurd heq (hs rest)
  · rw [parseEntries_skip]

theorem SpellsItems.open {vs : List (Json N)} {body : JsString} (h : SpellsItems number vs body) (rest after : JsString) :
    Kernel.skipSpace (body ++ rest) ≠ 93 :: after := by
  cases h with
  | last hbefore hv _ =>
    obtain ⟨c, tail, rfl, hc, h93, -⟩ := hv.head
    rw [List.append_assoc, List.append_assoc, List.cons_append, skipSpace_behind _ c _ hbefore hc]
    exact fun heq => h93 (List.cons.inj heq).1
  | cons hbefore hv _ _ =>
    obtain ⟨c, tail, rfl, hc, h93, -⟩ := hv.head
    rw [List.append_assoc, List.append_assoc, List.cons_append, skipSpace_behind _ c _ hbefore hc]
    exact fun heq => h93 (List.cons.inj heq).1

theorem SpellsEntries.open {vs : List (JsString × Json N)} {body : JsString} (h : SpellsEntries number vs body)
    (rest after : JsString) : Kernel.skipSpace (body ++ rest) ≠ 125 :: after := by
  cases h with
  | last hbefore _ _ _ _ _ =>
    rw [List.append_assoc, List.cons_append, skipSpace_behind _ 34 _ hbefore (by decide)]
    exact fun heq => absurd (List.cons.inj heq).1 (by decide)
  | cons hbefore _ _ _ _ _ _ =>
    rw [List.append_assoc, List.cons_append, skipSpace_behind _ 34 _ hbefore (by decide)]
    exact fun heq => absurd (List.cons.inj heq).1 (by decide)

theorem Fits.depth_lt {depth : ℕ} {items : List (Json N)} (h : Fits depth (.array items)) : depth < maxJsonDepth := by
  have hmax := h.nesting
  rw [Contracts.nesting] at hmax
  omega

theorem Fits.depth_lt_object {depth : ℕ} {entries : List (JsString × Json N)} (h : Fits depth (.object entries)) :
    depth < maxJsonDepth := by
  have hmax := h.nesting
  rw [Contracts.nesting] at hmax
  omega

theorem parseValue_complete (fuel : ℕ) (ih : CompleteAt number fuel) (depth : ℕ) (v : Json N) (text rest : JsString)
    (h : Spells number v text) (hfits : Fits depth v) (hkeys : KeysDistinct v) (hwell : wellFormed (text ++ rest) = true)
    (hrest : Ends rest) (hfuel : 2 * text.length ≤ fuel + 1) :
    parseValue number (fuel + 1) depth (text ++ rest) = .ok (v, false, rest) := by
  cases h with
  | null => exact parseLiteral_append "null" .null rest
  | isTrue => exact parseLiteral_append "true" (.boolean true) rest
  | isFalse => exact parseLiteral_append "false" (.boolean false) rest
  | number hs hx => exact parseValue_number fuel depth text _ rest hs hx hrest
  | @string body t h =>
    obtain ⟨hfitsWell, hlength⟩ := hfits.texts t (List.mem_singleton_self t)
    simp only [List.cons_append, List.append_assoc, List.nil_append] at hwell ⊢
    rw [wellFormed_cons 34 _ (by decide)] at hwell
    have hscan := scanBoundedJsonString_complete body t rest h hfitsWell hwell hlength
    rw [parseValue, if_pos rfl, hscan]
    rfl
  | @emptyArray blank h =>
    simp only [List.cons_append, List.append_assoc, List.nil_append]
    rw [parseValue, if_neg (by decide), if_pos rfl, if_neg (not_le.mpr hfits.depth_lt),
      skipSpace_behind blank 93 rest h (by decide)]
    rfl
  | @array items body h =>
    simp only [List.cons_append, List.append_assoc, List.nil_append] at hwell ⊢
    simp only [List.length_cons, List.length_append, List.length_nil] at hfuel
    rw [wellFormed_cons 91 _ (by decide)] at hwell
    have hread := ih.items depth items body rest h (fits_array.mp hfits) hkeys hwell (by omega)
    rw [parseValue_open fuel depth _ hfits.depth_lt fun _ => h.open _ _, hread]
    rfl
  | @emptyObject blank h =>
    simp only [List.cons_append, List.append_assoc, List.nil_append]
    rw [parseValue, if_neg (by decide), if_neg (by decide), if_pos rfl, if_neg (not_le.mpr hfits.depth_lt_object),
      skipSpace_behind blank 125 rest h (by decide)]
    rfl
  | @object entries body h =>
    simp only [List.cons_append, List.append_assoc, List.nil_append] at hwell ⊢
    simp only [List.length_cons, List.length_append, List.length_nil] at hfuel
    rw [wellFormed_cons 123 _ (by decide)] at hwell
    have hread := ih.entries depth [] entries body rest h (fits_object.mp hfits) ((freshKeys_nil entries).mpr hkeys.1) hkeys.2
      hwell (by omega)
    rw [parseValue_brace fuel depth _ hfits.depth_lt_object fun _ => h.open _ _, hread]
    rfl

theorem parse_complete (fuel : ℕ) : CompleteAt number fuel := by
  induction fuel with
  | zero =>
    refine ⟨fun depth v text rest h _ _ _ _ hfuel => ?_, fun _ _ _ _ _ _ _ _ hfuel => absurd hfuel (by omega),
      fun _ _ _ _ _ _ _ _ _ _ hfuel => absurd hfuel (by omega)⟩
    obtain ⟨c, tail, rfl, -⟩ := h.head
    simp only [List.length_cons] at hfuel
    omega
  | succ fuel ih => exact ⟨parseValue_complete fuel ih, parseItems_complete fuel ih, parseEntries_complete fuel ih⟩

end MoeNG.Contracts
