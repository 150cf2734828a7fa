import MoeNG.Scope.Status

/-!
# What a status output says

Records, their NUL-terminated form, and the manifests that the parser makes of
it. An output that is cut inside a record is refused.
-/

namespace MoeNG.Scope
open MoeNG.Kernel MoeNG.Lib

/-! ### Records -/

def Plain (s : JsString) : Prop := wellFormed s = true ∧ 0 ∉ s

/-- A path may hold spaces and tabs, and look like a record. -/
structure Path where
  text : JsString
  plain : Plain text
  nonempty : text ≠ []

structure Word where
  text : JsString
  plain : Plain text
  spaceless : 32 ∉ text

structure XY where
  x : CodeUnit
  y : CodeUnit
  plain : Plain [x, y]
  spaceless : 32 ∉ [x, y]

/-- The fields between the XY and the path. -/
structure Words (n : ℕ) where
  words : List Word
  size : words.length = n

inductive Record where
  | header (text : JsString) (plain : Plain text)
  | ordinary (xy : XY) (fields : Words 6) (path : Path)
  | rename (xy : XY) (fields : Words 7) (path origin : Path)
  | unmerged (xy : XY) (fields : Words 8) (path : Path)
  | untracked (path : Path)
  | ignored (path : Path)

def entry (tag : String) (xy : XY) (fields : List Word) (path : Path) : JsString :=
  lit tag ++ (terminated 32 ([xy.x, xy.y] :: fields.map Word.text) ++ path.text)

def Record.tokens : Record → List JsString
  | header text _ => [lit "# " ++ text]
  | ordinary xy fields path => [entry "1 " xy fields.words path]
  | rename xy fields path origin => [entry "2 " xy fields.words path, origin.text]
  | unmerged xy fields path => [entry "u " xy fields.words path]
  | untracked path => [lit "? " ++ path.text]
  | ignored path => [lit "! " ++ path.text]

def text (records : List Record) : JsString := terminated 0 (records.flatMap Record.tokens)

def render (records : List Record) : List Byte := utf8 (text records)

/-! ### What records report -/

/-- The XY of a changed entry, and the paths it stands for. -/
def Record.changed : Record → Option (XY × List Path)
  | ordinary xy _ path => some (xy, [path])
  | rename xy _ path origin => some (xy, [path, origin])
  | _ => none

def Record.Changes (claim : XY → Prop) (record : Record) (path : JsString) : Prop :=
  ∃ xy paths, record.changed = some (xy, paths) ∧ claim xy ∧ path ∈ paths.map Path.text

def Record.Unmerges : Record → JsString → Prop
  | unmerged _ _ p, path => p.text = path
  | _, _ => False

def Record.Untracks : Record → JsString → Prop
  | untracked p, path => p.text = path
  | _, _ => False

def Record.Ignores : Record → JsString → Prop
  | ignored p, path => p.text = path
  | _, _ => False

/-- The sorted list of the paths with the property, each once. -/
def Listing (paths : List JsString) (P : JsString → Prop) : Prop := paths.Pairwise (· < ·) ∧ ∀ path, path ∈ paths ↔ P path

structure Reports (records : List Record) (manifests : GitStatusManifests) : Prop where
  dirty : Listing manifests.dirty fun path => ∃ record ∈ records, record.Changes (fun xy => xy.y ≠ 46) path
  staged : Listing manifests.staged fun path => ∃ record ∈ records, record.Changes (fun xy => xy.x ≠ 46) path
  contradictory : Listing manifests.contradictory fun path =>
    ∃ record ∈ records, record.Changes (fun xy => xy.x = 46 ∧ xy.y = 46) path
  untracked : Listing manifests.untracked fun path => ∃ record ∈ records, record.Untracks path
  unmerged : Listing manifests.unmerged fun path => ∃ record ∈ records, record.Unmerges path
  ignored : Listing manifests.ignored fun path => ∃ record ∈ records, record.Ignores path

/-! ### One record -/

theorem plain_append {s t : JsString} (hs : Plain s) (ht : Plain t) : Plain (s ++ t) :=
  ⟨wellFormed_append s t hs.1 ht.1, fun h => (List.mem_append.mp h).elim hs.2 ht.2⟩

theorem plain_terminated (words : List JsString) (h : ∀ word ∈ words, Plain word) : Plain (terminated 32 words) := by
  induction words with
  | nil => exact ⟨rfl, nofun⟩
  | cons word rest ih =>
    obtain ⟨hword, hrest⟩ := List.forall_mem_cons.mp h
    rw [terminated_cons]
    refine plain_append hword ?_
    rw [← List.singleton_append]
    exact plain_append (by exact ⟨rfl, by decide⟩) (ih hrest)

theorem plain_entry (tag : String) (htag : Plain (lit tag)) (xy : XY) (fields : List Word) (path : Path) :
    Plain (entry tag xy fields path) := by
  refine plain_append htag (plain_append (plain_terminated _ ?_) path.plain)
  refine List.forall_mem_cons.mpr ⟨xy.plain, fun word hword => ?_⟩
  obtain ⟨field, -, rfl⟩ := List.mem_map.mp hword
  exact field.plain

theorem Record.tokens_plain (record : Record) : ∀ token ∈ record.tokens, Plain token := by
  cases record with
  | header text plain => exact List.forall_mem_singleton.mpr (plain_append ⟨by decide, by decide⟩ plain)
  | ordinary xy fields path => exact List.forall_mem_singleton.mpr (plain_entry "1 " ⟨by decide, by decide⟩ xy fields.words path)
  | rename xy fields path origin =>
    exact List.forall_mem_cons.mpr
      ⟨plain_entry "2 " ⟨by decide, by decide⟩ xy fields.words path, List.forall_mem_singleton.mpr origin.plain⟩
  | unmerged xy fields path => exact List.forall_mem_singleton.mpr (plain_entry "u " ⟨by decide, by decide⟩ xy fields.words path)
  | untracked path => exact List.forall_mem_singleton.mpr (plain_append ⟨by decide, by decide⟩ path.plain)
  | ignored path => exact List.forall_mem_singleton.mpr (plain_append ⟨by decide, by decide⟩ path.plain)

theorem fieldsAfter_entry (tag : String) (htag : (lit tag).length = 2) (xy : XY) (fields : List Word) (path : Path) (count : ℕ)
    (hcount : fields.length + 1 = count) :
    fieldsAfter (entry tag xy fields path) count = some ([xy.x, xy.y], path.text) := by
  have hwords : ∀ word ∈ [xy.x, xy.y] :: fields.map Word.text, 32 ∉ word := by
    refine List.forall_mem_cons.mpr ⟨xy.spaceless, fun word hword => ?_⟩
    obtain ⟨field, -, rfl⟩ := List.mem_map.mp hword
    exact field.spaceless
  have hdrop : (entry tag xy fields path).drop 2 = terminated 32 ([xy.x, xy.y] :: fields.map Word.text) ++ path.text := by
    rw [entry, ← htag, List.drop_left]
  have hparts := splitOn_terminated_append 32 _ path.text hwords
  have hfront : ([xy.x, xy.y] :: fields.map Word.text).length = count := by
    rw [List.length_cons, List.length_map, hcount]
  have hpath : 0 < (path.text.splitOn 32).length := List.length_pos_iff.mpr (List.splitOn_ne_nil 32 path.text)
  have hlength : ¬ (([xy.x, xy.y] :: fields.map Word.text) ++ path.text.splitOn 32).length ≤ count := by
    rw [List.length_append, hfront]
    omega
  unfold fieldsAfter
  rw [hdrop, hparts]
  show (if (decide ([xy.x, xy.y].length ≠ 2) || decide (_ ≤ count)) = true then _ else _) = _
  rw [decide_eq_false hlength, if_neg (by simp)]
  rw [← hfront, List.drop_left, List.intercalate_splitOn]

/-! ### Tags -/

theorem startsWith_self {tag : String} {token : JsString} (h : lit tag <+: token) : startsWith token tag = true :=
  List.isPrefixOf_iff_prefix.mpr h

theorem startsWith_other {tag : String} {token : JsString} (h : lit tag <+: token) (other : String)
    (hlength : (lit other).length = (lit tag).length) (hne : lit other ≠ lit tag) : ¬ startsWith token other = true := by
  intro hother
  have hfronts := List.prefix_of_prefix_length_le (List.isPrefixOf_iff_prefix.mp hother) h (le_of_eq hlength)
  exact hne (hfronts.eq_of_length hlength)

theorem tagged_length {tag : String} {token : JsString} (h : lit tag <+: token) (hpos : 0 < (lit tag).length) :
    ¬ token.length = 0 := by
  have hle := h.length_le
  omega

theorem entry_tag (tag : String) (xy : XY) (fields : List Word) (path : Path) : lit tag <+: entry tag xy fields path :=
  List.prefix_append ..

/-- What the parser adds for a record. -/
def put (buckets : Buckets) : Record → Buckets
  | .header _ _ => buckets
  | .ordinary xy _ path => classifyXy [xy.x, xy.y] [path.text] buckets
  | .rename xy _ path origin => classifyXy [xy.x, xy.y] [path.text, origin.text] buckets
  | .unmerged _ _ path => { buckets with unmerged := buckets.unmerged ++ [path.text] }
  | .untracked path => { buckets with untracked := buckets.untracked ++ [path.text] }
  | .ignored path => { buckets with ignored := buckets.ignored ++ [path.text] }

theorem parseTokens_record (record : Record) (rest : List JsString) (buckets : Buckets) :
    parseTokens (record.tokens ++ rest) buckets = parseTokens rest (put buckets record) := by
  cases record with
  | header text plain =>
    have htag : lit "# " <+: lit "# " ++ text := List.prefix_append ..
    show parseTokens ((lit "# " ++ text) :: rest) buckets = _
    rw [parseTokens.eq_def]
    dsimp only
    rw [if_neg (tagged_length htag (by decide)), if_pos (startsWith_self htag)]
    rfl
  | ordinary xy fields path =>
    have htag := entry_tag "1 " xy fields.words path
    show parseTokens (entry "1 " xy fields.words path :: rest) buckets = _
    rw [parseTokens.eq_def]
    dsimp only
    rw [if_neg (tagged_length htag (by decide)), if_neg (startsWith_other htag "# " rfl (by decide)),
      if_neg (startsWith_other htag "? " rfl (by decide)), if_neg (startsWith_other htag "! " rfl (by decide)),
      if_pos (startsWith_self htag),
      fieldsAfter_entry "1 " rfl xy fields.words path ORDINARY_FIELDS (by rw [fields.size]; rfl)]
    rfl
  | rename xy fields path origin =>
    have horigin : ¬ origin.text.length = 0 := fun h => origin.nonempty (List.length_eq_zero_iff.mp h)
    have htag := entry_tag "2 " xy fields.words path
    show parseTokens (entry "2 " xy fields.words path :: origin.text :: rest) buckets = _
    rw [parseTokens.eq_def]
    dsimp only
    rw [if_neg (tagged_length htag (by decide)), if_neg (startsWith_other htag "# " rfl (by decide)),
      if_neg (startsWith_other htag "? " rfl (by decide)), if_neg (startsWith_other htag "! " rfl (by decide)),
      if_neg (startsWith_other htag "1 " rfl (by decide)), if_pos (startsWith_self htag),
      fieldsAfter_entry "2 " rfl xy fields.words path RENAME_FIELDS (by rw [fields.size]; rfl)]
    exact if_neg horigin
  | unmerged xy fields path =>
    have htag := entry_tag "u " xy fields.words path
    show parseTokens (entry "u " xy fields.words path :: rest) buckets = _
    rw [parseTokens.eq_def]
    dsimp only
    rw [if_neg (tagged_length htag (by decide)), if_neg (startsWith_other htag "# " rfl (by decide)),
      if_neg (startsWith_other htag "? " rfl (by decide)), if_neg (startsWith_other htag "! " rfl (by decide)),
      if_neg (startsWith_other htag "1 " rfl (by decide)), if_neg (startsWith_other htag "2 " rfl (by decide)),
      if_pos (startsWith_self htag),
      fieldsAfter_entry "u " rfl xy fields.words path UNMERGED_FIELDS (by rw [fields.size]; rfl)]
    rfl
  | untracked path =>
    have htag : lit "? " <+: lit "? " ++ path.text := List.prefix_append ..
    show parseTokens ((lit "? " ++ path.text) :: rest) buckets = _
    rw [parseTokens.eq_def]
    dsimp only
    rw [if_neg (tagged_length htag (by decide)), if_neg (startsWith_other htag "# " rfl (by decide)),
      if_pos (startsWith_self htag)]
    rfl
  | ignored path =>
    have htag : lit "! " <+: lit "! " ++ path.text := List.prefix_append ..
    show parseTokens ((lit "! " ++ path.text) :: rest) buckets = _
    rw [parseTokens.eq_def]
    dsimp only
    rw [if_neg (tagged_length htag (by decide)), if_neg (startsWith_other htag "# " rfl (by decide)),
      if_neg (startsWith_other htag "? " rfl (by decide)), if_pos (startsWith_self htag)]
    rfl

/-- The first half of a rename, without the other. -/
theorem parseTokens_half (xy : XY) (fields : Words 7) (path : Path) (buckets : Buckets) :
    ∃ failure, parseTokens [entry "2 " xy fields.words path] buckets = .error failure := by
  have htag := entry_tag "2 " xy fields.words path
  refine ⟨malformed (lit "malformed rename record: " ++ entry "2 " xy fields.words path), ?_⟩
  rw [parseTokens.eq_def]
  dsimp only
  rw [if_neg (tagged_length htag (by decide)), if_neg (startsWith_other htag "# " rfl (by decide)),
    if_neg (startsWith_other htag "? " rfl (by decide)), if_neg (startsWith_other htag "! " rfl (by decide)),
    if_neg (startsWith_other htag "1 " rfl (by decide)), if_pos (startsWith_self htag)]
  cases fieldsAfter (entry "2 " xy fields.words path) RENAME_FIELDS <;> rfl

/-! ### All records -/

variable (records : List Record)

theorem parseTokens_records (rest : List JsString) (buckets : Buckets) :
    parseTokens (records.flatMap Record.tokens ++ rest) buckets = parseTokens rest (records.foldl put buckets) := by
  induction records generalizing buckets with
  | nil => rfl
  | cons record more ih =>
    rw [List.flatMap_cons, List.append_assoc, parseTokens_record, ih]
    rfl

/-- The tokens of the records before a cut, and perhaps the first half of a rename. -/
inductive Cut (records : List Record) (tokens : List JsString) : Prop where
  | boundary (k : ℕ) (h : tokens = (records.take k).flatMap Record.tokens)
  | half (k : ℕ) (xy : XY) (fields : Words 7) (path : Path)
    (h : tokens = (records.take k).flatMap Record.tokens ++ [entry "2 " xy fields.words path])

theorem Cut.cons (record : Record) {records : List Record} {tokens : List JsString} (h : Cut records tokens) :
    Cut (record :: records) (record.tokens ++ tokens) := by
  cases h with
  | boundary k h =>
    subst h
    exact .boundary (k + 1) rfl
  | half k xy fields path h =>
    subst h
    refine .half (k + 1) xy fields path ?_
    rw [List.take_succ_cons, List.flatMap_cons, List.append_assoc]

theorem tokens_take (n : ℕ) : Cut records ((records.flatMap Record.tokens).take n) := by
  induction records generalizing n with
  | nil => exact .boundary 0 List.take_nil
  | cons record more ih =>
    by_cases hn : record.tokens.length ≤ n
    · obtain ⟨m, rfl⟩ := Nat.exists_eq_add_of_le hn
      rw [List.flatMap_cons, List.take_length_add_append]
      exact (ih m).cons record
    · rw [List.flatMap_cons, List.take_append_of_le_length (by omega)]
      obtain rfl | hpos := Nat.eq_zero_or_pos n
      · exact .boundary 0 rfl
      · cases record with
        | rename xy fields path origin =>
          have hone : n = 1 := by
            have hlength : (Record.rename xy fields path origin).tokens.length = 2 := rfl
            omega
          subst hone
          exact .half 0 xy fields path rfl
        | _ => exact absurd hpos (by simpa [Record.tokens] using hn)

/-! ### Buckets -/

/-- What a bucket holds of a record, for every record put. -/
theorem foldl_put (bucket : Buckets → List JsString) (P : Record → JsString → Prop)
    (hput : ∀ buckets record path, path ∈ bucket (put buckets record) ↔ path ∈ bucket buckets ∨ P record path)
    (records : List Record) (buckets : Buckets) (path : JsString) :
    path ∈ bucket (records.foldl put buckets) ↔ path ∈ bucket buckets ∨ ∃ record ∈ records, P record path := by
  induction records generalizing buckets with
  | nil => simp
  | cons record more ih =>
    rw [List.foldl_cons, ih, hput, or_assoc, List.exists_mem_cons_iff]

theorem listing_sortedUnique (values : List JsString) (P : JsString → Prop) (h : ∀ path, path ∈ values ↔ P path) :
    Listing (sortedUnique values) P := by
  constructor
  · have hsorted := List.pairwise_insertionSort (· ≤ ·) values.dedup
    have hnodup := (List.perm_insertionSort (· ≤ ·) values.dedup).nodup_iff.mpr values.nodup_dedup
    exact (hsorted.and hnodup).imp fun h => lt_of_le_of_ne h.1 h.2
  · intro path
    rw [sortedUnique, (List.perm_insertionSort _ _).mem_iff, List.mem_dedup]
    exact h path

theorem listing_put (bucket : Buckets → List JsString) (P : Record → JsString → Prop) (hempty : bucket emptyBuckets = [])
    (hput : ∀ buckets record path, path ∈ bucket (put buckets record) ↔ path ∈ bucket buckets ∨ P record path)
    (records : List Record) :
    Listing (sortedUnique (bucket (records.foldl put emptyBuckets))) fun path => ∃ record ∈ records, P record path := by
  refine listing_sortedUnique _ _ fun path => ?_
  rw [foldl_put bucket P hput, hempty]
  simp

theorem changes_ordinary (claim : XY → Prop) (xy : XY) (fields : Words 6) (p : Path) (path : JsString) :
    (Record.ordinary xy fields p).Changes claim path ↔ claim xy ∧ path ∈ [p.text] := by
  constructor
  · rintro ⟨_, _, h, hclaim, hpath⟩
    obtain ⟨rfl, rfl⟩ := Prod.mk.inj (Option.some.inj h)
    exact ⟨hclaim, hpath⟩
  · exact fun ⟨hclaim, hpath⟩ => ⟨xy, [p], rfl, hclaim, hpath⟩

theorem changes_rename (claim : XY → Prop) (xy : XY) (fields : Words 7) (p origin : Path) (path : JsString) :
    (Record.rename xy fields p origin).Changes claim path ↔ claim xy ∧ path ∈ [p.text, origin.text] := by
  constructor
  · rintro ⟨_, _, h, hclaim, hpath⟩
    obtain ⟨rfl, rfl⟩ := Prod.mk.inj (Option.some.inj h)
    exact ⟨hclaim, hpath⟩
  · exact fun ⟨hclaim, hpath⟩ => ⟨xy, [p, origin], rfl, hclaim, hpath⟩

theorem changes_other (claim : XY → Prop) (record : Record) (h : record.changed = none) (path : JsString) :
    ¬ record.Changes claim path := by
  rintro ⟨_, _, hsome, -⟩
  rw [h] at hsome
  cases hsome

theorem mem_if (claim : Prop) [Decidable claim] (paths more : List JsString) (path : JsString) :
    path ∈ (if claim then paths ++ more else paths) ↔ path ∈ paths ∨ claim ∧ path ∈ more := by
  split <;> simp_all

/-- A bucket that `classifyXy` adds to under a claim, and nothing else does. -/
theorem put_changes (bucket : Buckets → List JsString) (claim : XY → Prop) [DecidablePred claim]
    (hclassify : ∀ xy paths buckets, bucket (classifyXy [xy.x, xy.y] paths buckets)
      = if claim xy then bucket buckets ++ paths else bucket buckets)
    (hother : ∀ buckets record, record.changed = none → bucket (put buckets record) = bucket buckets)
    (buckets : Buckets) (record : Record) (path : JsString) :
    path ∈ bucket (put buckets record) ↔ path ∈ bucket buckets ∨ record.Changes claim path := by
  cases record with
  | ordinary xy fields p => rw [put, hclassify, mem_if, changes_ordinary]
  | rename xy fields p origin => rw [put, hclassify, mem_if, changes_rename]
  | header text plain => rw [hother _ _ rfl, or_iff_left (changes_other claim _ rfl path)]
  | unmerged xy fields p => rw [hother _ _ rfl, or_iff_left (changes_other claim _ rfl path)]
  | untracked p => rw [hother _ _ rfl, or_iff_left (changes_other claim _ rfl path)]
  | ignored p => rw [hother _ _ rfl, or_iff_left (changes_other claim _ rfl path)]

theorem reports_put : Reports records (freezeManifests (records.foldl put emptyBuckets)) where
  dirty := listing_put GitStatusManifests.dirty _ rfl (put_changes _ _ (fun xy paths buckets => by simp [classifyXy])
    fun buckets record h => by cases record <;> first | rfl | cases h) records
  staged := listing_put GitStatusManifests.staged _ rfl (put_changes _ _ (fun xy paths buckets => by simp [classifyXy])
    fun buckets record h => by cases record <;> first | rfl | cases h) records
  contradictory := listing_put GitStatusManifests.contradictory _ rfl (put_changes _ _
    (fun xy paths buckets => by simp [classifyXy]) fun buckets record h => by cases record <;> first | rfl | cases h) records
  untracked := listing_put GitStatusManifests.untracked Record.Untracks rfl (fun buckets record path => by
    cases record <;> simp [put, classifyXy, Record.Untracks, eq_comm]) records
  unmerged := listing_put GitStatusManifests.unmerged Record.Unmerges rfl (fun buckets record path => by
    cases record <;> simp [put, classifyXy, Record.Unmerges, eq_comm]) records
  ignored := listing_put GitStatusManifests.ignored Record.Ignores rfl (fun buckets record path => by
    cases record <;> simp [put, classifyXy, Record.Ignores, eq_comm]) records

/-! ### Bytes -/

theorem tokens_plain : ∀ token ∈ records.flatMap Record.tokens, Plain token := by
  intro token htoken
  obtain ⟨record, -, hrecord⟩ := List.mem_flatMap.mp htoken
  exact record.tokens_plain token hrecord

theorem tokens_free : ∀ token ∈ records.flatMap Record.tokens, 0 ∉ token :=
  fun token htoken => (tokens_plain records token htoken).2

theorem wellFormed_terminated (tokens : List JsString) (h : ∀ token ∈ tokens, Plain token) :
    wellFormed (terminated 0 tokens) = true := by
  induction tokens with
  | nil => rfl
  | cons token rest ih =>
    obtain ⟨htoken, hrest⟩ := List.forall_mem_cons.mp h
    rw [terminated_cons]
    refine wellFormed_append _ _ htoken.1 ?_
    rw [wellFormed_cons 0 _ (by decide)]
    exact ih hrest

theorem text_wellFormed : wellFormed (text records) = true :=
  wellFormed_terminated _ (tokens_plain records)

theorem tokens_head (record : Record) : ∃ c rest more, record.tokens = (c :: rest) :: more ∧ c.val < 0x80 := by
  cases record with
  | header text plain => exact ⟨35, _, _, rfl, by decide⟩
  | ordinary xy fields path => exact ⟨49, _, _, rfl, by decide⟩
  | rename xy fields path origin => exact ⟨50, _, _, rfl, by decide⟩
  | unmerged xy fields path => exact ⟨117, _, _, rfl, by decide⟩
  | untracked path => exact ⟨63, _, _, rfl, by decide⟩
  | ignored path => exact ⟨33, _, _, rfl, by decide⟩

/-- No output begins with a byte order mark. -/
theorem decode_front (bytes : List Byte) (h : bytes <+: render records) : decodeTextAfterMark bytes = decodeText bytes := by
  cases bytes with
  | nil => rfl
  | cons a tail =>
    cases records with
    | nil => exact absurd (List.prefix_nil.mp h) (List.cons_ne_nil _ _)
    | cons record more =>
      obtain ⟨c, rest, tokens, htokens, hc⟩ := tokens_head record
      have htext : text (record :: more) = c :: (rest ++ 0 :: terminated 0 (tokens ++ more.flatMap Record.tokens)) := by
        rw [text, List.flatMap_cons, htokens, List.cons_append, terminated_cons]
        rfl
      rw [render, htext, utf8_cons _ _ hc] at h
      obtain ⟨rfl, -⟩ := List.cons_prefix_cons.mp h
      exact decodeTextAfterMark_ascii _ _ (by rw [octet_val _ (by omega)]; exact hc)

theorem parsePorcelainV2_text (bytes : List Byte) (s : JsString) (h : decodeTextAfterMark bytes = some s) (hs : s ≠ [])
    (hend : s.getLast? = some 0) :
    parsePorcelainV2 bytes = (parseTokens (s.dropLast.splitOn 0) emptyBuckets).map freezeManifests := by
  unfold parsePorcelainV2
  rw [h]
  show (if _ then _ else _) = _
  rw [if_neg fun hlength => hs (List.length_eq_zero_iff.mp hlength), if_neg (not_not.mpr hend)]

theorem terminated_last (stop : CodeUnit) (tokens : List JsString) (h : tokens ≠ []) :
    terminated stop tokens ≠ [] ∧ (terminated stop tokens).getLast? = some stop := by
  obtain ⟨front, last, rfl⟩ := (List.eq_nil_or_concat tokens).resolve_left h
  rw [List.concat_eq_append, terminated_append, terminated_cons]
  refine ⟨by simp, ?_⟩
  show (terminated stop front ++ (last ++ [stop])).getLast? = some stop
  rw [← List.append_assoc, List.getLast?_concat]

theorem parsePorcelainV2_render :
    parsePorcelainV2 (render records) = .ok (freezeManifests (records.foldl put emptyBuckets)) := by
  have hdecode : decodeTextAfterMark (render records) = some (text records) :=
    (decode_front records _ (List.prefix_refl _)).trans ((decodeText_eq_some_iff _ _).mpr ⟨text_wellFormed records, rfl⟩)
  cases records with
  | nil => rfl
  | cons record more =>
    obtain ⟨c, rest, tokens, htokens, -⟩ := tokens_head record
    have hne : (record :: more).flatMap Record.tokens ≠ [] := by
      rw [List.flatMap_cons, htokens]
      exact List.cons_ne_nil _ _
    obtain ⟨htext, hend⟩ := terminated_last 0 _ hne
    have hparse := parseTokens_records (record :: more) [] emptyBuckets
    rw [List.append_nil] at hparse
    rw [parsePorcelainV2_text _ _ hdecode htext hend, text, splitOn_terminated 0 _ hne (tokens_free _), hparse]
    rfl

theorem render_truncated (bytes : List Byte) (h : bytes <+: render records)
    (hcut : ∀ k, bytes ≠ render (records.take k)) : ∃ failure, parsePorcelainV2 bytes = .error failure := by
  have hfront := decode_front records bytes h
  cases hdecode : decodeText bytes with
  | none =>
    rw [hdecode] at hfront
    exact ⟨malformed (lit "status output is not valid UTF-8"), by rw [parsePorcelainV2, hfront]⟩
  | some s =>
    obtain ⟨hwell, rfl⟩ := (decodeText_eq_some_iff _ _).mp hdecode
    rw [hdecode] at hfront
    have hfronts : s <+: text records := utf8_prefix _ _ (text_wellFormed records) hwell h
    by_cases hs : s = []
    · subst hs
      exact absurd rfl (hcut 0)
    · by_cases hend : s.getLast? = some 0
      · obtain ⟨n, rfl⟩ := terminated_cut 0 _ (tokens_free records) s hfronts (.inr hend)
        have hne : (records.flatMap Record.tokens).take n ≠ [] := by
          intro hnil
          rw [hnil] at hs
          exact hs rfl
        have hfree : ∀ token ∈ (records.flatMap Record.tokens).take n, 0 ∉ token :=
          fun token htoken => tokens_free records token (List.take_subset _ _ htoken)
        rw [parsePorcelainV2_text _ _ hfront hs hend, splitOn_terminated 0 _ hne hfree]
        cases tokens_take records n with
        | boundary k hk => exact absurd (by rw [hk]; rfl) (hcut k)
        | half k xy fields path hk =>
          rw [hk, parseTokens_records]
          obtain ⟨failure, hfailure⟩ := parseTokens_half xy fields path ((records.take k).foldl put emptyBuckets)
          exact ⟨failure, by rw [hfailure]; rfl⟩
      · refine ⟨malformed (lit "status output is not NUL-terminated"), ?_⟩
        unfold parsePorcelainV2
        rw [hfront]
        show (if _ then _ else _) = _
        rw [if_neg fun hlength => hs (List.length_eq_zero_iff.mp hlength), if_pos hend]

/-- A whole output says what its records report, and no output that is cut inside a record says anything. -/
theorem porcelain_exact : (∃ manifests, parsePorcelainV2 (render records) = .ok manifests ∧ Reports records manifests)
      ∧ ∀ bytes, bytes <+: render records → (∀ k, bytes ≠ render (records.take k)) →
        ∃ failure, parsePorcelainV2 bytes = .error failure :=
  ⟨⟨_, parsePorcelainV2_render records, reports_put records⟩, fun bytes => render_truncated records bytes⟩

def sampleFields : Words 7 := ⟨List.replicate 7 ⟨lit "0", ⟨by decide, by decide⟩, by decide⟩, rfl⟩

/-- A rename whose first path looks like another record. -/
def sampleRename : Record :=
  .rename ⟨82, 46, ⟨by decide, by decide⟩, by decide⟩ sampleFields ⟨lit "? new name", ⟨by decide, by decide⟩, by decide⟩
    ⟨lit "old", ⟨by decide, by decide⟩, by decide⟩

/-- The rename cut between its paths. -/
def sampleHalf : List Byte := (render [sampleRename]).take 30

theorem sampleHalf_refused : ∃ failure, parsePorcelainV2 sampleHalf = .error failure := by
  refine (porcelain_exact [sampleRename]).2 sampleHalf (List.take_prefix _ _) fun k => ?_
  cases k with
  | zero => decide +kernel
  | succ k =>
    rw [List.take_succ_cons, List.take_nil]
    decide +kernel

end MoeNG.Scope
