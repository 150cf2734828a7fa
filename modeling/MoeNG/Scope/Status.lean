import MoeNG.Kernel.Utf8Decode
import MoeNG.Lib.Run

/-!
# Parsing `status --porcelain=v2 -z` (`packages/runner/src/scope/scope-attribution.ts:1-129`)

The status of a worktree as six sorted lists of paths, read from records that
end in a NUL each.
-/

namespace MoeNG.Scope
open MoeNG.Kernel MoeNG.Lib

/-! ### Failures (`packages/runner/src/scope/scope-contract.ts:14-37, 183-196`) -/

inductive RunnerScopeErrorCode where
  | RUNNER_SCOPE_STATUS_MALFORMED
  deriving DecidableEq

structure ScopeFailure where
  code : RunnerScopeErrorCode
  message : JsString
  path : Option JsString
  deriving DecidableEq

def malformed (message : JsString) : ScopeFailure := ⟨.RUNNER_SCOPE_STATUS_MALFORMED, message, none⟩

/-! ### Manifests (`scope-attribution.ts:7-17, 110-129`) -/

/-- `contradictory` holds the paths of changed entries whose XY claims no change. -/
structure GitStatusManifests where
  dirty : List JsString
  staged : List JsString
  untracked : List JsString
  unmerged : List JsString
  contradictory : List JsString
  ignored : List JsString
  deriving DecidableEq

abbrev Buckets := GitStatusManifests

def emptyBuckets : Buckets := ⟨[], [], [], [], [], []⟩

def sortedUnique (values : List JsString) : List JsString := values.dedup.insertionSort (· ≤ ·)

def freezeManifests (buckets : Buckets) : GitStatusManifests where
  dirty := sortedUnique buckets.dirty
  staged := sortedUnique buckets.staged
  untracked := sortedUnique buckets.untracked
  unmerged := sortedUnique buckets.unmerged
  contradictory := sortedUnique buckets.contradictory
  ignored := sortedUnique buckets.ignored

/-! ### Records (`scope-attribution.ts:19-43`) -/

def ORDINARY_FIELDS : ℕ := 7
def RENAME_FIELDS : ℕ := 8
def UNMERGED_FIELDS : ℕ := 9

/-- The XY and the path of a record, which stands behind `count` fields. -/
def fieldsAfter (record : JsString) (count : ℕ) : Option (JsString × JsString) :=
  let parts := (record.drop 2).splitOn 32
  match parts with
  | [] => none
  | xy :: _ =>
    if xy.length ≠ 2 || parts.length ≤ count then none
    else some (xy, [(32 : CodeUnit)].intercalate (parts.drop count))

def classifyXy (xy : JsString) (paths : List JsString) (buckets : Buckets) : Buckets :=
  let staged := xy[0]? ≠ some 46
  let dirty := xy[1]? ≠ some 46
  { buckets with
    staged := if staged then buckets.staged ++ paths else buckets.staged
    dirty := if dirty then buckets.dirty ++ paths else buckets.dirty
    contradictory := if ¬ staged ∧ ¬ dirty then buckets.contradictory ++ paths else buckets.contradictory }

/-! ### The parser (`scope-attribution.ts:53-108`) -/

def startsWith (token : JsString) (tag : String) : Bool := (lit tag).isPrefixOf token

def parseTokens : List JsString → Buckets → Except ScopeFailure Buckets
  | [], buckets => .ok buckets
  | token :: rest, buckets =>
    if token.length = 0 then .error (malformed (lit "status output contains an empty record"))
    else if startsWith token "# " then parseTokens rest buckets
    else if startsWith token "? " then parseTokens rest { buckets with untracked := buckets.untracked ++ [token.drop 2] }
    else if startsWith token "! " then parseTokens rest { buckets with ignored := buckets.ignored ++ [token.drop 2] }
    else if startsWith token "1 " then
      match fieldsAfter token ORDINARY_FIELDS with
      | none => .error (malformed (lit "malformed ordinary record: " ++ token))
      | some (xy, path) => parseTokens rest (classifyXy xy [path] buckets)
    else if startsWith token "2 " then
      match fieldsAfter token RENAME_FIELDS, rest with
      | some (xy, path), origin :: rest =>
        if origin.length = 0 then .error (malformed (lit "malformed rename record: " ++ token))
        else parseTokens rest (classifyXy xy [path, origin] buckets)
      | _, _ => .error (malformed (lit "malformed rename record: " ++ token))
    else if startsWith token "u " then
      match fieldsAfter token UNMERGED_FIELDS with
      | none => .error (malformed (lit "malformed unmerged record: " ++ token))
      | some (_, path) => parseTokens rest { buckets with unmerged := buckets.unmerged ++ [path] }
    else .error (malformed (lit "unknown record type: " ++ token))

def parsePorcelainV2 (bytes : List Byte) : Except ScopeFailure GitStatusManifests :=
  match decodeTextAfterMark bytes with
  | none => .error (malformed (lit "status output is not valid UTF-8"))
  | some text =>
    if text.length = 0 then .ok (freezeManifests emptyBuckets)
    else if text.getLast? ≠ some 0 then .error (malformed (lit "status output is not NUL-terminated"))
    else (parseTokens (text.dropLast.splitOn 0) emptyBuckets).map freezeManifests

example : parsePorcelainV2 (utf8 (lit "1 M. N... 100644 100644 100644 a b src/a b.ts" ++ [0] ++ lit "? 1 x" ++ [0]))
    = .ok { emptyBuckets with staged := [lit "src/a b.ts"], untracked := [lit "1 x"] } := by decide +kernel

end MoeNG.Scope
