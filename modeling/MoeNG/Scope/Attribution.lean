import MoeNG.Scope.Status
import MoeNG.Lib.OrdMap

/-!
# Attribution of declared paths (`packages/runner/src/scope/scope-attribution.ts:131-237`)

One class for each path that git reported, and the class of a path that a
declaration names.
-/

namespace MoeNG.Scope
open MoeNG.Kernel MoeNG.Lib

/-! ### Classes (`packages/runner/src/scope/scope-contract.ts:41-57`) -/

inductive ScopeAttributionClass where
  | UNKNOWN
  | UNMERGED
  | UNTRACKED
  | STAGED
  | DIRTY
  | IGNORED
  | CLEAN
  | ABSENT
  deriving DecidableEq

def RANK : ScopeAttributionClass → ℕ
  | .UNKNOWN => 0
  | .UNMERGED => 1
  | .UNTRACKED => 2
  | .STAGED => 3
  | .DIRTY => 4
  | .IGNORED => 5
  | .CLEAN => 6
  | .ABSENT => 7

def REASON : ScopeAttributionClass → String
  | .UNKNOWN => "git reported the path but its status record contradicts itself"
  | .UNMERGED => "git reports an unmerged index entry"
  | .UNTRACKED => "git reports the path as untracked"
  | .STAGED => "git reports an index change against HEAD"
  | .DIRTY => "git reports a worktree change against the index"
  | .IGNORED => "git reports the path as ignored"
  | .CLEAN => "git tracks the path and reports no change"
  | .ABSENT => "no git query reported the path"

/-! ### Sorted paths (`scope-attribution.ts:153-167`) -/

/-- The loop between `low` and `high`, which `fuel` halvings close. -/
def lowerBoundFrom (sorted : List JsString) (target : JsString) : ℕ → ℕ → ℕ → ℕ
  | 0, low, _ => low
  | fuel + 1, low, high =>
    if low < high then
      let middle := (low + high) / 2
      if sorted.getD middle [] < target then lowerBoundFrom sorted target fuel (middle + 1) high
      else lowerBoundFrom sorted target fuel low middle
    else low

/-- Index of the first entry that is not less than `target`. -/
def lowerBound (sorted : List JsString) (target : JsString) : ℕ :=
  lowerBoundFrom sorted target sorted.length 0 sorted.length

/-! ### The index (`scope-attribution.ts:180-237`) -/

abbrev Known := OrdMap JsString ScopeAttributionClass

def assign (known : Known) (path : JsString) (attribution : ScopeAttributionClass) : Known :=
  match known.get path with
  | none => known.set path attribution
  | some current => if RANK attribution < RANK current then known.set path attribution else known

def assignAll (attribution : ScopeAttributionClass) (known : Known) (paths : List JsString) : Known :=
  paths.foldl (fun known path => assign known path attribution) known

def endsWithSlash (entry : JsString) : Bool := entry.getLast? = some 47

structure ScopeAttributionIndex where
  known : Known
  ignoredDirectories : List JsString
  sortedKnown : List JsString

/-- The entries in turn: a directory is kept without its slash, any other entry is ignored. -/
def readIgnored : List JsString → Known × List JsString → Known × List JsString
  | [], state => state
  | entry :: rest, (known, directories) =>
    if endsWithSlash entry then readIgnored rest (known, directories ++ [entry.dropLast])
    else readIgnored rest (assign known entry .IGNORED, directories)

def buildAttributionIndex (manifests : GitStatusManifests) (tracked ignored : List JsString) : ScopeAttributionIndex :=
  let (known, ignoredDirectories) := readIgnored (ignored ++ manifests.ignored) (OrdMap.empty, [])
  let known := assignAll .CLEAN known tracked
  let known := assignAll .DIRTY known manifests.dirty
  let known := assignAll .STAGED known manifests.staged
  let known := assignAll .UNTRACKED known manifests.untracked
  let known := assignAll .UNMERGED known manifests.unmerged
  let known := assignAll .UNKNOWN known manifests.contradictory
  ⟨known, ignoredDirectories, known.keys.insertionSort (· ≤ ·)⟩

/-- The strongest class of the paths in turn, up to the first without the prefix. -/
def strongestFrom (known : Known) (front : JsString) :
    List JsString → Option ScopeAttributionClass → Option ScopeAttributionClass
  | [], strongest => strongest
  | candidate :: rest, strongest =>
    if !front.isPrefixOf candidate then strongest
    else
      let attribution := (known.get candidate).getD .ABSENT
      match strongest with
      | none => strongestFrom known front rest (some attribution)
      | some current =>
        strongestFrom known front rest (if RANK attribution < RANK current then some attribution else strongest)

def strongestInSubtree (index : ScopeAttributionIndex) (path : JsString) : Option ScopeAttributionClass :=
  let front := path ++ [47]
  strongestFrom index.known front (index.sortedKnown.drop (lowerBound index.sortedKnown front)) none

structure Attribution where
  attribution : ScopeAttributionClass
  reason : String
  deriving DecidableEq

def attributed (attribution : ScopeAttributionClass) : Attribution := ⟨attribution, REASON attribution⟩

def classify (index : ScopeAttributionIndex) (path : JsString) : Attribution :=
  match (index.known.get path).or (strongestInSubtree index path) with
  | some exact => attributed exact
  | none =>
    let underIgnoredDirectory := index.ignoredDirectories.any fun directory =>
      path = directory || (directory ++ [47]).isPrefixOf path
    attributed (if underIgnoredDirectory then .IGNORED else .ABSENT)

end MoeNG.Scope
