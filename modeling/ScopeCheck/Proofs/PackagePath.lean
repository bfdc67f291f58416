import Mathlib.Data.List.Basic
import ScopeCheck.PackagePath
import ScopeCheck.Scope

/-!
# Keys of paths and lower case

A scope is kept under the lower case of its name, a file under its key, which has forward slashes
too. Turning slashes commutes with lower-casing (`pathKey_eq`), so texts with one lower case have
one key.
-/

namespace ScopeCheck

/-- A backslash turned forward; any other character as it is. -/
def forwardSlash (c : Char) : Char := if c = '\\' then '/' else c

/-- Slashes are turned character by character. -/
theorem forwardSlashes_eq (path : String) :
    forwardSlashes path = String.ofList (path.toList.map forwardSlash) := rfl

/-- Only backslashes are turned. -/
theorem forwardSlash_of_ne {c : Char} (hne : c ≠ '\\') : forwardSlash c = c := if_neg hne

namespace Text

/-! ## Slashes among the neighbours of a sigma -/

/-- Neither slash has a case. -/
theorem isCased_forwardSlash (c : Char) : isCased (forwardSlash c) = isCased c := by
  by_cases hc : c = '\\'
  · subst hc
    rfl
  · rw [forwardSlash_of_ne hc]

/-- Neither slash is looked through beside a sigma. -/
theorem isCaseIgnorable_forwardSlash (c : Char) :
    isCaseIgnorable (forwardSlash c) = isCaseIgnorable c := by
  by_cases hc : c = '\\'
  · subst hc
    decide +kernel
  · rw [forwardSlash_of_ne hc]

/-- So turning slashes does not change what a sigma meets. -/
theorem meetsCased_forwardSlash (neighbours : List Char) :
    meetsCased (neighbours.map forwardSlash) = meetsCased neighbours := by
  induction neighbours with
  | nil => rfl
  | cons c rest ih =>
    unfold meetsCased at ih ⊢
    rw [List.map_cons, List.dropWhile_cons, List.dropWhile_cons, isCaseIgnorable_forwardSlash]
    cases isCaseIgnorable c with
    | true => exact ih
    | false => exact isCased_forwardSlash c

/-! ## Slashes under lower-casing -/

/-- No run of capitals is shifted down to the backslash. This is checked run by run. -/
theorem shifted_above_backslash :
    ∀ run ∈ lowerRuns, ('\\'.toNat : Int) < run.first + run.shift := by
  decide +kernel

/-- No letter from A to Z has a backslash for its lower case. -/
theorem ascii_toLower_ne_backslash :
    ∀ code < 0x80, Char.ofNat code ≠ '\\' → (Char.ofNat code).toLower ≠ '\\' := by
  decide

/-- The code of a character is the one it was made from, if that is valid. -/
theorem toNat_ofNat (code : Nat) :
    (Char.ofNat code).toNat = if code.isValidChar then code else 0 := by
  by_cases hvalid : code.isValidChar
  · rw [Char.ofNat, dif_pos hvalid, if_pos hvalid]
    rfl
  · rw [Char.ofNat, dif_neg hvalid, if_neg hvalid]
    rfl

/-- No other character becomes a backslash in lower case. -/
theorem backslash_not_mem_lowerChar {c : Char} (hne : c ≠ '\\') : '\\' ∉ lowerChar c := by
  unfold lowerChar
  split
  · rename_i hascii
    rw [List.mem_singleton]
    have hlower := ascii_toLower_ne_backslash c.toNat hascii
    rw [Char.ofNat_toNat] at hlower
    exact (hlower hne).symm
  · split
    · decide
    · split
      · rename_i run hrun
        have hmem := List.mem_of_find?_eq_some hrun
        have hcovers := List.find?_some hrun
        simp only [CaseRun.covers, Bool.and_eq_true, decide_eq_true_eq] at hcovers
        have habove := shifted_above_backslash run hmem
        rw [List.mem_singleton]
        intro heq
        have hcode := toNat_ofNat (c.toNat + run.shift).toNat
        rw [← heq] at hcode
        have hbackslash : '\\'.toNat = 0x5C := rfl
        split at hcode <;> omega
      · rw [List.mem_singleton]
        exact Ne.symm hne

/-- A slash may be turned before or after lowering, since lowering makes no backslash. -/
theorem lowerChar_forwardSlash (c : Char) :
    lowerChar (forwardSlash c) = (lowerChar c).map forwardSlash := by
  by_cases hc : c = '\\'
  · subst hc
    rfl
  · rw [forwardSlash_of_ne hc]
    symm
    calc (lowerChar c).map forwardSlash = (lowerChar c).map id :=
          List.map_congr_left fun d hd => forwardSlash_of_ne fun heq =>
            backslash_not_mem_lowerChar hc (heq ▸ hd)
      _ = lowerChar c := List.map_id _

/-- Turning slashes makes no sigma. -/
theorem forwardSlash_eq_sigma_iff (c : Char) : forwardSlash c = 'Σ' ↔ c = 'Σ' := by
  by_cases hc : c = '\\'
  · subst hc
    decide
  · rw [forwardSlash_of_ne hc]

/-- Slashes can be turned before or after lower-casing. -/
theorem lowerChars_forwardSlash (before text : List Char) :
    lowerChars (before.map forwardSlash) (text.map forwardSlash) =
      (lowerChars before text).map forwardSlash := by
  induction text generalizing before with
  | nil => rfl
  | cons c rest ih =>
    have hrest := ih (c :: before)
    rw [List.map_cons] at hrest
    simp only [List.map_cons, lowerChars, List.map_append, hrest, forwardSlash_eq_sigma_iff,
      meetsCased_forwardSlash, lowerChar_forwardSlash]
    congr 1
    split
    · split <;> rfl
    · rfl

end Text

/-- The key of a path is its lower case with the slashes turned. -/
theorem pathKey_eq (path : String) : pathKey path = forwardSlashes (Text.lower path) := by
  rw [pathKey, Text.lower, forwardSlashes_eq, forwardSlashes_eq, Text.lower, String.toList_ofList,
    String.toList_ofList]
  exact congrArg String.ofList (Text.lowerChars_forwardSlash [] path.toList)

/-- Paths with one lower case have one key. -/
theorem pathKey_eq_of_lower_eq {left right : String} (hlower : Text.lower left = Text.lower right) :
    pathKey left = pathKey right := by
  rw [pathKey_eq, pathKey_eq, hlower]

/-- A path whose lower case is the name of the program scope has that name for its key. -/
theorem pathKey_eq_sourceScope {path : String} (hlower : Text.lower path = sourceScope) :
    pathKey path = sourceScope := by
  rw [pathKey_eq, hlower]
  decide

/-- The name of the program scope is in lower case. -/
theorem lower_sourceScope : Text.lower sourceScope = sourceScope := by
  rfl

/-- The name of the program scope is its own key. -/
theorem pathKey_sourceScope : pathKey sourceScope = sourceScope :=
  pathKey_eq_sourceScope lower_sourceScope

end ScopeCheck
