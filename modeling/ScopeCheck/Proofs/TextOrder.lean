import Mathlib.Data.List.Sort
import Mathlib.Data.String.Basic
import ScopeCheck.Proofs.Keyed
import ScopeCheck.Scope

/-!
# The order of texts and of places

`textAtOrBefore` is the order of texts by code points. It is linear, so what is sorted by distinct
texts has one sorted form. Places are ordered by lines and then by characters, and ranges by their
starts and then by their ends; only equal ones compare equal.
-/

namespace ScopeCheck

/-! ## Places -/

instance : Std.TransOrd Position :=
  inferInstanceAs
    (Std.TransCmp (compareLex (compareOn Position.line) (compareOn Position.character)))

instance : Std.LawfulEqOrd Position where
  eq_of_compare {left right} h := by
    have hparts := compareLex_eq_eq.mp h
    cases left
    cases right
    rw [Position.mk.injEq]
    exact ⟨Std.LawfulEqOrd.eq_of_compare hparts.1, Std.LawfulEqOrd.eq_of_compare hparts.2⟩

instance : Std.TransOrd Range :=
  inferInstanceAs (Std.TransCmp (compareLex (compareOn Range.start) (compareOn Range.stop)))

instance : Std.LawfulEqOrd Range where
  eq_of_compare {left right} h := by
    have hparts := compareLex_eq_eq.mp h
    cases left
    cases right
    rw [Range.mk.injEq]
    exact ⟨Std.LawfulEqOrd.eq_of_compare hparts.1, Std.LawfulEqOrd.eq_of_compare hparts.2⟩

namespace Position

/-- Positions are compared by line, then by character. -/
theorem compare_eq (left right : Position) :
    compare left right =
      (compare left.line right.line).then (compare left.character right.character) := rfl

/-- On one line, places are ordered by their characters. -/
theorem compare_on_line (line left right : Nat) :
    compare (⟨line, left⟩ : Position) ⟨line, right⟩ = compare left right := by
  rw [compare_eq, Nat.compare_eq_eq.mpr rfl]
  rfl

/-- A position is at or before another on an earlier line, or on the same line no later. -/
theorem atOrBefore_iff {left right : Position} :
    left.atOrBefore right = true ↔
      left.line < right.line ∨ left.line = right.line ∧ left.character ≤ right.character := by
  rw [atOrBefore, compare_eq]
  rcases lt_trichotomy left.line right.line with hlt | heq | hgt
  · rw [Nat.compare_eq_lt.mpr hlt]
    exact iff_of_true rfl (Or.inl hlt)
  · rw [Nat.compare_eq_eq.mpr heq]
    simp [heq, Nat.isLE_compare]
  · rw [Nat.compare_eq_gt.mpr hgt]
    exact iff_of_false Bool.false_ne_true (by omega)

end Position

/-! ## Texts -/

/-- The order of texts is that of the library. -/
theorem textAtOrBefore_iff {left right : String} :
    textAtOrBefore left right = true ↔ left ≤ right := by
  change (compareOfLessAndEq left right).isLE = true ↔ _
  unfold compareOfLessAndEq
  split_ifs with hlt heq
  · exact iff_of_true rfl hlt.le
  · exact iff_of_true rfl heq.le
  · refine iff_of_false (by decide) fun hle => ?_
    rcases hle.lt_or_eq with h | h
    · exact hlt h
    · exact heq h

/-- The order of texts is transitive. -/
theorem textAtOrBefore_trans (a b c : String) (hab : textAtOrBefore a b)
    (hbc : textAtOrBefore b c) : textAtOrBefore a c :=
  textAtOrBefore_iff.mpr ((textAtOrBefore_iff.mp hab).trans (textAtOrBefore_iff.mp hbc))

/-- Any two texts are in order one way or the other. -/
theorem textAtOrBefore_total (a b : String) :
    (textAtOrBefore a b || textAtOrBefore b a) = true := by
  rw [Bool.or_eq_true, textAtOrBefore_iff, textAtOrBefore_iff]
  exact le_total a b

/-- Texts that are in order both ways are equal. -/
theorem textAtOrBefore_antisymm (a b : String) (hab : textAtOrBefore a b)
    (hba : textAtOrBefore b a) : a = b :=
  le_antisymm (textAtOrBefore_iff.mp hab) (textAtOrBefore_iff.mp hba)

/-- Sorting by text depends on the lookups of a map only. -/
theorem Keyed.sorted_text_congr {ν : Type} {left right : Keyed String ν}
    (hget : ∀ key, left.get? key = right.get? key) :
    left.sorted textAtOrBefore = right.sorted textAtOrBefore :=
  Keyed.sorted_congr textAtOrBefore_trans textAtOrBefore_total textAtOrBefore_antisymm hget

/-- The keys of a map that is sorted by text ascend. -/
theorem Keyed.keys_sorted_text {ν : Type} (map : Keyed String ν) :
    (map.sorted textAtOrBefore).keys.Pairwise (· < ·) := by
  have hle := Keyed.pairwise_keys_sorted textAtOrBefore_trans textAtOrBefore_total map
  have hne : (map.sorted textAtOrBefore).keys.Pairwise (· ≠ ·) := (map.sorted textAtOrBefore).nodup
  refine (hle.and hne).imp fun {left right} h => ?_
  exact lt_of_le_of_ne (textAtOrBefore_iff.mp h.1) h.2

section SortBy

variable {α : Type} (key : α → String)

/-- Entries that are sorted by a text are in the order of these texts. -/
theorem pairwise_sort_by (list : List α) :
    (list.mergeSort fun a b => textAtOrBefore (key a) (key b)).Pairwise
      fun a b => textAtOrBefore (key a) (key b) :=
  List.pairwise_mergeSort (fun a b c => textAtOrBefore_trans (key a) (key b) (key c))
    (fun a b => textAtOrBefore_total (key a) (key b)) list

/-- What has distinct texts has one order by text. -/
theorem sort_by_congr {left right : List α} (hperm : left.Perm right)
    (hnodup : (left.map key).Nodup) :
    (left.mergeSort fun a b => textAtOrBefore (key a) (key b)) =
      right.mergeSort fun a b => textAtOrBefore (key a) (key b) := by
  have hleft := List.mergeSort_perm left fun a b => textAtOrBefore (key a) (key b)
  have hright := List.mergeSort_perm right fun a b => textAtOrBefore (key a) (key b)
  refine (hleft.trans (hperm.trans hright.symm)).eq_of_pairwise ?_
    (pairwise_sort_by key left) (pairwise_sort_by key right)
  intro a b ha hb hab hba
  exact List.inj_on_of_nodup_map hnodup (hleft.mem_iff.mp ha)
    (hperm.mem_iff.mpr (hright.mem_iff.mp hb)) (textAtOrBefore_antisymm (key a) (key b) hab hba)

end SortBy

end ScopeCheck
