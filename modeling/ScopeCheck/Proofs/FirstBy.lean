import Mathlib.Data.List.Basic
import Mathlib.Data.List.Nodup

/-!
# The first of each kind

`firstBy key` keeps, of all members of a list with one key, the first. It is the order in which new
things are met: a member at the end is kept exactly if its key is new (`firstBy_append_singleton`),
and of two lists one after the other, the second keeps what the first does not have
(`firstBy_append`).
-/

namespace ScopeCheck

variable {α κ : Type} [DecidableEq κ]

/-- Of the members with one key, the first. -/
def firstBy (key : α → κ) : List α → List α
  | [] => []
  | first :: rest => first :: (firstBy key rest).filter fun other => key other ≠ key first

variable (key : α → κ)

/-- The first of each kind keep their order. -/
theorem firstBy_sublist (list : List α) : (firstBy key list).Sublist list := by
  induction list with
  | nil => exact List.Sublist.refl _
  | cons first rest ih => exact (List.filter_sublist.trans ih).cons_cons first

/-- No kind is lost. -/
theorem mem_map_firstBy {list : List α} {wanted : κ} :
    wanted ∈ (firstBy key list).map key ↔ wanted ∈ list.map key := by
  refine ⟨fun h => ((firstBy_sublist key list).map key).subset h, fun h => ?_⟩
  induction list with
  | nil => exact h
  | cons first rest ih =>
    rw [firstBy, List.map_cons, List.mem_cons]
    by_cases hfirst : wanted = key first
    · exact Or.inl hfirst
    · rw [List.map_cons, List.mem_cons] at h
      obtain ⟨member, hmember, rfl⟩ := List.mem_map.mp (ih (h.resolve_left hfirst))
      exact Or.inr (List.mem_map.mpr ⟨member, List.mem_filter.mpr ⟨hmember, by simpa using hfirst⟩,
        rfl⟩)

/-- Where different members have different keys, none is left out. -/
theorem mem_firstBy_of_injOn {list : List α}
    (hinj : ∀ member ∈ list, ∀ other ∈ list, key member = key other → member = other) {member : α}
    (hmem : member ∈ list) : member ∈ firstBy key list := by
  obtain ⟨first, hfirst, hkey⟩ :=
    List.mem_map.mp ((mem_map_firstBy key).mpr (List.mem_map_of_mem hmem))
  rwa [← hinj first ((firstBy_sublist key list).subset hfirst) member hmem hkey]

/-- No kind is there twice. -/
theorem nodup_map_firstBy (list : List α) : ((firstBy key list).map key).Nodup := by
  induction list with
  | nil => exact List.nodup_nil
  | cons first rest ih =>
    rw [firstBy, List.map_cons, List.nodup_cons]
    refine ⟨fun hmem => ?_, ih.sublist (List.filter_sublist.map key)⟩
    obtain ⟨member, hmember, hkey⟩ := List.mem_map.mp hmem
    have hne := (List.mem_filter.mp hmember).2
    simp only [ne_eq, decide_not, Bool.not_eq_eq_eq_not, Bool.not_true,
      decide_eq_false_iff_not] at hne
    exact hne hkey

/-- Of two lists one after the other, the second keeps the keys that the first does not have. -/
theorem firstBy_append (left right : List α) :
    firstBy key (left ++ right) =
      firstBy key left ++ (firstBy key right).filter fun member => key member ∉ left.map key := by
  induction left with
  | nil => simp [firstBy]
  | cons first rest ih =>
    simp only [List.cons_append, firstBy, ih, List.filter_append, List.filter_filter,
      List.map_cons, List.mem_cons]
    congr 2
    refine List.filter_congr fun member _ => ?_
    by_cases h : key member = key first <;> simp [h]

/-- A member with a key of its own is taken wherever it stands, and leaves the others as they
are. -/
theorem firstBy_middle_perm {front back : List α} {added : α}
    (hnew : key added ∉ (front ++ back).map key) :
    (firstBy key (front ++ added :: back)).Perm (added :: firstBy key (front ++ back)) := by
  rw [List.map_append, List.mem_append, not_or] at hnew
  have hback : ((firstBy key back).filter fun other => key other ≠ key added) =
      firstBy key back := by
    refine List.filter_eq_self.mpr fun other hother => decide_eq_true fun hkey => hnew.2 ?_
    rw [← hkey]
    exact List.mem_map_of_mem ((firstBy_sublist key back).subset hother)
  rw [firstBy_append, firstBy_append, firstBy, hback,
    List.filter_cons_of_pos (by simpa using hnew.1)]
  exact List.perm_middle

/-- Members whose keys have all been seen add nothing. -/
theorem firstBy_append_of_mem {left right : List α}
    (hseen : ∀ member ∈ right, key member ∈ left.map key) :
    firstBy key (left ++ right) = firstBy key left := by
  have hnone : ((firstBy key right).filter fun member => key member ∉ left.map key) = [] := by
    rw [List.filter_eq_nil_iff]
    intro member hmem
    simpa using hseen member ((firstBy_sublist key right).subset hmem)
  rw [firstBy_append, hnone, List.append_nil]

/-- Members with different keys are all kept. -/
theorem firstBy_of_nodup {list : List α} (hnodup : (list.map key).Nodup) :
    firstBy key list = list := by
  induction list with
  | nil => rfl
  | cons first rest ih =>
    rw [List.map_cons, List.nodup_cons] at hnodup
    rw [firstBy, ih hnodup.2, List.filter_eq_self.mpr]
    intro other hother
    refine decide_eq_true fun heq => hnodup.1 ?_
    rw [← heq]
    exact List.mem_map_of_mem hother

/-- Of members with one common key the first is kept. -/
theorem firstBy_of_const {list : List α} {common : κ}
    (hconst : ∀ member ∈ list, key member = common) : firstBy key list = list.head?.toList := by
  cases list with
  | nil => rfl
  | cons first rest =>
    have hseen : ∀ member ∈ rest, key member ∈ [first].map key := by
      intro member hmem
      rw [hconst member (List.mem_cons_of_mem first hmem), List.map_singleton, List.mem_singleton,
        hconst first List.mem_cons_self]
    exact firstBy_append_of_mem key hseen

/-- One more element is kept exactly if its kind is new. -/
theorem firstBy_append_singleton (list : List α) (last : α) :
    firstBy key (list ++ [last]) =
      if key last ∈ list.map key then firstBy key list else firstBy key list ++ [last] := by
  rw [firstBy_append]
  split
  · rename_i h
    simp only [firstBy, List.filter_nil, List.filter_cons, h, not_true_eq_false, decide_false,
      Bool.false_eq_true, if_false, List.append_nil]
  · rename_i h
    simp only [firstBy, List.filter_nil, List.filter_cons, h, not_false_eq_true, decide_true,
      if_true]

/-- What is kept of one key is the first member that has it. -/
theorem filter_firstBy (list : List α) (wanted : κ) :
    ((firstBy key list).filter fun member => key member = wanted) =
      (list.find? fun member => key member = wanted).toList := by
  induction list with
  | nil => rfl
  | cons first rest ih =>
    rw [firstBy]
    by_cases hfirst : key first = wanted
    · have hrest : ((firstBy key rest).filter fun other => key other ≠ key first).filter
          (fun member => key member = wanted) = [] := by
        rw [List.filter_filter, List.filter_eq_nil_iff]
        intro member _
        simp [hfirst]
      rw [List.filter_cons_of_pos (by simpa using hfirst), hrest,
        List.find?_cons_of_pos (by simpa using hfirst)]
      rfl
    · rw [List.filter_cons_of_neg (by simpa using hfirst),
        List.find?_cons_of_neg (by simpa using hfirst), List.filter_filter, ← ih]
      refine List.filter_congr fun member _ => ?_
      by_cases h : key member = wanted
      · simp [h, Ne.symm hfirst]
      · simp [h]

end ScopeCheck
