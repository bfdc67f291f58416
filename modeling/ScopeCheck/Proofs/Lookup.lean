import ScopeCheck.Proofs.Keyed
import ScopeCheck.Registry.Link

/-!
# Lookups read a closed part of the tables

A lookup starts at one table and goes on to the tables that are mentioned on the way. Two
collections that hold the same tables under a set of references, which these tables do not lead out
of, answer every lookup from inside the set alike (`AgreeOn.lookup_eq`).
-/

namespace ScopeCheck

namespace Trail

variable {α : Type} [DecidableEq α]

/-- A trail from inside a set that `next` does not lead out of depends on `next` and on the domain
inside the set only. -/
theorem follow_congr {next next' : α → Option α} {domain domain' : List α} {inside : α → Prop}
    (hnext : ∀ point, inside point → next point = next' point)
    (hclosed : ∀ point target, inside point → next point = some target → inside target)
    (hdomain : ∀ point, inside point → (point ∈ domain ↔ point ∈ domain')) (met : List α)
    (current : α) (hcurrent : inside current) :
    follow next domain met current = follow next' domain' met current := by
  -- The recursion follows `next`; each case is replayed on the side of `next'`.
  fun_induction follow next domain met current with
  | case1 met current hnone =>
    rw [follow, ← hnext current hcurrent, hnone]
  | case2 met current target hsome hmet =>
    rw [follow, ← hnext current hcurrent, hsome]
    simp only [hmet, dite_true]
  | case3 met current target hsome hmet hmem further ih =>
    have htarget := hclosed current target hcurrent hsome
    rw [follow.eq_def next', ← hnext current hcurrent, hsome]
    simp only [hmet, (hdomain target htarget).mp hmem, dite_true, ← ih htarget]
    rfl
  | case4 met current target hsome hmet hmem =>
    have htarget := hclosed current target hcurrent hsome
    rw [follow, ← hnext current hcurrent, hsome]
    simp only [hmet, mt (hdomain target htarget).mpr hmem]
    rfl

/-- The points that a trail passes stay inside a set that `next` does not lead out of. -/
theorem inside_of_mem_follow {next : α → Option α} {domain : List α} {inside : α → Prop}
    (hclosed : ∀ point target, inside point → next point = some target → inside target)
    (met : List α) (current : α) (hcurrent : inside current) {point : α}
    (hpoint : point ∈ (follow next domain met current).1) : inside point := by
  fun_induction follow next domain met current with
  | case1 => cases hpoint
  | case2 => cases hpoint
  | case3 met current target hsome hmet hmem further ih =>
    have htarget := hclosed current target hcurrent hsome
    rcases List.mem_cons.mp hpoint with rfl | hfurther
    · exact htarget
    · exact ih htarget hfurther
  | case4 => cases hpoint

end Trail

/-- A search depends on what is found at the members only. -/
theorem findSome?_congr {α β : Type} {list : List α} {search search' : α → Option β}
    (hsame : ∀ member ∈ list, search member = search' member) :
    list.findSome? search = list.findSome? search' := by
  induction list with
  | nil => rfl
  | cons member rest ih =>
    rw [List.findSome?_cons, List.findSome?_cons, hsame member List.mem_cons_self,
      ih fun other hmem => hsame other (List.mem_cons_of_mem member hmem)]

namespace Tables

variable {ρ : Type} [DecidableEq ρ]

/-- Two collections hold the same tables under the references of a set, and these tables do not lead
out of it. -/
structure AgreeOn (inside : ρ → Prop) (left right : Tables ρ) : Prop where
  /-- The tables are the same. -/
  get? : ∀ ref, inside ref → left.get? ref = right.get? ref
  /-- They mention nothing outside. -/
  closed : ∀ ref table, inside ref → left.get? ref = some table →
    ∀ other ∈ table.mentions, inside other

namespace AgreeOn

variable {inside : ρ → Prop} {left right : Tables ρ}

/-- Tables that agree go on to the same parent. -/
theorem topParent_eq (h : AgreeOn inside left right) {ref : ρ} (href : inside ref) :
    left.topParent ref = right.topParent ref := by
  unfold topParent
  rw [h.get? ref href]

/-- The parent of a table inside is inside. -/
theorem inside_topParent (h : AgreeOn inside left right) {ref parent : ρ} (href : inside ref)
    (hparent : left.topParent ref = some parent) : inside parent := by
  unfold topParent at hparent
  split at hparent
  · cases hparent
  · rename_i table htable
    refine h.closed ref table href htable parent (List.mem_append_right _ ?_)
    rw [Option.join_eq_some_iff] at hparent
    exact List.mem_filterMap.mpr ⟨some parent, List.mem_of_head? hparent, rfl⟩

/-- The same tables exist inside. -/
theorem mem_keys_iff (h : AgreeOn inside left right) {ref : ρ} (href : inside ref) :
    ref ∈ left.keys ↔ ref ∈ right.keys := by
  rw [Keyed.mem_keys_iff, Keyed.mem_keys_iff, h.get? ref href]

/-- A lookup from inside goes through the same tables. -/
theorem lineage_eq (h : AgreeOn inside left right) {ref : ρ} (href : inside ref) :
    left.lineage ref = right.lineage ref := by
  unfold lineage Trail.after
  rw [Trail.follow_congr (fun _ => h.topParent_eq) (fun _ _ => h.inside_topParent)
    (fun _ => h.mem_keys_iff) [ref] ref href]

/-- All tables that a lookup from inside goes through are inside. -/
theorem inside_of_mem_lineage (h : AgreeOn inside left right) {ref other : ρ} (href : inside ref)
    (hother : other ∈ left.lineage ref) : inside other := by
  rcases List.mem_cons.mp hother with rfl | hafter
  · exact href
  · exact Trail.inside_of_mem_follow (fun _ _ => h.inside_topParent) [ref] ref href hafter

/-- A table inside contributes the same. -/
theorem contribution_eq (h : AgreeOn inside left right) {ref : ρ} (href : inside ref)
    (key : String) : left.contribution ref key = right.contribution ref key := by
  unfold contribution
  rw [← h.get? ref href]
  cases htable : left.get? ref with
  | none => rfl
  | some table =>
    have hsiblings : ∀ sibling ∈ table.siblings, left.get? sibling = right.get? sibling :=
      fun sibling hmem =>
        h.get? sibling (h.closed ref table href htable sibling (List.mem_append_left _ hmem))
    refine congrArg (fun found => if table.own key ≠ [] then table.own key else found.getD [])
      (findSome?_congr fun sibling hmem => ?_)
    rw [hsiblings sibling hmem]

/-- A lookup from inside the set is answered alike. -/
theorem lookup_eq (h : AgreeOn inside left right) {ref : ρ} (href : inside ref) (name : String) :
    left.lookup ref name = right.lookup ref name := by
  unfold lookup firstContribution
  rw [← h.lineage_eq href]
  refine findSome?_congr fun other hmem => ?_
  rw [h.contribution_eq (h.inside_of_mem_lineage href hmem)]

end AgreeOn

end Tables

end ScopeCheck
