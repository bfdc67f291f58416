import ScopeCheck.Proofs.Linking
import ScopeCheck.Proofs.Lookup

/-!
# What lookups can tell of tables

A lookup reads bindings, the topmost parents and the siblings that exist. `Tables.live` is a table
with these siblings alone: it tells everything that lookups can tell, and more, for all parents
are kept.

Tables that are made for an examination may come under one number or another. `Tables.Carries` says
that a renaming of references takes one collection to another, where bindings are compared through a
view of them, such as the bindings in any order. Lookups then give the same through the view
(`Carries.lookup_eq`).
-/

namespace ScopeCheck

namespace Trail

variable {α β : Type} [DecidableEq α] [DecidableEq β]

/-- Points can be renamed before or after a trail is followed. -/
theorem follow_map {rename : α → β} (hinj : Function.Injective rename) {next : α → Option α}
    {next' : β → Option β} {domain : List α} {domain' : List β}
    (hnext : ∀ point, next' (rename point) = (next point).map rename)
    (hdomain : ∀ point, rename point ∈ domain' ↔ point ∈ domain) (met : List α) (current : α) :
    (follow next' domain' (met.map rename) (rename current)).1 =
      (follow next domain met current).1.map rename := by
  have hmet : ∀ (met : List α) point,
      (met.map rename).contains (rename point) = met.contains point := by
    intro met point
    simp [hinj.eq_iff]
  fun_induction follow next domain met current with
  | case1 met current hnone => simp [follow, hnext, hnone]
  | case2 met current target hsome hold =>
    rw [follow, hnext, hsome]
    simp only [Option.map_some, hmet, hold, dite_true, List.map_nil]
  | case3 met current target hsome hnew hmem further ih =>
    rw [follow, hnext, hsome]
    simp only [Option.map_some, hmet, hnew, (hdomain target).mpr hmem, dite_true]
    simpa using ih
  | case4 met current target hsome hnew hmem =>
    rw [follow, hnext, hsome]
    simp only [Option.map_some, hmet, hnew, mt (hdomain target).mp hmem]
    simp

end Trail

namespace SymbolTable

variable {ρ β : Type}

/-- The table with its references renamed. -/
def mapRefs (rename : ρ → ρ) (table : SymbolTable ρ) : SymbolTable ρ :=
  { table with
    siblings := table.siblings.map rename
    parents := table.parents.map (Option.map rename) }

/-- What can be seen of a table: of its bindings under each name a view, and what it refers to. -/
def seen (view : List Binding → β) (table : SymbolTable ρ) :
    (String → β) × List ρ × List (Option ρ) :=
  (fun key => view (table.own key), table.siblings, table.parents)

/-- Renaming nothing changes nothing. -/
theorem mapRefs_id (table : SymbolTable ρ) : table.mapRefs id = table := by
  simp [mapRefs]

end SymbolTable

/-- Members at which nothing is found can be left out of a search. -/
theorem findSome?_filter {α β : Type} {list : List α} {keep : α → Bool} {search : α → Option β}
    (hnone : ∀ member ∈ list, keep member = false → search member = none) :
    (list.filter keep).findSome? search = list.findSome? search := by
  induction list with
  | nil => rfl
  | cons member rest ih =>
    have hrest := ih fun other hother => hnone other (List.mem_cons_of_mem member hother)
    by_cases hkeep : keep member = true
    · rw [List.filter_cons_of_pos hkeep, List.findSome?_cons, List.findSome?_cons, hrest]
    · rw [List.filter_cons_of_neg hkeep, hrest, List.findSome?_cons,
        hnone member List.mem_cons_self (by simpa using hkeep)]

namespace Tables

variable {ρ β : Type} [DecidableEq ρ]

/-- The table under a reference, with those of its siblings that exist. -/
def live (tables : Tables ρ) (ref : ρ) : Option (SymbolTable ρ) :=
  (tables.get? ref).map fun table => table.keepSiblings tables.contains

/-- The bindings of a name, in lower case, in the table under a reference. -/
def ownAt (tables : Tables ρ) (ref : ρ) (key : String) : List Binding :=
  match tables.live ref with
  | none => []
  | some table => table.own key

/-- Something is live exactly where a table stands. -/
theorem isSome_live (tables : Tables ρ) (ref : ρ) :
    (tables.live ref).isSome = tables.contains ref := by
  rw [live, Option.isSome_map, Keyed.get?_isSome]

/-- The parent that a lookup goes on to is that of the live table. -/
theorem topParent_eq_live (tables : Tables ρ) (ref : ρ) :
    tables.topParent ref = (tables.live ref).bind fun table => table.parents.head?.join := by
  unfold topParent live
  cases tables.get? ref <;> rfl

/-- A sibling that does not exist has nothing to contribute. -/
theorem contribution_eq_live (tables : Tables ρ) (ref : ρ) (key : String) :
    tables.contribution ref key =
      if tables.ownAt ref key ≠ [] then tables.ownAt ref key
      else
        (((tables.live ref).elim [] SymbolTable.siblings).findSome? fun sibling =>
          if sibling = ref ∨ tables.ownAt sibling key = [] then none
          else some (tables.ownAt sibling key)).getD [] := by
  have hown : ∀ ref table, tables.get? ref = some table → tables.ownAt ref key = table.own key := by
    intro ref table hget
    simp [ownAt, live, hget, SymbolTable.own, SymbolTable.keepSiblings]
  have hmissing : ∀ ref, tables.get? ref = none → tables.ownAt ref key = [] := by
    intro ref hget
    simp [ownAt, live, hget]
  unfold contribution
  cases hget : tables.get? ref with
  | none => simp [hmissing ref hget, live, hget]
  | some table =>
    have hsiblings : ((tables.live ref).elim [] SymbolTable.siblings) =
        table.siblings.filter tables.contains := by
      simp [live, hget, SymbolTable.keepSiblings]
    -- a sibling that is gone says nothing, so it may as well be left out
    have hnone : ∀ sibling ∈ table.siblings, tables.contains sibling = false →
        (if sibling = ref ∨ tables.ownAt sibling key = [] then none
          else some (tables.ownAt sibling key)) = none := by
      intro sibling _ hgone
      rw [← Keyed.get?_isSome, Option.isSome_eq_false_iff, Option.isNone_iff_eq_none] at hgone
      exact if_pos (Or.inr (hmissing sibling hgone))
    rw [hown ref table hget, hsiblings, findSome?_filter hnone]
    refine congrArg (fun found => if table.own key ≠ [] then table.own key else found.getD [])
      (findSome?_congr fun sibling _ => ?_)
    cases hsibling : tables.get? sibling with
    | none => simp [hmissing sibling hsibling]
    | some other =>
      by_cases hself : sibling = ref
      · simp [hself]
      · simp [hself, hown sibling other hsibling]

/-- A renaming of references takes one collection of tables to another, up to siblings that do not
exist and up to what the view leaves out of bindings. -/
structure Carries (view : List Binding → β) (rename : ρ → ρ) (left right : Tables ρ) : Prop where
  /-- Different references stay different. -/
  injective : Function.Injective rename
  /-- The tables are the same but for the renaming. -/
  tables : ∀ ref, (right.live (rename ref)).map (SymbolTable.seen view) =
    (left.live ref).map fun table => (table.mapRefs rename).seen view

namespace Carries

variable {view : List Binding → β} {rename : ρ → ρ} {left right : Tables ρ}

/-- Tables with the same live tables carry each other. -/
theorem of_live_eq (h : ∀ ref, right.live ref = left.live ref) : Carries id id left right := by
  refine ⟨Function.injective_id, fun ref => ?_⟩
  simp only [id_eq, h, SymbolTable.mapRefs_id]

variable (h : Carries view rename left right)
include h

/-- A table and the one it is taken to both exist or both do not. -/
theorem cases (ref : ρ) :
    left.live ref = none ∧ right.live (rename ref) = none ∨
      ∃ table other, left.live ref = some table ∧ right.live (rename ref) = some other ∧
        (∀ key, view (other.own key) = view (table.own key)) ∧
        other.siblings = table.siblings.map rename ∧
        other.parents = table.parents.map (Option.map rename) := by
  have hseen := h.tables ref
  cases hleft : left.live ref with
  | none =>
    rw [hleft, Option.map_none, Option.map_eq_none_iff] at hseen
    exact Or.inl ⟨rfl, hseen⟩
  | some table =>
    rw [hleft, Option.map_some, Option.map_eq_some_iff] at hseen
    obtain ⟨other, hright, heq⟩ := hseen
    simp only [SymbolTable.seen, Prod.mk.injEq] at heq
    exact Or.inr ⟨table, other, rfl, hright, fun key => congrFun heq.1 key, heq.2.1, heq.2.2⟩

/-- The same tables exist, under their new references. -/
theorem contains_eq (ref : ρ) : right.contains (rename ref) = left.contains ref := by
  rw [← isSome_live, ← isSome_live]
  rcases h.cases ref with ⟨hleft, hright⟩ | ⟨table, other, hleft, hright, -⟩ <;>
    simp [hleft, hright]

/-- Live siblings are the same, renamed. -/
theorem siblings_eq (ref : ρ) :
    (right.live (rename ref)).elim [] SymbolTable.siblings =
      ((left.live ref).elim [] SymbolTable.siblings).map rename := by
  rcases h.cases ref with ⟨hleft, hright⟩ | ⟨table, other, hleft, hright, -, hsiblings, -⟩
  · simp [hleft, hright]
  · simp [hleft, hright, hsiblings]

/-- Lookups go on to the same parent, renamed. -/
theorem topParent_eq (ref : ρ) :
    right.topParent (rename ref) = (left.topParent ref).map rename := by
  rw [topParent_eq_live, topParent_eq_live]
  rcases h.cases ref with ⟨hleft, hright⟩ | ⟨table, other, hleft, hright, -, -, hparents⟩
  · simp [hleft, hright]
  · rw [hleft, hright, Option.bind_some, Option.bind_some, hparents]
    cases table.parents with
    | nil => rfl
    | cons top rest => cases top <;> rfl

/-- Lookups go through the same tables, renamed. -/
theorem lineage_eq (ref : ρ) : right.lineage (rename ref) = (left.lineage ref).map rename := by
  have hdomain : ∀ point, rename point ∈ right.keys ↔ point ∈ left.keys := by
    intro point
    rw [← Keyed.contains_iff_mem_keys, ← Keyed.contains_iff_mem_keys, h.contains_eq]
  have hafter := Trail.follow_map h.injective h.topParent_eq hdomain [ref] ref
  simpa [lineage, Trail.after] using hafter

/-- The same is seen of what a table binds. -/
theorem view_ownAt (ref : ρ) (key : String) :
    view (right.ownAt (rename ref) key) = view (left.ownAt ref key) := by
  unfold ownAt
  rcases h.cases ref with ⟨hleft, hright⟩ | ⟨table, other, hleft, hright, hown, -⟩
  · simp [hleft, hright]
  · simp [hleft, hright, hown]

variable (hview : ∀ bindings, view bindings = view [] ↔ bindings = [])
include hview

/-- The same tables bind nothing, if the view tells nothing from something. -/
theorem ownAt_eq_nil_iff (ref : ρ) (key : String) :
    right.ownAt (rename ref) key = [] ↔ left.ownAt ref key = [] := by
  rw [← hview, h.view_ownAt, hview]

/-- The same is seen of what a table and its siblings contribute. -/
theorem view_contribution (ref : ρ) (key : String) :
    view (right.contribution (rename ref) key) = view (left.contribution ref key) := by
  have hsibling : ∀ sibling,
      (if rename sibling = rename ref ∨ right.ownAt (rename sibling) key = [] then none
        else some (right.ownAt (rename sibling) key)).map view =
      (if sibling = ref ∨ left.ownAt sibling key = [] then none
        else some (left.ownAt sibling key)).map view := by
    intro sibling
    simp only [h.injective.eq_iff, h.ownAt_eq_nil_iff hview]
    split
    · rfl
    · rw [Option.map_some, h.view_ownAt, Option.map_some]
  rw [contribution_eq_live, contribution_eq_live, h.siblings_eq]
  by_cases hown : left.ownAt ref key = []
  · rw [if_neg (not_not.mpr ((h.ownAt_eq_nil_iff hview ref key).mpr hown)),
      if_neg (not_not.mpr hown), ← Option.getD_map view, ← Option.getD_map view,
      List.map_findSome?, List.map_findSome?, List.findSome?_map]
    exact congrArg (Option.getD · (view [])) (findSome?_congr fun sibling _ => hsibling sibling)
  · rw [if_pos hown, if_pos (mt (h.ownAt_eq_nil_iff hview ref key).mp hown), h.view_ownAt]

/-- The same is seen of the first contribution in a row. -/
theorem view_firstContribution (refs : List ρ) (key : String) :
    (right.firstContribution (refs.map rename) key).map view =
      (left.firstContribution refs key).map view := by
  unfold firstContribution
  rw [List.map_findSome?, List.map_findSome?, List.findSome?_map]
  refine findSome?_congr fun ref _ => ?_
  have hsame := h.view_contribution hview ref key
  have hnil : right.contribution (rename ref) key = [] ↔ left.contribution ref key = [] := by
    rw [← hview, hsame, hview]
  simp only [Function.comp_apply, hnil]
  split
  · rfl
  · rw [Option.map_some, hsame, Option.map_some]

/-- Under its new reference a table finds the same, through the view. -/
theorem lookup_eq (ref : ρ) (name : String) :
    (right.lookup (rename ref) name).map view = (left.lookup ref name).map view := by
  rw [lookup, lookup, h.lineage_eq]
  exact h.view_firstContribution hview _ _

end Carries

end Tables

end ScopeCheck
