import ScopeCheck.Proofs.Keyed
import ScopeCheck.Proofs.Trails
import ScopeCheck.Table.Graph

/-!
# Which table answers a lookup

Tables refer to each other in any way: a table may be its own sibling or its own parent, parents may
run in circles, and what is referred to may be gone. Still each table has one list of tables that
are asked from it on (`Tables.AskedFrom`), and it is no longer than there are tables. What one table
contributes is said by `Tables.Contributes`. A lookup is answered by the first table of the list
that contributes anything (`Tables.lookup_answered_by_first`).

Both notions are said here in terms of the references alone, without following them.
-/

namespace ScopeCheck.Tables

variable {ρ : Type} [DecidableEq ρ]

/-- The top of the stack of parents of a table refers to another table, which exists. -/
def Yields (tables : Tables ρ) (ref parent : ρ) : Prop :=
  ∃ table, tables.get? ref = some table ∧ table.parents.head? = some (some parent) ∧
    parent ∈ tables.keys

/-- The tables that are asked from a table on: the table, what it yields, what that yields, and so
on up to where nothing is yielded or the next table has been asked before. -/
structure AskedFrom (tables : Tables ρ) (ref : ρ) (refs : List ρ) : Prop where
  first : refs.head? = some ref
  next : refs.IsChain tables.Yields
  nodup : refs.Nodup
  stop : ∀ last ∈ refs.getLast?, ∀ parent, tables.Yields last parent → parent ∈ refs

/-- The bindings under a name, in lower case, that a table contributes, if there are any. -/
inductive Contributes (tables : Tables ρ) (ref : ρ) (key : String) : List Binding → Prop
  /-- The table has bindings of its own. -/
  | own {table : SymbolTable ρ} (htable : tables.get? ref = some table)
      (hany : table.own key ≠ []) :
    Contributes tables ref key (table.own key)
  /-- It has none, and the first other table among its siblings that exists and has any is this. -/
  | sibling {table other : SymbolTable ρ} {before after : List ρ} {sibling : ρ}
    (htable : tables.get? ref = some table) (hnone : table.own key = [])
    (hsiblings : table.siblings = before ++ sibling :: after) (hself : sibling ≠ ref)
    (hother : tables.get? sibling = some other) (hany : other.own key ≠ [])
    (hbefore : ∀ earlier ∈ before, earlier ≠ ref → ∀ inner, tables.get? earlier = some inner →
      inner.own key = []) : Contributes tables ref key (other.own key)

variable {tables : Tables ρ} {ref : ρ}

/-! ## The tables that are asked -/

/-- What a table yields is the next point of the trail, if that is in the domain. -/
theorem yields_iff {parent : ρ} :
    tables.Yields ref parent ↔ tables.topParent ref = some parent ∧ parent ∈ tables.keys := by
  unfold Yields topParent
  cases tables.get? ref with
  | none => simp
  | some table => simp [Option.join_eq_some_iff]

/-- The tables that a lookup goes through are those that are asked, in this order. -/
theorem askedFrom_lineage (tables : Tables ρ) (ref : ρ) :
    tables.AskedFrom ref (tables.lineage ref) := by
  have hwalk := Trail.walk_follow tables.topParent tables.keys [ref] ref
  refine ⟨rfl, ?_, ?_, ?_⟩
  · refine List.isChain_iff_getElem.mpr fun index hindex => yields_iff.mpr ⟨?_, ?_⟩
    · exact List.isChain_iff_getElem.mp hwalk.chain index hindex
    · exact hwalk.inside _ (List.getElem_mem (Nat.lt_of_succ_lt_succ hindex))
  · refine List.nodup_cons.mpr ⟨fun hmem => ?_, hwalk.nodup⟩
    exact hwalk.new ref hmem (List.mem_singleton_self ref)
  · intro last hlast parent hyields
    obtain ⟨hparent, hkey⟩ := yields_iff.mp hyields
    rw [lineage, List.getLast?_eq_some_getLast (List.cons_ne_nil _ _), Option.mem_some] at hlast
    -- the trail would go on to a table that exists, so it ends because it has met the table
    rcases hwalk.again parent (hwalk.again_of_mem (hlast ▸ hparent) hkey) with hmet | hpassed
    · exact List.mem_singleton.mp hmet ▸ List.mem_cons_self
    · exact List.mem_cons_of_mem ref hpassed

/-- The lineage of a table is the one list of tables that are asked from it on. -/
theorem askedFrom_iff {refs : List ρ} : tables.AskedFrom ref refs ↔ refs = tables.lineage ref := by
  refine ⟨fun h => ?_, fun heq => heq ▸ askedFrom_lineage tables ref⟩
  obtain ⟨rest, rfl⟩ := List.head?_eq_some_iff.mp h.first
  obtain ⟨hnew, hnodup⟩ := List.nodup_cons.mp h.nodup
  refine congrArg (ref :: ·) (Trail.follow_fst_of_stops ?_ ?_ hnodup ?_).symm
  · exact h.next.imp fun _ _ hyields => yields_iff.mp hyields
  · exact fun point hpoint hmet => hnew (List.mem_singleton.mp hmet ▸ hpoint)
  · intro target htarget hmem
    have hlast := h.stop _ (List.getLast?_eq_some_getLast (List.cons_ne_nil ref rest)) target
      (yields_iff.mpr ⟨htarget, hmem⟩)
    exact (List.mem_cons.mp hlast).imp_left List.mem_singleton.mpr

/-- At most every table is asked once, the first one even if it is gone. -/
theorem length_lineage_le (tables : Tables ρ) (ref : ρ) :
    (tables.lineage ref).length ≤ tables.size + 1 := by
  have hwalk := Trail.walk_follow tables.topParent tables.keys [ref] ref
  have hle := (List.subperm_of_subset hwalk.nodup hwalk.inside).length_le
  rw [Keyed.keys, List.length_map] at hle
  exact Nat.succ_le_succ hle

/-! ## What a table contributes -/

/-- What a table finds at one of its siblings. -/
def siblingAnswer? (tables : Tables ρ) (ref : ρ) (key : String) (sibling : ρ) :
    Option (List Binding) :=
  if sibling = ref then none
  else
    match tables.get? sibling with
    | none => none
    | some other => if other.own key = [] then none else some (other.own key)

section Contribution

variable {key : String}

/-- A sibling answers if it is another table that exists and binds the name. -/
theorem siblingAnswer?_eq_some_iff {sibling : ρ} {bindings : List Binding} :
    tables.siblingAnswer? ref key sibling = some bindings ↔
      sibling ≠ ref ∧ ∃ other, tables.get? sibling = some other ∧ other.own key ≠ [] ∧
        other.own key = bindings := by
  unfold siblingAnswer?
  by_cases hself : sibling = ref
  · simp [hself]
  · rw [if_neg hself]
    cases tables.get? sibling with
    | none => simp
    | some other => simp [hself]

/-- A sibling is silent if it is the table itself, is gone or does not bind the name. -/
theorem siblingAnswer?_eq_none_iff {sibling : ρ} :
    tables.siblingAnswer? ref key sibling = none ↔
      (sibling ≠ ref → ∀ other, tables.get? sibling = some other → other.own key = []) := by
  unfold siblingAnswer?
  by_cases hself : sibling = ref
  · simp [hself]
  · rw [if_neg hself]
    cases tables.get? sibling with
    | none => simp
    | some other => simp [hself]

/-- A table that binds the name contributes what it binds, and its siblings are not asked. -/
theorem contribution_of_own {table : SymbolTable ρ} (htable : tables.get? ref = some table)
    (hany : table.own key ≠ []) : tables.contribution ref key = table.own key := by
  simp only [contribution, htable]
  rw [if_pos hany]

/-- A table that does not bind the name contributes what the first sibling with an answer says. -/
theorem contribution_of_siblings {table : SymbolTable ρ} (htable : tables.get? ref = some table)
    (hnone : table.own key = []) :
    tables.contribution ref key =
      (table.siblings.findSome? (tables.siblingAnswer? ref key)).getD [] := by
  simp only [contribution, htable]
  rw [if_neg (not_not_intro hnone)]
  rfl

/-- What a sibling contributes is what the search among the siblings finds. -/
theorem contributes_of_findSome? {table : SymbolTable ρ} (htable : tables.get? ref = some table)
    (hnone : table.own key = []) {bindings : List Binding}
    (hfound : table.siblings.findSome? (tables.siblingAnswer? ref key) = some bindings) :
    tables.Contributes ref key bindings := by
  obtain ⟨before, sibling, after, hsiblings, hanswer, hbefore⟩ :=
    List.findSome?_eq_some_iff.mp hfound
  obtain ⟨hself, other, hother, hany, rfl⟩ := siblingAnswer?_eq_some_iff.mp hanswer
  exact .sibling htable hnone hsiblings hself hother hany fun earlier hearlier =>
    siblingAnswer?_eq_none_iff.mp (hbefore earlier hearlier)

/-- The contribution of a table, where it is not empty. -/
theorem contributes_iff {bindings : List Binding} :
    tables.Contributes ref key bindings ↔
      tables.contribution ref key = bindings ∧ bindings ≠ [] := by
  constructor
  · intro h
    cases h with
    | own htable hany => exact ⟨contribution_of_own htable hany, hany⟩
    | @sibling table other before after sibling htable hnone hsiblings hself hother hany hbefore =>
      have hfound : table.siblings.findSome? (tables.siblingAnswer? ref key) =
          some (other.own key) := by
        refine List.findSome?_eq_some_iff.mpr ⟨before, sibling, after, hsiblings, ?_, ?_⟩
        · exact siblingAnswer?_eq_some_iff.mpr ⟨hself, other, hother, hany, rfl⟩
        · exact fun earlier hearlier => siblingAnswer?_eq_none_iff.mpr (hbefore earlier hearlier)
      exact ⟨by rw [contribution_of_siblings htable hnone, hfound]; rfl, hany⟩
  · rintro ⟨rfl, hany⟩
    cases htable : tables.get? ref with
    | none => exact absurd (by simp only [contribution, htable]) hany
    | some table =>
      by_cases hnone : table.own key = []
      · have hsiblings := contribution_of_siblings htable hnone
        cases hfound : table.siblings.findSome? (tables.siblingAnswer? ref key) with
        | none => exact absurd (by rw [hsiblings, hfound]; rfl) hany
        | some bindings =>
          rw [hsiblings, hfound]
          exact contributes_of_findSome? htable hnone hfound
      · rw [contribution_of_own htable hnone]
        exact .own htable hnone

/-- The first of some tables that contributes anything answers. -/
theorem firstContribution_eq_some_iff {refs : List ρ} {bindings : List Binding} :
    tables.firstContribution refs key = some bindings ↔
      ∃ before answering after, refs = before ++ answering :: after ∧
        tables.Contributes answering key bindings ∧
        ∀ other ∈ before, ∀ found, ¬ tables.Contributes other key found := by
  have hnone : ∀ other : ρ, (if tables.contribution other key = [] then none
      else some (tables.contribution other key)) = none ↔
        ∀ found, ¬ tables.Contributes other key found := by
    intro other
    simp [contributes_iff]
  have hsome : ∀ other : ρ, (if tables.contribution other key = [] then none
      else some (tables.contribution other key)) = some bindings ↔
        tables.Contributes other key bindings := by
    intro other
    rw [contributes_iff]
    by_cases hempty : tables.contribution other key = []
    · rw [if_pos hempty, hempty]
      exact iff_of_false (Option.some_ne_none bindings).symm fun h => h.2 h.1.symm
    · rw [if_neg hempty, Option.some.injEq]
      exact ⟨fun heq => ⟨heq, heq ▸ hempty⟩, And.left⟩
  simp only [firstContribution, List.findSome?_eq_some_iff, hnone, hsome]

end Contribution

/-! ## Lookups -/

/-- However tables refer to each other, and whichever of them are gone: from each table on there is
one list of tables to ask, of bounded length. A lookup is answered by the first of them that
contributes bindings of the name, and by none if none does; a lookup without parents is answered by
the table alone. -/
theorem lookup_answered_by_first (tables : Tables ρ) (ref : ρ) (name : String) :
    ∃ refs, tables.AskedFrom ref refs ∧ (∀ others, tables.AskedFrom ref others → others = refs) ∧
      refs.length ≤ tables.size + 1 ∧
      (∀ bindings, tables.lookup ref name = some bindings ↔
        ∃ before answering after, refs = before ++ answering :: after ∧
          tables.Contributes answering (Text.lower name) bindings ∧
          ∀ other ∈ before, ∀ found, ¬ tables.Contributes other (Text.lower name) found) ∧
      ∀ bindings, tables.lookupHere ref name = some bindings ↔
        tables.Contributes ref (Text.lower name) bindings := by
  refine ⟨tables.lineage ref, askedFrom_lineage tables ref, fun _ => askedFrom_iff.mp,
    length_lineage_le tables ref, fun _ => firstContribution_eq_some_iff, fun bindings => ?_⟩
  rw [lookupHere, firstContribution_eq_some_iff]
  constructor
  · rintro ⟨before, answering, after, hrefs, hcontributes, -⟩
    obtain ⟨rfl, rfl⟩ : before = [] ∧ answering = ref := by
      cases before with
      | nil => exact ⟨rfl, (List.cons.inj hrefs).1.symm⟩
      | cons => simp at hrefs
    exact hcontributes
  · intro hcontributes
    exact ⟨[], ref, [], rfl, hcontributes, fun _ hother => absurd hother List.not_mem_nil⟩

end ScopeCheck.Tables
