import ScopeCheck.Proofs.Keyed
import ScopeCheck.Script.Binding

/-!
# The tables of scripts stay apart

The tables of a script mention tables of the same script only and have no siblings. Among scripts
with different keys, what stands under a reference of a script is told by this script alone
(`get?_tablesOf`).
-/

namespace ScopeCheck

namespace Script

/-- References to tables of scripts tell the scripts and the paths apart. -/
theorem ref_inj {left right : Script} {path path' : Path} :
    left.ref path = right.ref path' ↔ left.key = right.key ∧ path = path' := by
  rw [ref, ref, TableRef.inFile.injEq]

/-- A table of a script has no siblings, and its parents are tables of the script. -/
theorem of_mem_tableEntries {script : Script} {ref : TableRef} {table : SymbolTable TableRef}
    (hmem : (ref, table) ∈ script.tableEntries) :
    (∃ path, ref = script.ref path) ∧ table.siblings = [] ∧
      ∀ parent, some parent ∈ table.parents → ∃ path, parent = script.ref path := by
  rcases List.mem_cons.mp hmem with hfile | hinner
  · cases hfile
    exact ⟨⟨[], rfl⟩, rfl, fun parent hparent => nomatch hparent⟩
  · obtain ⟨visit, -, hvisit⟩ := List.mem_filterMap.mp hinner
    obtain ⟨inner, htable, hentry⟩ := Option.map_eq_some_iff.mp hvisit
    obtain ⟨name, -, hname⟩ := Option.map_eq_some_iff.mp htable
    cases hentry
    subst hname
    refine ⟨⟨visit.path, rfl⟩, rfl, fun parent hparent => ⟨visit.table, ?_⟩⟩
    exact Option.some.inj (List.mem_singleton.mp hparent)

/-- A table that stands among the tables of some scripts is one of one of them. -/
theorem of_get?_tablesOf {scripts : List Script} {ref : TableRef} {table : SymbolTable TableRef}
    (hget : (tablesOf scripts).get? ref = some table) :
    ∃ script ∈ scripts, (∃ path, ref = script.ref path) ∧ table.siblings = [] ∧
      ∀ parent, some parent ∈ table.parents → ∃ path, parent = script.ref path := by
  obtain ⟨script, hscript, hentry⟩ := List.mem_flatMap.mp (Keyed.mem_of_get?_ofList hget)
  exact ⟨script, hscript, of_mem_tableEntries hentry⟩

/-- No other script has a table under the reference. -/
theorem filter_tableEntries_of_ne {script other : Script} (hne : other.key ≠ script.key)
    (path : Path) : (other.tableEntries.filter fun entry => entry.1 = script.ref path) = [] := by
  rw [List.filter_eq_nil_iff]
  rintro ⟨ref, table⟩ hentry href
  obtain ⟨⟨path', rfl⟩, -⟩ := of_mem_tableEntries hentry
  exact hne (ref_inj.mp (of_decide_eq_true href)).1

/-- The tables under a reference are those of the one script. -/
theorem filter_flatMap_tableEntries {scripts : List Script}
    (hnodup : (scripts.map Script.key).Nodup) {script : Script} (hmem : script ∈ scripts)
    (path : Path) :
    ((scripts.flatMap tableEntries).filter fun entry => entry.1 = script.ref path) =
      script.tableEntries.filter fun entry => entry.1 = script.ref path := by
  obtain ⟨front, back, rfl⟩ := List.append_of_mem hmem
  rw [List.map_append, List.map_cons, List.nodup_middle, List.nodup_cons] at hnodup
  have hothers : ∀ other ∈ front ++ back, other.key ≠ script.key := fun other hother heq =>
    hnodup.1 (heq ▸ List.map_append ▸ List.mem_map_of_mem hother)
  have hnone : ∀ part : List Script, (∀ other ∈ part, other.key ≠ script.key) →
      ((part.flatMap tableEntries).filter fun entry => entry.1 = script.ref path) = [] := by
    intro part hpart
    rw [List.filter_flatMap, List.flatMap_eq_nil_iff]
    exact fun other hother => filter_tableEntries_of_ne (hpart other hother) path
  rw [List.flatMap_append, List.flatMap_cons, List.filter_append, List.filter_append,
    hnone front fun other h => hothers other (List.mem_append_left back h),
    hnone back fun other h => hothers other (List.mem_append_right front h), List.nil_append,
    List.append_nil]

/-- What stands under a reference of a script depends on this script only. -/
theorem get?_tablesOf {scripts : List Script} (hnodup : (scripts.map Script.key).Nodup)
    {script : Script} (hmem : script ∈ scripts) (path : Path) :
    (tablesOf scripts).get? (script.ref path) =
      (Keyed.ofList script.tableEntries).get? (script.ref path) := by
  rw [tablesOf, Keyed.get?_ofList, filter_flatMap_tableEntries hnodup hmem, Keyed.get?_ofList]

end Script

end ScopeCheck
