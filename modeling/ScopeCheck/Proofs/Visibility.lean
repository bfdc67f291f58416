import ScopeCheck.Proofs.Examination
import ScopeCheck.Proofs.Namespaces
import ScopeCheck.Proofs.Visits

/-!
# Names in a linked scope

While a scope is examined, the tables that are asked for a name form a line: the tables of the
functions and namespace blocks around the node, nearest first, the table of the file and the table
of the scope (`lineage_linked`). A block of a namespace that stands at file level or in blocks only
is joined by all blocks of the namespace: what it does not bind itself, these may. A lookup gives
the bindings of the first level that has any (`lookup_linked`). What such a lookup leads to for a
chain of names is found in the names of the scope (`mem_examineNames_of_checkChain`).
-/

namespace ScopeCheck

namespace Trail

variable {α : Type}

/-- Points each of which leads to the one after it, and the last of them to none. -/
def Leads (next : α → Option α) : List α → Prop
  | [] => True
  | [last] => next last = none
  | point :: target :: rest => next point = some target ∧ Leads next (target :: rest)

/-- A trail passes the points that lead from one to the next. -/
theorem follow_of_leads [DecidableEq α] {next : α → Option α} {domain met : List α} {current : α}
    {rest : List α} (hleads : Leads next (current :: rest))
    (hdomain : ∀ point ∈ rest, point ∈ domain) (hnodup : rest.Nodup)
    (hmet : ∀ point ∈ rest, point ∉ met) :
    follow next domain met current = (rest, .stop) := by
  induction rest generalizing met current with
  | nil =>
    have hnone : next current = none := hleads
    rw [follow, hnone]
  | cons target rest ih =>
    obtain ⟨hnext, hrest⟩ := hleads
    obtain ⟨hfirst, hlater⟩ := List.nodup_cons.mp hnodup
    have hnew : ¬ met.contains target = true :=
      mt List.contains_iff_mem.mp (hmet target List.mem_cons_self)
    have hinner : ∀ point ∈ rest, point ∉ target :: met := by
      intro point hpoint hmem
      rcases List.mem_cons.mp hmem with rfl | hold
      · exact hfirst hpoint
      · exact hmet point (List.mem_cons_of_mem target hpoint) hold
    rw [follow, hnext]
    simp only [dif_neg hnew, dif_pos (hdomain target List.mem_cons_self)]
    rw [ih hrest (fun point hpoint => hdomain point (List.mem_cons_of_mem target hpoint)) hlater
      hinner]

end Trail

namespace Tables

variable {ρ : Type} [DecidableEq ρ]

/-- Tables each of which has the one after it as its parent form the lineage of the first. -/
theorem lineage_of_leads {tables : Tables ρ} {ref : ρ} {rest : List ρ}
    (hleads : Trail.Leads tables.topParent (ref :: rest)) (hnodup : (ref :: rest).Nodup)
    (hexist : ∀ other ∈ rest, other ∈ tables.keys) : tables.lineage ref = ref :: rest := by
  obtain ⟨hfirst, hlater⟩ := List.nodup_cons.mp hnodup
  rw [lineage, Trail.after, Trail.follow_of_leads hleads hexist hlater]
  intro other hother hmem
  exact hfirst (List.mem_singleton.mp hmem ▸ hother)

/-- The first contribution is the first in a row of contributions that is not empty. -/
theorem firstContribution_eq (tables : Tables ρ) (refs : List ρ) (key : String) :
    tables.firstContribution refs key =
      (refs.map fun ref => tables.contribution ref key).find? fun found => found ≠ [] := by
  induction refs with
  | nil => rfl
  | cons ref rest ih =>
    unfold firstContribution at ih ⊢
    rw [List.findSome?_cons, List.map_cons, List.find?_cons, ih]
    by_cases hnone : tables.contribution ref key = [] <;> simp [hnone]

end Tables

/-! ## Owners of tables -/

namespace Visit

/-- The visits of the nodes above that own tables, nearest first. -/
def owners (visit : Visit) : List Visit :=
  visit.enclosing.filter fun outer => outer.toPlace.ownsTable

/-- The namespace whose blocks join a block: its own, if it stands at file level or in blocks
only. -/
def joined? (visit : Visit) : Option String :=
  if visit.isTopLevel then visit.toPlace.namespaceDecl?.map fun decl => decl.name.lower else none

/-- A node that owns a table names it. -/
theorem exists_tableName (visit : Visit) (howns : visit.toPlace.ownsTable = true) :
    ∃ name, visit.tableName? = some name := by
  unfold Place.ownsTable Place.namespaceDecl? Place.func? at howns
  unfold tableName?
  split
  · exact ⟨_, rfl⟩
  · exact ⟨_, rfl⟩
  · simp_all

/-- Around a child are the owners around its parent, and the parent if it is one. -/
theorem owners_child (visit : Visit) (index : Nat) (node : Node) :
    (visit.child index node).owners =
      if visit.toPlace.ownsTable then visit :: visit.owners else visit.owners := by
  rw [owners, enclosing_child, List.filter_cons]
  rfl

/-- A child stands in the table of its parent, if that owns one. -/
theorem table_child (visit : Visit) (index : Nat) (node : Node) :
    (visit.child index node).table =
      if visit.toPlace.ownsTable then visit.path else visit.table := by
  simp only [table, child, List.find?_cons]
  cases visit.toPlace.ownsTable <;> rfl

end Visit

namespace Script

variable {script : Script} {visit : Visit}

/-- Owners around a node are nodes of the same script. -/
theorem mem_visits_of_mem_owners (hmem : visit ∈ script.visits) {owner : Visit}
    (howner : owner ∈ visit.owners) : owner ∈ script.visits :=
  mem_visits_of_mem_enclosing hmem (List.mem_filter.mp howner).1

/-- The references to the tables around a node differ. -/
theorem nodup_ref_owners (hmem : visit ∈ script.visits) :
    ((visit.owners.map fun owner => script.ref owner.path) ++
      [script.ref [], .ofScope 0]).Nodup := by
  have hshorter : visit.enclosing.Pairwise fun inner outer =>
      outer.path.length < inner.path.length := (List.pairwise_cons.mp (pairwise_enclosing hmem)).2
  have howners : (visit.owners.map fun owner => script.ref owner.path).Nodup := by
    refine List.pairwise_map.mpr ((hshorter.sublist List.filter_sublist).imp ?_)
    intro inner outer hlt href
    rw [(ref_inj.mp href).2] at hlt
    exact Nat.lt_irrefl _ hlt
  refine List.nodup_append.mpr ⟨howners, by simp [ref], ?_⟩
  intro left hleft right hright heq
  obtain ⟨owner, howner, rfl⟩ := List.mem_map.mp hleft
  simp only [List.mem_cons, List.not_mem_nil, or_false] at hright
  rcases hright with rfl | rfl
  · exact path_ne_nil (mem_visits_of_mem_owners hmem howner) (ref_inj.mp heq).2
  · cases heq

end Script

/-! ## Tables of a script -/

namespace Script

variable {scripts : List Script} (hnodup : (scripts.map Script.key).Nodup) {script : Script}
  (hscript : script ∈ scripts)
include hnodup hscript

/-- The table of a file is found under the empty path. -/
theorem get?_tablesOf_file :
    (tablesOf scripts).get? (script.ref []) = some (script.fileTable script.bindings) := by
  rw [get?_tablesOf hnodup hscript]
  refine Keyed.get?_ofList_of_unique List.mem_cons_self fun other hother => ?_
  rcases List.mem_cons.mp hother with hfile | hinner
  · exact (Prod.mk.inj hfile).2
  · obtain ⟨visit, hvisit, hentry⟩ := List.mem_filterMap.mp hinner
    obtain ⟨table, -, heq⟩ := Option.map_eq_some_iff.mp hentry
    exact absurd (ref_inj.mp (Prod.mk.inj heq).1).2 (path_ne_nil hvisit)

/-- The table of a node stands under its path. -/
theorem get?_tablesOf_visit {visit : Visit} (hvisit : visit ∈ script.visits)
    {table : SymbolTable TableRef} (htable : script.tableAt? script.bindings visit = some table) :
    (tablesOf scripts).get? (script.ref visit.path) = some table := by
  rw [get?_tablesOf hnodup hscript]
  refine Keyed.get?_ofList_of_unique (List.mem_cons_of_mem _ (List.mem_filterMap.mpr
    ⟨visit, hvisit, by rw [htable]; rfl⟩)) fun other hother => ?_
  rcases List.mem_cons.mp hother with hfile | hinner
  · exact absurd (ref_inj.mp (Prod.mk.inj hfile).1).2 (path_ne_nil hvisit)
  · obtain ⟨rival, hrival, hentry⟩ := List.mem_filterMap.mp hinner
    obtain ⟨found, hfound, heq⟩ := Option.map_eq_some_iff.mp hentry
    obtain ⟨href, rfl⟩ := Prod.mk.inj heq
    obtain rfl := eq_of_path_eq hrival hvisit (ref_inj.mp href).2
    exact Option.some.inj (hfound.symm.trans htable)

end Script

/-! ## Blocks -/

/-- A block is joined with its namespace if it stands at file level or in blocks. -/
theorem Visit.joined?_eq_some_iff {visit : Visit} {key : String} :
    visit.joined? = some key ↔ visit.isTopLevel = true ∧
      ∃ decl range, visit.node = .statement (.namespaceDecl decl range) ∧
        decl.name.lower = key := by
  unfold joined? Place.namespaceDecl?
  split
  · rename_i htop
    constructor
    · intro hkey
      obtain ⟨decl, hdecl, rfl⟩ := Option.map_eq_some_iff.mp hkey
      split at hdecl
      · rename_i decl' range hnode
        obtain rfl := Option.some.inj hdecl
        exact ⟨htop, decl', range, hnode, rfl⟩
      · cases hdecl
    · rintro ⟨-, decl, range, hnode, rfl⟩
      rw [hnode]
      rfl
  · rename_i htop
    exact ⟨fun h => (nomatch h), fun h => absurd h.1 htop⟩

/-- The statements that are collected are those at file level or in blocks. -/
theorem Script.mem_topLevel {script : Script} {visit : Visit} {stmt : Stmt} :
    (visit, stmt) ∈ script.topLevel ↔
      visit ∈ script.visits ∧ visit.isTopLevel = true ∧ visit.node = .statement stmt := by
  unfold topLevel
  rw [List.mem_filterMap]
  constructor
  · rintro ⟨origin, horigin, heq⟩
    split at heq
    · rename_i found hnode
      split at heq
      · rename_i htop
        cases heq
        exact ⟨horigin, htop, hnode⟩
      · cases heq
    · cases heq
  · rintro ⟨hvisit, htop, hnode⟩
    refine ⟨visit, hvisit, ?_⟩
    rw [hnode]
    exact if_pos htop

/-- The blocks of a script are its visits that blocks of their namespace join. -/
theorem Script.mem_blocks {script : Script} {block : NamespaceBlock}
    (hmem : block ∈ script.blocks) :
    block.script = script ∧
      ∃ visit ∈ script.visits, visit.path = block.owner ∧ visit.joined? = some block.key := by
  obtain ⟨⟨visit, stmt⟩, htop, hblock⟩ := List.mem_filterMap.mp hmem
  split at hblock
  · rename_i decl range heq
    cases heq
    cases hblock
    obtain ⟨hvisit, htopLevel, hnode⟩ := mem_topLevel.mp htop
    exact ⟨rfl, visit, hvisit, rfl,
      Visit.joined?_eq_some_iff.mpr ⟨htopLevel, decl, range, hnode, rfl⟩⟩
  · cases hblock

/-- A block that is joined with its namespace is one that is collected. -/
theorem Script.exists_block_of_joined? {script : Script} {visit : Visit}
    (hmem : visit ∈ script.visits) {key : String} (hjoined : visit.joined? = some key) :
    ∃ block ∈ script.blocks,
      block.script = script ∧ block.owner = visit.path ∧ block.key = key := by
  obtain ⟨htop, decl, range, hnode, rfl⟩ := Visit.joined?_eq_some_iff.mp hjoined
  exact ⟨⟨script, visit.path, decl.name⟩, List.mem_filterMap.mpr
    ⟨(visit, .namespaceDecl decl range), mem_topLevel.mpr ⟨hmem, htop, hnode⟩, rfl⟩, rfl, rfl, rfl⟩

/-! ## Linked tables -/

/-- The tables of a scope that is examined by itself, while it is examined. -/
def linkedTables (chain : ScopeChain) (platform : Platform) : Tables TableRef :=
  (Registry.build chain platform).link 0 (Script.tablesOf chain.sortedFiles)

section Linked

variable {chain : ScopeChain} {platform : Platform}

/-- The table of the scope is as it was built. -/
theorem get?_linked_scope :
    (linkedTables chain platform).get? (.ofScope 0) =
      some (Registry.build chain platform).scopeTable :=
  Registry.get?_link_scope _ 0 _

/-- The joint table of a namespace. -/
theorem get?_linked_namespace {key : String}
    (hkey : key ∈ (Registry.build chain platform).namespaces.keys) :
    ∃ entry, (linkedTables chain platform).get? (.ofNamespace 0 key) =
      some ((Registry.build chain platform).namespaceTable key entry) := by
  obtain ⟨entry, hentry⟩ := Option.isSome_iff_exists.mp (Keyed.mem_keys_iff.mp hkey)
  refine ⟨entry, ?_⟩
  rw [linkedTables, Registry.get?_link_namespace, hentry]
  rfl

/-- The blocks of the registry are those of the files. -/
theorem Registry.mem_blocks_build {block : NamespaceBlock} :
    block ∈ (build chain platform).blocks ↔ ∃ script ∈ chain.sortedFiles, block ∈ script.blocks :=
  List.mem_flatMap

section Script

variable {script : Script} (hscript : script ∈ chain.sortedFiles)
include hscript

/-- A block under a reference of a script is one of this script. -/
theorem mem_blocks_of_blockRef {block : NamespaceBlock} {path : Path}
    (hblock : block ∈ (Registry.build chain platform).blocks)
    (href : Registry.blockRef block = script.ref path) :
    ∃ visit ∈ script.visits, visit.path = path ∧ visit.joined? = some block.key := by
  obtain ⟨other, hother, hmem⟩ := Registry.mem_blocks_build.mp hblock
  obtain ⟨rfl, visit, hvisit, hpath, hjoined⟩ := Script.mem_blocks hmem
  obtain ⟨hkey, howner⟩ := Script.ref_inj.mp href
  obtain rfl := List.inj_on_of_nodup_map chain.nodup_key_sortedFiles hother hscript hkey
  exact ⟨visit, hvisit, hpath.trans howner, hjoined⟩

omit hscript in
/-- Tables of scripts are not touched by those that an examination adds. -/
theorem get?_addTables_ref (path : Path) :
    ((Registry.build chain platform).addTables 0 (Script.tablesOf chain.sortedFiles)).get?
      (script.ref path) = (Script.tablesOf chain.sortedFiles).get? (script.ref path) :=
  Registry.get?_addTables_of_not_mem _ _ _ (Registry.not_mem_ownRefs (Nat.le_refl 0))

/-- The table of a file has the table of the scope above it. -/
theorem get?_linked_file :
    (linkedTables chain platform).get? (script.ref []) =
      some { script.fileTable script.bindings with parents := [some (.ofScope 0)] } := by
  have hblocks : ((Registry.build chain platform).blocks.filter fun block =>
      Registry.blockRef block = script.ref []) = [] := by
    refine List.filter_eq_nil_iff.mpr fun block hblock href => ?_
    obtain ⟨visit, hvisit, hpath, -⟩ :=
      mem_blocks_of_blockRef hscript hblock (of_decide_eq_true href)
    exact Script.path_ne_nil hvisit hpath
  have hone : ((Registry.build chain platform).files.filter fun file =>
      Registry.fileRef file = script.ref []).length = 1 := by
    have hcount := List.count_eq_one_of_mem chain.nodup_key_sortedFiles
      (List.mem_map_of_mem hscript)
    rw [List.count_eq_countP, List.countP_map, List.countP_eq_length_filter] at hcount
    rw [← hcount]
    refine congrArg List.length (List.filter_congr fun file _ => ?_)
    rw [Bool.eq_iff_iff, decide_eq_true_eq, Registry.fileRef, Script.ref_inj]
    simp
  rw [linkedTables, Registry.get?_link, get?_addTables_ref,
    Script.get?_tablesOf_file chain.nodup_key_sortedFiles hscript, Option.map_some,
    Registry.linkedTable, hblocks, SymbolTable.foldl_pushParent, hone]
  rfl

variable (platform) {visit : Visit} (hvisit : visit ∈ script.visits)
include hvisit

/-- The table of a node has the bindings of the node, the table around the node above it and, if
the node is a block that others join, the joint table of its namespace beside it. -/
theorem get?_linked_owner (howns : visit.toPlace.ownsTable = true) :
    ∃ name, (linkedTables chain platform).get? (script.ref visit.path) =
      some ⟨name, Script.ownedBy visit.path script.bindings,
        visit.joined?.toList.map (.ofNamespace 0), [some (script.ref visit.table)]⟩ := by
  obtain ⟨name, hname⟩ := visit.exists_tableName howns
  have htable : script.tableAt? script.bindings visit = some ⟨name,
      Script.ownedBy visit.path script.bindings, [], [some (script.ref visit.table)]⟩ := by
    rw [Script.tableAt?, hname]
    rfl
  -- no file has this reference, so no parent is pushed
  have hfiles : ((Registry.build chain platform).files.filter fun file =>
      Registry.fileRef file = script.ref visit.path) = [] := by
    refine List.filter_eq_nil_iff.mpr fun file _ href => ?_
    exact Script.path_ne_nil hvisit (Script.ref_inj.mp (of_decide_eq_true href)).2.symm
  -- all blocks with this reference are the node itself, so they add one sibling at most
  have hjoined : ∀ block ∈ (Registry.build chain platform).blocks.filter fun block =>
      Registry.blockRef block = script.ref visit.path, visit.joined? = some block.key := by
    intro block hblock
    obtain ⟨hmem, href⟩ := List.mem_filter.mp hblock
    obtain ⟨other, hother, hpath, hkey⟩ :=
      mem_blocks_of_blockRef hscript hmem (of_decide_eq_true href)
    rw [← Script.eq_of_path_eq hother hvisit hpath]
    exact hkey
  refine ⟨name, ?_⟩
  rw [linkedTables, Registry.get?_link, get?_addTables_ref,
    Script.get?_tablesOf_visit chain.nodup_key_sortedFiles hscript hvisit htable, Option.map_some,
    Registry.linkedTable, hfiles]
  refine congrArg some ?_
  cases hkey : visit.joined? with
  | none =>
    have hblocks : ((Registry.build chain platform).blocks.filter fun block =>
        Registry.blockRef block = script.ref visit.path) = [] :=
      List.eq_nil_iff_forall_not_mem.mpr fun block hblock => by
        exact Option.some_ne_none _ ((hjoined block hblock).symm.trans hkey)
    rw [hblocks]
    rfl
  | some key =>
    obtain ⟨block, hblock, hown, howner, -⟩ := Script.exists_block_of_joined? hvisit hkey
    have hmem : block ∈ (Registry.build chain platform).blocks.filter fun block =>
        Registry.blockRef block = script.ref visit.path := by
      refine List.mem_filter.mpr ⟨Registry.mem_blocks_build.mpr ⟨script, hscript, hblock⟩, ?_⟩
      rw [decide_eq_true_eq, Registry.blockRef, hown, howner]
    have hsame : ∀ other ∈ (Registry.build chain platform).blocks.filter fun block =>
        Registry.blockRef block = script.ref visit.path,
        TableRef.ofNamespace 0 other.key = .ofNamespace 0 key := fun other hother => by
      rw [Option.some.inj (hkey.symm.trans (hjoined other hother))]
    rw [SymbolTable.foldl_addSibling_const hsame, if_neg (List.ne_nil_of_mem hmem)]
    rfl

end Script

end Linked

/-! ## Lookups -/

/-- The bindings of a name, in lower case, in one table of a script. -/
def Script.boundAt (script : Script) (owner : Path) (key : String) : List Binding :=
  (Script.ownedBy owner script.bindings).filter fun binding => binding.key = key

namespace Registry

/-- The bindings of a name, in lower case, in the blocks of a namespace. -/
def boundInBlocks (registry : Registry) (namespaceKey key : String) : List Binding :=
  ((registry.blocksOf namespaceKey).flatMap blockListing).filter fun binding => binding.key = key

/-- What the table of a node contributes to a lookup: its own bindings, or else those of the blocks
that join it. -/
def boundAround (registry : Registry) (script : Script) (key : String) (owner : Visit) :
    List Binding :=
  if script.boundAt owner.path key ≠ [] then script.boundAt owner.path key
  else
    match owner.joined? with
    | some namespaceKey => registry.boundInBlocks namespaceKey key
    | none => []

/-- What is asked for a name at a node, in order: the tables around the node, the table of the file
and that of the scope. -/
def levels (registry : Registry) (script : Script) (visit : Visit) (key : String) :
    List (List Binding) :=
  visit.owners.map (registry.boundAround script key) ++
    [script.boundAt [] key, registry.scopeTable.own key]

end Registry

/-- The references to the tables that are asked for a name at a node, in order. -/
def Visit.lineage (visit : Visit) (script : Script) : List TableRef :=
  (visit.owners.map fun owner => script.ref owner.path) ++ [script.ref [], .ofScope 0]

section Lookups

variable {chain : ScopeChain} (platform : Platform) {script : Script}
  (hscript : script ∈ chain.sortedFiles) {visit : Visit} (hvisit : visit ∈ script.visits)
include hscript

/-- The table of a file contributes what it binds, as it has no siblings. -/
theorem contribution_linked_file (key : String) :
    (linkedTables chain platform).contribution (script.ref []) key = script.boundAt [] key := by
  rw [Tables.contribution, get?_linked_file hscript]
  simp [SymbolTable.own, Script.fileTable, Script.boundAt]

include hvisit

/-- The table of a node contributes what it binds, or else what the blocks it is joined with do. -/
theorem contribution_linked_owner (howns : visit.toPlace.ownsTable = true) (key : String) :
    (linkedTables chain platform).contribution (script.ref visit.path) key =
      (Registry.build chain platform).boundAround script key visit := by
  obtain ⟨name, htable⟩ := get?_linked_owner platform hscript hvisit howns
  rw [Tables.contribution, htable, Registry.boundAround]
  cases hjoined : visit.joined? with
  | none => rfl
  | some namespaceKey =>
    obtain ⟨block, hblock, -, -, rfl⟩ := Script.exists_block_of_joined? hvisit hjoined
    have hregistered : block ∈ (Registry.build chain platform).blocks :=
      Registry.mem_blocks_build.mpr ⟨script, hscript, hblock⟩
    obtain ⟨entry, hjoint⟩ := get?_linked_namespace (Registry.mem_keys_namespaces hregistered)
    have hother : TableRef.ofNamespace 0 block.key ≠ script.ref visit.path := fun h => nomatch h
    have hown : ((Registry.build chain platform).namespaceTable block.key entry).own key =
      (Registry.build chain platform).boundInBlocks block.key key := rfl
    simp only [Option.toList_some, List.map_cons, List.map_nil, List.findSome?_cons,
      List.findSome?_nil, if_neg hother, hjoint, hown]
    refine congrArg (fun found => if script.boundAt visit.path key ≠ [] then
      script.boundAt visit.path key else found) ?_
    by_cases hnone : (Registry.build chain platform).boundInBlocks block.key key = []
    · rw [if_pos hnone, hnone]
      rfl
    · rw [if_neg hnone]
      rfl

omit hvisit in
/-- What is asked of some tables of a script, of the file and of the scope. -/
theorem firstContribution_linked {owners : List Visit}
    (howners : ∀ owner ∈ owners, owner ∈ script.visits ∧ owner.toPlace.ownsTable = true)
    (key : String) :
    (linkedTables chain platform).firstContribution
        ((owners.map fun owner => script.ref owner.path) ++ [script.ref [], .ofScope 0]) key =
      (owners.map ((Registry.build chain platform).boundAround script key) ++
        [script.boundAt [] key, (Registry.build chain platform).scopeTable.own key]).find?
          fun found => found ≠ [] := by
  have haround : owners.map ((fun ref => (linkedTables chain platform).contribution ref key) ∘
      fun owner => script.ref owner.path) =
      owners.map ((Registry.build chain platform).boundAround script key) :=
    List.map_congr_left fun owner howner => contribution_linked_owner platform hscript
      (howners owner howner).1 (howners owner howner).2 key
  have hscope : (linkedTables chain platform).contribution (.ofScope 0) key =
      (Registry.build chain platform).scopeTable.own key := by
    rw [Tables.contribution, get?_linked_scope]
    simp [Registry.scopeTable]
  rw [Tables.firstContribution_eq, List.map_append, List.map_map, haround, List.map_cons,
    List.map_cons, List.map_nil, contribution_linked_file platform hscript, hscope]

/-- The tables around a node lead from one to the next. -/
theorem leads_lineage :
    ∃ rest, visit.lineage script = script.ref visit.table :: rest ∧
      Trail.Leads (linkedTables chain platform).topParent (script.ref visit.table :: rest) := by
  have hscope : (linkedTables chain platform).topParent (.ofScope 0) = none := by
    rw [Tables.topParent, get?_linked_scope]
    rfl
  have hfile : (linkedTables chain platform).topParent (script.ref []) = some (.ofScope 0) := by
    rw [Tables.topParent, get?_linked_file hscript]
    rfl
  induction hvisit using Script.visits_induction with
  | file index stmt hstmt _ => exact ⟨[.ofScope 0], rfl, hfile, hscope⟩
  | below parent hparent ih index child hchild _ =>
    obtain ⟨rest, hrest, hleads⟩ := ih
    rw [Visit.lineage, Visit.owners_child, Visit.table_child]
    by_cases howns : parent.toPlace.ownsTable = true
    · obtain ⟨name, htable⟩ := get?_linked_owner platform hscript hparent howns
      rw [if_pos howns, if_pos howns]
      refine ⟨script.ref parent.table :: rest, congrArg (script.ref parent.path :: ·) hrest, ?_,
        hleads⟩
      rw [Tables.topParent, htable]
      rfl
    · rw [if_neg howns, if_neg howns]
      exact ⟨rest, hrest, hleads⟩

/-- All tables on the way out of a node exist. -/
theorem mem_keys_of_mem_lineage {ref : TableRef} (hmem : ref ∈ visit.lineage script) :
    ref ∈ (linkedTables chain platform).keys := by
  rw [Keyed.mem_keys_iff]
  rcases List.mem_append.mp hmem with howner | hlast
  · obtain ⟨owner, haround, rfl⟩ := List.mem_map.mp howner
    obtain ⟨name, htable⟩ := get?_linked_owner platform hscript
      (Script.mem_visits_of_mem_owners hvisit haround) (List.mem_filter.mp haround).2
    rw [htable]
    rfl
  · simp only [List.mem_cons, List.not_mem_nil, or_false] at hlast
    rcases hlast with rfl | rfl
    · rw [get?_linked_file hscript]
      rfl
    · rw [get?_linked_scope]
      rfl

/-- The tables that are asked for a name at a node, in order. -/
theorem lineage_linked :
    Tables.lineage (linkedTables chain platform) (script.ref visit.table) =
      visit.lineage script := by
  obtain ⟨rest, hrest, hleads⟩ := leads_lineage platform hscript hvisit
  have hnodup := Script.nodup_ref_owners hvisit
  rw [hrest]
  refine Tables.lineage_of_leads hleads (hrest ▸ hnodup) fun ref hmem => ?_
  exact mem_keys_of_mem_lineage platform hscript hvisit (hrest ▸ List.mem_cons_of_mem _ hmem)

/-- A lookup gives the bindings of the first level that has any. -/
theorem lookup_linked (name : String) :
    Tables.lookup (linkedTables chain platform) (script.ref visit.table) name =
      ((Registry.build chain platform).levels script visit (Text.lower name)).find? fun found =>
        found ≠ [] := by
  rw [Tables.lookup, lineage_linked platform hscript hvisit]
  refine firstContribution_linked platform hscript (fun owner howner => ?_) (Text.lower name)
  exact ⟨Script.mem_visits_of_mem_owners hvisit howner, (List.mem_filter.mp howner).2⟩

end Lookups

/-! ## Findings -/

/-- The findings in the names of a scope that is examined by itself. -/
theorem examineNames_ofScripts (chain : ScopeChain) (platform : Platform) :
    (examineNames (Registry.build chain platform) (.ofScripts chain.sortedFiles)).1 =
      checkNames (Registry.build chain platform) (linkedTables chain platform)
        (chain.sortedFiles.map Inventory.collect) :=
  (examineNames_of_serves (Registry.build chain platform)
    (Workbench.serves_ofScripts chain.sortedFiles) chain.nodup_key_sortedFiles fun _ h => h).1

/-- What is found in a chain of names is among the findings in the names of the scope. -/
theorem mem_examineNames_of_checkChain {chain : ScopeChain} {platform : Platform} {script : Script}
    (hscript : script ∈ chain.sortedFiles) {visit : Visit} (hvisit : visit ∈ script.visits)
    {use : ChainUse} (huse : visit.chainUse? = some use) {finding : Finding}
    (hfinding : checkChain (Registry.build chain platform) (linkedTables chain platform) script
      use = some finding) :
    finding ∈ (examineNames (Registry.build chain platform) (.ofScripts chain.sortedFiles)).1 := by
  rw [examineNames_ofScripts]
  refine List.mem_append_left _ (List.mem_append_left _ (List.mem_flatMap.mpr
    ⟨Inventory.collect script, List.mem_map_of_mem hscript, ?_⟩))
  refine List.mem_append_left _ (List.mem_append_left _ (List.mem_append_left _ ?_))
  exact List.mem_filterMap.mpr ⟨use, List.mem_filterMap.mpr ⟨visit, hvisit, huse⟩, hfinding⟩

end ScopeCheck
