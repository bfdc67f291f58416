import ScopeCheck.Proofs.Visibility

/-!
# The names that are visible from a table

Which names a table of a linked scope finds, and where it finds them, for every table of a file: the
tables of functions and namespace blocks, whether or not anything stands in them, and the table of
the file. A name is found exactly if it is bound on the way out to the file, in a block that joins a
block on the way, in some file, by the platform or as the run-time name of a function in a namespace
(`Registry.Visible`), and what is found is the first of the levels in order that is not empty
(`visible_through_linked_tables`). Blocks join each other only if they stand at file level or in
blocks: a block under a condition is not joined by what its namespace binds elsewhere, nor does it
join in (`lonely_block_not_seen`).
-/

namespace ScopeCheck

/-! ## The way out of a table -/

namespace Script

/-- The nodes whose tables are on the way from a table to that of the file, nearest first: its
owner, unless that is the file, and the owners around this one. -/
def ownersFrom (script : Script) (path : Path) : List Visit :=
  match script.visits.find? fun visit => visit.path = path with
  | some visit => visit :: visit.owners
  | none => []

/-- The tables on the way from a table to that of the file, by the paths of their owners. -/
def lexicalChain (script : Script) (path : Path) : List Path :=
  ((script.ownersFrom path).map fun owner => owner.path) ++ [[]]

variable {script : Script} {visit : Visit}

/-- The file itself is no node, so no owner is met from it. -/
theorem ownersFrom_file : script.ownersFrom [] = [] := by
  rw [ownersFrom, find?_path_nil]

/-- From a node the owners are the node and those around it, as no other has its path. -/
theorem ownersFrom_visit (hmem : visit ∈ script.visits) :
    script.ownersFrom visit.path = visit :: visit.owners := by
  rw [ownersFrom, find?_path hmem]

/-- Owners are nodes of the script. -/
theorem mem_visits_of_mem_ownersFrom {path : Path} (hmem : visit ∈ script.ownersFrom path) :
    visit ∈ script.visits := by
  unfold ownersFrom at hmem
  split at hmem
  · rename_i first hfirst
    have hvisited := List.mem_of_find?_eq_some hfirst
    rcases List.mem_cons.mp hmem with rfl | howner
    · exact hvisited
    · exact mem_visits_of_mem_owners hvisited howner
  · cases hmem

end Script

/-- What names a table owns one. -/
theorem Visit.ownsTable_of_tableName? {visit : Visit} {name : String}
    (hname : visit.tableName? = some name) : visit.toPlace.ownsTable = true := by
  unfold tableName? at hname
  unfold Place.ownsTable Place.namespaceDecl? Place.func?
  split at hname <;> simp_all

/-- A table of a script belongs to the file or to a node that owns one. -/
theorem Script.owner_of_mem_keys_tablesOf {scripts : List Script}
    (hnodup : (scripts.map Script.key).Nodup) {script : Script} (hscript : script ∈ scripts)
    {path : Path} (hmem : script.ref path ∈ (Script.tablesOf scripts).keys) :
    path = [] ∨ ∃ visit ∈ script.visits, visit.path = path ∧ visit.toPlace.ownsTable = true := by
  rw [Keyed.mem_keys_iff, get?_tablesOf hnodup hscript, Option.isSome_iff_exists] at hmem
  obtain ⟨table, htable⟩ := hmem
  rcases List.mem_cons.mp (Keyed.mem_of_get?_ofList htable) with hfile | hinner
  · exact Or.inl (ref_inj.mp (Prod.mk.inj hfile).1).2
  · obtain ⟨visit, hvisit, hentry⟩ := List.mem_filterMap.mp hinner
    obtain ⟨own, hown, heq⟩ := Option.map_eq_some_iff.mp hentry
    obtain ⟨name, hname, -⟩ := Option.map_eq_some_iff.mp hown
    exact Or.inr ⟨visit, hvisit, (ref_inj.mp (Prod.mk.inj heq).1).2,
      Visit.ownsTable_of_tableName? hname⟩

/-! ## Levels -/

namespace Registry

/-- What is asked for a name from a table on, in order: each table on the way out, its own bindings
before those of the blocks that join it, then the table of the file and that of the scope. -/
def levelsFrom (registry : Registry) (script : Script) (path : Path) (key : String) :
    List (List Binding) :=
  ((script.ownersFrom path).flatMap fun owner =>
      [script.boundAt owner.path key,
        owner.joined?.elim [] fun namespaceKey => registry.boundInBlocks namespaceKey key]) ++
    [script.boundAt [] key, registry.scopeTable.own key]

/-- The two levels of a table on the way come down to what it contributes. -/
theorem find?_levelsFrom (registry : Registry) (script : Script) (path : Path) (key : String) :
    ((registry.levelsFrom script path key).find? fun found => found ≠ []) =
      ((script.ownersFrom path).map (registry.boundAround script key) ++
        [script.boundAt [] key, registry.scopeTable.own key]).find? fun found => found ≠ [] := by
  unfold levelsFrom
  induction script.ownersFrom path with
  | nil => rfl
  | cons owner rest ih =>
    rw [List.flatMap_cons, List.map_cons, List.append_assoc, List.cons_append, List.cons_append,
      List.nil_append, List.cons_append, List.find?_cons, List.find?_cons, ih, List.find?_cons]
    by_cases hown : script.boundAt owner.path key = []
    · cases hjoined : owner.joined? with
      | none => simp [boundAround, hown, hjoined]
      | some namespaceKey =>
        by_cases hjoint : registry.boundInBlocks namespaceKey key = [] <;>
          simp [boundAround, hown, hjoined, hjoint]
    · simp [boundAround, hown]

end Registry

/-! ## Lookups from every table -/

section Lookups

variable {chain : ScopeChain} (platform : Platform) {script : Script}
  (hscript : script ∈ chain.sortedFiles)
include hscript

/-- From the table of a file a lookup goes on to that of the scope, and no further. -/
theorem lineage_linked_file :
    Tables.lineage (linkedTables chain platform) (script.ref []) =
      [script.ref [], .ofScope 0] := by
  have hfile : (linkedTables chain platform).topParent (script.ref []) = some (.ofScope 0) := by
    rw [Tables.topParent, get?_linked_file hscript]
    rfl
  have hscope : (linkedTables chain platform).topParent (.ofScope 0) = none := by
    rw [Tables.topParent, get?_linked_scope]
    rfl
  refine Tables.lineage_of_leads ⟨hfile, hscope⟩ (by simp [Script.ref]) ?_
  intro ref hmem
  rw [List.mem_singleton.mp hmem, Keyed.mem_keys_iff, get?_linked_scope]
  rfl

/-- From the table of a node a lookup goes through those of the nodes around it. -/
theorem lineage_linked_owner {visit : Visit} (hvisit : visit ∈ script.visits)
    (howns : visit.toPlace.ownsTable = true) :
    Tables.lineage (linkedTables chain platform) (script.ref visit.path) =
      script.ref visit.path :: visit.lineage script := by
  obtain ⟨rest, hrest, hleads⟩ := leads_lineage platform hscript hvisit
  obtain ⟨name, htable⟩ := get?_linked_owner platform hscript hvisit howns
  have hparent : (linkedTables chain platform).topParent (script.ref visit.path) =
      some (script.ref visit.table) := by
    rw [Tables.topParent, htable]
    rfl
  -- paths get shorter on the way out, so no table is met twice
  have hinner : script.ref visit.path ∉ visit.lineage script := by
    intro hmem
    rcases List.mem_append.mp hmem with howner | hlast
    · obtain ⟨owner, haround, heq⟩ := List.mem_map.mp howner
      have hshorter := (List.pairwise_cons.mp (Script.pairwise_enclosing hvisit)).1 owner
        (List.mem_filter.mp haround).1
      rw [(Script.ref_inj.mp heq).2] at hshorter
      exact Nat.lt_irrefl _ hshorter
    · simp only [List.mem_cons, List.not_mem_nil, or_false] at hlast
      rcases hlast with hfile | hscope
      · exact Script.path_ne_nil hvisit (Script.ref_inj.mp hfile).2
      · cases hscope
  have hnodup : (script.ref visit.path :: visit.lineage script).Nodup :=
    List.nodup_cons.mpr ⟨hinner, Script.nodup_ref_owners hvisit⟩
  have hexist : ∀ ref ∈ visit.lineage script, ref ∈ (linkedTables chain platform).keys :=
    fun ref hmem => mem_keys_of_mem_lineage platform hscript hvisit hmem
  rw [hrest] at hnodup hexist ⊢
  exact Tables.lineage_of_leads ⟨hparent, hleads⟩ hnodup hexist

/-- A lookup from a table of a script gives the bindings of the first level that has any. -/
theorem lookup_linked_from {path : Path}
    (hmem : script.ref path ∈ (Script.tablesOf chain.sortedFiles).keys) (name : String) :
    Tables.lookup (linkedTables chain platform) (script.ref path) name =
      ((Registry.build chain platform).levelsFrom script path (Text.lower name)).find?
        fun found => found ≠ [] := by
  rw [Registry.find?_levelsFrom, Tables.lookup]
  rcases Script.owner_of_mem_keys_tablesOf chain.nodup_key_sortedFiles hscript hmem with
    rfl | ⟨visit, hvisit, rfl, howns⟩
  · rw [lineage_linked_file platform hscript, Script.ownersFrom_file]
    have hnone : ∀ owner ∈ ([] : List Visit),
        owner ∈ script.visits ∧ owner.toPlace.ownsTable = true :=
      fun _ hmem => absurd hmem List.not_mem_nil
    exact firstContribution_linked platform hscript hnone _
  · rw [lineage_linked_owner platform hscript hvisit howns, Script.ownersFrom_visit hvisit]
    have howners : ∀ owner ∈ visit :: visit.owners,
        owner ∈ script.visits ∧ owner.toPlace.ownsTable = true := by
      intro owner howner
      rcases List.mem_cons.mp howner with rfl | haround
      · exact ⟨hvisit, howns⟩
      · exact ⟨Script.mem_visits_of_mem_owners hvisit haround, (List.mem_filter.mp haround).2⟩
    exact firstContribution_linked platform hscript howners _

end Lookups

/-! ## Visible names -/

/-- Something is bound under a key exactly if a binding has it. -/
theorem filter_key_ne_nil_iff {bindings : List Binding} {key : String} :
    (bindings.filter fun binding => binding.key = key) ≠ [] ↔
      ∃ binding ∈ bindings, binding.key = key := by
  simp [List.filter_eq_nil_iff]

/-- A table binds a key exactly if one of its bindings has it. -/
theorem Script.boundAt_ne_nil_iff {script : Script} {owner : Path} {key : String} :
    script.boundAt owner key ≠ [] ↔
      ∃ binding ∈ Script.ownedBy owner script.bindings, binding.key = key :=
  filter_key_ne_nil_iff

namespace Registry

/-- Something that is seen from a table binds a name, which is given in lower case. -/
inductive Visible (registry : Registry) (script : Script) (path : Path) (key : String) : Prop
  /-- A table on the way out to the file binds the name. -/
  | around {owner : Path} (hway : owner ∈ script.lexicalChain path)
      (hbound : script.boundAt owner key ≠ [])
  /-- A registered block of the namespace of a registered block on the way binds the name. -/
  | joined {here there : NamespaceBlock} (hhere : here ∈ registry.blocks)
      (hscript : here.script = script) (hway : here.owner ∈ script.lexicalChain path)
      (hthere : there ∈ registry.blocks) (hsame : there.key = here.key)
      (hbound : there.script.boundAt there.owner key ≠ [])
  /-- The table of a file of the scope binds the name. -/
  | file {file : Script} (hfile : file ∈ registry.files) (hbound : file.boundAt [] key ≠ [])
  /-- A function of the platform has the name. -/
  | platform {function : GlobalFunction} (hfunction : function ∈ globalFunctions)
      (hname : Text.lower function.name = key)
  /-- A function in a namespace has the name at run time. -/
  | runtime {decl : Declaration FunctionDecl} (hdecl : decl ∈ registry.functions)
      (hnamespaced : decl.isNamespaced = true)
      (hname : Text.lower (runtimeName decl.fullName) = key)

/-- The blocks of a namespace bind a key exactly if one of them does. -/
theorem boundInBlocks_ne_nil_iff {registry : Registry} {namespaceKey key : String} :
    registry.boundInBlocks namespaceKey key ≠ [] ↔
      ∃ block ∈ registry.blocks, block.key = namespaceKey ∧
        block.script.boundAt block.owner key ≠ [] := by
  simp only [Script.boundAt_ne_nil_iff, boundInBlocks, filter_key_ne_nil_iff, List.mem_flatMap,
    blocksOf, List.mem_filter, decide_eq_true_eq, blockListing, List.mem_mergeSort]
  constructor
  · rintro ⟨binding, ⟨block, ⟨hblock, hkey⟩, hbinding⟩, hname⟩
    exact ⟨block, hblock, hkey, binding, hbinding, hname⟩
  · rintro ⟨block, hblock, hkey, binding, hbinding, hname⟩
    exact ⟨binding, ⟨block, ⟨hblock, hkey⟩, hbinding⟩, hname⟩

/-- The table of a scope binds the functions of the platform, what files bind, and the functions of
namespaces by the names they have at run time. -/
theorem scopeTable_own_ne_nil_iff {registry : Registry} {key : String} :
    registry.scopeTable.own key ≠ [] ↔
      (∃ function ∈ globalFunctions, Text.lower function.name = key) ∨
        (∃ file ∈ registry.files, file.boundAt [] key ≠ []) ∨
        ∃ decl ∈ registry.functions, decl.isNamespaced = true ∧
          Text.lower (runtimeName decl.fullName) = key := by
  simp only [Script.boundAt_ne_nil_iff, SymbolTable.own, filter_key_ne_nil_iff, scopeTable,
    SymbolTable.listing, Script.fileTable, List.mem_append, List.mem_map, List.mem_flatMap,
    List.mem_mergeSort, List.mem_filter]
  constructor
  · rintro ⟨binding, (⟨function, hfunction, rfl⟩ | ⟨file, hfile, hbinding⟩) |
      ⟨decl, ⟨hdecl, hnamespaced⟩, rfl⟩, hname⟩
    · exact Or.inl ⟨function, hfunction, hname⟩
    · exact Or.inr (Or.inl ⟨file, hfile, binding, hbinding, hname⟩)
    · exact Or.inr (Or.inr ⟨decl, hdecl, hnamespaced, hname⟩)
  · rintro (⟨function, hfunction, hname⟩ | ⟨file, hfile, binding, hbinding, hname⟩ |
      ⟨decl, hdecl, hnamespaced, hname⟩)
    · exact ⟨_, Or.inl (Or.inl ⟨function, hfunction, rfl⟩), hname⟩
    · exact ⟨binding, Or.inl (Or.inr ⟨file, hfile, hbinding⟩), hname⟩
    · exact ⟨_, Or.inr ⟨decl, ⟨hdecl, hnamespaced⟩, rfl⟩, hname⟩

/-- Some level binds a name exactly if something that is seen does. -/
theorem exists_level_iff_visible {chain : ScopeChain} {platform : Platform} {script : Script}
    (hscript : script ∈ chain.sortedFiles) {path : Path} {key : String} :
    (∃ level ∈ (build chain platform).levelsFrom script path key, level ≠ []) ↔
      (build chain platform).Visible script path key := by
  constructor
  -- a level is that of a table on the way out, of the blocks it is joined with, or of the scope
  · rintro ⟨level, hlevel, hbound⟩
    rcases List.mem_append.mp hlevel with hown | hlast
    · obtain ⟨owner, howner, hpair⟩ := List.mem_flatMap.mp hown
      have hway : owner.path ∈ script.lexicalChain path :=
        List.mem_append_left _ (List.mem_map_of_mem howner)
      simp only [List.mem_cons, List.not_mem_nil, or_false] at hpair
      rcases hpair with rfl | rfl
      · exact .around hway hbound
      · cases hjoined : owner.joined? with
        | none => simp [hjoined] at hbound
        | some namespaceKey =>
          obtain ⟨here, hhere, hin, hat, rfl⟩ := Script.exists_block_of_joined?
            (Script.mem_visits_of_mem_ownersFrom howner) hjoined
          rw [hjoined] at hbound
          obtain ⟨there, hthere, hsame, hbinds⟩ := boundInBlocks_ne_nil_iff.mp hbound
          exact .joined (mem_blocks_build.mpr ⟨script, hscript, hhere⟩) hin (hat ▸ hway) hthere
            hsame hbinds
    · simp only [List.mem_cons, List.not_mem_nil, or_false] at hlast
      rcases hlast with rfl | rfl
      · exact .around (List.mem_append_right _ List.mem_cons_self) hbound
      · rcases scopeTable_own_ne_nil_iff.mp hbound with
          ⟨function, hfunction, hname⟩ | ⟨file, hfile, hbinds⟩ | ⟨decl, hdecl, hspace, hname⟩
        · exact .platform hfunction hname
        · exact .file hfile hbinds
        · exact .runtime hdecl hspace hname
  · have hscope : (build chain platform).scopeTable.own key ∈
        (build chain platform).levelsFrom script path key :=
      List.mem_append_right _ (List.mem_cons_of_mem _ List.mem_cons_self)
    intro hvisible
    cases hvisible with
    | around hway hbound =>
      refine ⟨_, ?_, hbound⟩
      rcases List.mem_append.mp hway with howner | hfile
      · obtain ⟨owner, hmem, rfl⟩ := List.mem_map.mp howner
        exact List.mem_append_left _ (List.mem_flatMap.mpr ⟨owner, hmem, List.mem_cons_self⟩)
      · rw [List.mem_singleton.mp hfile]
        exact List.mem_append_right _ List.mem_cons_self
    | @joined here there hhere hin hway hthere hsame hbound =>
      refine ⟨_, ?_, boundInBlocks_ne_nil_iff.mpr ⟨there, hthere, hsame, hbound⟩⟩
      obtain ⟨other, hother, hblock⟩ := mem_blocks_build.mp hhere
      obtain ⟨hits, visit, hvisit, hat, hjoined⟩ := Script.mem_blocks hblock
      -- the block that joins is one on the way out, as its path is
      obtain rfl : other = script := hits.symm.trans hin
      rcases List.mem_append.mp hway with howner | hfile
      · obtain ⟨owner, hmem, hpath⟩ := List.mem_map.mp howner
        obtain rfl := Script.eq_of_path_eq hvisit (Script.mem_visits_of_mem_ownersFrom hmem)
          (hat.trans hpath.symm)
        refine List.mem_append_left _ (List.mem_flatMap.mpr ⟨visit, hmem, ?_⟩)
        simp [hjoined]
      · rw [List.mem_singleton.mp hfile] at hat
        exact absurd hat (Script.path_ne_nil hvisit)
    | file hfile hbound =>
      exact ⟨_, hscope, scopeTable_own_ne_nil_iff.mpr (Or.inr (Or.inl ⟨_, hfile, hbound⟩))⟩
    | platform hfunction hname =>
      exact ⟨_, hscope, scopeTable_own_ne_nil_iff.mpr (Or.inl ⟨_, hfunction, hname⟩)⟩
    | runtime hdecl hspace hname =>
      exact ⟨_, hscope,
        scopeTable_own_ne_nil_iff.mpr (Or.inr (Or.inr ⟨_, hdecl, hspace, hname⟩))⟩

end Registry

/-- A name is not found from a table if nothing that is seen from it binds the name. -/
theorem lookup_eq_none_iff {chain : ScopeChain} (platform : Platform) {script : Script}
    (hscript : script ∈ chain.sortedFiles) {path : Path}
    (htable : script.ref path ∈ (Script.tablesOf chain.sortedFiles).keys) {name : String} :
    Tables.lookup (linkedTables chain platform) (script.ref path) name = none ↔
      ¬ (Registry.build chain platform).Visible script path (Text.lower name) := by
  rw [lookup_linked_from platform hscript htable, List.find?_eq_none,
    ← Registry.exists_level_iff_visible hscript]
  simp

/-- While a scope is examined, a table of one of its files finds a name exactly if something that is
seen from the table binds it, and finds the bindings of the first level that has any. -/
theorem visible_through_linked_tables (chain : ScopeChain) (platform : Platform)
    {bench : Workbench} {pool : List Script} (hserves : bench.Serves pool)
    (hnodup : (pool.map Script.key).Nodup) (hpool : ∀ file ∈ chain.sortedFiles, file ∈ pool)
    {script : Script} (hscript : script ∈ chain.sortedFiles) {path : Path}
    (htable : script.ref path ∈ bench.tables.keys) (name : String) :
    ((Tables.lookup ((Registry.build chain platform).link (freshExamination bench.tables)
          bench.tables) (script.ref path) name).isSome = true ↔
        (Registry.build chain platform).Visible script path (Text.lower name)) ∧
      Tables.lookup ((Registry.build chain platform).link (freshExamination bench.tables)
          bench.tables) (script.ref path) name =
        ((Registry.build chain platform).levelsFrom script path (Text.lower name)).find?
          fun found => found ≠ [] := by
  have hown := Workbench.serves_ofScripts chain.sortedFiles
  have hagree := hserves.agreeOn_link (Registry.build chain platform) hown hnodup
    chain.nodup_key_sortedFiles hpool fun _ hmem => hmem
  -- a lookup stays among the scripts of the chain, where the bench has the tables of a fresh one
  have hsame : Tables.lookup ((Registry.build chain platform).link 0 bench.tables)
      (script.ref path) name = Tables.lookup (linkedTables chain platform) (script.ref path) name :=
    hagree.lookup_eq (List.mem_map_of_mem hscript) name
  have hkept : script.ref path ∈ (Script.tablesOf chain.sortedFiles).keys := by
    have hreach : (Registry.build chain platform).Reaches (script.ref path) :=
      List.mem_map_of_mem hscript
    rw [Keyed.mem_keys_iff, hserves.get?_eq hown hnodup chain.nodup_key_sortedFiles hpool
      (fun _ hmem => hmem) hreach] at htable
    exact Keyed.mem_keys_iff.mpr htable
  rw [hserves.freshExamination_eq, hsame]
  refine ⟨?_, lookup_linked_from platform hscript hkept name⟩
  rw [Option.isSome_iff_ne_none, ne_eq, lookup_eq_none_iff platform hscript hkept, not_not]

/-! ## A namespace in three blocks -/

/-- A block of a namespace with a function that does nothing. -/
def blockWith (space function : String) : Stmt :=
  .namespaceDecl ⟨⟨[⟨space, .zero⟩], .zero⟩,
    [.functionDecl ⟨⟨function, .zero⟩, ⟨.function, [], none, [], .zero⟩⟩ .zero]⟩ .zero

/-- A script with two blocks of a namespace at file level and a third under a condition. -/
def tiles : Script :=
  ⟨"tiles.bs", none, [blockWith "UI" "draw", blockWith "ui" "clear",
    .branch (.literal (.boolean true) .zero) [blockWith "UI" "blink"] [] .zero]⟩

/-- The scope of the script. -/
def tilesChain : ScopeChain := ⟨.ofProgram [tiles], []⟩

/-- The scope has one file. -/
theorem sortedFiles_tilesChain : tilesChain.sortedFiles = [tiles] := by
  have hall : tilesChain.allFiles = [tiles] := rfl
  simp [ScopeChain.sortedFiles, hall]

/-- The script is a file of the scope. -/
theorem tiles_mem_sortedFiles : tiles ∈ tilesChain.sortedFiles := by
  rw [sortedFiles_tilesChain]
  exact List.mem_singleton_self tiles

/-- The walk over the script, with a bound on its depth that the kernel can count down. -/
theorem visits_tiles :
    tiles.visits = tiles.body.zipIdx.flatMap fun entry =>
      (Node.statement entry.1).visitsTo 4 [] [entry.2] :=
  Script.visits_eq_visitsTo 4 rfl

/-- All that the script binds, table by table. -/
theorem bindings_tiles : tiles.bindings =
    [([0], ⟨"draw", .zero, .function⟩), ([0, 0, 0], ⟨"m", .zero, .object⟩),
      ([1], ⟨"clear", .zero, .function⟩), ([0, 0, 1], ⟨"m", .zero, .object⟩),
      ([1, 2], ⟨"blink", .zero, .function⟩), ([0, 0, 1, 2], ⟨"m", .zero, .object⟩)] := by
  rw [Script.bindings, visits_tiles]
  rfl

/-- Two of the three blocks are collected, as the third stands under a condition. -/
theorem blocks_tiles : tiles.blocks =
    [⟨tiles, [0], ⟨[⟨"UI", .zero⟩], .zero⟩⟩, ⟨tiles, [1], ⟨[⟨"ui", .zero⟩], .zero⟩⟩] := by
  rw [Script.blocks, Script.topLevel, visits_tiles]
  rfl

/-- The way out of the function `draw`. -/
theorem lexicalChain_tiles : tiles.lexicalChain [0, 0, 0] = [[0, 0, 0], [0], []] := by
  rw [Script.lexicalChain, Script.ownersFrom, visits_tiles]
  rfl

/-- The function `draw` has a table. -/
theorem table_mem_tiles :
    tiles.ref [0, 0, 0] ∈ (Workbench.ofScripts tilesChain.sortedFiles).tables.keys := by
  rw [sortedFiles_tilesChain]
  simp only [Workbench.ofScripts, Script.tablesOf, List.flatMap_cons, Script.tableEntries,
    visits_tiles, bindings_tiles]
  decide +kernel

/-- The registry has the blocks of the script. -/
theorem blocks_tilesChain : (Registry.build tilesChain (.withNodes [])).blocks = tiles.blocks := by
  simp [Registry.build, sortedFiles_tilesChain]

/-- No table that is asked binds the function of the third block. -/
theorem boundAt_tiles_blink {owner : Path} (howner : owner ∈ [[0, 0, 0], [0], [1], []]) :
    tiles.boundAt owner "blink" = [] := by
  have hnone : ∀ owner ∈ [[0, 0, 0], [0], [1], []], tiles.boundAt owner "blink" = [] := by
    simp only [Script.boundAt, bindings_tiles]
    decide +kernel
  exact hnone owner howner

/-- No function of a namespace has the name `blink` at run time. -/
theorem runtimeName_tiles : ∀ decl ∈ tiles.functions,
    Text.lower (Registry.runtimeName decl.fullName) ≠ "blink" := by
  rw [Script.functions, Script.topLevel, visits_tiles]
  decide +kernel

/-- The function of the third block is not visible from the first. -/
theorem not_visible_blink :
    ¬ (Registry.build tilesChain (.withNodes [])).Visible tiles [0, 0, 0] "blink" := by
  intro hvisible
  cases hvisible with
  | @around owner hway hbound =>
    rw [lexicalChain_tiles] at hway
    refine hbound (boundAt_tiles_blink ?_)
    clear hbound
    revert owner
    decide
  | @joined here there _ _ _ hthere _ hbound =>
    rw [blocks_tilesChain, blocks_tiles] at hthere
    simp only [List.mem_cons, List.not_mem_nil, or_false] at hthere
    rcases hthere with rfl | rfl
    · exact hbound (boundAt_tiles_blink (by decide))
    · exact hbound (boundAt_tiles_blink (by decide))
  | @file file hfile hbound =>
    obtain rfl : file = tiles := List.mem_singleton.mp (sortedFiles_tilesChain ▸ hfile)
    exact hbound (boundAt_tiles_blink (by decide))
  | @platform function hfunction hname =>
    have hother : ∀ function ∈ globalFunctions, Text.lower function.name ≠ "blink" := by
      decide +kernel
    exact hother function hfunction hname
  | @runtime decl hdecl _ hname =>
    have hdecl : decl ∈ tiles.functions := by
      simpa [Registry.build, sortedFiles_tilesChain] using hdecl
    exact runtimeName_tiles decl hdecl hname

/-- The second block is seen from the function in the first, though it spells the namespace
differently. -/
theorem clear_seen_from_draw :
    tiles.ref [0, 0, 0] ∈ (Workbench.ofScripts tilesChain.sortedFiles).tables.keys ∧
      (Tables.lookup ((Registry.build tilesChain (.withNodes [])).link
        (freshExamination (Workbench.ofScripts tilesChain.sortedFiles).tables)
        (Workbench.ofScripts tilesChain.sortedFiles).tables) (tiles.ref [0, 0, 0])
          "Clear").isSome = true := by
  have hvisible : (Registry.build tilesChain (.withNodes [])).Visible tiles [0, 0, 0]
      (Text.lower "Clear") := by
    have hblocks := blocks_tilesChain.trans blocks_tiles
    refine @Registry.Visible.joined _ _ _ _ ⟨tiles, [0], ⟨[⟨"UI", .zero⟩], .zero⟩⟩
      ⟨tiles, [1], ⟨[⟨"ui", .zero⟩], .zero⟩⟩ ?_ rfl ?_ ?_ ?_ ?_
    · rw [hblocks]
      exact List.mem_cons_self
    · rw [lexicalChain_tiles]
      decide
    · rw [hblocks]
      exact List.mem_cons_of_mem _ List.mem_cons_self
    · decide +kernel
    · simp only [Script.boundAt, bindings_tiles]
      decide +kernel
  refine ⟨table_mem_tiles, ?_⟩
  exact (visible_through_linked_tables tilesChain (.withNodes [])
    (Workbench.serves_ofScripts tilesChain.sortedFiles) tilesChain.nodup_key_sortedFiles
    (fun _ hmem => hmem) tiles_mem_sortedFiles table_mem_tiles "Clear").1.mpr hvisible

/-- The third block is of the same namespace and binds a name, which is not found from the function
in the first. -/
theorem lonely_block_not_seen :
    (∃ visit ∈ tiles.visits, visit.path = [1, 2] ∧
        visit.toPlace.namespaceDecl?.map (fun decl => decl.name.lower) = some "ui") ∧
      tiles.boundAt [1, 2] "blink" ≠ [] ∧
      (∃ block ∈ (Registry.build tilesChain (.withNodes [])).blocks,
        block.owner ∈ tiles.lexicalChain [0, 0, 0] ∧ block.key = "ui") ∧
      Tables.lookup (linkedTables tilesChain (.withNodes [])) (tiles.ref [0, 0, 0]) "blink" =
        none := by
  refine ⟨?_, ?_, ?_, ?_⟩
  · rw [visits_tiles]
    decide +kernel
  · simp only [Script.boundAt, bindings_tiles]
    decide +kernel
  · rw [blocks_tilesChain, blocks_tiles, lexicalChain_tiles]
    decide +kernel
  · have hlower : Text.lower "blink" = "blink" := by decide +kernel
    rw [lookup_eq_none_iff (.withNodes []) tiles_mem_sortedFiles table_mem_tiles, hlower]
    exact not_visible_blink

end ScopeCheck
