import ScopeCheck.Proofs.Lowercase
import ScopeCheck.Proofs.Visibility

/-!
# What the tables bind outside functions

Two ways lead from a name to what it means. The symbol tables bind names to places, and the registry
lists declarations under their full names. Where no function is around, all that the tables bind
comes from one of three sources (`BoundBy`): a statement outside of functions that declares a
function, a class or a constant; a function of the platform; and a function of a namespace, which
the table of the scope also has under the name that it has at run time. What such a statement
declares is registered too, under its full name, if it stands at file level or in blocks
(`Registry.declares_of_declared`); the tables do not ask for that.
-/

namespace ScopeCheck

/-! ## Keys of names -/

/-- A key of a namespace by which names inside it are found: it is not empty, it is in lower case
and it has no sigma, the lower case of which would depend on what follows. -/
structure PlainKey (outer : String) : Prop where
  nonempty : outer ≠ ""
  sigmaFree : Text.SigmaFree outer
  lower_eq : Text.lower outer = outer

/-- Keys of namespaces are in lower case. -/
theorem Visit.plainKey {visit : Visit} {outer : String} (houter : outer ∈ visit.namespaceKey?)
    (hnonempty : outer ≠ "") (hfree : Text.SigmaFree outer) : PlainKey outer := by
  obtain ⟨decl, -, rfl⟩ := Option.map_eq_some_iff.mp houter
  exact ⟨hnonempty, hfree, (Text.lower_lower (Text.SigmaFree.not_mem_of_lower hfree)).2⟩

section LookupKeys

variable {name : String} {enclosing : Option String}

/-- Every name is also looked up by itself, outside of all namespaces. -/
theorem lower_mem_lookupKeys (name : String) (enclosing : Option String) :
    Text.lower name ∈ lookupKeys name enclosing := by
  unfold lookupKeys
  split
  · split
    · exact List.mem_singleton_self _
    · exact List.mem_cons_of_mem _ List.mem_cons_self
  · exact List.mem_singleton_self _

/-- A name is looked up inside the namespace around it and by itself. -/
theorem mem_lookupKeys (hplain : ∀ outer ∈ enclosing, PlainKey outer) {key : String} :
    key ∈ lookupKeys name enclosing ↔
      key = Text.lower name ∨ ∃ outer ∈ enclosing, key = s!"{outer}.{Text.lower name}" := by
  cases enclosing with
  | none => simp [lookupKeys]
  | some outer =>
    obtain ⟨hnonempty, -, hlower⟩ := hplain outer rfl
    have hfull : ¬ outer.isEmpty = true := by simpa using hnonempty
    simp [lookupKeys, hfull, hlower, or_comm]

/-- One more part can be added to a name and to what it means. -/
theorem qualified_mem_lookupKeys (hplain : ∀ outer ∈ enclosing, PlainKey outer)
    {fullName part : String} (hname : Text.SigmaFree name) (hpart : Text.SigmaFree part)
    (hmem : Text.lower fullName ∈ lookupKeys name enclosing) :
    Text.lower s!"{fullName}.{part}" ∈ lookupKeys s!"{name}.{part}" enclosing := by
  rw [mem_lookupKeys hplain] at hmem ⊢
  have hlower := Text.lower_qualified hname.capital_not_mem hpart.capital_not_mem
  have hfree : Text.SigmaFree (Text.lower fullName) := by
    rcases hmem with heq | ⟨outer, houter, heq⟩
    · rw [heq]
      exact hname.lower
    · rw [heq]
      exact (hplain outer houter).sigmaFree.qualified hname.lower
  rw [Text.lower_qualified hfree.not_mem_of_lower hpart.capital_not_mem, hlower]
  rcases hmem with heq | ⟨outer, houter, heq⟩
  · exact .inl (by rw [heq])
  · refine .inr ⟨outer, houter, ?_⟩
    rw [heq]
    simp only [toString, String.append_assoc]

end LookupKeys

/-! ## Names that are declared -/

/-- A name means a declaration exactly if there is one under one of its keys. -/
theorem isSome_firstDeclared {α : Type} {decls : List (Declaration α)} {name : String}
    {enclosing : Option String} :
    (firstDeclared decls name enclosing).isSome = true ↔
      ∃ decl ∈ decls, decl.key ∈ lookupKeys name enclosing := by
  simp only [firstDeclared, List.findSome?_isSome_iff, List.find?_isSome, decide_eq_true_eq]
  constructor
  · rintro ⟨key, hkey, decl, hdecl, rfl⟩
    exact ⟨decl, hdecl, hkey⟩
  · rintro ⟨decl, hdecl, hkey⟩
    exact ⟨_, hkey, decl, hdecl, rfl⟩

namespace Registry

/-- Something is declared under a full name, in lower case. -/
def Declares (registry : Registry) (key : String) : Prop :=
  (∃ decl ∈ registry.classes, decl.key = key) ∨ (∃ decl ∈ registry.enums, decl.key = key) ∨
    (∃ decl ∈ registry.consts, decl.key = key) ∨
    ∃ callable ∈ registry.callables, callable.key = key

variable {registry : Registry} {name : String} {enclosing : Option String}

/-- A name means a function exactly if there is one under one of its keys. -/
theorem isSome_callable? :
    (registry.callable? name enclosing).isSome = true ↔
      ∃ callable ∈ registry.callables, callable.key ∈ lookupKeys name enclosing := by
  simp only [callable?, List.findSome?_isSome_iff, List.find?_isSome, decide_eq_true_eq]
  constructor
  · rintro ⟨key, hkey, callable, hcallable, rfl⟩
    exact ⟨callable, hcallable, hkey⟩
  · rintro ⟨callable, hcallable, hkey⟩
    exact ⟨_, hkey, callable, hcallable, rfl⟩

/-- A name means a namespace under one of its keys. -/
theorem lower_mem_lookupKeys_of_namespace? {chain : ScopeChain} {platform : Platform}
    {entry : NamespaceEntry}
    (hentry : (build chain platform).namespace? name enclosing = some entry) :
    Text.lower entry.fullName ∈ lookupKeys name enclosing := by
  obtain ⟨key, hkey, hget⟩ := List.exists_of_findSome?_eq_some hentry
  rw [lower_fullName hget]
  exact hkey

end Registry

/-! ## Statements that declare -/

/-- The full name that a declaration of a name has at a node. -/
def Visit.fullName (visit : Visit) (name : String) : String :=
  match visit.namespaceDecl? with
  | some decl => s!"{decl.name.text}.{name}"
  | none => name

/-- At file level and in blocks there is no function around. -/
theorem Visit.funcPlace?_of_isTopLevel {visit : Visit}
    (htop : visit.isTopLevel = true) : visit.funcPlace? = none := by
  refine List.find?_eq_none.mpr fun place hplace hfunc => ?_
  have hblock := List.all_eq_true.mp htop place hplace
  unfold Place.namespaceDecl? at hblock
  unfold Place.func? at hfunc
  split at hfunc <;> simp_all

namespace Script

/-- Whether what a script declares outside functions stands at file level or in namespace blocks
only, and so is registered. -/
def isFlat (script : Script) : Bool :=
  script.visits.all fun visit =>
    match visit.node with
    | .statement stmt =>
      visit.funcPlace?.isSome || (Visit.declared stmt).isEmpty || visit.isTopLevel
    | _ => true

/-- A binding in a table that no function owns comes from a declaration outside functions. -/
theorem exists_declared {script : Script} {owner : Path} {binding : Binding}
    (hmem : binding ∈ Script.ownedBy owner script.bindings)
    (hnot : ∀ visit ∈ script.visits, visit.path = owner → visit.toPlace.func? = none) :
    ∃ visit ∈ script.visits, ∃ stmt, visit.node = .statement stmt ∧ visit.funcPlace? = none ∧
      visit.table = owner ∧ binding ∈ Visit.declared stmt := by
  obtain ⟨⟨path, bound⟩, hbound, rfl⟩ := List.mem_map.mp hmem
  obtain ⟨hbindings, hpath⟩ := List.mem_filter.mp hbound
  obtain rfl : path = owner := of_decide_eq_true hpath
  obtain ⟨visit, hvisit, hbinds⟩ := List.mem_flatMap.mp hbindings
  unfold Visit.binds at hbinds
  split at hbinds
  · rename_i stmt hnode
    split at hbinds
    · rename_i place hplace
      obtain ⟨_, -, heq⟩ := List.mem_map.mp hbinds
      -- a statement inside a function binds in the table of that function, which is not this one
      obtain ⟨outer, houter, rfl⟩ :=
        exists_visit_of_mem_above hvisit (List.mem_of_find?_eq_some hplace)
      have hfunc := List.find?_some hplace
      rw [hnot outer houter (Prod.mk.inj heq).1] at hfunc
      cases hfunc
    · rename_i houtside
      obtain ⟨_, hdeclared, heq⟩ := List.mem_map.mp hbinds
      obtain ⟨htable, rfl⟩ := Prod.mk.inj heq
      exact ⟨visit, hvisit, stmt, hnode, houtside, htable, hdeclared⟩
  · rename_i func hnode
    obtain ⟨_, -, heq⟩ := List.mem_map.mp hbinds
    have hfunc := hnot visit hvisit (Prod.mk.inj heq).1
    rw [Place.func?, hnode] at hfunc
    cases hfunc
  · cases hbinds

/-- The table around a node outside of functions is that of the file or that of the innermost
block. -/
theorem table_of_outside {script : Script} {visit : Visit} (hvisit : visit ∈ script.visits)
    (houtside : visit.funcPlace? = none) :
    (visit.table = [] ∧ visit.namespaceDecl? = none) ∨
      ∃ block ∈ script.visits, visit.table = block.path ∧
        ∃ decl, block.toPlace.namespaceDecl? = some decl ∧ visit.namespaceDecl? = some decl := by
  induction hvisit using visits_induction with
  | file index stmt hstmt _ => exact .inl ⟨rfl, rfl⟩
  | below parent hparent ih index child hchild _ =>
    have hfunc : parent.toPlace.func? = none := by
      simpa using List.find?_eq_none.mp houtside parent.toPlace List.mem_cons_self
    have habove : parent.funcPlace? = none := List.find?_eq_none.mpr fun place hplace =>
      List.find?_eq_none.mp houtside place (List.mem_cons_of_mem _ hplace)
    rw [Visit.table_child, Visit.namespaceDecl?, Visit.child, List.findSome?_cons,
      Place.ownsTable, hfunc]
    cases hblock : parent.toPlace.namespaceDecl? with
    | some decl => exact .inr ⟨parent, hparent, rfl, decl, hblock, rfl⟩
    | none => exact ih habove

/-- A block is listed if it stands at file level or in blocks. -/
theorem mem_blocks_of_namespaceDecl? {script : Script} {visit : Visit}
    (hvisit : visit ∈ script.visits) (htop : visit.isTopLevel = true) {decl : NamespaceDecl}
    (hdecl : visit.toPlace.namespaceDecl? = some decl) :
    (⟨script, visit.path, decl.name⟩ : NamespaceBlock) ∈ script.blocks := by
  unfold Place.namespaceDecl? at hdecl
  split at hdecl
  · rename_i found range hnode
    obtain rfl := Option.some.inj hdecl
    exact List.mem_filterMap.mpr ⟨(visit, .namespaceDecl found range),
      mem_topLevel.mpr ⟨hvisit, htop, hnode⟩, rfl⟩
  · cases hdecl

/-- The table around a statement at file level or in blocks is that of the innermost block. -/
theorem block_of_isTopLevel {script : Script} {visit : Visit} (hvisit : visit ∈ script.visits)
    (htop : visit.isTopLevel = true) :
    (visit.table = [] ∧ visit.namespaceDecl? = none) ∨
      ∃ block ∈ script.blocks, block.owner = visit.table ∧
        visit.namespaceDecl?.map NamespaceDecl.name = some block.name := by
  rcases visits_cases hvisit with ⟨index, stmt, -, rfl⟩ | ⟨parent, hparent, index, child, -, rfl⟩
  · exact .inl ⟨rfl, rfl⟩
  · rw [Visit.isTopLevel, Visit.child, List.all_cons, Bool.and_eq_true] at htop
    obtain ⟨decl, hdecl⟩ := Option.isSome_iff_exists.mp htop.1
    refine .inr ⟨_, mem_blocks_of_namespaceDecl? hparent htop.2 hdecl, ?_, ?_⟩
    · rw [Visit.table_child, Place.ownsTable, hdecl]
      rfl
    · rw [Visit.namespaceDecl?, Visit.child, List.findSome?_cons, hdecl]
      rfl

end Script

/-- Of the nodes around a statement at file level or in blocks, each stands there itself. -/
theorem Visit.isTopLevel_of_mem_enclosing {visit outer : Visit} (htop : visit.isTopLevel = true)
    (houter : outer ∈ visit.enclosing) :
    outer.isTopLevel = true ∧ outer.toPlace ∈ visit.above := by
  have hup : ∀ above : List Place, (above.all fun place => place.namespaceDecl?.isSome) = true →
      outer ∈ visitsUp above → outer.isTopLevel = true ∧ outer.toPlace ∈ above := by
    intro above hall hmem
    induction above with
    | nil => cases hmem
    | cons place rest ih =>
      rw [List.all_cons, Bool.and_eq_true] at hall
      rcases List.mem_cons.mp hmem with rfl | hrest
      · exact ⟨hall.2, List.mem_cons_self⟩
      · exact (ih hall.2 hrest).imp_right (List.mem_cons_of_mem place)
  exact hup visit.above htop houter

/-- What owns a table around a statement at file level or in blocks is a block that the other blocks
of its namespace join. -/
theorem Visit.joined?_of_mem_owners {visit owner : Visit} (htop : visit.isTopLevel = true)
    (howner : owner ∈ visit.owners) : ∃ key, owner.joined? = some key := by
  obtain ⟨hother, hplace⟩ :=
    isTopLevel_of_mem_enclosing htop (List.mem_filter.mp howner).1
  obtain ⟨decl, hdecl⟩ := Option.isSome_iff_exists.mp (List.all_eq_true.mp htop _ hplace)
  exact ⟨decl.name.lower, by rw [joined?, if_pos hother, hdecl, Option.map_some]⟩

namespace Registry

section Build

variable {chain : ScopeChain} {platform : Platform} {script : Script}
  (hscript : script ∈ chain.sortedFiles)
include hscript

/-- What a statement at file level or in blocks declares is registered under its full name. -/
theorem declares_of_declared {visit : Visit} {stmt : Stmt}
    (hstmt : (visit, stmt) ∈ script.topLevel) {binding : Binding}
    (hbinding : binding ∈ Visit.declared stmt) :
    (build chain platform).Declares (Text.lower (visit.fullName binding.name)) := by
  unfold Visit.declared at hbinding
  split at hbinding
  · rename_i decl range
    obtain rfl := List.mem_singleton.mp hbinding
    have hmem : visit.declaration script.path decl.name decl ∈ script.functions :=
      List.mem_filterMap.mpr ⟨_, hstmt, rfl⟩
    exact .inr (.inr (.inr ⟨.declared _, List.mem_append_left _ (List.mem_map_of_mem
      (List.mem_flatMap.mpr ⟨script, hscript, hmem⟩)), rfl⟩))
  · rename_i decl range
    obtain rfl := List.mem_singleton.mp hbinding
    have hmem : visit.declaration script.path decl.name decl ∈ script.classes :=
      List.mem_filterMap.mpr ⟨_, hstmt, rfl⟩
    exact .inl ⟨_, List.mem_flatMap.mpr ⟨script, hscript, hmem⟩, rfl⟩
  · rename_i decl range
    obtain rfl := List.mem_singleton.mp hbinding
    have hmem : visit.declaration script.path decl.name decl ∈ script.consts :=
      List.mem_filterMap.mpr ⟨_, hstmt, rfl⟩
    exact .inr (.inr (.inl ⟨_, List.mem_flatMap.mpr ⟨script, hscript, hmem⟩, rfl⟩))
  · cases hbinding

/-- What the table of a block contributes to a lookup is bound in a block of the namespace. -/
theorem exists_block_of_mem_boundAround {owner : Visit} (howner : owner ∈ script.visits)
    {namespaceKey key : String} (hjoined : owner.joined? = some namespaceKey) {binding : Binding}
    (hmem : binding ∈ (build chain platform).boundAround script key owner) :
    ∃ block ∈ (build chain platform).blocks, block.key = namespaceKey ∧
      binding ∈ Script.ownedBy block.owner block.script.bindings ∧ binding.key = key := by
  unfold boundAround at hmem
  split at hmem
  · obtain ⟨hbound, hkey⟩ := List.mem_filter.mp hmem
    obtain ⟨block, hblock, rfl, hpath, rfl⟩ := Script.exists_block_of_joined? howner hjoined
    refine ⟨block, mem_blocks_build.mpr ⟨_, hscript, hblock⟩, rfl, ?_, of_decide_eq_true hkey⟩
    rw [hpath]
    exact hbound
  · rw [hjoined] at hmem
    obtain ⟨hlisted, hkey⟩ := List.mem_filter.mp hmem
    obtain ⟨block, hblock, hbound⟩ := List.mem_flatMap.mp hlisted
    obtain ⟨hregistered, hsame⟩ := List.mem_filter.mp hblock
    exact ⟨block, hregistered, of_decide_eq_true hsame, List.mem_mergeSort.mp hbound,
      of_decide_eq_true hkey⟩

end Build

end Registry

/-! ## Sources of bindings -/

/-- A statement of a script of the scope that stands outside of functions. -/
structure OuterStatement (chain : ScopeChain) where
  /-- The script. -/
  script : Script
  /-- The script belongs to the scope. -/
  inScope : script ∈ chain.sortedFiles
  /-- The visit of the statement. -/
  visit : Visit
  /-- The statement is visited in the script. -/
  visited : visit ∈ script.visits
  /-- The statement. -/
  stmt : Stmt
  /-- The statement is what is visited. -/
  written : visit.node = .statement stmt
  /-- No function is around it. -/
  outside : visit.funcPlace? = none

/-- What a statement outside of functions declares is bound in its script. -/
theorem OuterStatement.mem_bindings {chain : ScopeChain} (origin : OuterStatement chain)
    {binding : Binding} (hdeclared : binding ∈ Visit.declared origin.stmt) :
    (origin.visit.table, binding) ∈ origin.script.bindings := by
  refine List.mem_flatMap.mpr ⟨origin.visit, origin.visited, ?_⟩
  rw [Visit.binds, origin.written]
  simp only [origin.outside]
  exact List.mem_map_of_mem hdeclared

/-- What makes the tables of a scope bind a name at a node, no function being around. -/
inductive BoundBy (chain : ScopeChain) (platform : Platform) (visit : Visit) (binding : Binding) :
    Prop
  /-- A statement that declares a function, a class or a constant, in no namespace or in that of a
  block around the node. -/
  | statement (origin : OuterStatement chain) (hdeclared : binding ∈ Visit.declared origin.stmt)
      (hspace : origin.visit.namespaceKey? = none ∨
        ∃ owner ∈ visit.owners, owner.joined? = origin.visit.namespaceKey?)
  /-- A function of the platform. -/
  | platform {function : GlobalFunction} (hfunction : function ∈ globalFunctions)
      (hname : binding.name = function.name)
  /-- A function of a namespace, under its name at run time. -/
  | runtime {decl : Declaration FunctionDecl}
      (hdecl : decl ∈ (Registry.build chain platform).functions)
      (hnamespaced : decl.isNamespaced = true)
      (hname : binding.name = Registry.runtimeName decl.fullName)

section Lookup

variable {chain : ScopeChain} {platform : Platform} {script : Script} {visit : Visit}
  {binding : Binding}

/-- What the table of a file binds comes from a statement in no namespace. -/
theorem boundBy_of_fileTable (hscript : script ∈ chain.sortedFiles)
    (hmem : binding ∈ Script.ownedBy [] script.bindings) :
    BoundBy chain platform visit binding := by
  obtain ⟨origin, horigin, stmt, hnode, houtside, htable, hdeclared⟩ :=
    Script.exists_declared hmem fun _ hvisit hpath => absurd hpath (Script.path_ne_nil hvisit)
  refine .statement ⟨script, hscript, origin, horigin, stmt, hnode, houtside⟩ hdeclared (.inl ?_)
  rcases Script.table_of_outside horigin houtside with ⟨-, hnone⟩ | ⟨block, hblock, hpath, -⟩
  · exact congrArg (Option.map _) hnone
  · exact absurd (hpath.symm.trans htable) (Script.path_ne_nil hblock)

/-- What the table of a block binds comes from a statement in its namespace. -/
theorem boundBy_of_block {block : NamespaceBlock}
    (hblock : block ∈ (Registry.build chain platform).blocks) {owner : Visit}
    (howner : owner ∈ visit.owners) (hsame : owner.joined? = some block.key)
    (hmem : binding ∈ Script.ownedBy block.owner block.script.bindings) :
    BoundBy chain platform visit binding := by
  obtain ⟨script, hscript, hlisted⟩ := Registry.mem_blocks_build.mp hblock
  obtain ⟨rfl, place, hplace, hpath, hjoined⟩ := Script.mem_blocks hlisted
  obtain ⟨-, decl, range, hnode, hkey⟩ := Visit.joined?_eq_some_iff.mp hjoined
  have hthere : ∀ other ∈ block.script.visits, other.path = block.owner → other = place :=
    fun other hother heq => Script.eq_of_path_eq hother hplace (heq.trans hpath.symm)
  obtain ⟨origin, horigin, stmt, hstmt, houtside, htable, hdeclared⟩ :=
    Script.exists_declared hmem fun other hother heq => by
      rw [hthere other hother heq, Place.func?, hnode]
  refine .statement ⟨block.script, hscript, origin, horigin, stmt, hstmt, houtside⟩ hdeclared
    (.inr ⟨owner, howner, ?_⟩)
  -- The table of the block is that around the statement, so its namespace is the innermost one.
  rcases Script.table_of_outside horigin houtside with
    ⟨hfile, -⟩ | ⟨around, haround, hat, inner, hinner, hvisible⟩
  · exact absurd (hpath.trans (htable.symm.trans hfile)) (Script.path_ne_nil hplace)
  · rw [hthere around haround (hat.symm.trans htable), Place.namespaceDecl?, hnode] at hinner
    rw [hsame, Visit.namespaceKey?, hvisible, ← hinner, ← hkey]
    rfl

/-- What the table of the scope binds comes from one of the three sources. -/
theorem boundBy_of_scopeTable
    (hmem : binding ∈ (Registry.build chain platform).scopeTable.bindings) :
    BoundBy chain platform visit binding := by
  rcases List.mem_append.mp hmem with hfirst | hruntime
  · rcases List.mem_append.mp hfirst with hglobal | hlisted
    · obtain ⟨function, hfunction, rfl⟩ := List.mem_map.mp hglobal
      exact .platform hfunction rfl
    · obtain ⟨script, hscript, hbinding⟩ := List.mem_flatMap.mp hlisted
      exact boundBy_of_fileTable hscript (List.mem_mergeSort.mp hbinding)
  · obtain ⟨decl, hdecl, rfl⟩ := List.mem_map.mp hruntime
    obtain ⟨hfunction, hnamespaced⟩ := List.mem_filter.mp hdecl
    exact .runtime hfunction hnamespaced rfl

/-- A lookup that finds anything finds a binding. -/
theorem ne_nil_of_lookup (hscript : script ∈ chain.sortedFiles) (hvisit : visit ∈ script.visits)
    {name : String} {bindings : List Binding}
    (hlookup : Tables.lookup (linkedTables chain platform) (script.ref visit.table) name =
      some bindings) : bindings ≠ [] := by
  rw [lookup_linked platform hscript hvisit] at hlookup
  have hfound := List.find?_some hlookup
  exact of_decide_eq_true hfound

/-- A lookup finds something if a table around the node has a binding of the name. -/
theorem isSome_lookup_of_mem_owners (hscript : script ∈ chain.sortedFiles)
    (hvisit : visit ∈ script.visits) {owner : Visit} (howner : owner ∈ visit.owners) {name : String}
    (hbound : script.boundAt owner.path (Text.lower name) ≠ []) :
    (Tables.lookup (linkedTables chain platform) (script.ref visit.table) name).isSome = true := by
  rw [lookup_linked platform hscript hvisit, List.find?_isSome]
  refine ⟨_, List.mem_append_left _ (List.mem_map_of_mem howner), decide_eq_true ?_⟩
  rw [Registry.boundAround, if_pos hbound]
  exact hbound

/-- All that a lookup finds from a statement at file level or in blocks has the name that is looked
up, but for letter case, and comes from one of the three sources. -/
theorem boundBy_of_lookup (hscript : script ∈ chain.sortedFiles)
    (hvisit : visit ∈ script.visits) (htop : visit.isTopLevel = true) {name : String}
    {bindings : List Binding}
    (hlookup : Tables.lookup (linkedTables chain platform) (script.ref visit.table) name =
      some bindings) (hbinding : binding ∈ bindings) :
    Text.lower binding.name = Text.lower name ∧ BoundBy chain platform visit binding := by
  rw [lookup_linked platform hscript hvisit] at hlookup
  rcases List.mem_append.mp (List.mem_of_find?_eq_some hlookup) with hblocks | hlast
  · obtain ⟨owner, howner, rfl⟩ := List.mem_map.mp hblocks
    obtain ⟨key, hjoined⟩ := Visit.joined?_of_mem_owners htop howner
    obtain ⟨block, hblock, rfl, hmem, hkey⟩ := Registry.exists_block_of_mem_boundAround hscript
      (Script.mem_visits_of_mem_owners hvisit howner) hjoined hbinding
    exact ⟨hkey, boundBy_of_block hblock howner hjoined hmem⟩
  · simp only [List.mem_cons, List.not_mem_nil, or_false] at hlast
    rcases hlast with rfl | rfl
    · obtain ⟨hmem, hkey⟩ := List.mem_filter.mp hbinding
      exact ⟨of_decide_eq_true hkey, boundBy_of_fileTable hscript hmem⟩
    · obtain ⟨hmem, hkey⟩ := List.mem_filter.mp hbinding
      exact ⟨of_decide_eq_true hkey, boundBy_of_scopeTable hmem⟩

end Lookup

end ScopeCheck
