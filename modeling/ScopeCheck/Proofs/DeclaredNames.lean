import Mathlib.Data.List.Perm.Basic
import ScopeCheck.Proofs.Declared

/-!
# Names that are bound and names that are registered

Two walks over a script meet its declarations. One binds functions, classes and constants in the
tables of the file and of its namespace blocks, wherever they stand outside of functions. The other
registers those that stand at file level or in blocks only. So what is registered is bound where it
is declared, and the two agree, name for name, exactly if nothing is declared under a condition or
in a loop (`bound_where_registered`). A function under a condition is bound and not registered
(`conditional_function_unregistered`).
-/

namespace ScopeCheck

namespace Script

/-- Whether a table belongs to a function. -/
def isFunctionTable (script : Script) (owner : Path) : Bool :=
  script.visits.any fun visit => decide (visit.path = owner) && visit.toPlace.func?.isSome

/-- The full name of what a table binds: that of the block whose table it is, and the name. -/
def qualified (script : Script) (owner : Path) (name : String) : String :=
  match (script.visits.find? fun visit => visit.path = owner).bind
    fun visit => visit.toPlace.namespaceDecl? with
  | some decl => s!"{decl.name.text}.{name}"
  | none => name

/-- What the tables of a file and of its blocks bind: the full names in lower case, and where they
are written. -/
def boundNames (script : Script) : List (String × Range) :=
  (script.bindings.filter fun entry => !script.isFunctionTable entry.1).map fun entry =>
    (Text.lower (script.qualified entry.1 entry.2.name), entry.2.range)

end Script

/-- What some declarations of a file declare: the full names in lower case, and where the names are
written. -/
def namesIn {α : Type} (file : String) (decls : List (Declaration α)) : List (String × Range) :=
  (decls.filter fun decl => decl.file = file).map fun decl => (decl.key, decl.name.range)

/-- The functions, classes and constants of a file that are registered. -/
def Registry.namesOf (registry : Registry) (file : String) : List (String × Range) :=
  namesIn file registry.functions ++ namesIn file registry.classes ++ namesIn file registry.consts

namespace Stmt

/-- The function that a statement declares. -/
def function? : Stmt → Option FunctionDecl
  | .functionDecl decl _ => some decl
  | _ => none

/-- The class that a statement declares. -/
def class? : Stmt → Option ClassDecl
  | .classDecl decl _ => some decl
  | _ => none

/-- The constant that a statement declares. -/
def const? : Stmt → Option ConstDecl
  | .constDecl decl _ => some decl
  | _ => none

end Stmt

/-! ## Outside of functions -/

namespace Visit

/-- What a node declares outside of functions. -/
def declaredOutside (visit : Visit) : List Binding :=
  match visit.node with
  | .statement stmt => if visit.funcPlace?.isSome then [] else declared stmt
  | _ => []

/-- What a node declares outside of functions, by full names in lower case. -/
def namesOutside (visit : Visit) : List (String × Range) :=
  visit.declaredOutside.map fun binding =>
    (Text.lower (visit.fullName binding.name), binding.range)

end Visit

namespace Script

variable {script : Script} {visit : Visit}

/-- The table around a node outside of functions qualifies names as the innermost block does. -/
theorem qualified_table (hvisit : visit ∈ script.visits) (houtside : visit.funcPlace? = none)
    (name : String) : script.qualified visit.table name = visit.fullName name := by
  rcases table_of_outside hvisit houtside with
    ⟨hfile, hnone⟩ | ⟨block, hblock, hat, decl, hdecl, hin⟩
  · rw [qualified, hfile, find?_path_nil, Visit.fullName, hnone]
    rfl
  · rw [qualified, hat, find?_path hblock, Option.bind_some, hdecl, Visit.fullName, hin]

/-- Only the path of a function is that of the table of a function. -/
theorem isFunctionTable_path (hvisit : visit ∈ script.visits) :
    script.isFunctionTable visit.path = visit.toPlace.func?.isSome := by
  rw [isFunctionTable, Bool.eq_iff_iff, List.any_eq_true]
  constructor
  · rintro ⟨other, hother, hboth⟩
    rw [Bool.and_eq_true, decide_eq_true_eq] at hboth
    rw [← eq_of_path_eq hother hvisit hboth.1]
    exact hboth.2
  · intro hfunc
    exact ⟨visit, hvisit, by simpa using hfunc⟩

/-- The table of the file is not that of a function. -/
theorem isFunctionTable_nil : script.isFunctionTable [] = false := by
  rw [isFunctionTable, List.any_eq_false]
  intro visit hvisit
  simp [path_ne_nil hvisit]

/-- Outside of functions a node does not stand in the table of one. -/
theorem isFunctionTable_table (hvisit : visit ∈ script.visits)
    (houtside : visit.funcPlace? = none) : script.isFunctionTable visit.table = false := by
  rcases table_of_outside hvisit houtside with ⟨hfile, -⟩ | ⟨block, hblock, hat, decl, hdecl, -⟩
  · rw [hfile, isFunctionTable_nil]
  · rw [hat, isFunctionTable_path hblock]
    unfold Place.namespaceDecl? at hdecl
    unfold Place.func?
    split <;> simp_all

/-- Of what a node binds, what it declares outside of functions is in the tables that no function
owns. -/
theorem filter_binds (hvisit : visit ∈ script.visits) :
    (visit.binds.filter fun entry => !script.isFunctionTable entry.1) =
      visit.declaredOutside.map fun binding => (visit.table, binding) := by
  have hnone : ∀ (owner : Path) (bindings : List Binding), script.isFunctionTable owner = true →
      ((bindings.map fun binding => (owner, binding)).filter fun entry =>
        !script.isFunctionTable entry.1) = [] := by
    intro owner bindings htable
    simp [htable]
  cases hnode : visit.node with
  | statement stmt =>
    cases houtside : visit.funcPlace? with
    | none =>
      have htable := isFunctionTable_table hvisit houtside
      simp [Visit.binds, Visit.declaredOutside, hnode, houtside, htable]
    | some place =>
      obtain ⟨outer, houter, rfl⟩ :=
        exists_visit_of_mem_above hvisit (List.mem_of_find?_eq_some houtside)
      have htable := isFunctionTable_path houter
      rw [List.find?_some houtside] at htable
      simpa [Visit.binds, Visit.declaredOutside, hnode, houtside] using hnone _ _ htable
  | function func =>
    have htable := isFunctionTable_path hvisit
    rw [Place.func?, hnode] at htable
    simpa [Visit.binds, Visit.declaredOutside, hnode] using hnone _ _ htable
  | expression expr => simp [Visit.binds, Visit.declaredOutside, hnode]
  | member target => simp [Visit.binds, Visit.declaredOutside, hnode]

/-- What is declared outside of functions has none around it. -/
theorem funcPlace?_of_mem_declaredOutside {binding : Binding}
    (hmem : binding ∈ visit.declaredOutside) : visit.funcPlace? = none := by
  unfold Visit.declaredOutside at hmem
  split at hmem
  · split at hmem
    · cases hmem
    · simp_all
  · cases hmem

/-- The names that are bound outside of functions are those that are declared there. -/
theorem boundNames_eq (script : Script) :
    script.boundNames = script.visits.flatMap Visit.namesOutside := by
  rw [boundNames, bindings, List.filter_flatMap, List.map_flatMap]
  refine List.flatMap_congr fun visit hvisit => ?_
  rw [filter_binds hvisit, List.map_map, Visit.namesOutside]
  refine List.map_congr_left fun binding hbinding => ?_
  rw [Function.comp_apply, qualified_table hvisit (funcPlace?_of_mem_declaredOutside hbinding)]

end Script

/-! ## Kinds of declarations -/

namespace Script

/-- What a script declares of one kind, which is told by the node of a statement. -/
def declaredAs {α : Type} (script : Script) (node? : Stmt → Option α) (nameOf : α → Ident) :
    List (Declaration α) :=
  script.topLevel.filterMap fun entry =>
    (node? entry.2).map fun node => entry.1.declaration script.path (nameOf node) node

/-- Functions are collected as all other declarations are. -/
theorem functions_eq (script : Script) :
    script.functions = script.declaredAs Stmt.function? FunctionDecl.name := by
  refine List.filterMap_congr fun entry _ => ?_
  obtain ⟨visit, stmt⟩ := entry
  cases stmt <;> rfl

/-- Classes are collected as all other declarations are. -/
theorem classes_eq (script : Script) :
    script.classes = script.declaredAs Stmt.class? ClassDecl.name := by
  refine List.filterMap_congr fun entry _ => ?_
  obtain ⟨visit, stmt⟩ := entry
  cases stmt <;> rfl

/-- Constants are collected as all other declarations are. -/
theorem consts_eq (script : Script) :
    script.consts = script.declaredAs Stmt.const? ConstDecl.name := by
  refine List.filterMap_congr fun entry _ => ?_
  obtain ⟨visit, stmt⟩ := entry
  cases stmt <;> rfl

end Script

section Registered

variable {chain : ScopeChain} {α : Type} {node? : Stmt → Option α} {nameOf : α → Ident}

/-- Of what the files of a chain declare, a file has what it declares itself. -/
theorem filter_flatMap_declaredAs {script : Script} (hscript : script ∈ chain.sortedFiles) :
    ((chain.sortedFiles.flatMap fun file => file.declaredAs node? nameOf).filter fun decl =>
      decl.file = script.path) = script.declaredAs node? nameOf := by
  have hfile : ∀ (file : Script), ∀ decl ∈ file.declaredAs node? nameOf,
      decl.file = file.path := by
    intro file decl hdecl
    obtain ⟨entry, -, hentry⟩ := List.mem_filterMap.mp hdecl
    obtain ⟨node, -, rfl⟩ := Option.map_eq_some_iff.mp hentry
    rfl
  have hnodup := chain.nodup_key_sortedFiles
  obtain ⟨front, back, hsplit⟩ := List.append_of_mem hscript
  rw [hsplit, List.map_append, List.map_cons, List.nodup_middle, List.nodup_cons] at hnodup
  have hnone : ∀ part : List Script, part ⊆ front ++ back →
      ((part.flatMap fun file => file.declaredAs node? nameOf).filter fun decl =>
        decl.file = script.path) = [] := by
    intro part hpart
    refine List.filter_eq_nil_iff.mpr fun decl hdecl hsame => ?_
    obtain ⟨other, hother, hmem⟩ := List.mem_flatMap.mp hdecl
    have hkey : other.key = script.key :=
      congrArg pathKey ((hfile other decl hmem).symm.trans (of_decide_eq_true hsame))
    exact hnodup.1 (hkey ▸ List.map_append ▸ List.mem_map_of_mem (hpart hother))
  have hself : ((script.declaredAs node? nameOf).filter fun decl => decl.file = script.path) =
      script.declaredAs node? nameOf :=
    List.filter_eq_self.mpr fun decl hdecl => decide_eq_true (hfile script decl hdecl)
  rw [hsplit, List.flatMap_append, List.flatMap_cons, List.filter_append, List.filter_append,
    hnone front (List.subset_append_left front back),
    hnone back (List.subset_append_right front back), hself, List.nil_append, List.append_nil]

/-- The names of one kind that a file declares, statement by statement. -/
theorem map_declaredAs (script : Script) :
    ((script.declaredAs node? nameOf).map fun decl => (decl.key, decl.name.range)) =
      script.topLevel.flatMap fun entry => (node? entry.2).toList.map fun node =>
        (Text.lower (entry.1.fullName (nameOf node).text), (nameOf node).range) := by
  rw [Script.declaredAs, List.map_filterMap, List.filterMap_eq_flatMap_toList]
  refine List.flatMap_congr fun entry _ => ?_
  cases node? entry.2 <;> rfl

/-- What a statement declares is a function, a class or a constant. -/
theorem namesOutside_of_topLevel {script : Script} {visit : Visit} {stmt : Stmt}
    (hstmt : (visit, stmt) ∈ script.topLevel) :
    visit.namesOutside =
      (stmt.function?.toList.map fun node =>
        (Text.lower (visit.fullName node.name.text), node.name.range)) ++
      (stmt.class?.toList.map fun node =>
        (Text.lower (visit.fullName node.name.text), node.name.range)) ++
      (stmt.const?.toList.map fun node =>
        (Text.lower (visit.fullName node.name.text), node.name.range)) := by
  obtain ⟨-, htop, hnode⟩ := Script.mem_topLevel.mp hstmt
  rw [Visit.namesOutside, Visit.declaredOutside, hnode, Visit.funcPlace?_of_isTopLevel htop]
  cases stmt <;> rfl

/-- The names at file level or in blocks are those of the statements that are collected. -/
theorem topLevel_flatMap (script : Script) :
    (script.visits.filter Visit.isTopLevel).flatMap Visit.namesOutside =
      script.topLevel.flatMap fun entry => entry.1.namesOutside := by
  unfold Script.topLevel
  induction script.visits with
  | nil => rfl
  | cons visit rest ih =>
    have hstatement : (∀ stmt, visit.node ≠ .statement stmt) → visit.namesOutside = [] := by
      intro hnot
      cases hnode : visit.node <;> simp_all [Visit.namesOutside, Visit.declaredOutside]
    cases hnode : visit.node <;> cases htop : visit.isTopLevel <;> simp_all

/-- The names of one kind that are registered for a file. -/
theorem namesIn_flatMap {script : Script} (hscript : script ∈ chain.sortedFiles)
    {decls : Script → List (Declaration α)}
    (hdecls : ∀ file, decls file = file.declaredAs node? nameOf) :
    namesIn script.path (chain.sortedFiles.flatMap decls) =
      script.topLevel.flatMap fun entry => (node? entry.2).toList.map fun node =>
        (Text.lower (entry.1.fullName (nameOf node).text), (nameOf node).range) := by
  rw [funext hdecls, namesIn, filter_flatMap_declaredAs hscript, map_declaredAs]

/-- The functions, classes and constants that a file registers are what it declares at file level
and in blocks. -/
theorem namesOf_build_perm (platform : Platform) {script : Script}
    (hscript : script ∈ chain.sortedFiles) :
    ((Registry.build chain platform).namesOf script.path).Perm
      ((script.visits.filter Visit.isTopLevel).flatMap Visit.namesOutside) := by
  unfold Registry.namesOf Registry.build
  rw [namesIn_flatMap hscript Script.functions_eq, namesIn_flatMap hscript Script.classes_eq,
    namesIn_flatMap hscript Script.consts_eq, topLevel_flatMap,
    List.flatMap_congr fun entry hentry => namesOutside_of_topLevel hentry]
  exact ((List.flatMap_append_perm _ _ _).append_right _).trans (List.flatMap_append_perm _ _ _)

end Registered

/-! ## Agreement -/

namespace Script

/-- A declaration is written at file level or in blocks, and bound, where its own name stands, in
the table of the innermost block around it, or in that of the file if there is none. -/
def BindsInPlace {α : Type} (script : Script) (write : α → Range → Stmt) (decl : Declaration α) :
    Prop :=
  ∃ visit range, (visit, write decl.node range) ∈ script.topLevel ∧
    decl = visit.declaration script.path decl.name decl.node ∧
    (∃ binding ∈ Script.ownedBy visit.table script.bindings,
      binding.name = decl.name.text ∧ binding.range = decl.name.range) ∧
    ((visit.table = [] ∧ visit.namespaceDecl? = none) ∨
      ∃ block ∈ script.blocks, block.owner = visit.table ∧
        visit.namespaceDecl?.map NamespaceDecl.name = some block.name)

/-- What a statement at file level or in blocks declares is bound in the table around it. -/
theorem mem_ownedBy_of_declared {script : Script} {visit : Visit} {stmt : Stmt}
    (hstmt : (visit, stmt) ∈ script.topLevel) {binding : Binding}
    (hbinding : binding ∈ Visit.declared stmt) :
    binding ∈ Script.ownedBy visit.table script.bindings := by
  obtain ⟨hvisit, htop, hnode⟩ := mem_topLevel.mp hstmt
  have hbinds : (visit.table, binding) ∈ visit.binds := by
    rw [Visit.binds, hnode, Visit.funcPlace?_of_isTopLevel htop]
    exact List.mem_map_of_mem hbinding
  refine List.mem_map.mpr ⟨(visit.table, binding), List.mem_filter.mpr ⟨?_, ?_⟩, rfl⟩
  · exact List.mem_flatMap.mpr ⟨visit, hvisit, hbinds⟩
  · exact decide_eq_true rfl

/-- What is registered of one kind for a file is bound where it is declared. -/
theorem bindsInPlace_of_mem {chain : ScopeChain} {script : Script}
    (hscript : script ∈ chain.sortedFiles) {α : Type} {node? : Stmt → Option α}
    {nameOf : α → Ident} {write : α → Range → Stmt} {decls : Script → List (Declaration α)}
    (hdecls : ∀ file, decls file = file.declaredAs node? nameOf)
    (hwritten : ∀ stmt node, node? stmt = some node → ∃ range, stmt = write node range)
    (hbound : ∀ node range, ∃ binding ∈ Visit.declared (write node range),
      binding.name = (nameOf node).text ∧ binding.range = (nameOf node).range) :
    ∀ decl ∈ chain.sortedFiles.flatMap decls, decl.file = script.path →
      script.BindsInPlace write decl := by
  intro decl hdecl hfile
  have hown : decl ∈ script.declaredAs node? nameOf := by
    rw [← filter_flatMap_declaredAs hscript, ← funext hdecls]
    exact List.mem_filter.mpr ⟨hdecl, decide_eq_true hfile⟩
  obtain ⟨⟨visit, stmt⟩, hstmt, hentry⟩ := List.mem_filterMap.mp hown
  obtain ⟨node, hnode, rfl⟩ := Option.map_eq_some_iff.mp hentry
  obtain ⟨range, rfl⟩ := hwritten stmt node hnode
  obtain ⟨binding, hbinding, hnames⟩ := hbound node range
  obtain ⟨hvisit, htop, -⟩ := mem_topLevel.mp hstmt
  exact ⟨visit, range, hstmt, rfl, ⟨binding, mem_ownedBy_of_declared hstmt hbinding, hnames⟩,
    block_of_isTopLevel hvisit htop⟩

end Script

/-- The parts of a list are those of the members that are kept and those of the others. -/
theorem length_flatMap_filter {α β : Type} (list : List α) (parts : α → List β)
    (kept : α → Bool) :
    (list.flatMap parts).length = ((list.filter kept).flatMap parts).length +
      ((list.filter fun member => !kept member).flatMap parts).length := by
  induction list with
  | nil => rfl
  | cons member rest ih => cases hkept : kept member <;> simp [hkept, ih] <;> omega

/-- A list with some members left out has as many parts only if those have none. -/
theorem flatMap_perm_filter_iff {α β : Type} {list : List α} {parts : α → List β}
    {kept : α → Bool} :
    (list.flatMap parts).Perm ((list.filter kept).flatMap parts) ↔
      ∀ member ∈ list, parts member ≠ [] → kept member = true := by
  constructor
  · intro hperm member hmember hparts
    have hnone : (list.filter fun member => !kept member).flatMap parts = [] := by
      have hsame := hperm.length_eq
      rw [length_flatMap_filter list parts kept] at hsame
      exact List.eq_nil_of_length_eq_zero (by omega)
    by_contra hkept
    refine hparts (List.flatMap_eq_nil_iff.mp hnone member ?_)
    exact List.mem_filter.mpr ⟨hmember, by simpa using hkept⟩
  · intro hall
    induction list with
    | nil => exact List.Perm.nil
    | cons member rest ih =>
      have hrest := ih fun other hother => hall other (List.mem_cons_of_mem member hother)
      by_cases hparts : parts member = []
      · cases hkept : kept member <;> simp [hkept, hparts, hrest]
      · rw [List.filter_cons_of_pos (hall member List.mem_cons_self hparts), List.flatMap_cons,
          List.flatMap_cons]
        exact hrest.append_left _

/-- A script is flat if all that it declares outside of functions is at file level or in blocks. -/
theorem Script.isFlat_iff {script : Script} :
    script.isFlat = true ↔
      ∀ visit ∈ script.visits, visit.namesOutside ≠ [] → visit.isTopLevel = true := by
  rw [isFlat, List.all_eq_true]
  refine forall₂_congr fun visit hvisit => ?_
  cases hnode : visit.node with
  | statement stmt =>
    cases houtside : visit.funcPlace? <;>
      simp [Visit.namesOutside, Visit.declaredOutside, hnode, houtside, Decidable.imp_iff_not_or]
  | _ => simp [Visit.namesOutside, Visit.declaredOutside, hnode]

/-- What is registered for a file is bound where it is declared, and the names that are bound
outside of functions are those that are registered exactly if what is declared there stands at file
level or in blocks only. -/
theorem bound_where_registered (chain : ScopeChain) (platform : Platform) {script : Script}
    (hscript : script ∈ chain.sortedFiles) :
    (∀ decl ∈ (Registry.build chain platform).functions, decl.file = script.path →
        script.BindsInPlace .functionDecl decl) ∧
      (∀ decl ∈ (Registry.build chain platform).classes, decl.file = script.path →
        script.BindsInPlace .classDecl decl) ∧
      (∀ decl ∈ (Registry.build chain platform).consts, decl.file = script.path →
        script.BindsInPlace .constDecl decl) ∧
      (script.boundNames.Perm ((Registry.build chain platform).namesOf script.path) ↔
        script.isFlat = true) := by
  refine ⟨?_, ?_, ?_, ?_⟩
  · refine Script.bindsInPlace_of_mem hscript Script.functions_eq ?_ ?_
    · intro stmt node hnode
      cases stmt <;> simp_all [Stmt.function?]
    · exact fun node range => ⟨_, List.mem_singleton_self _, rfl, rfl⟩
  · refine Script.bindsInPlace_of_mem hscript Script.classes_eq ?_ ?_
    · intro stmt node hnode
      cases stmt <;> simp_all [Stmt.class?]
    · exact fun node range => ⟨_, List.mem_singleton_self _, rfl, rfl⟩
  · refine Script.bindsInPlace_of_mem hscript Script.consts_eq ?_ ?_
    · intro stmt node hnode
      cases stmt <;> simp_all [Stmt.const?]
    · exact fun node range => ⟨_, List.mem_singleton_self _, rfl, rfl⟩
  · have hregistered := namesOf_build_perm platform hscript
    rw [Script.isFlat_iff, ← flatMap_perm_filter_iff, Script.boundNames_eq]
    exact ⟨fun hperm => hperm.trans hregistered, fun hperm => hperm.trans hregistered.symm⟩

/-! ## Declarations in blocks and under a condition -/

/-- A function that does nothing. -/
def idle (name : Ident) : Stmt :=
  .functionDecl ⟨name, ⟨.function, [], none, [], .zero⟩⟩ .zero

/-- A script with a constant and, in a block inside the block, a class and a function. -/
def settings : Script :=
  ⟨"settings.bs", none, [.namespaceDecl ⟨.ofParts [⟨"App", .onLine 0 10 3⟩],
    [.constDecl ⟨⟨"limit", .onLine 1 8 5⟩, .literal (.integer 9) .zero⟩ .zero,
      .namespaceDecl ⟨.ofParts [⟨"App", .onLine 2 12 3⟩, ⟨"Store", .onLine 2 16 5⟩],
        [.classDecl ⟨⟨"Item", .onLine 3 10 4⟩, none, []⟩ .zero,
          idle ⟨"load", .onLine 5 13 4⟩]⟩ .zero]⟩ .zero]⟩

/-- The scope of the script. -/
def settingsChain : ScopeChain := ⟨.ofProgram [settings], []⟩

/-- The walk over the script, with a bound on its depth that the kernel can count down. -/
theorem visits_settings :
    settings.visits = settings.body.zipIdx.flatMap fun entry =>
      (Node.statement entry.1).visitsTo 4 [] [entry.2] :=
  Script.visits_eq_visitsTo 4 rfl

/-- All that the script declares is registered under the names that are bound. -/
theorem settings_registered :
    settings ∈ settingsChain.sortedFiles ∧ settings.isFlat = true ∧
      settings.boundNames = [("app.limit", .onLine 1 8 5), ("app.store.item", .onLine 3 10 4),
        ("app.store.load", .onLine 5 13 4)] ∧
      settings.boundNames.Perm
        ((Registry.build settingsChain (.withNodes [])).namesOf settings.path) := by
  have hscript : settings ∈ settingsChain.sortedFiles := by
    have hall : settingsChain.allFiles = [settings] := rfl
    simp [ScopeChain.sortedFiles, hall]
  have hflat : settings.isFlat = true := by
    rw [Script.isFlat, visits_settings]
    rfl
  refine ⟨hscript, hflat, ?_, ?_⟩
  · rw [Script.boundNames_eq, visits_settings]
    decide +kernel
  · exact (bound_where_registered settingsChain (.withNodes []) hscript).2.2.2.mpr hflat

/-- A script with a function under a condition. -/
def conditional : Script :=
  ⟨"debug.bs", none,
    [.branch (.literal (.boolean true) .zero) [idle ⟨"trace", .onLine 1 11 5⟩] [] .zero]⟩

/-- The scope of the script. -/
def conditionalChain : ScopeChain := ⟨.ofProgram [conditional], []⟩

/-- The function is bound in the table of the file, and nothing is registered under its name. -/
theorem conditional_function_unregistered :
    conditional ∈ conditionalChain.sortedFiles ∧
      Script.ownedBy [] conditional.bindings = [⟨"trace", .onLine 1 11 5, .function⟩] ∧
      conditional.boundNames = [("trace", .onLine 1 11 5)] ∧
      (Registry.build conditionalChain (.withNodes [])).namesOf conditional.path = [] ∧
      ∀ callable ∈ (Registry.build conditionalChain (.withNodes [])).callables,
        callable.key ≠ "trace" := by
  have hfiles : conditionalChain.sortedFiles = [conditional] := by
    have hall : conditionalChain.allFiles = [conditional] := rfl
    simp [ScopeChain.sortedFiles, hall]
  have hvisits : conditional.visits = conditional.body.zipIdx.flatMap fun entry =>
      (Node.statement entry.1).visitsTo 3 [] [entry.2] := Script.visits_eq_visitsTo 3 rfl
  refine ⟨?_, ?_, ?_, ?_, ?_⟩
  · rw [hfiles]
    exact List.mem_singleton_self conditional
  · rw [Script.bindings, hvisits]
    decide +kernel
  · rw [Script.boundNames_eq, hvisits]
    decide +kernel
  · simp only [Registry.build, hfiles, List.flatMap_cons, Script.functions, Script.classes,
      Script.consts, Script.topLevel, hvisits]
    rfl
  · simp only [Registry.callables, Registry.build, hfiles, List.flatMap_cons, Script.functions,
      Script.topLevel, hvisits]
    decide +kernel

end ScopeCheck
