import ScopeCheck.Proofs.DeclaredNames
import ScopeCheck.Proofs.FoldedScript

/-!
# Folding the names of a scope

The registry of a folded scope is the registry of the scope, folded (`Registry.build_folded`):
files, blocks and declarations come in the same order, since that is the order of paths and places,
and stand under the same keys, since keys are in lower case. So a name that is looked up, in
whatever case, leads to the same declaration.

The linked tables of a folded scope find a name where those of the scope do, bound at the same
ranges (`map_range_lookup_folded`). The bindings need not be the folded ones: functions of the
platform keep the names that the platform gives them.
-/

namespace ScopeCheck

/-! ## The scripts of a chain -/

/-- The scope with its scripts folded. -/
def Scope.folded (scope : Scope) : Scope := { scope with files := scope.files.map Script.folded }

/-- The chain with the scripts of its scopes folded. -/
def ScopeChain.folded (chain : ScopeChain) : ScopeChain :=
  ⟨chain.scope.folded, chain.ancestors.map Scope.folded⟩

/-- Files are told apart by their paths, so the same ones are left out. -/
theorem distinctFiles_folded (seen : List String) (files : List Script) :
    distinctFiles seen (files.map Script.folded) =
      (distinctFiles seen files).map Script.folded := by
  induction files generalizing seen with
  | nil => rfl
  | cons file rest ih =>
    rw [List.map_cons, distinctFiles, distinctFiles, Script.key_folded, ih, ih]
    split <;> rfl

/-- The files of a folded chain come in the same order. -/
theorem ScopeChain.sortedFiles_folded (chain : ScopeChain) :
    chain.folded.sortedFiles = chain.sortedFiles.map Script.folded := by
  have hfiles : (chain.folded.scope :: chain.folded.ancestors).flatMap Scope.files =
      ((chain.scope :: chain.ancestors).flatMap Scope.files).map Script.folded := by
    change ((chain.scope :: chain.ancestors).map Scope.folded).flatMap Scope.files = _
    rw [List.flatMap_map, List.map_flatMap]
    rfl
  have hall : chain.folded.allFiles = chain.allFiles.map Script.folded := by
    rw [allFiles, hfiles, distinctFiles_folded, allFiles]
  rw [sortedFiles, hall, sortedFiles]
  refine (List.map_mergeSort ?_).symm
  intro left _ right _
  rfl

/-! ## Declarations -/

/-- The declaration with its names folded; `fold` folds what is declared. -/
def Declaration.folded {α : Type} (fold : α → α) (decl : Declaration α) : Declaration α :=
  ⟨decl.file, decl.name.folded, decl.namespaceKey, Text.asciiLower decl.fullName, fold decl.node⟩

namespace Declaration

variable {α : Type} (fold : α → α) (decl : Declaration α)

/-- A declaration stays in its file. -/
@[simp]
theorem file_folded : (decl.folded fold).file = decl.file := rfl

/-- The name of a folded declaration is folded. -/
@[simp]
theorem name_folded : (decl.folded fold).name = decl.name.folded := rfl

/-- A declaration stays in its namespace. -/
@[simp]
theorem namespaceKey_folded : (decl.folded fold).namespaceKey = decl.namespaceKey := rfl

/-- What is declared outside of all namespaces still is. -/
@[simp]
theorem isNamespaced_folded : (decl.folded fold).isNamespaced = decl.isNamespaced := rfl

/-- A declaration keeps the key that it is found by. -/
@[simp]
theorem key_folded : (decl.folded fold).key = decl.key := Text.lower_asciiLower decl.fullName

end Declaration

/-- The block with its names and its script folded. -/
def NamespaceBlock.folded (block : NamespaceBlock) : NamespaceBlock :=
  ⟨block.script.folded, block.owner, block.name.folded⟩

/-- A block keeps the key of its namespace. -/
@[simp]
theorem NamespaceBlock.key_folded (block : NamespaceBlock) : block.folded.key = block.key :=
  block.name.lower_folded

/-- The callable with its names folded. Those of the platform are written as they are. -/
def Callable.folded : Callable → Callable
  | .declared decl => .declared (decl.folded FunctionDecl.folded)
  | .ofPlatform function => .ofPlatform function

namespace Callable

/-- A function keeps the key that it is found by, declared or of the platform. -/
@[simp]
theorem key_folded (callable : Callable) : callable.folded.key = callable.key := by
  cases callable with
  | declared decl => exact decl.key_folded FunctionDecl.folded
  | ofPlatform function => rfl

/-- A function takes as many arguments as before. -/
@[simp]
theorem arity_folded (callable : Callable) : callable.folded.arity = callable.arity := by
  cases callable with
  | declared decl => simp [folded, arity, Declaration.folded, FunctionDecl.folded_eq]
  | ofPlatform function => rfl

/-- A function is bound where it was. -/
@[simp]
theorem bindingRange_folded (callable : Callable) :
    callable.folded.bindingRange = callable.bindingRange := by
  cases callable <;> rfl

end Callable

/-- What is declared at a node is declared under the folded name at the folded node. -/
theorem Visit.declaration_folded {α : Type} (visit : Visit) (file : String) (name : Ident)
    (fold : α → α) (node : α) :
    visit.folded.declaration file name.folded (fold node) =
      (visit.declaration file name node).folded fold := by
  simp only [declaration, Declaration.folded, namespaceKey?_folded, namespaceDecl?_folded]
  cases visit.namespaceDecl? with
  | none => rfl
  | some decl => simp [Text.asciiLower_qualified, NamespaceDecl.folded_eq, Ident.folded]

namespace Script

/-- The same statements stand at file level or in blocks. -/
theorem topLevel_folded (script : Script) :
    script.folded.topLevel = script.topLevel.map (Prod.map Visit.folded Stmt.folded) := by
  rw [topLevel, topLevel, visits_folded, List.filterMap_map, List.map_filterMap]
  refine List.filterMap_congr fun visit _ => ?_
  rw [Function.comp_apply, Visit.node_folded, Visit.isTopLevel_folded]
  cases visit.node with
  | statement stmt => cases visit.isTopLevel <;> rfl
  | _ => rfl

/-- The blocks of a folded script are its blocks, folded. -/
theorem blocks_folded (script : Script) :
    script.folded.blocks = script.blocks.map NamespaceBlock.folded := by
  rw [blocks, blocks, topLevel_folded, List.filterMap_map, List.map_filterMap]
  refine List.filterMap_congr fun entry _ => ?_
  obtain ⟨visit, stmt⟩ := entry
  cases stmt <;> simp [Stmt.folded, NamespaceDecl.folded_eq, NamespaceBlock.folded]

/-- What a folded script declares of a kind is what the script declares, folded. -/
theorem declaredAs_folded {α : Type} (script : Script) {node? : Stmt → Option α}
    {nameOf : α → Ident} {fold : α → α}
    (hnode : ∀ stmt : Stmt, node? stmt.folded = (node? stmt).map fold)
    (hname : ∀ node, nameOf (fold node) = (nameOf node).folded) :
    script.folded.declaredAs node? nameOf =
      (script.declaredAs node? nameOf).map (Declaration.folded fold) := by
  rw [declaredAs, declaredAs, topLevel_folded, List.filterMap_map, List.map_filterMap]
  refine List.filterMap_congr fun entry _ => ?_
  simp only [Function.comp_apply, Prod.map_snd, Prod.map_fst, hnode, Option.map_map]
  refine congrArg (Option.map · (node? entry.2)) (funext fun node => ?_)
  rw [Function.comp_apply, Function.comp_apply, hname]
  exact entry.1.declaration_folded script.path (nameOf node) fold node

end Script

/-! ## Namespaces -/

/-- The namespace with its name folded. -/
def NamespaceEntry.folded (entry : NamespaceEntry) : NamespaceEntry :=
  ⟨Text.asciiLower entry.fullName, entry.children⟩

section Enter

variable (entries : Keyed String NamespaceEntry)

/-- The name of a namespace inside another is folded with both. -/
theorem nameWithin_asciiLower (outer part : String) :
    nameWithin (Text.asciiLower outer) (Text.asciiLower part) =
      Text.asciiLower (nameWithin outer part) := by
  rw [nameWithin, nameWithin, Text.isEmpty_asciiLower]
  split
  · rfl
  · exact (Text.asciiLower_qualified outer part).symm

/-- A namespace is entered under the same key and keeps the folded spelling of its first block. -/
theorem enterOne_folded (outer fullName : String) :
    enterOne (entries.mapValues NamespaceEntry.folded) (Text.asciiLower outer)
        (Text.asciiLower fullName) =
      (enterOne entries outer fullName).mapValues NamespaceEntry.folded := by
  rw [enterOne, enterOne, Text.lower_asciiLower, Text.lower_asciiLower, Keyed.contains_mapValues]
  split
  · rfl
  · rw [Keyed.mapValues_adjust _ NamespaceEntry.folded (fun parent : NamespaceEntry =>
      { parent with children := parent.children ++ [Text.lower fullName] }) (fun _ => rfl),
      Keyed.mapValues_put]
    rfl

/-- The namespaces along a dotted name are entered one after the other, each folded. -/
theorem enterParts_folded (outer : String) (parts : List String) :
    enterParts (entries.mapValues NamespaceEntry.folded) (Text.asciiLower outer)
        (parts.map Text.asciiLower) =
      (enterParts entries outer parts).mapValues NamespaceEntry.folded := by
  induction parts generalizing entries outer with
  | nil => rfl
  | cons part rest ih =>
    rw [List.map_cons, enterParts_cons, enterParts_cons, nameWithin_asciiLower, enterOne_folded, ih]

/-- A namespace may be entered before or after folding. -/
theorem enterNamespace_folded (name : String) :
    enterNamespace (entries.mapValues NamespaceEntry.folded) (Text.asciiLower name) =
      (enterNamespace entries name).mapValues NamespaceEntry.folded := by
  have hparts := enterParts_folded entries "" (Text.split '.' name)
  rw [enterNamespace, enterNamespace, Text.lower_asciiLower, Text.split_asciiLower,
    Keyed.mapValues_putNew, ← hparts]
  rfl

/-- All blocks of a scope may be entered before or after folding, by induction on the blocks. -/
theorem foldl_enterNamespace_folded (blocks : List NamespaceBlock) :
    (blocks.map NamespaceBlock.folded).foldl
        (fun entries block => enterNamespace entries block.name.text)
        (entries.mapValues NamespaceEntry.folded) =
      (blocks.foldl (fun entries block => enterNamespace entries block.name.text)
        entries).mapValues NamespaceEntry.folded := by
  induction blocks generalizing entries with
  | nil => rfl
  | cons block rest ih =>
    rw [List.map_cons, List.foldl_cons, List.foldl_cons, ← ih, ← enterNamespace_folded,
      NamespaceBlock.folded, DottedName.text_folded]

end Enter

/-! ## The registry -/

/-- The enum that a statement declares. -/
def Stmt.enum? : Stmt → Option EnumDecl
  | .enumDecl decl _ => some decl
  | _ => none

/-- The interface that a statement declares. -/
def Stmt.interface? : Stmt → Option InterfaceDecl
  | .interfaceDecl decl _ => some decl
  | _ => none

namespace Script

/-- The enums of a script are collected as all other declarations are. -/
theorem enums_eq (script : Script) :
    script.enums = script.declaredAs Stmt.enum? EnumDecl.name := by
  refine List.filterMap_congr fun entry _ => ?_
  obtain ⟨visit, stmt⟩ := entry
  cases stmt <;> rfl

/-- The interfaces of a script are collected as all other declarations are. -/
theorem interfaces_eq (script : Script) :
    script.interfaces = script.declaredAs Stmt.interface? InterfaceDecl.name := by
  refine List.filterMap_congr fun entry _ => ?_
  obtain ⟨visit, stmt⟩ := entry
  cases stmt <;> rfl

end Script

/-- What the files of a folded chain declare of a kind. -/
theorem ScopeChain.flatMap_declared_folded {α : Type} (chain : ScopeChain)
    (fold : α → α) {decls : Script → List (Declaration α)} {node? : Stmt → Option α}
    {nameOf : α → Ident} (hdecls : ∀ file, decls file = file.declaredAs node? nameOf)
    (hnode : ∀ stmt : Stmt, node? stmt.folded = (node? stmt).map fold)
    (hname : ∀ node, nameOf (fold node) = (nameOf node).folded) :
    chain.folded.sortedFiles.flatMap decls =
      (chain.sortedFiles.flatMap decls).map (Declaration.folded fold) := by
  rw [sortedFiles_folded, List.flatMap_map, List.map_flatMap]
  refine List.flatMap_congr fun file _ => ?_
  rw [hdecls, hdecls, file.declaredAs_folded hnode hname]

namespace Registry

/-- The registry with everything in it folded. -/
def folded (registry : Registry) : Registry :=
  { scopeName := registry.scopeName
    files := registry.files.map Script.folded
    platform := registry.platform
    blocks := registry.blocks.map NamespaceBlock.folded
    namespaces := registry.namespaces.mapValues NamespaceEntry.folded
    classes := registry.classes.map (Declaration.folded ClassDecl.folded)
    enums := registry.enums.map (Declaration.folded EnumDecl.folded)
    consts := registry.consts.map (Declaration.folded ConstDecl.folded)
    interfaces := registry.interfaces.map (Declaration.folded InterfaceDecl.folded)
    functions := registry.functions.map (Declaration.folded FunctionDecl.folded) }

/-- The registry of a folded chain is the registry of the chain, folded. -/
theorem build_folded (chain : ScopeChain) (platform : Platform) :
    build chain.folded platform = (build chain platform).folded := by
  have hblocks : chain.folded.sortedFiles.flatMap Script.blocks =
      (chain.sortedFiles.flatMap Script.blocks).map NamespaceBlock.folded := by
    rw [ScopeChain.sortedFiles_folded, List.flatMap_map, List.map_flatMap]
    exact List.flatMap_congr fun file _ => file.blocks_folded
  have hclasses := chain.flatMap_declared_folded ClassDecl.folded Script.classes_eq
    (fun stmt => by cases stmt <;> simp [Stmt.folded, Stmt.class?])
    (fun decl => by rw [ClassDecl.folded_eq])
  have henums := chain.flatMap_declared_folded EnumDecl.folded Script.enums_eq
    (fun stmt => by cases stmt <;> simp [Stmt.folded, Stmt.enum?])
    (fun decl => by rw [EnumDecl.folded_eq])
  have hconsts := chain.flatMap_declared_folded ConstDecl.folded Script.consts_eq
    (fun stmt => by cases stmt <;> simp [Stmt.folded, Stmt.const?])
    (fun decl => by rw [ConstDecl.folded_eq])
  have hinterfaces := chain.flatMap_declared_folded InterfaceDecl.folded Script.interfaces_eq
    (fun stmt => by cases stmt <;> simp [Stmt.folded, Stmt.interface?])
    (fun decl => rfl)
  have hfunctions := chain.flatMap_declared_folded FunctionDecl.folded Script.functions_eq
    (fun stmt => by cases stmt <;> simp [Stmt.folded, Stmt.function?])
    (fun decl => by rw [FunctionDecl.folded_eq])
  have hnamespaces := foldl_enterNamespace_folded .empty (chain.sortedFiles.flatMap Script.blocks)
  simp only [build, folded, hblocks, hclasses, henums, hconsts, hinterfaces, hfunctions,
    ← hnamespaces]
  rw [ScopeChain.sortedFiles_folded]
  rfl

end Registry

/-! ## Lookups -/

/-- A name is looked up under keys in lower case, which folding does not change. -/
theorem lookupKeys_asciiLower (name : String) (enclosing : Option String) :
    lookupKeys (Text.asciiLower name) enclosing = lookupKeys name enclosing := by
  simp only [lookupKeys, Text.lower_asciiLower]

/-- The first declaration with a key is the same one, folded. -/
theorem find?_key_folded {α : Type} (fold : α → α) (decls : List (Declaration α)) (key : String) :
    ((decls.map (Declaration.folded fold)).find? fun decl => decl.key = key) =
      (decls.find? fun decl => decl.key = key).map (Declaration.folded fold) := by
  rw [List.find?_map]
  simp only [Function.comp_def, Declaration.key_folded]

/-- A name means the same declaration, folded. -/
theorem firstDeclared_folded {α : Type} (fold : α → α) (decls : List (Declaration α))
    (name : String) (enclosing : Option String) :
    firstDeclared (decls.map (Declaration.folded fold)) (Text.asciiLower name) enclosing =
      (firstDeclared decls name enclosing).map (Declaration.folded fold) := by
  rw [firstDeclared, firstDeclared, lookupKeys_asciiLower, List.map_findSome?]
  simp only [find?_key_folded, Function.comp_def]

namespace Registry

variable (registry : Registry) (name : String) (enclosing : Option String)

/-- A name means the same class, folded. -/
@[simp]
theorem class?_folded : registry.folded.class? (Text.asciiLower name) enclosing =
    (registry.class? name enclosing).map (Declaration.folded ClassDecl.folded) :=
  firstDeclared_folded _ _ _ _

/-- A name means the same enum, folded. -/
@[simp]
theorem enum?_folded : registry.folded.enum? (Text.asciiLower name) enclosing =
    (registry.enum? name enclosing).map (Declaration.folded EnumDecl.folded) :=
  firstDeclared_folded _ _ _ _

/-- A name means the same constant, folded. -/
@[simp]
theorem const?_folded : registry.folded.const? (Text.asciiLower name) enclosing =
    (registry.const? name enclosing).map (Declaration.folded ConstDecl.folded) :=
  firstDeclared_folded _ _ _ _

/-- A name means the same interface, folded. -/
@[simp]
theorem interface?_folded : registry.folded.interface? (Text.asciiLower name) enclosing =
    (registry.interface? name enclosing).map (Declaration.folded InterfaceDecl.folded) :=
  firstDeclared_folded _ _ _ _

/-- The same types are known. -/
@[simp]
theorem isKnownType_folded : registry.folded.isKnownType (Text.asciiLower name) enclosing =
    registry.isKnownType name enclosing := by
  simp [isKnownType]

/-- A name means the same namespace, folded. -/
@[simp]
theorem namespace?_folded : registry.folded.namespace? (Text.asciiLower name) enclosing =
    (registry.namespace? name enclosing).map NamespaceEntry.folded := by
  rw [namespace?, namespace?, lookupKeys_asciiLower, List.map_findSome?]
  refine congrArg (List.findSome? · _) (funext fun key => ?_)
  exact registry.namespaces.get?_mapValues NamespaceEntry.folded key

/-- The functions that can be called are the same, folded. -/
theorem callables_folded : registry.folded.callables = registry.callables.map Callable.folded := by
  simp [callables, folded, Function.comp_def, Callable.folded]

/-- A name means the same function, folded. -/
@[simp]
theorem callable?_folded : registry.folded.callable? (Text.asciiLower name) enclosing =
    (registry.callable? name enclosing).map Callable.folded := by
  rw [callable?, callable?, lookupKeys_asciiLower, List.map_findSome?, callables_folded]
  simp only [List.find?_map, Function.comp_def, Callable.key_folded]

/-- A name means the same value of the same enum, folded. -/
@[simp]
theorem enumItem?_folded : registry.folded.enumItem? (Text.asciiLower name) enclosing =
    (registry.enumItem? name enclosing).map
      (Prod.map (Declaration.folded EnumDecl.folded) (Option.map EnumItem.folded)) := by
  rw [enumItem?, enumItem?, Text.splitAtLast?_asciiLower]
  cases Text.splitAtLast? '.' name with
  | none => rfl
  | some split =>
    obtain ⟨enumName, itemName⟩ := split
    simp [Function.comp_def, Declaration.folded, EnumDecl.folded_eq, List.find?_map,
      EnumItem.folded_eq, Ident.folded]

end Registry

/-! ## Symbol tables -/

namespace Visit

/-- The nodes around a node are the same, folded. -/
theorem enclosing_folded (visit : Visit) :
    visit.folded.enclosing = visit.enclosing.map Visit.folded := by
  have hup : ∀ above : List Place,
      visitsUp (above.map Place.folded) = (visitsUp above).map Visit.folded := by
    intro above
    induction above with
    | nil => rfl
    | cons place outer ih =>
      rw [List.map_cons, visitsUp, ih]
      rfl
  exact hup visit.above

/-- The nodes around a node that own tables are the same, folded. -/
theorem owners_folded (visit : Visit) : visit.folded.owners = visit.owners.map Visit.folded := by
  rw [owners, owners, enclosing_folded, List.filter_map]
  refine congrArg (List.map Visit.folded) (List.filter_congr fun outer _ => ?_)
  exact outer.toPlace.ownsTable_folded

/-- The table of a node is joined with those of the same namespace. -/
theorem joined?_folded (visit : Visit) : visit.folded.joined? = visit.joined? := by
  have hplace : visit.folded.toPlace = visit.toPlace.folded := rfl
  simp [joined?, hplace, Function.comp_def, NamespaceDecl.folded_eq]

end Visit

/-- The bindings under one key are the same, folded. -/
theorem filter_key_folded (bindings : List Binding) (key : String) :
    ((bindings.map Binding.folded).filter fun binding => binding.key = key) =
      (bindings.filter fun binding => binding.key = key).map Binding.folded := by
  rw [List.filter_map]
  simp only [Function.comp_def, Binding.key_folded]

/-- Bindings are sorted by their keys and places, both of which folding keeps, so the order is the
same. -/
theorem mergeSort_listedBefore_folded (bindings : List Binding) :
    (bindings.map Binding.folded).mergeSort Binding.listedBefore =
      (bindings.mergeSort Binding.listedBefore).map Binding.folded := by
  refine (List.map_mergeSort ?_).symm
  intro left _ right _
  simp only [Binding.listedBefore, Binding.listingOrder, compareLex, compareOn, Binding.key_folded]
  rfl

/-- A table binds under a key what it did, folded. -/
theorem Script.boundAt_folded (script : Script) (owner : Path) (key : String) :
    script.folded.boundAt owner key = (script.boundAt owner key).map Binding.folded := by
  rw [boundAt, boundAt, bindings_folded, ownedBy_folded, filter_key_folded]

namespace Registry

/-- A block lists the same bindings, folded. -/
theorem blockListing_folded (block : NamespaceBlock) :
    blockListing block.folded = (blockListing block).map Binding.folded := by
  rw [blockListing, blockListing, ← mergeSort_listedBefore_folded, ← Script.ownedBy_folded,
    ← Script.bindings_folded]
  rfl

variable (registry : Registry)

/-- The blocks of a namespace bind under a key what they did, folded. -/
theorem boundInBlocks_folded (namespaceKey key : String) :
    registry.folded.boundInBlocks namespaceKey key =
      (registry.boundInBlocks namespaceKey key).map Binding.folded := by
  have hblocks : registry.folded.blocksOf namespaceKey =
      (registry.blocksOf namespaceKey).map NamespaceBlock.folded := by
    simp only [blocksOf, folded, List.filter_map, Function.comp_def, NamespaceBlock.key_folded]
  rw [boundInBlocks, boundInBlocks, hblocks, ← filter_key_folded, List.flatMap_map,
    List.map_flatMap]
  simp only [blockListing_folded]

/-- The table of a node and those that are joined with it bind under a key what they did, folded. -/
theorem boundAround_folded (script : Script) (key : String) (owner : Visit) :
    registry.folded.boundAround script.folded key owner.folded =
      (registry.boundAround script key owner).map Binding.folded := by
  rw [boundAround, boundAround, Visit.path_folded, script.boundAt_folded, Visit.joined?_folded]
  simp only [ne_eq, List.map_eq_nil_iff]
  split
  · rfl
  · cases owner.joined? with
    | none => rfl
    | some namespaceKey => exact registry.boundInBlocks_folded namespaceKey key

/-- The table of a folded scope binds a name at the same ranges. The functions of the platform keep
their names, so the bindings themselves may differ from the folded ones. -/
theorem map_range_scopeTable_own_folded (key : String) :
    (registry.folded.scopeTable.own key).map Binding.range =
      (registry.scopeTable.own key).map Binding.range := by
  -- functions of the platform are not folded, so only ranges and not bindings agree
  have hfiles : (registry.folded.files.flatMap fun file =>
      (file.fileTable file.bindings).listing) =
      (registry.files.flatMap fun file => (file.fileTable file.bindings).listing).map
        Binding.folded := by
    simp only [folded, List.flatMap_map, List.map_flatMap, SymbolTable.listing, Script.fileTable,
      Script.bindings_folded, Script.ownedBy_folded, mergeSort_listedBefore_folded]
  have hfunctions : ((registry.folded.functions.filter Declaration.isNamespaced).map fun decl =>
      (⟨runtimeName decl.fullName, decl.name.range, .function⟩ : Binding)) =
      ((registry.functions.filter Declaration.isNamespaced).map fun decl =>
        (⟨runtimeName decl.fullName, decl.name.range, .function⟩ : Binding)).map
          Binding.folded := by
    rw [folded, List.filter_map, List.map_map, List.map_map]
    refine List.map_congr_left fun decl _ => ?_
    simp [Declaration.folded, Binding.folded, runtimeName_asciiLower, Ident.folded,
      ValueType.folded]
  have hranges : ∀ bindings : List Binding,
      (((bindings.map Binding.folded).filter fun binding => binding.key = key).map
        Binding.range) = (bindings.filter fun binding => binding.key = key).map Binding.range := by
    intro bindings
    rw [filter_key_folded, List.map_map]
    rfl
  simp only [SymbolTable.own, scopeTable, List.filter_append, List.map_append, hfiles, hfunctions,
    hranges]

/-- What is asked for a name is bound at the same ranges. -/
theorem map_range_levels_folded (script : Script) (visit : Visit) (key : String) :
    (registry.folded.levels script.folded visit.folded key).map (List.map Binding.range) =
      (registry.levels script visit key).map (List.map Binding.range) := by
  simp only [levels, Visit.owners_folded, List.map_append, List.map_map, List.map_cons,
    List.map_nil, script.boundAt_folded, map_range_scopeTable_own_folded, Function.comp_def,
    boundAround_folded]
  rfl

end Registry

/-- A name is found in a folded scope if it is found in the scope, and bound at the same ranges. -/
theorem map_range_lookup_folded {chain : ScopeChain} (platform : Platform) {script : Script}
    (hscript : script ∈ chain.sortedFiles) {visit : Visit} (hvisit : visit ∈ script.visits)
    (name : String) :
    (Tables.lookup (linkedTables chain.folded platform) (script.folded.ref visit.table)
        (Text.asciiLower name)).map (List.map Binding.range) =
      (Tables.lookup (linkedTables chain platform) (script.ref visit.table) name).map
        (List.map Binding.range) := by
  have hscript' : script.folded ∈ chain.folded.sortedFiles := by
    rw [chain.sortedFiles_folded]
    exact List.mem_map_of_mem hscript
  have hvisit' : visit.folded ∈ script.folded.visits := by
    rw [script.visits_folded]
    exact List.mem_map_of_mem hvisit
  have hfirst : ∀ levels : List (List Binding),
      (levels.find? fun found => found ≠ []).map (List.map Binding.range) =
        (levels.map (List.map Binding.range)).find? fun found => found ≠ [] := by
    intro levels
    have hnonempty : (fun found : List Range => decide (found ≠ [])) ∘ List.map Binding.range =
        fun found => decide (found ≠ []) := by
      funext found
      simp
    rw [List.find?_map, hnonempty]
  rw [lookup_linked platform hscript hvisit, ← visit.table_folded,
    lookup_linked platform hscript' hvisit', hfirst, hfirst, Registry.build_folded,
    Text.lower_asciiLower, Registry.map_range_levels_folded]

end ScopeCheck
