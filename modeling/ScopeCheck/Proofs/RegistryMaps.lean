import Mathlib.Data.Multiset.Basic
import ScopeCheck.Check.Examination
import ScopeCheck.Proofs.Hierarchy
import ScopeCheck.Proofs.TextOrder

/-!
# What the checks read of a registry

The checks ask a registry what is declared under a key, or for all keys in order. So two registries
that keep the same under every key lead to the same findings, in whatever order they keep it
(`Registry.SameMaps`): the checks of classes (`checkClasses_eq`) and, where names are looked up in
tables that find the same bindings in some order, the checks of names (`checkNames_eq`). Of the
platform they ask which node types there are.
-/

namespace ScopeCheck

namespace Registry

/-- Two registries keep the same under every key. -/
structure SameMaps (left right : Registry) : Prop where
  /-- They are of scopes of one name. -/
  scopeName : left.scopeName = right.scopeName
  /-- The scripts are the same, in the same order. -/
  files : left.files = right.files
  /-- The platforms have the same node types. -/
  isNode : left.platform.isNode = right.platform.isNode
  /-- The blocks of each namespace are the same. -/
  blocksOf : ∀ key, left.blocksOf key = right.blocksOf key
  /-- Under each key there is the same namespace. -/
  namespaces : ∀ key, left.namespaces.get? key = right.namespaces.get? key
  /-- Under each key the same classes are declared. -/
  classes : ∀ key, declaredAs left.classes key = declaredAs right.classes key
  /-- Under each key the same enums are declared. -/
  enums : ∀ key, declaredAs left.enums key = declaredAs right.enums key
  /-- Under each key the same constants are declared. -/
  consts : ∀ key, declaredAs left.consts key = declaredAs right.consts key
  /-- Under each key the same interfaces are declared. -/
  interfaces : ∀ key, declaredAs left.interfaces key = declaredAs right.interfaces key
  /-- Under each key the same functions are declared. -/
  functions : ∀ key, declaredAs left.functions key = declaredAs right.functions key

/-- A registry has the maps that it has. -/
theorem SameMaps.refl (registry : Registry) : registry.SameMaps registry :=
  ⟨rfl, rfl, rfl, fun _ => rfl, fun _ => rfl, fun _ => rfl, fun _ => rfl, fun _ => rfl,
    fun _ => rfl, fun _ => rfl⟩

end Registry

/-! ## Lists of declarations -/

/-- A class that is not the first under its key is reported, with a reference to the first. -/
theorem mem_checkDuplicateClasses {registry : Registry} {key : String}
    {first other : Declaration ClassDecl} {others : List (Declaration ClassDecl)}
    (hdeclared : declaredAs registry.classes key = first :: others) (hother : other ∈ others) :
    (Finding.of (.duplicateClass registry.scopeName other.fullName) other.file
        other.name.range).withRelated
        s!"'{first.fullName}' is first declared here" first.file first.name.range ∈
      checkDuplicateClasses registry := by
  obtain ⟨hmem, hkey⟩ := List.mem_filter.mp (hdeclared ▸ List.mem_cons_self)
  have hlisted : key ∈ sortedKeys registry.classes :=
    mem_sortedKeys.mpr ⟨first, hmem, of_decide_eq_true hkey⟩
  refine List.mem_flatMap.mpr ⟨key, hlisted, ?_⟩
  rw [hdeclared]
  exact List.mem_map_of_mem hother

/-- What is left after duplicates are erased has none. -/
theorem nodup_eraseDups {α : Type} [BEq α] [LawfulBEq α] :
    ∀ list : List α, list.eraseDups.Nodup
  | [] => by simp
  | first :: rest => by
    rw [List.eraseDups_cons, List.nodup_cons]
    exact ⟨by simp [List.mem_eraseDups], nodup_eraseDups _⟩
termination_by list => list.length
decreasing_by
  have hle := rest.length_filter_le fun other => !other == first
  simp only [List.length_cons]
  omega

/-- Each key of a list of declarations is visited once. -/
theorem nodup_sortedKeys {α : Type} (decls : List (Declaration α)) : (sortedKeys decls).Nodup :=
  (List.mergeSort_perm _ _).nodup_iff.mpr (nodup_eraseDups _)

section Declarations

variable {α : Type} {left right : List (Declaration α)}
  (hsame : ∀ key, declaredAs left key = declaredAs right key)
include hsame

/-- The first declaration under a key is the same. -/
theorem find?_key_congr (key : String) :
    (left.find? fun decl => decl.key = key) = right.find? fun decl => decl.key = key := by
  have hhead := congrArg List.head? (hsame key)
  simpa only [declaredAs, List.head?_filter] using hhead

/-- A name means the same declaration, under whichever of its keys. -/
theorem firstDeclared_congr : firstDeclared left = firstDeclared right := by
  funext name enclosing
  simp only [firstDeclared, find?_key_congr hsame]

/-- The same declarations stand in both lists, as each stands under its own key. -/
theorem mem_congr (decl : Declaration α) : decl ∈ left ↔ decl ∈ right := by
  have hmem : decl ∈ declaredAs left decl.key ↔ decl ∈ declaredAs right decl.key := by
    rw [hsame]
  simpa [declaredAs] using hmem

/-- The sorted keys do not tell in which order the declarations came. -/
theorem sortedKeys_congr : sortedKeys left = sortedKeys right := by
  have hperm : (left.map Declaration.key).eraseDups.Perm
      (right.map Declaration.key).eraseDups := by
    rw [List.perm_ext_iff_of_nodup (nodup_eraseDups _) (nodup_eraseDups _)]
    intro key
    simp only [List.mem_eraseDups, List.mem_map, mem_congr hsame]
  exact sort_by_congr id hperm (by simpa using nodup_eraseDups _)

end Declarations

namespace Registry.SameMaps

variable {left right : Registry} (h : left.SameMaps right)
include h

/-! ## Lookups -/

/-- A name means the same namespace in both registries. -/
theorem namespace?_eq : left.namespace? = right.namespace? := by
  funext name enclosing
  unfold namespace?
  rw [funext h.namespaces]

/-- A name means the same class in both registries. -/
theorem class?_eq : left.class? = right.class? := firstDeclared_congr h.classes

/-- A name means the same enum in both registries. -/
theorem enum?_eq : left.enum? = right.enum? := firstDeclared_congr h.enums

/-- A name means the same constant in both registries. -/
theorem const?_eq : left.const? = right.const? := firstDeclared_congr h.consts

/-- A name means the same interface in both registries. -/
theorem interface?_eq : left.interface? = right.interface? := firstDeclared_congr h.interfaces

/-- A name means the same function in both registries. -/
theorem callable?_eq : left.callable? = right.callable? := by
  funext name enclosing
  have hdeclared : ∀ key, ((left.functions.map Callable.declared).find? fun callable =>
      callable.key = key) = (right.functions.map Callable.declared).find? fun callable =>
        callable.key = key := by
    intro key
    rw [List.find?_map, List.find?_map]
    exact congrArg (Option.map Callable.declared) (find?_key_congr h.functions key)
  simp only [callable?, callables, List.find?_append, hdeclared]

/-- A name means the same value of an enum in both registries. -/
theorem enumItem?_eq : left.enumItem? = right.enumItem? := by
  funext name enclosing
  simp only [enumItem?, h.enum?_eq]

/-- The same types are known to both registries. -/
theorem isKnownType_eq : left.isKnownType = right.isKnownType := by
  funext name enclosing
  simp only [isKnownType, h.class?_eq, h.interface?_eq, h.enum?_eq]

/-! ## Classes -/

/-- Classes are linked alike, since links are found by lookups and entered by sorted keys. -/
theorem hierarchy_eq : Hierarchy.ofRegistry left = Hierarchy.ofRegistry right := by
  have hparent : left.parentClass? = right.parentClass? := by
    funext decl
    simp only [parentClass?, h.class?_eq]
  simp only [Hierarchy.ofRegistry, sortedKeys_congr h.classes, find?_key_congr h.classes, hparent]

/-- Members are checked alike, as only known types are asked of the registry. -/
theorem checkMembers_eq (hierarchy : Hierarchy) :
    hierarchy.checkMembers left = hierarchy.checkMembers right := by
  have hfield : hierarchy.checkField left = hierarchy.checkField right := by
    funext decl ancestor child base
    unfold Hierarchy.checkField Hierarchy.acceptsType
    rw [h.class?_eq]
  have hafter : ∀ (key : String) (decl : Declaration ClassDecl) (members : List Member)
      (seen : List String),
      hierarchy.checkMembersAfter left key decl seen members =
        hierarchy.checkMembersAfter right key decl seen members := by
    intro key decl members
    induction members with
    | nil =>
      intro seen
      rfl
    | cons target rest ih =>
      intro seen
      simp only [Hierarchy.checkMembersAfter, Hierarchy.checkMember, Hierarchy.checkOverride,
        hfield, ih]
  simp only [Hierarchy.checkMembers, hafter]

/-- All checks of classes find the same, in the same order. -/
theorem checkClasses_eq : checkClasses left = checkClasses right := by
  have hfields : checkFieldTypes left = checkFieldTypes right := by
    funext decl
    simp only [checkFieldTypes, h.isKnownType_eq]
  simp only [checkClasses, checkDuplicateClasses, sortedKeys_congr h.classes, h.classes,
    h.scopeName, h.hierarchy_eq, h.checkMembers_eq, hfields]

/-! ## Names -/

/-- A chain of names takes the same step in both registries. -/
theorem stepChain_eq : left.stepChain = right.stepChain := by
  funext file current part
  cases current with
  | inNamespace fullName =>
    simp only [stepChain, stepNamespace, h.namespace?_eq, h.enum?_eq, h.callable?_eq, h.class?_eq,
      h.const?_eq]
  | enum decl => simp only [stepChain, stepEnum, h.enumItem?_eq]
  | callable callable => rfl
  | declared => rfl

/-- A chain of names leads to the same in both registries, part by part. -/
theorem followChain_eq (file : String) (parts : List Ident) (current : Resolved) :
    left.followChain file current parts = right.followChain file current parts := by
  induction parts generalizing current with
  | nil => rfl
  | cons part rest ih => simp only [followChain, h.stepChain_eq, ih]

omit h in
/-- Whether a callable is among the bindings does not depend on their order. -/
theorem bindsCallable_congr {bindings others : List Binding} (hperm : bindings.Perm others) :
    bindsCallable bindings = bindsCallable others := by
  funext callable
  exact hperm.any_eq

/-- A chain of names is checked alike where its first name is bound alike, in any order. -/
theorem checkChain_eq {tables others : Tables TableRef} {script : Script}
    (hlookup : ∀ path name,
      (Tables.lookup tables (script.ref path) name).map Multiset.ofList =
        (Tables.lookup others (script.ref path) name).map Multiset.ofList) :
    checkChain left tables script = checkChain right others script := by
  funext chain
  unfold checkChain
  split
  · rfl
  · rename_i root rest hparts
    have hroot := hlookup chain.table root.text
    cases hfound : Tables.lookup tables (script.ref chain.table) root.text with
    | none =>
      rw [hfound, Option.map_none, eq_comm, Option.map_eq_none_iff] at hroot
      rw [hroot]
      simp only [checkUnbound, resolveRoot, h.namespace?_eq, h.enum?_eq, h.followChain_eq]
    | some bindings =>
      rw [hfound, Option.map_some, eq_comm, Option.map_eq_some_iff] at hroot
      obtain ⟨bound, hbound, hsame⟩ := hroot
      rw [hbound]
      unfold checkBound
      simp only [h.callable?_eq, bindsCallable_congr (Multiset.coe_eq_coe.mp hsame)]

/-- The making of an object is checked alike. -/
theorem checkNew_eq : checkNew left = checkNew right := by
  funext file use
  simp only [checkNew, h.class?_eq, h.namespace?_eq, h.enum?_eq, h.callable?_eq, h.const?_eq,
    h.scopeName]

/-- Signatures are checked alike. -/
theorem checkSignature_eq : checkSignature left = checkSignature right := by
  have htype : isValidType left = isValidType right := by
    funext type enclosing
    simp only [isValidType, h.isKnownType_eq]
  funext file use
  simp only [checkSignature, htype]

/-- The making of objects asks the platform for its node types only. -/
theorem checkCreateObject_eq :
    checkCreateObject left.platform = checkCreateObject right.platform := by
  funext file call
  have hnode : checkNodeType left.platform file = checkNodeType right.platform file := by
    funext rest
    cases rest <;> simp only [checkNodeType, h.isNode]
  unfold checkCreateObject
  simp only [checkObject, hnode]

/-- Both checks of enums find the same, in the same order. -/
theorem checkEnums_eq :
    checkDuplicateEnums left = checkDuplicateEnums right ∧
      checkEnumValues left = checkEnumValues right := by
  simp only [checkDuplicateEnums, checkEnumValues, sortedKeys_congr h.enums, h.enums, h.scopeName,
    and_self]

/-- Names are checked alike where all names are bound alike, in any order. -/
theorem checkNames_eq {tables others : Tables TableRef} {inventories : List Inventory}
    (hlookup : ∀ inventory ∈ inventories, ∀ path name,
      (Tables.lookup tables (inventory.script.ref path) name).map Multiset.ofList =
        (Tables.lookup others (inventory.script.ref path) name).map Multiset.ofList) :
    checkNames left tables inventories = checkNames right others inventories := by
  have hinventory : ∀ inventory ∈ inventories,
      checkInventory left tables inventory = checkInventory right others inventory := by
    intro inventory hmem
    simp only [checkInventory, h.checkChain_eq (hlookup inventory hmem), h.checkNew_eq,
      h.checkSignature_eq, h.checkCreateObject_eq]
  rw [checkNames, List.flatMap_congr hinventory, h.checkEnums_eq.1, h.checkEnums_eq.2, checkNames]

end Registry.SameMaps

/-- The label of a scope carries its name. -/
theorem Scope.name_label (scope : Scope) : scope.label.name = scope.name := by
  unfold label
  split <;> rfl

end ScopeCheck
