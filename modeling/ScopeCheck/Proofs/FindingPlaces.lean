import ScopeCheck.Proofs.InheritedMembers
import ScopeCheck.Proofs.Routes
import ScopeCheck.Proofs.SharedInventories
import ScopeCheck.Proofs.WrittenPlaces

/-!
# Findings point at what is written

Some checks read one script, others go from class to class and from enum to enum, wherever these are
declared. A finding names a file and a range, and both have to come from the same script. Here this
is said of every check: the range is written in the script of that path, and what a finding refers
to besides is the name of a class or an enum in the script that is mentioned
(`Finding.PointsInto`). So it holds of everything that an examination finds, whatever state the
symbol tables are in (`findings_point_into_files`).
-/

namespace ScopeCheck

/-- A class or an enum that a script declares has its name at a range. -/
def Script.DeclaresAt (script : Script) (range : Range) : Prop :=
  (∃ decl ∈ script.classes, decl.name.range = range) ∨
    ∃ decl ∈ script.enums, decl.name.range = range

/-- A finding points at what is written in some scripts. -/
structure Finding.PointsInto (files : List Script) (finding : Finding) : Prop where
  /-- The finding is located at something in a script. -/
  place : ∃ script ∈ files, finding.diagnostic.file = script.path ∧
    script.Written finding.diagnostic.range
  /-- The further places are names of declarations. -/
  related : ∀ entry ∈ finding.diagnostic.related, ∃ script ∈ files,
    entry.location.file = script.path ∧ script.DeclaresAt entry.location.range

/-- The classes and the enums of a registry are declared in some scripts. -/
structure Registry.DeclaredIn (registry : Registry) (files : List Script) : Prop where
  classes : ∀ decl ∈ registry.classes, ∃ script ∈ files, decl ∈ script.classes
  enums : ∀ decl ∈ registry.enums, ∃ script ∈ files, decl ∈ script.enums

/-- The registry of a scope is built from the declarations of its files. -/
theorem Registry.declaredIn_build (chain : ScopeChain) (platform : Platform) :
    (Registry.build chain platform).DeclaredIn chain.sortedFiles :=
  ⟨fun _ => List.mem_flatMap.mp, fun _ => List.mem_flatMap.mp⟩

/-- A declaration stands in a script: it names the path of the script and has its name there. -/
structure Declaration.StandsIn {α : Type} (decl : Declaration α) (script : Script) : Prop where
  file : decl.file = script.path
  written : script.Written decl.name.range
  declares : script.DeclaresAt decl.name.range

/-- A class of a script stands in it, by its file and where its name is written. -/
theorem Script.standsIn_of_mem_classes {script : Script} {decl : Declaration ClassDecl}
    (hdecl : decl ∈ script.classes) : decl.StandsIn script where
  file := (has_of_mem_classes hdecl).1
  written := written_name_of_mem_classes hdecl
  declares := Or.inl ⟨decl, hdecl, rfl⟩

/-- An enum of a script stands in it, by its file and where its name is written. -/
theorem Script.standsIn_of_mem_enums {script : Script} {decl : Declaration EnumDecl}
    (hdecl : decl ∈ script.enums) : decl.StandsIn script where
  file := (has_of_mem_enums hdecl).1
  written := written_name_of_mem_enums hdecl
  declares := Or.inr ⟨decl, hdecl, rfl⟩

variable {files : List Script} {script : Script} {finding : Finding}

namespace Registry.DeclaredIn

variable {registry : Registry}

/-- Every class of the registry stands in a file. -/
theorem stands_classes (h : registry.DeclaredIn files) :
    ∀ decl ∈ registry.classes, ∃ script ∈ files, decl.StandsIn script := by
  intro decl hdecl
  obtain ⟨script, hscript, hmem⟩ := h.classes decl hdecl
  exact ⟨script, hscript, Script.standsIn_of_mem_classes hmem⟩

/-- Every enum of the registry stands in a file. -/
theorem stands_enums (h : registry.DeclaredIn files) :
    ∀ decl ∈ registry.enums, ∃ script ∈ files, decl.StandsIn script := by
  intro decl hdecl
  obtain ⟨script, hscript, hmem⟩ := h.enums decl hdecl
  exact ⟨script, hscript, Script.standsIn_of_mem_enums hmem⟩

end Registry.DeclaredIn

/-! ## Single findings -/

namespace Finding

section

variable (hscript : script ∈ files)
include hscript

/-- A finding at something that is written in a file points into the files. -/
theorem pointsInto_of {range : Range} (hwritten : script.Written range) (problem : Problem) :
    (Finding.of problem script.path range).PointsInto files where
  place := ⟨script, hscript, rfl, hwritten⟩
  related _ hentry := absurd hentry List.not_mem_nil

/-- So does a finding that is listed once. -/
theorem pointsInto_once {range : Range} (hwritten : script.Written range) (problem : Problem) :
    (Finding.once problem script.path range).PointsInto files where
  place := ⟨script, hscript, rfl, hwritten⟩
  related _ hentry := absurd hentry List.not_mem_nil

/-- A finding may take its file from a declaration that stands in it. -/
theorem pointsInto_of_decl {α : Type} {decl : Declaration α} (hdecl : decl.StandsIn script)
    {range : Range} (hwritten : script.Written range) (problem : Problem) :
    (Finding.of problem decl.file range).PointsInto files := by
  rw [hdecl.file]
  exact pointsInto_of hscript hwritten problem

/-- A declaration that stands in a file may be added as a related place. -/
theorem PointsInto.withDecl (h : finding.PointsInto files) {α : Type} {decl : Declaration α}
    (hdecl : decl.StandsIn script) (message : String) :
    (finding.withRelated message decl.file decl.name.range).PointsInto files where
  place := h.place
  related entry hentry := by
    rcases List.mem_append.mp hentry with hold | hnew
    · exact h.related entry hold
    · rw [List.mem_singleton.mp hnew]
      exact ⟨script, hscript, hdecl.file, hdecl.declares⟩

end

/-- A declaration that repeats another is reported at its own name. -/
theorem pointsInto_of_repeated {α : Type} {decls : List (Declaration α)}
    (hdecls : ∀ decl ∈ decls, ∃ script ∈ files, decl.StandsIn script) {key : String}
    {first other : Declaration α} {others : List (Declaration α)}
    (hdeclared : declaredAs decls key = first :: others) (hother : other ∈ others)
    (problem : Problem) (message : String) :
    ((Finding.of problem other.file other.name.range).withRelated message first.file
      first.name.range).PointsInto files := by
  have hlisted : ∀ decl ∈ first :: others, ∃ script ∈ files, decl.StandsIn script :=
    fun decl hdecl => hdecls decl (List.mem_of_mem_filter (hdeclared ▸ hdecl))
  obtain ⟨origin, horigin, hfirst⟩ := hlisted first List.mem_cons_self
  obtain ⟨script, hscript, hdecl⟩ := hlisted other (List.mem_cons_of_mem first hother)
  exact (pointsInto_of_decl hscript hdecl hdecl.written problem).withDecl horigin hfirst message

/-- What a finding refers to besides are names of enums of a registry. -/
def RelatesToEnums (registry : Registry) (finding : Finding) : Prop :=
  ∀ entry ∈ finding.diagnostic.related, ∃ decl ∈ registry.enums,
    entry.location = ⟨decl.file, decl.name.range⟩

/-- A finding without related places relates to nothing else. -/
theorem relatesToEnums_of (registry : Registry) (problem : Problem) (file : String)
    (range : Range) : (Finding.of problem file range).RelatesToEnums registry :=
  fun _ hentry => absurd hentry List.not_mem_nil

end Finding

/-! ## Chains of names -/

section Chains

variable {registry : Registry} {file : String}

/-- An enum that a name means is one of the registry. -/
theorem Registry.mem_enums_of_enum? {name : String} {enclosing : Option String}
    {decl : Declaration EnumDecl} (hdecl : registry.enum? name enclosing = some decl) :
    decl ∈ registry.enums := by
  obtain ⟨key, -, hfind⟩ := List.exists_of_findSome?_eq_some hdecl
  exact List.mem_of_find?_eq_some hfind

/-- What a chain of names comes to refers to enums of a registry only. -/
def Followed.RefersTo (registry : Registry) : Followed → Prop
  | .reached (.enum decl) => decl ∈ registry.enums
  | .reached _ => True
  | .member => True
  | .broken finding => finding.RelatesToEnums registry

/-- Wherever a step inside a namespace leads, an enum that is reached is one of the registry. -/
theorem stepNamespace_refersTo (fullName : String) (part : Ident) :
    (registry.stepNamespace file fullName part).RefersTo registry := by
  unfold Registry.stepNamespace
  simp only
  split
  · trivial
  · split
    next decl hdecl => exact Registry.mem_enums_of_enum? hdecl
    next =>
      split
      · trivial
      · split
        · trivial
        · exact Finding.relatesToEnums_of registry _ file part.range

/-- A step from an enum reaches no other, and relates what it reports to this one. -/
theorem stepEnum_refersTo {decl : Declaration EnumDecl} (hdecl : decl ∈ registry.enums)
    (part : Ident) : (registry.stepEnum file decl part).RefersTo registry := by
  unfold Registry.stepEnum
  split
  · trivial
  · intro entry hentry
    rw [List.mem_singleton.mp hentry]
    exact ⟨decl, hdecl, rfl⟩

/-- One step along a chain keeps to enums of the registry. -/
theorem stepChain_refersTo {current : Resolved}
    (hcurrent : (Followed.reached current).RefersTo registry) (part : Ident) :
    (registry.stepChain file current part).RefersTo registry := by
  cases current with
  | inNamespace fullName => exact stepNamespace_refersTo fullName part
  | enum decl => exact stepEnum_refersTo hcurrent part
  | callable => trivial
  | declared => trivial

/-- Every step of a chain refers to enums of the registry, so the whole chain does. -/
theorem followChain_refersTo {current : Resolved}
    (hcurrent : (Followed.reached current).RefersTo registry) (rest : List Ident) :
    (registry.followChain file current rest).RefersTo registry := by
  induction rest generalizing current with
  | nil => exact hcurrent
  | cons part rest ih =>
    have hstep : (registry.stepChain file current part).RefersTo registry :=
      stepChain_refersTo hcurrent part
    unfold Registry.followChain
    split
    next next hnext =>
      rw [hnext] at hstep
      exact ih hstep
    next => trivial
    next finding hbroken =>
      rw [hbroken] at hstep
      exact hstep

/-- A chain starts at an enum of the registry or at none. -/
theorem resolveRoot_refersTo (enclosing : Option String) (root : Ident) :
    (registry.resolveRoot file enclosing root).RefersTo registry := by
  unfold Registry.resolveRoot
  split
  · trivial
  · split
    next decl hdecl => exact Registry.mem_enums_of_enum? hdecl
    next => exact Finding.relatesToEnums_of registry _ file root.range

/-- Numbers of arguments are reported without related places. -/
theorem relatesToEnums_of_checkArity {range : Range} {callable : Callable} {count : Nat}
    (h : checkArity file range callable count = some finding) :
    finding.RelatesToEnums registry := by
  simp only [checkArity] at h
  split at h
  · cases h
  · cases h
    exact Finding.relatesToEnums_of registry _ file range

/-- What is reported of a bound name has no related places. -/
theorem relatesToEnums_of_checkBound {use : ChainUse} {root : Ident} {rest : List Ident}
    {bindings : List Binding} (h : checkBound registry file use root rest bindings = some finding) :
    finding.RelatesToEnums registry := by
  unfold checkBound at h
  split at h
  · split at h
    · split at h
      · exact relatesToEnums_of_checkArity h
      · cases h
    · cases h
  · cases h

/-- What is reported of what a chain has reached has no related places. -/
theorem relatesToEnums_of_checkReached {use : ChainUse} {target : Resolved}
    (h : checkReached file use target = some finding) : finding.RelatesToEnums registry := by
  cases target with
  | inNamespace fullName =>
    cases h
    exact Finding.relatesToEnums_of registry _ file use.range
  | callable callable =>
    simp only [checkReached] at h
    split at h
    · exact relatesToEnums_of_checkArity h
    · cases h
    · cases h
  | enum => cases h
  | declared => cases h

/-- The places that findings of a chain relate to are declarations of enums. -/
theorem relatesToEnums_of_checkChain {tables : Tables TableRef} {use : ChainUse}
    (h : checkChain registry tables script use = some finding) :
    finding.RelatesToEnums registry := by
  unfold checkChain at h
  split at h
  · cases h
  next root rest hparts =>
    split at h
    · exact relatesToEnums_of_checkBound h
    · have hroot : (registry.resolveRoot script.path use.namespaceKey root).RefersTo registry :=
        resolveRoot_refersTo use.namespaceKey root
      unfold checkUnbound at h
      split at h
      next broken hbroken =>
        cases h
        rw [hbroken] at hroot
        exact hroot
      next => cases h
      next start hstart =>
        rw [hstart] at hroot
        have hrest : (registry.followChain script.path start rest).RefersTo registry :=
          followChain_refersTo hroot rest
        split at h
        next broken hbroken =>
          cases h
          rw [hbroken] at hrest
          exact hrest
        next => cases h
        next => exact relatesToEnums_of_checkReached h

end Chains

/-! ## Inventories -/

section Inventories

variable {registry : Registry} (hscript : script ∈ files)
include hscript

/-- Findings of a chain of the inventory are located in it, and relate to declarations of the
registry. -/
theorem pointsInto_of_checkChain (hin : registry.DeclaredIn files) {tables : Tables TableRef}
    {use : ChainUse} (huse : use ∈ (Inventory.collect script).chains)
    (h : checkChain registry tables script use = some finding) : finding.PointsInto files := by
  obtain ⟨visit, hvisit, heq⟩ := List.mem_filterMap.mp huse
  obtain ⟨hwhole, hparts⟩ := Script.written_of_chainUse? hvisit heq
  obtain ⟨hfile, hrange⟩ := (foundInChain_of_checkChain h).isWithin
  constructor
  · refine ⟨script, hscript, hfile, ?_⟩
    rcases hrange with hrange | ⟨part, hpart, hrange⟩
    · rw [hrange]
      exact hwhole
    · rw [hrange]
      exact hparts part hpart
  · intro entry hentry
    obtain ⟨decl, hdecl, hplace⟩ := relatesToEnums_of_checkChain h entry hentry
    obtain ⟨other, hother, hmem⟩ := hin.enums decl hdecl
    have hstands := Script.standsIn_of_mem_enums hmem
    rw [hplace]
    exact ⟨other, hother, hstands.file, hstands.declares⟩

/-- Findings of the making of an object are located at the name of the class. -/
theorem pointsInto_of_checkNew {use : NewUse} (huse : use ∈ (Inventory.collect script).news)
    (h : checkNew registry script.path use = some finding) : finding.PointsInto files := by
  obtain ⟨visit, hvisit, heq⟩ := List.mem_filterMap.mp huse
  have hwritten : script.Written use.className.range := by
    have hhas := Script.has_of_mem_visits hvisit
    unfold Visit.newUse? at heq
    split at heq
    next className args range hnode =>
      cases heq
      rw [hnode] at hhas
      exact .name hhas (List.mem_singleton_self className)
    next => cases heq
  simp only [checkNew] at h
  split at h
  · cases h
  · split at h <;> cases h <;> exact Finding.pointsInto_of hscript hwritten _

/-- Findings of a signature are located at the types that are noted in it. -/
theorem pointsInto_of_mem_checkSignature {use : FuncUse}
    (huse : use ∈ (Inventory.collect script).funcs)
    (hmem : finding ∈ checkSignature registry script.path use) : finding.PointsInto files := by
  obtain ⟨visit, hvisit, heq⟩ := List.mem_filterMap.mp huse
  have hhas : script.Has (.function use.func) := by
    have hhas := Script.has_of_mem_visits hvisit
    unfold Visit.funcUse? at heq
    split at heq
    next func hnode =>
      cases heq
      rwa [hnode] at hhas
    next => cases heq
  have hwritten : ∀ note ∈ use.func.params.filterMap Param.note ++ use.func.returnType.toList,
      script.Written note.range := fun note hnote => .note hhas hnote
  rcases List.mem_append.mp hmem with hresult | hparam
  · obtain ⟨note, hnote, hfound⟩ := List.mem_filterMap.mp hresult
    split at hfound
    · cases hfound
    · cases hfound
      exact Finding.pointsInto_of hscript (hwritten note (List.mem_append_right _ hnote)) _
  · obtain ⟨param, hparam, hfound⟩ := List.mem_filterMap.mp hparam
    split at hfound
    · cases hfound
    next note hnote =>
      have hlisted : note ∈ use.func.params.filterMap Param.note :=
        List.mem_filterMap.mpr ⟨param, hparam, hnote⟩
      split at hfound
      · cases hfound
      · cases hfound
        exact Finding.pointsInto_of hscript (hwritten note (List.mem_append_left _ hlisted)) _

/-- An unknown node type is reported at the argument that names it. -/
theorem pointsInto_of_mem_checkNodeType {platform : Platform} {args : List Expr}
    (hargs : ∀ arg ∈ args, script.Has (.expression arg))
    (hmem : finding ∈ checkNodeType platform script.path args) : finding.PointsInto files := by
  cases args with
  | nil => cases hmem
  | cons node rest =>
    simp only [checkNodeType] at hmem
    split at hmem
    · cases hmem
    · split at hmem
      · cases hmem
      · rw [List.mem_singleton.mp hmem]
        exact Finding.pointsInto_once hscript (.node (hargs node List.mem_cons_self)) _

/-- Findings of an object of the platform are located at the call or at its arguments. -/
theorem pointsInto_of_mem_checkObject {platform : Platform} {object : PlatformObject}
    {call first : Expr} {rest : List Expr} (hcall : script.Has (.expression call))
    (hargs : ∀ arg ∈ first :: rest, script.Has (.expression arg))
    (hmem : finding ∈ checkObject platform script.path object call first rest) :
    finding.PointsInto files := by
  rcases List.mem_append.mp hmem with hfront | hnode
  · rcases List.mem_append.mp hfront with hcount | hold
    · split at hcount
      · cases hcount
      · rw [List.mem_singleton.mp hcount]
        exact Finding.pointsInto_once hscript (.node hcall) _
    · obtain ⟨note, -, rfl⟩ := List.mem_map.mp hold
      exact Finding.pointsInto_once hscript (.node (hargs first List.mem_cons_self)) _
  · split at hnode
    · refine pointsInto_of_mem_checkNodeType hscript (fun arg harg => ?_) hnode
      exact hargs arg (List.mem_cons_of_mem first harg)
    · cases hnode

/-- Findings of a call of `CreateObject` in the inventory point into the file. -/
theorem pointsInto_of_mem_checkCreateObject {platform : Platform} {call : Expr}
    (hcall : call ∈ (Inventory.collect script).createObjects)
    (hmem : finding ∈ checkCreateObject platform script.path call) : finding.PointsInto files := by
  obtain ⟨visit, hvisit, heq⟩ := List.mem_filterMap.mp hcall
  have hhas : script.Has (.expression call) := by
    have hhas := Script.has_of_mem_visits hvisit
    unfold Visit.createObject? at heq
    split at heq
    next expr hnode =>
      split at heq
      · cases heq
        rwa [hnode] at hhas
      · cases heq
    next => cases heq
  unfold checkCreateObject at hmem
  split at hmem
  next callee first rest range =>
    have hargs : ∀ arg ∈ first :: rest, script.Has (.expression arg) := fun arg harg =>
      hhas.child (List.mem_cons_of_mem _ (List.mem_map_of_mem harg))
    split at hmem
    · cases hmem
    · split at hmem
      · rw [List.mem_singleton.mp hmem]
        exact Finding.pointsInto_once hscript (.node (hargs first List.mem_cons_self)) _
      · exact pointsInto_of_mem_checkObject hscript hhas hargs hmem
  next => cases hmem

/-- All that is found in an inventory points into the files, one kind of use after the other. -/
theorem pointsInto_of_mem_checkInventory (hin : registry.DeclaredIn files)
    {tables : Tables TableRef}
    (hmem : finding ∈ checkInventory registry tables (Inventory.collect script)) :
    finding.PointsInto files := by
  simp only [checkInventory, List.mem_append, List.mem_filterMap, List.mem_flatMap] at hmem
  rcases hmem with ((⟨use, huse, hfound⟩ | ⟨use, huse, hfound⟩) | ⟨use, huse, hfound⟩) |
    ⟨call, hcall, hfound⟩
  · exact pointsInto_of_checkChain hscript hin huse hfound
  · exact pointsInto_of_checkNew hscript huse hfound
  · exact pointsInto_of_mem_checkSignature hscript huse hfound
  · exact pointsInto_of_mem_checkCreateObject hscript hcall hfound

end Inventories

/-! ## Enums -/

section Declarations

variable {registry : Registry} (hin : registry.DeclaredIn files)
include hin

/-- An enum that was declared before is reported at its name, and relates to the first. -/
theorem pointsInto_of_mem_checkDuplicateEnums (hmem : finding ∈ checkDuplicateEnums registry) :
    finding.PointsInto files := by
  obtain ⟨key, -, hfound⟩ := List.mem_flatMap.mp hmem
  split at hfound
  · cases hfound
  next first others hdeclared =>
    obtain ⟨other, hother, rfl⟩ := List.mem_map.mp hfound
    exact Finding.pointsInto_of_repeated hin.stands_enums hdeclared hother _ _

/-- Values of enums are reported where they are written. -/
theorem pointsInto_of_mem_checkEnumValues (hmem : finding ∈ checkEnumValues registry) :
    finding.PointsInto files := by
  obtain ⟨key, -, hkey⟩ := List.mem_flatMap.mp hmem
  obtain ⟨decl, hdeclared, hfound⟩ := List.mem_flatMap.mp hkey
  obtain ⟨item, hitem, hfound⟩ := List.mem_filterMap.mp hfound
  obtain ⟨script, hscript, hdecl⟩ := hin.enums decl (List.mem_of_mem_filter hdeclared)
  obtain ⟨-, -, range, hhas⟩ := Script.has_of_mem_enums hdecl
  have hstands := Script.standsIn_of_mem_enums hdecl
  unfold checkEnumItem at hfound
  split at hfound
  next value hvalue =>
    have hchild : Node.expression value ∈ (Node.statement (.enumDecl decl.node range)).children :=
      List.mem_filterMap.mpr ⟨item, hitem, by rw [hvalue]; rfl⟩
    split at hfound
    · split at hfound
      · cases hfound
      · cases hfound
        exact Finding.pointsInto_of_decl hscript hstands (.node (hhas.child hchild)) _
    · cases hfound
  next =>
    split at hfound
    · cases hfound
    · cases hfound
      exact Finding.pointsInto_of_decl hscript hstands (.item hhas hitem) _

/-! ## Classes -/

/-- A class that was declared before is reported at its name, and relates to the first. -/
theorem pointsInto_of_mem_checkDuplicateClasses (hmem : finding ∈ checkDuplicateClasses registry) :
    finding.PointsInto files := by
  obtain ⟨key, -, hfound⟩ := List.mem_flatMap.mp hmem
  split at hfound
  · cases hfound
  next first others hdeclared =>
    obtain ⟨other, hother, rfl⟩ := List.mem_map.mp hfound
    exact Finding.pointsInto_of_repeated hin.stands_classes hdeclared hother _ _

/-- The classes of the hierarchy are declared in the scripts. -/
theorem exists_script_of_get?_classes {key : String} {decl : Declaration ClassDecl}
    (hdecl : (Hierarchy.ofRegistry registry).classes.get? key = some decl) :
    ∃ script ∈ files, decl ∈ script.classes := by
  rw [Hierarchy.get?_classes] at hdecl
  exact hin.classes decl (List.mem_of_find?_eq_some hdecl)

/-- A class that shares its name is reported at its name, and relates to the class outside. -/
theorem pointsInto_of_checkSharedName (hscript : script ∈ files) {decl : Declaration ClassDecl}
    (hdecl : decl ∈ script.classes)
    (h : (Hierarchy.ofRegistry registry).checkSharedName decl = some finding) :
    finding.PointsInto files := by
  unfold Hierarchy.checkSharedName at h
  split at h
  · split at h
    next outer houter =>
      split at h
      · cases h
      · cases h
        obtain ⟨origin, horigin, hmem⟩ := exists_script_of_get?_classes hin houter
        have hstands := Script.standsIn_of_mem_classes hdecl
        exact (Finding.pointsInto_of_decl hscript hstands hstands.written _).withDecl horigin
          (Script.standsIn_of_mem_classes hmem) _
    next => cases h
  · cases h

/-- A circle is reported at the name of a class on it. -/
theorem pointsInto_of_mem_checkCircles
    (hmem : finding ∈ (Hierarchy.ofRegistry registry).checkCircles) : finding.PointsInto files := by
  obtain ⟨circle, -, hfound⟩ := List.mem_filterMap.mp hmem
  unfold Hierarchy.reportCircle at hfound
  split at hfound
  · cases hfound
  next anchor others hdecls =>
    cases hfound
    have hanchor : anchor ∈ circle.filterMap (Hierarchy.ofRegistry registry).classes.get? := by
      rw [hdecls]
      exact List.mem_cons_self
    obtain ⟨key, -, hkey⟩ := List.mem_filterMap.mp hanchor
    obtain ⟨script, hscript, hdecl⟩ := exists_script_of_get?_classes hin hkey
    have hstands := Script.standsIn_of_mem_classes hdecl
    exact Finding.pointsInto_of_decl hscript hstands hstands.written _

end Declarations

section Members

variable (hscript : script ∈ files) {decl : Declaration ClassDecl} (hdecl : decl ∈ script.classes)
include hscript hdecl

/-- A problem at something in the script of a class. -/
theorem pointsInto_of_written {range : Range} (hwritten : script.Written range)
    (problem : Problem) : (Finding.of problem decl.file range).PointsInto files :=
  Finding.pointsInto_of_decl hscript (Script.standsIn_of_mem_classes hdecl) hwritten problem

/-- Findings of a member of a class are located at its name, and relate to nothing that is not
written. -/
theorem pointsInto_of_mem_turns {hierarchy : Hierarchy} {registry : Registry} {key : String}
    {turn : List Member × Member} (hturn : turn ∈ Member.turns [] decl.node.members)
    (hmem : finding ∈ hierarchy.memberFindings registry key decl turn.1 turn.2) :
    finding.PointsInto files := by
  obtain ⟨problem, rfl⟩ := Hierarchy.exists_of_mem_memberFindings hmem
  have hwritten := Script.written_name_of_member hdecl (Hierarchy.mem_of_mem_turns hturn)
  exact pointsInto_of_written hscript hdecl hwritten problem

/-- Findings of a constructor are located at its name or inside its body. -/
theorem pointsInto_of_mem_checkConstructor (hmem : finding ∈ checkConstructor decl) :
    finding.PointsInto files := by
  unfold checkConstructor at hmem
  split at hmem
  next parent constructor hparent hconstructor =>
    have hmethod : constructor ∈ decl.node.methods := List.mem_of_find?_eq_some hconstructor
    obtain ⟨target, htarget, heq⟩ := List.mem_filterMap.mp hmethod
    cases target with
    | field => cases heq
    | method target =>
      cases heq
      have hmember := Script.has_member hdecl htarget
      -- the body is below the member, and so in the script
      have hbody : ∀ stmt ∈ constructor.func.body, script.Has (.statement stmt) := by
        intro stmt hstmt
        have hfunc : script.Has (.function constructor.func) :=
          hmember.child (List.mem_singleton_self _)
        exact hfunc.child (List.mem_append_right _ (List.mem_map_of_mem hstmt))
      rcases List.mem_append.mp hmem with huse | hmissing
      · obtain ⟨range, hrange, rfl⟩ := List.mem_map.mp huse
        exact pointsInto_of_written hscript hdecl
          (Script.written_of_mem_scanBody hbody range hrange) _
      · split at hmissing
        · cases hmissing
        · rw [List.mem_singleton.mp hmissing]
          exact pointsInto_of_written hscript hdecl
            (Script.written_name_of_member hdecl htarget) _
  next => cases hmem

/-- Types of fields are reported where they are noted. -/
theorem pointsInto_of_mem_checkFieldTypes {registry : Registry}
    (hmem : finding ∈ checkFieldTypes registry decl) : finding.PointsInto files := by
  obtain ⟨field, hfield, hfound⟩ := List.mem_filterMap.mp hmem
  obtain ⟨target, htarget, heq⟩ := List.mem_filterMap.mp hfield
  split at hfound
  · cases hfound
  next note hnote =>
    split at hfound
    · split at hfound
      · cases hfound
      · cases hfound
        cases target with
        | method => cases heq
        | field target =>
          cases heq
          have hwritten : script.Written note.range :=
            .note (Script.has_member hdecl htarget) (Option.mem_toList.mpr hnote)
          exact pointsInto_of_written hscript hdecl hwritten _
    · cases hfound

end Members

/-- All that is found of classes points into the files, one check after the other. -/
theorem pointsInto_of_mem_checkClasses {registry : Registry} (hin : registry.DeclaredIn files)
    (hmem : finding ∈ checkClasses registry) : finding.PointsInto files := by
  have hvalues : ∀ decl ∈ (Hierarchy.ofRegistry registry).classes.values,
      ∃ script ∈ files, decl ∈ script.classes := by
    intro decl hdecl
    obtain ⟨key, hkey⟩ := Keyed.mem_values_iff.mp hdecl
    exact exists_script_of_get?_classes hin hkey
  simp only [checkClasses, Hierarchy.checkMembers_eq, List.mem_append, List.mem_filterMap,
    List.mem_flatMap] at hmem
  rcases hmem with ((((hduplicate | ⟨decl, hdecl, hshared⟩) | hcircle) |
    ⟨entry, hentry, turn, hturn, hfound⟩) | ⟨decl, hdecl, hconstructor⟩) | ⟨decl, hdecl, htype⟩
  · exact pointsInto_of_mem_checkDuplicateClasses hin hduplicate
  · obtain ⟨script, hscript, hclass⟩ := hvalues decl hdecl
    exact pointsInto_of_checkSharedName hin hscript hclass hshared
  · exact pointsInto_of_mem_checkCircles hin hcircle
  · obtain ⟨script, hscript, hclass⟩ := hvalues entry.2 (List.mem_map_of_mem hentry)
    exact pointsInto_of_mem_turns hscript hclass hturn hfound
  · obtain ⟨script, hscript, hclass⟩ := hvalues decl hdecl
    exact pointsInto_of_mem_checkConstructor hscript hclass hconstructor
  · obtain ⟨script, hscript, hclass⟩ := hvalues decl hdecl
    exact pointsInto_of_mem_checkFieldTypes hscript hclass htype

/-! ## Examinations -/

/-- Whatever state the symbol tables are in, everything that the examination of a scope finds points
at something in a script of the scope, and refers to names of declarations in its scripts. -/
theorem findings_point_into_files (chain : ScopeChain) (platform : Platform)
    (tables : Tables TableRef) :
    ∀ finding ∈ (examineOn chain platform ⟨tables, .empty⟩).1.findings,
      finding.PointsInto chain.sortedFiles := by
  intro finding hmem
  have hin := Registry.declaredIn_build chain platform
  -- the memo is empty, so every inventory is that of a script of the chain
  have hinventories : (takeInventories .empty chain.sortedFiles).1 =
      chain.sortedFiles.map Inventory.collect :=
    (takeInventories_of_trueOf chain.nodup_key_sortedFiles (Memo.trueOf_empty _)
      fun _ hfile => hfile).1
  rcases List.mem_append.mp hmem with hclass | hname
  · exact pointsInto_of_mem_checkClasses hin hclass
  · rcases List.mem_append.mp hname with hrest | hvalue
    · rcases List.mem_append.mp hrest with hscript | hduplicate
      · obtain ⟨inventory, hinventory, hfound⟩ := List.mem_flatMap.mp hscript
        change inventory ∈ (takeInventories .empty chain.sortedFiles).1 at hinventory
        rw [hinventories] at hinventory
        obtain ⟨script, hscript, rfl⟩ := List.mem_map.mp hinventory
        exact pointsInto_of_mem_checkInventory hscript hin hfound
      · exact pointsInto_of_mem_checkDuplicateEnums hin hduplicate
    · exact pointsInto_of_mem_checkEnumValues hin hvalue

/-! ## A class in two files -/

/-- The declaration of a class on a line. -/
def twin (path : String) (line : Nat) : Declaration ClassDecl :=
  Hierarchy.plainClass path line "Twin" []

/-- A script that declares the class. -/
def twinScript (path : String) (line : Nat) : Script :=
  ⟨path, none, [.classDecl (twin path line).node (.onLine line 0 10)]⟩

/-- The scope of two scripts that declare one class. -/
def twinsChain : ScopeChain :=
  ⟨.ofProgram [twinScript "source/a.bs" 0, twinScript "source/b.bs" 3], []⟩

/-- What is found for the second declaration. -/
def twinFinding : Finding :=
  (Finding.of (.duplicateClass "source" "Twin") "source/b.bs" (.onLine 3 6 4)).withRelated
    "'Twin' is first declared here" "source/a.bs" (.onLine 0 6 4)

/-- The two files are already in order. -/
theorem sortedFiles_twinsChain :
    twinsChain.sortedFiles = [twinScript "source/a.bs" 0, twinScript "source/b.bs" 3] := by
  have hall : twinsChain.allFiles = [twinScript "source/a.bs" 0, twinScript "source/b.bs" 3] := by
    rw [ScopeChain.allFiles_eq]
    exact firstBy_of_nodup Script.key (by decide +kernel)
  rw [ScopeChain.sortedFiles, hall]
  exact List.mergeSort_of_pairwise (by decide +kernel)

/-- Both files declare the class. -/
theorem classes_twinsChain :
    (Registry.build twinsChain (.withNodes [])).classes =
      [twin "source/a.bs" 0, twin "source/b.bs" 3] := by
  have hclasses : ∀ path line, (twinScript path line).classes = [twin path line] := by
    intro path line
    rw [Script.classes, Script.topLevel, Script.visits_eq_visitsTo 1 rfl]
    rfl
  simp [Registry.build, sortedFiles_twinsChain, hclasses]

/-- The class is reported in the second file and relates to the first. -/
theorem twinFinding_mem :
    twinFinding ∈ checkDuplicateClasses (Registry.build twinsChain (.withNodes [])) := by
  have hkey : ∀ path line, (twin path line).key = "twin" := by
    intro path line
    have hlower : Text.lower "Twin" = "twin" := by decide +kernel
    exact hlower
  have hdeclared : declaredAs (Registry.build twinsChain (.withNodes [])).classes "twin" =
      [twin "source/a.bs" 0, twin "source/b.bs" 3] := by
    simp [classes_twinsChain, declaredAs, hkey]
  have hmem := mem_checkDuplicateClasses hdeclared List.mem_cons_self
  exact hmem

/-- The second declaration of a class is reported in its own file, and the report refers to the
first one in the other file. -/
theorem twins_reported_in_their_files :
    twinFinding ∈ (examine twinsChain (.withNodes [])).findings ∧
      twinFinding.PointsInto twinsChain.sortedFiles := by
  have hmem : twinFinding ∈ (examine twinsChain (.withNodes [])).findings := by
    apply List.mem_append_left
    simp only [checkClasses, List.mem_append, twinFinding_mem, true_or]
  exact ⟨hmem, findings_point_into_files twinsChain (.withNodes [])
    (Script.tablesOf twinsChain.sortedFiles) twinFinding hmem⟩

end ScopeCheck
