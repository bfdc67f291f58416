import ScopeCheck.Proofs.Declared
import ScopeCheck.Proofs.DottedText
import ScopeCheck.Proofs.Hierarchy
import ScopeCheck.Proofs.Routes

/-!
# Clauses that name a parent class

The clause of a class that extends another is resolved twice. The check of names walks it part by
part, through tables and namespaces, and reports a part that leads nowhere. The hierarchy looks up
its whole text: from the namespace around the class if it has one part, and outside of all
namespaces if it has several.

Where the walk reports nothing the lookup can still fail. There are two reasons for that, which
`Heir.Misses` spells out. A clause of several parts may mean one thing inside the namespace around
the class and another outside of all namespaces; the walk starts inside, the hierarchy looks
outside. And a clause may mean no class at all, though the walk ends well (`Heir.EndsBeside`): at a
first part that the tables bind to something else, such as a function, a constant or a class of an
outer block, at an enum, or at something in a namespace that is no class or is followed by further
parts. Otherwise, and only then, a class on whose clause nothing is reported is linked to the class
that the clause means in the namespace around it (`Heir.linked_iff_of_unreported`).
-/

namespace ScopeCheck

/-! ## Where the walk reports -/

/-- A finding is located on a dotted name of a file: on the whole name or on one of its parts. -/
def Finding.IsOn (finding : Finding) (file : String) (name : DottedName) : Prop :=
  finding.diagnostic.file = file ∧
    (finding.diagnostic.range = name.range ∨
      ∃ part ∈ name.parts, finding.diagnostic.range = part.range)

namespace Registry

variable {registry : Registry} {file : String}

/-- A full name is that of an enum, of something to call, of a constant or of a class. -/
inductive Names (registry : Registry) (name : String) : Prop
  | ofEnum (hsome : (registry.enum? name none).isSome = true)
  | ofCallable (hsome : (registry.callable? name none).isSome = true)
  | ofConst (hsome : (registry.const? name none).isSome = true)
  | ofClass (hsome : (registry.class? name none).isSome = true)

/-- One more name in a namespace is that of a namespace, of something else that is declared, or
leads nowhere. -/
theorem stepNamespace_cases (registry : Registry) (file fullName : String) (part : Ident) :
    (∃ entry, registry.namespace? s!"{fullName}.{part.text}" none = some entry ∧
        registry.stepNamespace file fullName part = .reached (.inNamespace entry.fullName)) ∨
      (registry.namespace? s!"{fullName}.{part.text}" none = none ∧
        registry.Names s!"{fullName}.{part.text}") ∨
      registry.stepNamespace file fullName part =
        .broken (.of (.cannotFindName part.text (some fullName)) file part.range) := by
  simp only [stepNamespace]
  generalize s!"{fullName}.{part.text}" = name
  cases hnamespace : registry.namespace? name none with
  | some entry => exact .inl ⟨entry, rfl, rfl⟩
  | none =>
    right
    cases henum : registry.enum? name none with
    | some decl => exact .inl ⟨rfl, .ofEnum (Option.isSome_of_eq_some henum)⟩
    | none =>
      cases hcallable : registry.callable? name none with
      | some callable => exact .inl ⟨rfl, .ofCallable (Option.isSome_of_eq_some hcallable)⟩
      | none =>
        simp only
        split
        · rename_i hsome
          rcases Bool.or_eq_true_iff.mp hsome with hclass | hconst
          · exact .inl ⟨trivial, .ofClass hclass⟩
          · exact .inl ⟨trivial, .ofConst hconst⟩
        · exact .inr rfl

/-- What is reported of a parent class is located on the clause. -/
theorem isOn_of_checkChain {tables : Tables TableRef} {script : Script} {clause : DottedName}
    {enclosing : Option String} {table : Path} {finding : Finding}
    (hfinding : checkChain registry tables script
      ⟨clause.parts, .parentClass, enclosing, table, clause.range⟩ = some finding) :
    finding.IsOn script.path clause :=
  (foundInChain_of_checkChain hfinding).isWithin

/-! ## Where the walk ends -/

/-- Parts of a name that lead from one namespace to another, each to one right inside. -/
inductive Passes (registry : Registry) : String → List Ident → String → Prop
  /-- No part leads from a namespace to itself. -/
  | here (fullName : String) : Passes registry fullName [] fullName
  /-- A part leads to a namespace inside, and the other parts on from there. -/
  | inside {fullName last : String} {part : Ident} {rest : List Ident} {entry : NamespaceEntry}
      (hentry : registry.namespace? s!"{fullName}.{part.text}" none = some entry)
      (hrest : Passes registry entry.fullName rest last) :
      Passes registry fullName (part :: rest) last

/-- A walk from a namespace that neither breaks nor ends in a namespace leaves the namespaces at
something that is declared. -/
theorem exists_names_of_followChain {fullName : String} {parts : List Ident}
    (hunbroken : ∀ finding,
      registry.followChain file (.inNamespace fullName) parts ≠ .broken finding)
    (hend : ∀ name, registry.followChain file (.inNamespace fullName) parts ≠
      .reached (.inNamespace name)) :
    ∃ passed part rest last, parts = passed ++ part :: rest ∧
      registry.Passes fullName passed last ∧
      registry.namespace? s!"{last}.{part.text}" none = none ∧
      registry.Names s!"{last}.{part.text}" := by
  induction parts generalizing fullName with
  | nil => exact absurd rfl (hend fullName)
  | cons part rest ih =>
    rw [followChain, stepChain] at hunbroken hend
    rcases registry.stepNamespace_cases file fullName part with
      ⟨entry, hentry, hstep⟩ | ⟨hnamespace, hnames⟩ | hstep
    · rw [hstep] at hunbroken hend
      obtain ⟨passed, next, later, last, rfl, hpasses, hmet⟩ := ih hunbroken hend
      exact ⟨part :: passed, next, later, last, rfl, .inside hentry hpasses, hmet⟩
    · exact ⟨[], part, rest, fullName, rfl, .here fullName, hnamespace, hnames⟩
    · rw [hstep] at hunbroken
      exact absurd rfl (hunbroken _)

/-- Along namespaces, what a longer front of a name leads to stands under one of the keys that are
looked up for it, if no sigma is in the way. -/
theorem Passes.mem_lookupKeys {chain : ScopeChain} {platform : Platform} {enclosing : Option String}
    (haround : ∀ outer ∈ enclosing, PlainKey outer) {fullName last : String}
    {front passed : List Ident}
    (hpasses : (build chain platform).Passes fullName passed last) (hne : front ≠ [])
    (hfree : ∀ part ∈ front ++ passed, Text.SigmaFree part.text)
    (hmeans : Text.lower fullName ∈ lookupKeys (dottedText front) enclosing) :
    Text.lower last ∈ lookupKeys (dottedText (front ++ passed)) enclosing := by
  induction hpasses generalizing front with
  | here fullName =>
    rw [List.append_nil]
    exact hmeans
  | @inside fullName last part rest entry hentry hrest ih =>
    have hlonger : front ++ part :: rest = (front ++ [part]) ++ rest := by
      rw [List.append_assoc, List.singleton_append]
    rw [hlonger] at hfree ⊢
    refine ih (List.append_ne_nil_of_right_ne_nil _ (List.cons_ne_nil _ _)) hfree ?_
    rw [List.mem_singleton.mp (lower_mem_lookupKeys_of_namespace? hentry), dottedText_concat hne]
    exact qualified_mem_lookupKeys haround
      (sigmaFree_dottedText fun other hother =>
        hfree other (List.mem_append_left rest (List.mem_append_left _ hother)))
      (hfree part (List.mem_append_left rest (List.mem_append_right _ List.mem_cons_self))) hmeans

end Registry

/-! ## Classes that extend others -/

/-- A registered declaration of a class that extends another. -/
structure Heir (chain : ScopeChain) where
  /-- The script of the declaration. -/
  script : Script
  /-- The script belongs to the scope. -/
  inScope : script ∈ chain.sortedFiles
  /-- The visit of the declaration. -/
  visit : Visit
  /-- What is declared. -/
  decl : ClassDecl
  /-- Where it is written. -/
  range : Range
  /-- The declaration stands at file level or in namespace blocks. -/
  listed : (visit, Stmt.classDecl decl range) ∈ script.topLevel
  /-- The clause. -/
  clause : DottedName
  /-- The clause is that of the class. -/
  parent_eq : decl.parent = some clause

namespace Heir

variable {chain : ScopeChain} (heir : Heir chain)

/-- The declaration as it is registered. -/
def declaration : Declaration ClassDecl :=
  heir.visit.declaration heir.script.path heir.decl.name heir.decl

/-- The clause as a chain of names that is checked. -/
def use : ChainUse :=
  ⟨heir.clause.parts, .parentClass, heir.visit.namespaceKey?, heir.visit.table, heir.clause.range⟩

/-- A class that extends another is met on the walk over its script. -/
theorem visited : heir.visit ∈ heir.script.visits := (Script.mem_topLevel.mp heir.listed).1

/-- Its clause is listed as a chain that names a parent class. -/
theorem chainUse?_visit : heir.visit.chainUse? = some heir.use := by
  rw [Visit.chainUse?, (Script.mem_topLevel.mp heir.listed).2.2]
  simp only [heir.parent_eq]
  rfl

/-- The namespace that the class stands in, in lower case. -/
def space? : Option String := heir.visit.namespaceKey?

/-- The bindings that the tables have for a name where the class is declared. -/
def bound? (platform : Platform) (name : String) : Option (List Binding) :=
  Tables.lookup (linkedTables chain platform) (heir.script.ref heir.visit.table) name

/-- The class that the clause means in a namespace or outside of all. -/
def meant? (platform : Platform) (enclosing : Option String) : Option (Declaration ClassDecl) :=
  (Registry.build chain platform).class? heir.clause.text enclosing

/-- The class is linked to the class that the clause means in the namespace around it. -/
def IsLinked (platform : Platform) : Prop :=
  ∃ parent,
    heir.meant? platform heir.space? = some parent ∧
    (Hierarchy.ofRegistry (Registry.build chain platform)).links.get? heir.declaration.key =
      some parent.key ∧
    (Hierarchy.ofRegistry (Registry.build chain platform)).classes.get? parent.key = some parent

/-- The declaration is the one that counts for its class. -/
def Counts (platform : Platform) : Prop :=
  (Hierarchy.ofRegistry (Registry.build chain platform)).classes.get? heir.declaration.key =
    some heir.declaration

/-- Nothing that is found in the names of the scope is located on the clause. -/
def Unreported (platform : Platform) : Prop :=
  ∀ finding ∈ (examineNames (Registry.build chain platform) (.ofScripts chain.sortedFiles)).1,
    ¬ finding.IsOn heir.script.path heir.clause

/-- The names of the clause and of the namespace around the class are keys as they stand: the
namespace has a name, and no sigma is in it or in the clause, the lower case of which would depend
on what follows. -/
structure PlainlyNamed : Prop where
  /-- The namespace has a name without a sigma. -/
  around : ∀ outer ∈ heir.space?, outer ≠ "" ∧ Text.SigmaFree outer
  /-- The clause has no sigma. -/
  clause : ∀ part ∈ heir.clause.parts, Text.SigmaFree part.text

/-- A binding of the only part of the clause that is not the binding of a class which the clause can
mean. -/
inductive BoundBeside (platform : Platform) (binding : Binding) : Prop
  /-- It is that of a function or of a constant. -/
  | value (origin : OuterStatement chain) (hdeclared : binding ∈ Visit.declared origin.stmt)
      (hvalue : ∀ decl range, origin.stmt ≠ .classDecl decl range)
  /-- It is that of a class which is not registered, since it stands under a condition. -/
  | conditional (origin : OuterStatement chain) (hdeclared : binding ∈ Visit.declared origin.stmt)
      {decl : ClassDecl} {range : Range} (hclass : origin.stmt = .classDecl decl range)
      (hnot : origin.visit.isTopLevel = false)
  /-- It is that of a class in another namespace, a block of which is around the class. -/
  | outer (origin : OuterStatement chain) (hdeclared : binding ∈ Visit.declared origin.stmt)
      {decl : ClassDecl} {range : Range} (hclass : origin.stmt = .classDecl decl range)
      (haround : ∃ owner ∈ heir.visit.owners, owner.joined? = origin.visit.namespaceKey?)
      (hother : origin.visit.namespaceKey? ≠ heir.space?)
  /-- It is that of a class which is registered under another key, since the names are no plain
  keys. -/
  | unplain (origin : OuterStatement chain) (hdeclared : binding ∈ Visit.declared origin.stmt)
      {decl : ClassDecl} {range : Range} (hclass : origin.stmt = .classDecl decl range)
      (hnot : ¬ heir.PlainlyNamed)
  /-- It is that of a function of the platform. -/
  | platform {function : GlobalFunction} (hfunction : function ∈ globalFunctions)
      (hname : binding.name = function.name)
  /-- It is the name that a function of a namespace has at run time. -/
  | runtime {decl : Declaration FunctionDecl}
      (hdecl : decl ∈ (Registry.build chain platform).functions)
      (hnamespaced : decl.isNamespaced = true)
      (hname : binding.name = Registry.runtimeName decl.fullName)

/-- Where the walk along a clause ends well, but not at a class that the clause means. -/
inductive EndsBeside (platform : Platform) : Prop
  /-- There is nothing to walk. -/
  | empty (hparts : heir.clause.parts = [])
  /-- The tables bind the first part, and the parts after it are members of a value. -/
  | member {root next : Ident} {rest : List Ident}
      (hparts : heir.clause.parts = root :: next :: rest)
      (hbound : (heir.bound? platform root.text).isSome = true)
  /-- The tables bind the only part to other things than the class. -/
  | bound {root : Ident} (hparts : heir.clause.parts = [root]) {bindings : List Binding}
      (hbound : heir.bound? platform root.text = some bindings)
      (hbeside : ∀ binding ∈ bindings, heir.BoundBeside platform binding)
  /-- The first part, which the tables do not bind, is that of an enum and of no namespace. -/
  | enum {root : Ident} {rest : List Ident} (hparts : heir.clause.parts = root :: rest)
      (hfree : heir.bound? platform root.text = none)
      (hspace : (Registry.build chain platform).namespace? root.text heir.space? = none)
      (henum : ((Registry.build chain platform).enum? root.text heir.space?).isSome = true)
  /-- The first part, which the tables do not bind, is that of a namespace, others lead on through
  namespaces, and the one after them to something else: to what is no class, to a class that further
  parts follow, or to one that is registered under another key, since the names are no plain
  keys. -/
  | inside {root part : Ident} {passed rest : List Ident} {entry : NamespaceEntry} {last : String}
      (hparts : heir.clause.parts = root :: (passed ++ part :: rest))
      (hfree : heir.bound? platform root.text = none)
      (hroot : (Registry.build chain platform).namespace? root.text heir.space? = some entry)
      (hpasses : (Registry.build chain platform).Passes entry.fullName passed last)
      (hnamespace : (Registry.build chain platform).namespace? s!"{last}.{part.text}" none = none)
      (hnames : (Registry.build chain platform).Names s!"{last}.{part.text}")
      (hbeside :
        ((Registry.build chain platform).class? s!"{last}.{part.text}" none).isSome = true →
          rest ≠ [] ∨ ¬ heir.PlainlyNamed)

/-- Why a clause on which nothing is reported need not lead to a link. -/
inductive Misses (platform : Platform) : Prop
  /-- The clause has several parts, and means something else outside of all namespaces than in the
  namespace around the class. -/
  | outside (hseveral : 1 < heir.clause.parts.length)
      (hother : heir.meant? platform heir.space? ≠ heir.meant? platform none)
  /-- The clause means no class in the namespace around the class, and the walk ends elsewhere. -/
  | noClass (hnone : heir.meant? platform heir.space? = none)
      (hends : heir.EndsBeside platform)

variable {heir} {platform : Platform}

/-- The key of the namespace around the class is one by which names inside it are found. -/
theorem PlainlyNamed.plainKey (hplain : heir.PlainlyNamed) :
    ∀ outer ∈ heir.space?, PlainKey outer := by
  intro outer houter
  exact Visit.plainKey houter (hplain.around outer houter).1 (hplain.around outer houter).2

/-- A clause that means no class is not looked up under the key of any class. -/
theorem key_not_mem_of_meant?_eq_none (hnone : heir.meant? platform heir.space? = none)
    {decl : Declaration ClassDecl} (hdecl : decl ∈ (Registry.build chain platform).classes) :
    decl.key ∉ lookupKeys heir.clause.text heir.space? := by
  intro hkey
  have hsome := isSome_firstDeclared.mpr ⟨decl, hdecl, hkey⟩
  change (heir.meant? platform heir.space?).isSome = true at hsome
  rw [hnone] at hsome
  cases hsome

/-- A class at file level, or in a block of the namespace around another class, is looked up under
its key if its name is used there. -/
theorem key_mem_lookupKeys (hplain : heir.PlainlyNamed) {root : Ident}
    (hparts : heir.clause.parts = [root]) {visit : Visit}
    (hspace : visit.namespaceKey? = none ∨ visit.namespaceKey? = heir.space?) {file : String}
    {name : Ident} {decl : ClassDecl} (hname : Text.lower name.text = Text.lower root.text) :
    (visit.declaration file name decl).key ∈ lookupKeys heir.clause.text heir.space? := by
  have htext : heir.clause.text = root.text := by
    rw [DottedName.text, hparts]
    exact String.intercalate_singleton
  have hroot : Text.SigmaFree root.text :=
    hplain.clause root (hparts ▸ List.mem_singleton_self root)
  rw [htext, Declaration.key, Visit.declaration]
  cases haround : visit.namespaceDecl? with
  | none =>
    simp only
    rw [hname]
    exact lower_mem_lookupKeys root.text heir.space?
  | some block =>
    have hkey : visit.namespaceKey? = some (Text.lower block.name.text) := by
      rw [Visit.namespaceKey?, haround]
      rfl
    rw [hkey] at hspace
    have hmem : Text.lower block.name.text ∈ heir.space? :=
      (hspace.resolve_left (Option.some_ne_none _)).symm
    -- without sigmas the lower case of a qualified name is that of its two sides
    have hfirst := (hplain.around _ hmem).2.not_mem_of_lower
    have hlast : Text.SigmaFree (Text.lower name.text) := hname ▸ hroot.lower
    simp only
    rw [Text.lower_qualified hfirst hlast.not_mem_of_lower, hname,
      mem_lookupKeys hplain.plainKey]
    exact .inr ⟨_, hmem, rfl⟩

/-- A class that is declared at file level or in blocks is registered. -/
theorem declaration_mem_classes (origin : OuterStatement chain) {decl : ClassDecl} {range : Range}
    (hclass : origin.stmt = .classDecl decl range) (htop : origin.visit.isTopLevel = true) :
    origin.visit.declaration origin.script.path decl.name decl ∈
      (Registry.build chain platform).classes := by
  have hlisted : (origin.visit, Stmt.classDecl decl range) ∈ origin.script.topLevel :=
    Script.mem_topLevel.mpr ⟨origin.visited, htop, hclass ▸ origin.written⟩
  exact List.mem_flatMap.mpr
    ⟨origin.script, origin.inScope, List.mem_filterMap.mpr ⟨_, hlisted, rfl⟩⟩

/-- If the clause means no class, a binding of its only part is that of something else. -/
theorem boundBeside_of_boundBy (hnone : heir.meant? platform heir.space? = none) {root : Ident}
    (hparts : heir.clause.parts = [root]) {binding : Binding}
    (hname : Text.lower binding.name = Text.lower root.text)
    (hsource : BoundBy chain platform heir.visit binding) : heir.BoundBeside platform binding := by
  cases hsource with
  | platform hfunction hname => exact .platform hfunction hname
  | runtime hdecl hnamespaced hname => exact .runtime hdecl hnamespaced hname
  | statement origin hdeclared hspace =>
    by_cases hclass : ∃ decl range, origin.stmt = .classDecl decl range
    · obtain ⟨decl, range, hstmt⟩ := hclass
      cases htop : origin.visit.isTopLevel with
      | false => exact .conditional origin hdeclared hstmt htop
      | true =>
        by_cases hhere : origin.visit.namespaceKey? = none ∨
            origin.visit.namespaceKey? = heir.space?
        · refine .unplain origin hdeclared hstmt fun hplain => ?_
          rw [hstmt] at hdeclared
          obtain rfl := List.mem_singleton.mp hdeclared
          exact key_not_mem_of_meant?_eq_none hnone (declaration_mem_classes origin hstmt htop)
            (key_mem_lookupKeys hplain hparts hhere hname)
        · obtain ⟨hnamed, hother⟩ := not_or.mp hhere
          exact .outer origin hdeclared hstmt (hspace.resolve_left hnamed) hother
    · exact .value origin hdeclared fun decl range hstmt => hclass ⟨decl, range, hstmt⟩

/-- If the clause means no class, a class that the walk meets in a namespace is followed by further
parts, or the names are no plain keys. -/
theorem class_beside_of_passes (hnone : heir.meant? platform heir.space? = none) {root part : Ident}
    {passed rest : List Ident} {entry : NamespaceEntry} {last : String}
    (hparts : heir.clause.parts = root :: (passed ++ part :: rest))
    (hroot : (Registry.build chain platform).namespace? root.text heir.space? = some entry)
    (hpasses : (Registry.build chain platform).Passes entry.fullName passed last)
    (hclass : ((Registry.build chain platform).class? s!"{last}.{part.text}" none).isSome = true) :
    rest ≠ [] ∨ ¬ heir.PlainlyNamed := by
  by_contra hboth
  obtain ⟨hrest, hplain⟩ := not_or.mp hboth
  have hrest : rest = [] := not_not.mp hrest
  have hplain : heir.PlainlyNamed := not_not.mp hplain
  subst hrest
  -- if nothing follows and all is plain, the class stands under a key of the clause
  have hwhole : heir.clause.parts = ([root] ++ passed) ++ [part] := by rw [hparts]; rfl
  have hfree : ∀ other ∈ [root] ++ passed, Text.SigmaFree other.text := fun other hother =>
    hplain.clause other (hwhole ▸ List.mem_append_left _ hother)
  have hmeans : Text.lower entry.fullName ∈ lookupKeys (dottedText [root]) heir.space? := by
    rw [dottedText_singleton]
    exact Registry.lower_mem_lookupKeys_of_namespace? hroot
  have hlast := hpasses.mem_lookupKeys hplain.plainKey (List.cons_ne_nil root []) hfree hmeans
  have htext : heir.clause.text = s!"{dottedText ([root] ++ passed)}.{part.text}" := by
    have hfront : [root] ++ passed ≠ [] := List.cons_ne_nil root passed
    rw [← dottedText_concat hfront, DottedName.text, hwhole, dottedText]
  obtain ⟨decl, hdecl, hkey⟩ := isSome_firstDeclared.mp hclass
  refine key_not_mem_of_meant?_eq_none hnone hdecl ?_
  rw [List.mem_singleton.mp hkey, htext]
  exact qualified_mem_lookupKeys hplain.plainKey (sigmaFree_dottedText hfree)
    (hplain.clause part (hwhole ▸ List.mem_append_right _ List.mem_cons_self)) hlast

/-- If the first part names a namespace, a walk without a finding ends at what one of the parts
names inside. -/
theorem endsBeside_of_namespace {root : Ident} {rest : List Ident} {entry : NamespaceEntry}
    (hnone : heir.meant? platform heir.space? = none) (hparts : heir.clause.parts = root :: rest)
    (hbound : heir.bound? platform root.text = none)
    (hroot : (Registry.build chain platform).namespace? root.text heir.space? = some entry)
    (hcheck : checkUnbound (Registry.build chain platform) heir.script.path heir.use root rest =
      none) : heir.EndsBeside platform := by
  have hentry : (Registry.build chain platform).namespace? root.text
      heir.use.namespaceKey = some entry := hroot
  simp only [checkUnbound, Registry.resolveRoot, hentry] at hcheck
  have hunbroken : ∀ finding, (Registry.build chain platform).followChain heir.script.path
      (.inNamespace entry.fullName) rest ≠ .broken finding := by
    intro finding hbroken
    rw [hbroken] at hcheck
    cases hcheck
  have hend : ∀ name, (Registry.build chain platform).followChain heir.script.path
      (.inNamespace entry.fullName) rest ≠ .reached (.inNamespace name) := by
    intro name hreached
    rw [hreached] at hcheck
    cases hcheck
  obtain ⟨passed, part, later, last, rfl, hpasses, hnamespace, hnames⟩ :=
    Registry.exists_names_of_followChain hunbroken hend
  exact .inside hparts hbound hroot hpasses hnamespace hnames
    (class_beside_of_passes hnone hparts hroot hpasses)

/-- If the check of names reports nothing on a clause that means no class, its walk ends beside. -/
theorem endsBeside_of_checkChain (hnone : heir.meant? platform heir.space? = none)
    (hcheck : checkChain (Registry.build chain platform) (linkedTables chain platform) heir.script
      heir.use = none) : heir.EndsBeside platform := by
  cases hparts : heir.clause.parts with
  | nil => exact .empty hparts
  | cons root rest =>
    have huse : heir.use.parts = root :: rest := hparts
    simp only [checkChain, huse] at hcheck
    cases hbound : heir.bound? platform root.text with
    | some bindings =>
      cases rest with
      | cons next rest => exact .member hparts (Option.isSome_of_eq_some hbound)
      | nil =>
        refine .bound hparts hbound fun binding hbinding => ?_
        obtain ⟨hname, hsource⟩ := boundBy_of_lookup heir.inScope heir.visited
          (Script.mem_topLevel.mp heir.listed).2.1 hbound hbinding
        exact boundBeside_of_boundBy hnone hparts hname hsource
    | none =>
      have hlookup : Tables.lookup (linkedTables chain platform)
          (heir.script.ref heir.use.table) root.text = none := hbound
      simp only [hlookup] at hcheck
      cases hroot : (Registry.build chain platform).namespace? root.text heir.space? with
      | none =>
        cases henum : (Registry.build chain platform).enum? root.text heir.space? with
        | some decl => exact .enum hparts hbound hroot (Option.isSome_of_eq_some henum)
        | none =>
          have hroot' : (Registry.build chain platform).namespace? root.text
              heir.use.namespaceKey = none := hroot
          have henum' : (Registry.build chain platform).enum? root.text
              heir.use.namespaceKey = none := henum
          simp only [checkUnbound, Registry.resolveRoot, hroot', henum'] at hcheck
          cases hcheck
      | some entry => exact endsBeside_of_namespace hnone hparts hbound hroot hcheck

/-- What the hierarchy links a class to, if the declaration counts. -/
theorem get?_links_of_counts (hcounts : heir.Counts platform) :
    (Hierarchy.ofRegistry (Registry.build chain platform)).links.get? heir.declaration.key =
      (heir.meant? platform
        (if 1 < heir.clause.parts.length then none else heir.space?)).map Declaration.key := by
  have hclause : heir.declaration.node.parent = some heir.clause := heir.parent_eq
  rw [Counts, Hierarchy.get?_classes] at hcounts
  rw [Hierarchy.get?_links, hcounts, Option.bind_some]
  simp only [Registry.parentClass?, hclause]
  rfl

/-- Two meanings of the clause with one key are one class. -/
theorem meant?_inj {inside outside : Option String} {left right : Declaration ClassDecl}
    (hleft : heir.meant? platform inside = some left)
    (hright : heir.meant? platform outside = some right) (hkey : left.key = right.key) :
    left = right := by
  have hfirst := Registry.canonical?_of_class? hleft
  rw [hkey, Registry.canonical?_of_class? hright] at hfirst
  exact (Option.some.inj hfirst).symm

/-- If nothing is found on the clause, the check of names has passed it. -/
theorem checkChain_of_unreported (hunreported : heir.Unreported platform) :
    checkChain (Registry.build chain platform) (linkedTables chain platform) heir.script heir.use =
      none := by
  refine Option.eq_none_iff_forall_ne_some.mpr fun finding hfinding => ?_
  exact hunreported finding
    (mem_examineNames_of_checkChain heir.inScope heir.visited heir.chainUse?_visit hfinding)
    (Registry.isOn_of_checkChain hfinding)

/-- Let the declaration of a class count and have a clause on which the check of names finds
nothing. The class is linked to the class that the clause means in the namespace around it, exactly
if the clause does not miss it, that is, neither means another class or none outside of all
namespaces, having several parts, nor means no class and leads the walk elsewhere. -/
theorem linked_iff_of_unreported (chain : ScopeChain) (platform : Platform) (heir : Heir chain)
    (hcounts : heir.Counts platform) (hunreported : heir.Unreported platform) :
    heir.IsLinked platform ↔ ¬ heir.Misses platform := by
  have hlink := get?_links_of_counts hcounts
  constructor
  · rintro ⟨parent, hparent, hlinked, -⟩ hmisses
    cases hmisses with
    | noClass hnone => exact Option.some_ne_none _ (hparent.symm.trans hnone)
    -- a class of the same key would be the same class, so the two meanings would agree
    | outside hseveral hother =>
      rw [hlink, if_pos hseveral] at hlinked
      obtain ⟨other, hmeant, hkey⟩ := Option.map_eq_some_iff.mp hlinked
      apply hother
      rw [hmeant, meant?_inj hmeant hparent hkey]
      exact hparent
  · intro hhits
    have hcheck := checkChain_of_unreported hunreported
    cases hmeant : heir.meant? platform heir.space? with
    | none => exact absurd (.noClass hmeant (endsBeside_of_checkChain hmeant hcheck)) hhits
    | some parent =>
      refine ⟨parent, hmeant, ?_, ?_⟩
      · rw [hlink]
        split
        · rename_i hseveral
          have hsame : heir.meant? platform heir.space? = heir.meant? platform none :=
            not_not.mp fun hother => hhits (.outside hseveral hother)
          rw [← hsame, hmeant, Option.map_some]
        · rw [hmeant, Option.map_some]
      · rw [Hierarchy.get?_classes]
        exact Registry.canonical?_of_class? hmeant

end Heir

/-! ## Clauses in nested blocks -/

/-- A word of a script at its line and column. -/
def wordAt (line column : Nat) (text : String) : Ident :=
  ⟨text, .onLine line column text.utf8ByteSize⟩

/-- A class that names its parent from inside the namespace. -/
def circleDecl : ClassDecl :=
  ⟨wordAt 1 6 "circle", some (.ofParts [wordAt 1 21 "base", wordAt 1 26 "shape"]), []⟩

/-- A class that names its parent by its full name. -/
def squareDecl : ClassDecl :=
  ⟨wordAt 2 6 "square",
    some (.ofParts [wordAt 2 21 "draw", wordAt 2 26 "base", wordAt 2 31 "shape"]), []⟩

/-- A class without a parent. -/
def penDecl : ClassDecl := ⟨wordAt 4 6 "pen", none, []⟩

/-- A class that names its parent in the same block. -/
def brushDecl : ClassDecl := ⟨wordAt 5 6 "brush", some (.ofParts [wordAt 5 20 "pen"]), []⟩

/-- A class that names a class of the block around its own. -/
def dotDecl : ClassDecl := ⟨wordAt 6 6 "dot", some (.ofParts [wordAt 6 18 "circle"]), []⟩

/-- The parent of the first two. -/
def shapeDecl : ClassDecl := ⟨wordAt 8 6 "shape", none, []⟩

/-- A class that stands under a condition. -/
def crayonDecl : ClassDecl := ⟨wordAt 10 6 "crayon", none, []⟩

/-- The block inside the first one. -/
def inkBlock : NamespaceDecl :=
  ⟨.ofParts [wordAt 3 12 "ink"],
    [.classDecl penDecl .zero, .classDecl brushDecl .zero, .classDecl dotDecl .zero]⟩

/-- The first block. -/
def drawBlock : NamespaceDecl :=
  ⟨.ofParts [wordAt 0 10 "draw"],
    [.classDecl circleDecl .zero, .classDecl squareDecl .zero, .namespaceDecl inkBlock .zero]⟩

/-- The block of the parent. -/
def baseBlock : NamespaceDecl :=
  ⟨.ofParts [wordAt 7 10 "draw", wordAt 7 15 "base"], [.classDecl shapeDecl .zero]⟩

/-- A script with these blocks, and a class under a condition. -/
def shapes : Script :=
  ⟨"shapes.bs", none,
    [.namespaceDecl drawBlock .zero, .namespaceDecl baseBlock .zero,
      .branch (.literal (.boolean true) .zero) [.classDecl crayonDecl .zero] [] .zero]⟩

/-- The scope of the script. -/
def shapesChain : ScopeChain := ⟨.ofProgram [shapes], []⟩

/-- The visit of the first block. -/
def drawVisit : Visit := ⟨⟨.statement (.namespaceDecl drawBlock .zero), [0]⟩, []⟩

/-- The visit of the block inside it. -/
def inkVisit : Visit := drawVisit.child 2 (.statement (.namespaceDecl inkBlock .zero))

/-- The visit of the block of the parent. -/
def baseVisit : Visit := ⟨⟨.statement (.namespaceDecl baseBlock .zero), [1]⟩, []⟩

/-- The visit of the condition. -/
def branchVisit : Visit :=
  ⟨⟨.statement (.branch (.literal (.boolean true) .zero) [.classDecl crayonDecl .zero] [] .zero),
    [2]⟩, []⟩

/-- The visit of a class in a block. -/
def classVisit (block : Visit) (index : Nat) (decl : ClassDecl) : Visit :=
  block.child index (.statement (.classDecl decl .zero))

/-- The scope has one file. -/
theorem sortedFiles_shapesChain : shapesChain.sortedFiles = [shapes] := by
  have hall : shapesChain.allFiles = [shapes] := rfl
  simp [ScopeChain.sortedFiles, hall]

/-- All nodes of the script, in the order of the walk. -/
theorem visits_shapes :
    shapes.visits = [drawVisit, classVisit drawVisit 0 circleDecl,
      classVisit drawVisit 1 squareDecl, inkVisit, classVisit inkVisit 0 penDecl,
      classVisit inkVisit 1 brushDecl, classVisit inkVisit 2 dotDecl, baseVisit,
      classVisit baseVisit 0 shapeDecl, branchVisit,
      branchVisit.child 0 (.expression (.literal (.boolean true) .zero)),
      classVisit branchVisit 1 crayonDecl] := by
  rw [Script.visits_eq_visitsTo 3 rfl]
  rfl

/-- What is registered for the scope. -/
def shapesRegistry : Registry where
  scopeName := "source"
  files := [shapes]
  platform := .withNodes []
  blocks := [⟨shapes, [0], drawBlock.name⟩, ⟨shapes, [2, 0], inkBlock.name⟩,
    ⟨shapes, [1], baseBlock.name⟩]
  namespaces := enterNamespace (enterNamespace (enterNamespace .empty "draw") "ink") "draw.base"
  classes :=
    [(classVisit drawVisit 0 circleDecl).declaration "shapes.bs" circleDecl.name circleDecl,
      (classVisit drawVisit 1 squareDecl).declaration "shapes.bs" squareDecl.name squareDecl,
      (classVisit inkVisit 0 penDecl).declaration "shapes.bs" penDecl.name penDecl,
      (classVisit inkVisit 1 brushDecl).declaration "shapes.bs" brushDecl.name brushDecl,
      (classVisit inkVisit 2 dotDecl).declaration "shapes.bs" dotDecl.name dotDecl,
      (classVisit baseVisit 0 shapeDecl).declaration "shapes.bs" shapeDecl.name shapeDecl]
  enums := []
  consts := []
  interfaces := []
  functions := []

/-- The registry of the scope, spelled out. -/
theorem build_shapesChain : Registry.build shapesChain (.withNodes []) = shapesRegistry := by
  simp only [Registry.build, sortedFiles_shapesChain, List.flatMap_cons, List.flatMap_nil,
    Script.blocks, Script.classes, Script.enums, Script.consts, Script.interfaces,
    Script.functions, Script.topLevel, visits_shapes]
  rfl

/-- A class of a block of the script that extends another. -/
def heirOf (block : Visit) (index : Nat) (decl : ClassDecl) (clause : DottedName)
    (hvisit : classVisit block index decl ∈ shapes.visits)
    (htop : (classVisit block index decl).isTopLevel = true)
    (hparent : decl.parent = some clause) : Heir shapesChain where
  script := shapes
  inScope := by
    rw [sortedFiles_shapesChain]
    exact List.mem_singleton_self shapes
  visit := classVisit block index decl
  decl := decl
  range := .zero
  listed := Script.mem_topLevel.mpr ⟨hvisit, htop, rfl⟩
  clause := clause
  parent_eq := hparent

/-- The class that names its parent from inside the namespace. -/
def circle : Heir shapesChain :=
  heirOf drawVisit 0 circleDecl _ (by simp [visits_shapes]) rfl rfl

/-- The class that names its parent by its full name. -/
def square : Heir shapesChain :=
  heirOf drawVisit 1 squareDecl _ (by simp [visits_shapes]) rfl rfl

/-- The class in the inner block that names its parent there. -/
def brush : Heir shapesChain :=
  heirOf inkVisit 1 brushDecl _ (by simp [visits_shapes]) rfl rfl

/-- The class in the inner block that names a class of the outer one. -/
def dot : Heir shapesChain :=
  heirOf inkVisit 2 dotDecl _ (by simp [visits_shapes]) rfl rfl

/-- The names of namespaces in the script. -/
def spaceNames : List String := ["base", "draw"]

/-- The platform has no function under a name that the clauses go through. -/
theorem globalFunctions_apart : ∀ function ∈ globalFunctions,
    Text.lower function.name ∉ "draw.base.shape" :: spaceNames := by
  decide +kernel

/-- No table binds the name of a namespace. -/
theorem bindings_apart : ∀ entry ∈ shapes.bindings, entry.2.key ∉ spaceNames := by
  simp only [Script.bindings, visits_shapes]
  decide +kernel

/-- The tables bind no name of a namespace. -/
theorem bound?_eq_none (heir : Heir shapesChain) {name : String}
    (hname : Text.lower name ∈ spaceNames) : heir.bound? (.withNodes []) name = none := by
  refine Option.eq_none_iff_forall_ne_some.mpr fun bindings hbound => ?_
  obtain ⟨binding, hbinding⟩ :=
    List.exists_mem_of_ne_nil bindings (ne_nil_of_lookup heir.inScope heir.visited hbound)
  obtain ⟨hkey, hsource⟩ := boundBy_of_lookup heir.inScope heir.visited
    (Script.mem_topLevel.mp heir.listed).2.1 hbound hbinding
  rw [← hkey] at hname
  cases hsource with
  | statement origin hdeclared =>
    have hscript := origin.inScope
    rw [sortedFiles_shapesChain, List.mem_singleton] at hscript
    have hmem := origin.mem_bindings hdeclared
    rw [hscript] at hmem
    exact bindings_apart _ hmem hname
  | platform hfunction hsame =>
    rw [hsame] at hname
    exact globalFunctions_apart _ hfunction (List.mem_cons_of_mem _ hname)
  | runtime hdecl =>
    rw [build_shapesChain] at hdecl
    cases hdecl

/-- In the inner namespace the parent is found. -/
theorem stepNamespace_shape (part : Ident) (hpart : part.text = "shape") :
    shapesRegistry.stepNamespace "shapes.bs" "draw.base" part = .reached .declared := by
  have hname : toString "draw.base" ++ toString "." ++ toString part.text = "draw.base.shape" := by
    rw [hpart]
    rfl
  have hnamespace : shapesRegistry.namespace? "draw.base.shape" none = none := rfl
  have henum : shapesRegistry.enum? "draw.base.shape" none = none := rfl
  have hcallable : shapesRegistry.callable? "draw.base.shape" none = none := by
    refine Option.eq_none_iff_forall_ne_some.mpr fun callable hcallable => ?_
    obtain ⟨found, hfound, hkey⟩ :=
      Registry.isSome_callable?.mp (Option.isSome_of_eq_some hcallable)
    obtain ⟨function, hfunction, rfl⟩ := List.mem_map.mp hfound
    exact globalFunctions_apart function hfunction
      (List.mem_cons.mpr (.inl (List.mem_singleton.mp hkey)))
  have hclass : (shapesRegistry.class? "draw.base.shape" none).isSome = true := rfl
  simp only [Registry.stepNamespace, hname, hnamespace, henum, hcallable, hclass, Bool.true_or,
    if_true]

/-- A clause in the outer block that starts at a namespace and leads to a declaration passes the
check. -/
theorem checkChain_of_followChain {heir : Heir shapesChain} (hdraw : heir.space? = some "draw")
    {root : Ident} {rest : List Ident} (hparts : heir.clause.parts = root :: rest)
    (hname : Text.lower root.text ∈ spaceNames) {entry : NamespaceEntry}
    (hroot : shapesRegistry.namespace? root.text (some "draw") = some entry)
    (hfollow : shapesRegistry.followChain heir.script.path (.inNamespace entry.fullName) rest =
      .reached .declared) :
    checkChain (Registry.build shapesChain (.withNodes []))
      (linkedTables shapesChain (.withNodes [])) heir.script heir.use = none := by
  have hlookup : Tables.lookup (linkedTables shapesChain (.withNodes []))
      (heir.script.ref heir.visit.table) root.text = none := bound?_eq_none heir hname
  have hspace : heir.visit.namespaceKey? = some "draw" := hdraw
  simp only [checkChain, Heir.use, hparts, hlookup, checkUnbound, Registry.resolveRoot, hspace,
    build_shapesChain, hroot, hfollow, checkReached]

/-- A clause of one part that the tables bind passes the check. -/
theorem checkChain_of_bound {heir : Heir shapesChain} {root : Ident}
    (hparts : heir.clause.parts = [root]) {owner : Visit} (howner : owner ∈ heir.visit.owners)
    (hbound : heir.script.boundAt owner.path (Text.lower root.text) ≠ []) :
    checkChain (Registry.build shapesChain (.withNodes []))
      (linkedTables shapesChain (.withNodes [])) heir.script heir.use = none := by
  have hsome : (Tables.lookup (linkedTables shapesChain (.withNodes []))
      (heir.script.ref heir.visit.table) root.text).isSome = true :=
    isSome_lookup_of_mem_owners heir.inScope heir.visited howner hbound
  obtain ⟨bindings, hlookup⟩ := Option.isSome_iff_exists.mp hsome
  simp only [checkChain, Heir.use, hparts, hlookup, checkBound]

/-- The clause that names its parent from the inside of the namespace is not reported. -/
theorem checkChain_circle :
    checkChain (Registry.build shapesChain (.withNodes []))
      (linkedTables shapesChain (.withNodes [])) shapes circle.use = none := by
  have hroot : shapesRegistry.namespace? "base" (some "draw") = some ⟨"draw.base", []⟩ := rfl
  have hfollow : shapesRegistry.followChain "shapes.bs" (.inNamespace "draw.base")
      [wordAt 1 26 "shape"] = .reached .declared := by
    rw [Registry.followChain, Registry.stepChain, stepNamespace_shape _ rfl]
    rfl
  have hparts : circle.clause.parts = [wordAt 1 21 "base", wordAt 1 26 "shape"] := rfl
  exact checkChain_of_followChain rfl hparts (by decide +kernel) hroot hfollow

/-- The clause with the full name is not reported. -/
theorem checkChain_square :
    checkChain (Registry.build shapesChain (.withNodes []))
      (linkedTables shapesChain (.withNodes [])) shapes square.use = none := by
  have hroot : shapesRegistry.namespace? "draw" (some "draw") = some ⟨"draw", ["draw.base"]⟩ := rfl
  have hinner : shapesRegistry.namespace?
      (toString "draw" ++ toString "." ++ toString (wordAt 2 26 "base").text) none =
        some ⟨"draw.base", []⟩ := rfl
  have hfollow : shapesRegistry.followChain "shapes.bs" (.inNamespace "draw")
      [wordAt 2 26 "base", wordAt 2 31 "shape"] = .reached .declared := by
    rw [Registry.followChain, Registry.stepChain, Registry.stepNamespace]
    simp only [hinner]
    rw [Registry.followChain, Registry.stepChain, stepNamespace_shape _ rfl]
    rfl
  have hparts : square.clause.parts =
    [wordAt 2 21 "draw", wordAt 2 26 "base", wordAt 2 31 "shape"] := rfl
  exact checkChain_of_followChain rfl hparts (by decide +kernel) hroot hfollow

/-- The clause that names a class of the same block is not reported. -/
theorem checkChain_brush :
    checkChain (Registry.build shapesChain (.withNodes []))
      (linkedTables shapesChain (.withNodes [])) shapes brush.use = none := by
  have hparts : brush.clause.parts = [wordAt 5 20 "pen"] := rfl
  have howner : inkVisit ∈ brush.visit.owners := List.mem_cons_self
  refine checkChain_of_bound hparts howner ?_
  rw [Script.boundAt, Script.bindings, show brush.script = shapes from rfl, visits_shapes]
  decide +kernel

/-- The clause that names a class of an outer block is not reported, as the table of that block
binds it. -/
theorem checkChain_dot :
    checkChain (Registry.build shapesChain (.withNodes []))
      (linkedTables shapesChain (.withNodes [])) shapes dot.use = none := by
  have hparts : dot.clause.parts = [wordAt 6 18 "circle"] := rfl
  have howner : drawVisit ∈ dot.visit.owners := List.mem_cons_of_mem _ List.mem_cons_self
  refine checkChain_of_bound hparts howner ?_
  rw [Script.boundAt, Script.bindings, show dot.script = shapes from rfl, visits_shapes]
  decide +kernel

/-- The four clauses are all that the inventory lists. -/
theorem collect_shapes :
    Inventory.collect shapes =
      ⟨shapes, [circle.use, square.use, brush.use, dot.use], [], [], []⟩ := by
  simp only [Inventory.collect, visits_shapes]
  rfl

/-- Nothing is found in the names of the script. -/
theorem unreported_shapes (heir : Heir shapesChain) : heir.Unreported (.withNodes []) := by
  have henums : (Registry.build shapesChain (.withNodes [])).enums = [] := by
    rw [build_shapesChain]
    rfl
  have hnone : (examineNames (Registry.build shapesChain (.withNodes []))
      (.ofScripts shapesChain.sortedFiles)).1 = [] := by
    rw [examineNames_ofScripts, sortedFiles_shapesChain]
    simp [checkNames, checkInventory, collect_shapes, checkChain_circle, checkChain_square,
      checkChain_brush, checkChain_dot, checkDuplicateEnums, checkEnumValues, sortedKeys, henums]
  intro finding hfinding
  rw [hnone] at hfinding
  cases hfinding

/-- A declaration counts if it is the first under its key. -/
theorem counts_of_canonical? {heir : Heir shapesChain}
    (hfirst : shapesRegistry.canonical? heir.declaration.key = some heir.declaration) :
    heir.Counts (.withNodes []) := by
  rw [Heir.Counts, Hierarchy.get?_classes, build_shapesChain]
  exact hfirst

/-- No other class has the name of the circle. -/
theorem counts_circle : circle.Counts (.withNodes []) := counts_of_canonical? rfl

/-- No other class has the name of the square. -/
theorem counts_square : square.Counts (.withNodes []) := counts_of_canonical? rfl

/-- No other class has the name of the brush. -/
theorem counts_brush : brush.Counts (.withNodes []) := counts_of_canonical? rfl

/-- No other class has the name of the dot. -/
theorem counts_dot : dot.Counts (.withNodes []) := counts_of_canonical? rfl

/-- The class that a clause means can be looked up in the registry that is spelled out. -/
theorem meant?_shapes (heir : Heir shapesChain) (enclosing : Option String) :
    heir.meant? (.withNodes []) enclosing =
      shapesRegistry.class? heir.clause.text enclosing := by
  rw [Heir.meant?, build_shapesChain]

/-- The full name means the same inside the outer namespace as outside. -/
theorem square_hits : ¬ square.Misses (.withNodes []) := by
  have hinside : square.meant? (.withNodes []) square.space? =
      some ((classVisit baseVisit 0 shapeDecl).declaration "shapes.bs" shapeDecl.name
        shapeDecl) := by
    rw [meant?_shapes]
    rfl
  have houtside : square.meant? (.withNodes []) none =
      some ((classVisit baseVisit 0 shapeDecl).declaration "shapes.bs" shapeDecl.name
        shapeDecl) := by
    rw [meant?_shapes]
    rfl
  intro hmisses
  cases hmisses with
  | outside _ hother => exact hother (hinside.trans houtside.symm)
  | noClass hnone => exact Option.some_ne_none _ (hinside.symm.trans hnone)

/-- The name of a class in the same block means that class. -/
theorem brush_hits : ¬ brush.Misses (.withNodes []) := by
  have hinside : brush.meant? (.withNodes []) brush.space? =
      some ((classVisit inkVisit 0 penDecl).declaration "shapes.bs" penDecl.name penDecl) := by
    rw [meant?_shapes]
    rfl
  intro hmisses
  cases hmisses with
  | outside hseveral => exact absurd hseveral (by decide)
  | noClass hnone => exact Option.some_ne_none _ (hinside.symm.trans hnone)

/-- The class with the full name in its clause and the class in the inner block that names its
parent there are linked, though the script has a class under a condition and the second stands in
two blocks. -/
theorem square_and_brush_linked :
    shapes.isFlat = false ∧ brush.visit.above.length = 2 ∧
      (square.Counts (.withNodes []) ∧ square.Unreported (.withNodes []) ∧
        square.IsLinked (.withNodes [])) ∧
      brush.Counts (.withNodes []) ∧ brush.Unreported (.withNodes []) ∧
        brush.IsLinked (.withNodes []) := by
  have hsquare := (Heir.linked_iff_of_unreported shapesChain (.withNodes []) square counts_square
    (unreported_shapes square)).mpr square_hits
  have hbrush := (Heir.linked_iff_of_unreported shapesChain (.withNodes []) brush counts_brush
    (unreported_shapes brush)).mpr brush_hits
  have hflat : shapes.isFlat = false := by
    rw [Script.isFlat, visits_shapes]
    rfl
  exact ⟨hflat, rfl, ⟨counts_square, unreported_shapes square, hsquare⟩, counts_brush,
    unreported_shapes brush, hbrush⟩

/-- Two classes on whose clauses nothing is found are not linked. The one names its parent by a name
of several parts from inside the namespace, which means a class there. The other names a class of
the block around its own, which the tables bind. -/
theorem circle_and_dot_not_linked :
    (circle.Counts (.withNodes []) ∧ circle.Unreported (.withNodes []) ∧
        (circle.meant? (.withNodes []) circle.space?).isSome = true ∧
        (Hierarchy.ofRegistry (Registry.build shapesChain (.withNodes []))).links.get?
          circle.declaration.key = none) ∧
      dot.Counts (.withNodes []) ∧ dot.Unreported (.withNodes []) ∧
        dot.meant? (.withNodes []) dot.space? = none ∧
        (Hierarchy.ofRegistry (Registry.build shapesChain (.withNodes []))).links.get?
          dot.declaration.key = none := by
  have hcircle := Heir.get?_links_of_counts counts_circle
  have hdot := Heir.get?_links_of_counts counts_dot
  rw [meant?_shapes] at hcircle hdot
  refine ⟨⟨counts_circle, unreported_shapes circle, ?_, hcircle.trans rfl⟩, counts_dot,
    unreported_shapes dot, ?_, hdot.trans rfl⟩
  · rw [meant?_shapes]
    rfl
  · rw [meant?_shapes]
    rfl

end ScopeCheck
