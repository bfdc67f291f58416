import ScopeCheck.Proofs.Examination
import ScopeCheck.Proofs.Operations
import ScopeCheck.Proofs.PackagePath

/-!
# Scopes follow scripts and components

As long as components are declared in files of their own, none of them under the name of the
program scope, a program has one scope for itself and one for each component, each with the scripts
that belong to it. `Consistent` says so, and every operation keeps it (`Consistent.perform`).
-/

namespace ScopeCheck

namespace Components

/-- Components stand under their keys, and no two are declared in one file. -/
structure Apart (components : Components) : Prop where
  /-- Components stand under their keys. -/
  named : ∀ key component, components.byName.get? key = some component → component.key = key
  /-- The files that declare them differ. -/
  declared : ∀ left ∈ components.list, ∀ right ∈ components.list,
    left.xmlKey = right.xmlKey → left = right

variable {components : Components}

/-- The components are those that are found under some key. -/
theorem mem_list {component : Component} :
    component ∈ components.list ↔ ∃ key, components.byName.get? key = some component :=
  Keyed.mem_values_iff

/-- A component is found under its own key. -/
theorem Apart.get?_of_mem (h : components.Apart) {component : Component}
    (hmem : component ∈ components.list) :
    components.byName.get? component.key = some component := by
  obtain ⟨key, hget⟩ := mem_list.mp hmem
  rw [h.named key component hget]
  exact hget

/-- What a file is said to declare is a component of that file. -/
theorem of_declaredIn? {xmlPath : String} {component : Component}
    (hdeclared : components.declaredIn? xmlPath = some component) :
    component ∈ components.list ∧ component.xmlKey = pathKey xmlPath := by
  unfold declaredIn? at hdeclared
  have hkey := List.find?_some hdeclared
  rw [decide_eq_true_eq] at hkey
  exact ⟨List.mem_of_find?_eq_some hdeclared, hkey⟩

/-- A file declares a component exactly if their keys agree. -/
theorem Apart.declaredIn?_eq_some_iff (h : components.Apart) {xmlPath : String}
    {component : Component} :
    components.declaredIn? xmlPath = some component ↔
      component ∈ components.list ∧ component.xmlKey = pathKey xmlPath := by
  refine ⟨of_declaredIn?, ?_⟩
  rintro ⟨hmem, hkey⟩
  obtain ⟨found, hfind⟩ : ∃ found, components.declaredIn? xmlPath = some found :=
    Option.isSome_iff_exists.mp (List.find?_isSome.mpr ⟨component, hmem, decide_eq_true hkey⟩)
  obtain ⟨hfound, hfoundKey⟩ := of_declaredIn? hfind
  rw [hfind, h.declared found hfound component hmem (hfoundKey.trans hkey.symm)]

/-- A component is what its file declares, since no other is declared there. -/
theorem Apart.declaredIn?_of_mem (h : components.Apart) {component : Component}
    (hmem : component ∈ components.list) :
    components.declaredIn? component.xmlPath = some component :=
  h.declaredIn?_eq_some_iff.mpr ⟨hmem, rfl⟩

/-- Adding a component replaces the one of its key and keeps the others. -/
theorem mem_list_add (h : components.Apart) {component other : Component} :
    other ∈ (components.add component).list ↔
      other = component ∨ (other ∈ components.list ∧ other.key ≠ component.key) := by
  rw [mem_list]
  simp only [add, Keyed.get?_put]
  constructor
  · rintro ⟨key, hget⟩
    split at hget
    · exact Or.inl (Option.some.inj hget).symm
    · rename_i hkey
      exact Or.inr ⟨mem_list.mpr ⟨key, hget⟩, h.named key other hget ▸ hkey⟩
  · rintro (rfl | ⟨hmem, hkey⟩)
    · exact ⟨other.key, if_pos rfl⟩
    · exact ⟨other.key, by rw [if_neg hkey, h.get?_of_mem hmem]⟩

/-- Whether a component may be added: it is not declared in the file of a component of another
name. -/
def Admits (components : Components) (component : Component) : Prop :=
  ∀ other ∈ components.list, other.xmlKey = component.xmlKey → other.key = component.key

/-- A component that is admitted keeps the files of components apart. -/
theorem Apart.add (h : components.Apart) {component : Component}
    (hadmits : components.Admits component) : (components.add component).Apart where
  named key other hget := by
    rw [Components.add, Keyed.get?_put] at hget
    split at hget
    · rename_i hkey
      rw [← Option.some.inj hget, hkey]
    · exact h.named key other hget
  declared left hleft right hright hkey := by
    rcases (mem_list_add h).mp hleft with rfl | ⟨holdLeft, hleftKey⟩
    · rcases (mem_list_add h).mp hright with rfl | ⟨holdRight, hrightKey⟩
      · rfl
      · exact absurd (hadmits right holdRight hkey.symm) hrightKey
    · rcases (mem_list_add h).mp hright with rfl | ⟨holdRight, -⟩
      · exact absurd (hadmits left holdLeft hkey) hleftKey
      · exact h.declared left holdLeft right holdRight hkey

/-- The component of a file is found there by its own key. -/
theorem keyDeclaredIn?_eq (h : components.Apart) {xmlPath : String} {component : Component}
    (hdeclared : components.declaredIn? xmlPath = some component) :
    components.keyDeclaredIn? xmlPath = some component.key := by
  unfold declaredIn? list at hdeclared
  unfold keyDeclaredIn?
  rw [Keyed.values, List.find?_map, Option.map_eq_some_iff] at hdeclared
  obtain ⟨entry, hentry, rfl⟩ := hdeclared
  have hkey := h.named entry.1 entry.2
    (Keyed.get?_eq_some_iff.mpr (List.mem_of_find?_eq_some hentry))
  simp only [Function.comp_def] at hentry
  rw [hentry, Option.map_some, hkey]

/-- Removing what a file declares takes away that one component. -/
theorem mem_list_removeDeclaredIn (h : components.Apart) {xmlPath : String}
    {component other : Component} (hdeclared : components.declaredIn? xmlPath = some component) :
    other ∈ (components.removeDeclaredIn xmlPath).list ↔
      other ∈ components.list ∧ other ≠ component := by
  have hmem := (of_declaredIn? hdeclared).1
  unfold removeDeclaredIn
  rw [keyDeclaredIn?_eq h hdeclared, mem_list]
  simp only [Keyed.get?_erase]
  constructor
  · rintro ⟨key, hget⟩
    split at hget
    · cases hget
    · rename_i hkey
      refine ⟨mem_list.mpr ⟨key, hget⟩, ?_⟩
      rintro rfl
      exact hkey (h.named key other hget).symm
  · rintro ⟨hother, hne⟩
    refine ⟨other.key, ?_⟩
    have hkey : other.key ≠ component.key := by
      intro heq
      have hget := h.get?_of_mem hother
      rw [heq, h.get?_of_mem hmem] at hget
      exact hne (Option.some.inj hget).symm
    rw [if_neg hkey, h.get?_of_mem hother]

/-- What is left after a removal is still apart. -/
theorem Apart.removeDeclaredIn (h : components.Apart) {xmlPath : String} {component : Component}
    (hdeclared : components.declaredIn? xmlPath = some component) :
    (components.removeDeclaredIn xmlPath).Apart where
  named key other hget := by
    rw [Components.removeDeclaredIn, keyDeclaredIn?_eq h hdeclared] at hget
    simp only [Keyed.get?_erase] at hget
    split at hget
    · cases hget
    · exact h.named key other hget
  declared left hleft right hright :=
    h.declared left ((mem_list_removeDeclaredIn h hdeclared).mp hleft).1 right
      ((mem_list_removeDeclaredIn h hdeclared).mp hright).1

end Components

namespace Program

/-! ## The scopes of a program -/

/-- A scope with the scripts that belong to it. -/
def fill (program : Program) (scope : Scope) : Scope :=
  { scope with files := program.filesOf scope.name }

/-- The scope of the program and those of its components, without scripts. -/
def bareScopes (program : Program) : List Scope :=
  .ofProgram [] :: program.components.list.map componentScope

/-- Up to files the scopes are that of the program and one for each component. -/
theorem mem_bareScopes {program : Program} {bare : Scope} :
    bare ∈ program.bareScopes ↔ bare = .ofProgram [] ∨
      ∃ component ∈ program.components.list, bare = componentScope component := by
  rw [bareScopes, List.mem_cons, List.mem_map]
  simp only [eq_comm]

/-- The program scope has a fixed key. -/
theorem key_ofProgram : (Scope.ofProgram []).key = sourceScope := lower_sourceScope

/-- The scope of a component is keyed by the path of its file. -/
theorem key_componentScope (component : Component) :
    (componentScope component).key = Text.lower component.xmlPath := rfl

/-- Components are declared apart, and the scopes are those of the program and of its components,
with the scripts that belong to them. -/
structure Consistent (program : Program) : Prop where
  /-- Scripts and scopes stand under their keys. -/
  sound : program.Sound
  /-- No two components are declared in one file. -/
  apart : program.components.Apart
  /-- No component is declared under the name of the program scope. -/
  offSource : ∀ component ∈ program.components.list, component.xmlKey ≠ sourceScope
  /-- The scopes are as they should be. -/
  scopes : ∀ key scope, program.scopes.get? key = some scope ↔
    ∃ bare ∈ program.bareScopes, bare.key = key ∧ scope = program.fill bare

/-- Whether an operation may be performed: a component that is added is declared neither under the
name of the program scope nor in the file of a component of another name. -/
def Allows (program : Program) : Op → Prop
  | .addComponent component =>
    component.xmlKey ≠ sourceScope ∧ program.components.Admits component
  | .setFile _ | .removeFile _ | .removeComponent _ | .validate => True

/-- Whether operations may be performed one after the other. -/
def AllowsAll (program : Program) : List Op → Prop
  | [] => True
  | op :: rest => program.Allows op ∧ (program.perform op).AllowsAll rest

/-- A component that is not declared under the name of the program scope does not get its key. -/
theorem lower_xmlPath_ne_source {component : Component} (hoff : component.xmlKey ≠ sourceScope) :
    Text.lower component.xmlPath ≠ sourceScope :=
  fun hlower => hoff (pathKey_eq_sourceScope hlower)

namespace Consistent

variable {program : Program}

/-- In a new program only the program scope is there. -/
theorem new (config : Config) : (Program.new config).Consistent where
  sound := Sound.new config
  apart := ⟨fun _ _ hget => (nomatch hget), fun _ hmem => (nomatch hmem)⟩
  offSource _ hmem := nomatch hmem
  scopes key scope := by
    have hfill : (Program.new config).fill (.ofProgram []) = .ofProgram [] := rfl
    have hbare : (Program.new config).bareScopes = [.ofProgram []] := rfl
    rw [Program.new, Keyed.get?_put, Keyed.get?_empty, ← Program.new, hbare]
    simp only [List.mem_singleton, exists_eq_left, hfill]
    split
    · rename_i hkey
      rw [hkey]
      simp [eq_comm]
    · rename_i hkey
      simp [Ne.symm hkey]

/-- The program scope stands under its name. -/
theorem get?_source (h : program.Consistent) :
    program.scopes.get? sourceScope = some (program.fill (.ofProgram [])) :=
  (h.scopes _ _).mpr ⟨_, mem_bareScopes.mpr (Or.inl rfl), key_ofProgram, rfl⟩

/-- The scope of a component stands under the lower case of the path of its file. -/
theorem get?_component (h : program.Consistent) {component : Component}
    (hmem : component ∈ program.components.list) :
    program.scopes.get? (Text.lower component.xmlPath) =
      some (program.fill (componentScope component)) :=
  (h.scopes _ _).mpr ⟨_, mem_bareScopes.mpr (Or.inr ⟨component, hmem, rfl⟩), rfl, rfl⟩

/-- No two components claim one scope. -/
theorem eq_of_lower_eq (h : program.Consistent) {left right : Component}
    (hleft : left ∈ program.components.list) (hright : right ∈ program.components.list)
    (hlower : Text.lower left.xmlPath = Text.lower right.xmlPath) : left = right :=
  h.apart.declared left hleft right hright (pathKey_eq_of_lower_eq hlower)

/-! ## Scripts -/

/-- Refilling the scopes after a change of scripts keeps them consistent with these. -/
theorem withFiles (h : program.Consistent) {files : Keyed String Script}
    (hfiles : ∀ key file, files.get? key = some file → file.key = key) :
    (program.withFiles files).Consistent where
  sound := h.sound.withFiles hfiles
  apart := h.apart
  offSource := h.offSource
  scopes key scope := by
    rw [Program.withFiles, get?_scopes_refresh, Option.map_eq_some_iff]
    constructor
    · rintro ⟨before, hbefore, rfl⟩
      obtain ⟨bare, hbare, hkey, rfl⟩ := (h.scopes key before).mp hbefore
      exact ⟨bare, hbare, hkey, rfl⟩
    · rintro ⟨bare, hbare, hkey, rfl⟩
      exact ⟨program.fill bare, (h.scopes key _).mpr ⟨bare, hbare, hkey, rfl⟩, rfl⟩

/-- Which scopes are to be validated says nothing about what they hold. -/
theorem invalidate (h : program.Consistent) (keys : List String) :
    (program.invalidate keys).Consistent :=
  ⟨⟨h.sound.files, h.sound.scopes, h.sound.owned⟩, h.apart, h.offSource, h.scopes⟩

/-- The same for all scopes at once. -/
theorem invalidateAll (h : program.Consistent) : program.invalidateAll.Consistent :=
  ⟨⟨h.sound.files, h.sound.scopes, h.sound.owned⟩, h.apart, h.offSource, h.scopes⟩

/-! ## Components -/

/-- Clearing the way for a component removes the scope of the component of the same name. -/
theorem get?_clearedFor (h : program.Consistent) (component : Component) (key : String)
    (scope : Scope) :
    (program.clearedFor component).scopes.get? key = some scope ↔
      program.scopes.get? key = some scope ∧ ∀ previous ∈ program.components.list,
        previous.key = component.key → key ≠ Text.lower previous.xmlPath := by
  unfold clearedFor
  split
  · rename_i previous hprevious
    have hmem : previous ∈ program.components.list := Components.mem_list.mpr ⟨_, hprevious⟩
    have hkey : previous.key = component.key := h.apart.named _ previous hprevious
    -- only one component has the key, so only its scope is dropped
    have honly : ∀ other ∈ program.components.list, other.key = component.key →
        other = previous := by
      intro other hother hsame
      have hget := h.apart.get?_of_mem hother
      rw [hsame, ← hkey, h.apart.get?_of_mem hmem] at hget
      exact (Option.some.inj hget).symm
    rw [get?_scopes_dropScope]
    constructor
    · intro hget
      split at hget
      · cases hget
      · rename_i hne
        refine ⟨hget, fun other hother hsame => ?_⟩
        rw [honly other hother hsame]
        exact hne
    · rintro ⟨hget, hne⟩
      rw [if_neg (hne previous hmem hkey), hget]
  · rename_i hnone
    refine ⟨fun hget => ⟨hget, fun previous hmem hkey => ?_⟩, And.left⟩
    have hget := h.apart.get?_of_mem hmem
    rw [hkey] at hget
    have hnone' : program.components.byName.get? component.key = none := hnone
    rw [hnone'] at hget
    cases hget

/-- An admitted component and its scope are entered together, and the scope of the one it replaces
is dropped. -/
theorem refresh_withComponent (h : program.Consistent) {component : Component}
    (hoff : component.xmlKey ≠ sourceScope) (hadmits : program.components.Admits component) :
    (program.withComponent component).refresh.Consistent where
  sound := h.sound.refresh_withComponent component
  apart := h.apart.add hadmits
  offSource other hmem := by
    rcases (Components.mem_list_add h.apart).mp hmem with rfl | ⟨hold, -⟩
    · exact hoff
    · exact h.offSource other hold
  scopes key scope := by
    -- an old component of another key keeps its scope, since its file is another one
    have hnew : ∀ other : Component, other ∈ program.components.list →
        other.key ≠ component.key →
          Text.lower other.xmlPath ≠ Text.lower component.xmlPath :=
      fun other hother hkey hlower => hkey (hadmits other hother (pathKey_eq_of_lower_eq hlower))
    rw [get?_scopes_refresh, Option.map_eq_some_iff, withComponent, Keyed.get?_put,
      key_componentScope]
    constructor
    · rintro ⟨before, hbefore, rfl⟩
      split at hbefore
      · rename_i hkey
        obtain rfl := Option.some.inj hbefore
        exact ⟨_, mem_bareScopes.mpr (Or.inr ⟨component,
          (Components.mem_list_add h.apart).mpr (Or.inl rfl), rfl⟩), hkey.symm, rfl⟩
      -- any other scope was there before and is not that of the replaced component
      · obtain ⟨hget, hfree⟩ := (h.get?_clearedFor component key before).mp hbefore
        obtain ⟨bare, hbare, hkey, rfl⟩ := (h.scopes key before).mp hget
        refine ⟨bare, mem_bareScopes.mpr ?_, hkey, rfl⟩
        rcases mem_bareScopes.mp hbare with rfl | ⟨other, hother, rfl⟩
        · exact Or.inl rfl
        · refine Or.inr ⟨other, (Components.mem_list_add h.apart).mpr (Or.inr ⟨hother, ?_⟩), rfl⟩
          exact fun hsame => hfree other hother hsame hkey.symm
    · rintro ⟨bare, hbare, hkey, rfl⟩
      rcases mem_bareScopes.mp hbare with rfl | ⟨other, hother, rfl⟩
      · rw [key_ofProgram] at hkey
        subst hkey
        refine ⟨program.fill (.ofProgram []), ?_, rfl⟩
        rw [if_neg (lower_xmlPath_ne_source hoff).symm, h.get?_clearedFor]
        exact ⟨h.get?_source, fun previous hmem _ =>
          (lower_xmlPath_ne_source (h.offSource previous hmem)).symm⟩
      · rcases (Components.mem_list_add h.apart).mp hother with rfl | ⟨hold, hother⟩
        · exact ⟨componentScope other, if_pos hkey.symm, rfl⟩
        · refine ⟨program.fill (componentScope other), ?_, rfl⟩
          rw [key_componentScope] at hkey
          subst hkey
          rw [if_neg (hnew other hold hother), h.get?_clearedFor]
          refine ⟨h.get?_component hold, fun previous hmem hsame hlower => ?_⟩
          rw [h.eq_of_lower_eq hold hmem hlower] at hother
          exact hother hsame

/-- Scripts of a scope that is kept do not change when a component is removed. -/
theorem filesOf_withoutComponent (h : program.Consistent) {xmlPath : String}
    {component : Component} (hdeclared : program.components.declaredIn? xmlPath = some component)
    {bare : Scope} (hbare : bare ∈ (program.withoutComponent xmlPath).bareScopes) :
    (program.withoutComponent xmlPath).filesOf bare.name = program.filesOf bare.name := by
  have hlater := h.apart.removeDeclaredIn hdeclared
  rcases mem_bareScopes.mp hbare with rfl | ⟨other, hother, rfl⟩
  · rfl
  · have hold := ((Components.mem_list_removeDeclaredIn h.apart hdeclared).mp hother).1
    have hsame : (program.withoutComponent xmlPath).components.declaredIn? other.xmlPath =
        program.components.declaredIn? other.xmlPath := by
      rw [h.apart.declaredIn?_of_mem hold]
      exact hlater.declaredIn?_of_mem hother
    unfold filesOf
    rw [show (componentScope other).name = other.xmlPath from rfl, hsame]
    rfl

/-- A component and its scope are removed together. -/
theorem removeComponent (h : program.Consistent) {xmlPath : String} {component : Component}
    (hdeclared : program.components.declaredIn? xmlPath = some component) :
    ((program.withoutComponent xmlPath).dropScope (Text.lower component.xmlPath)).Consistent := by
  obtain ⟨hmem, -⟩ := Components.of_declaredIn? hdeclared
  have hwithout : (program.withoutComponent xmlPath).Sound :=
    ⟨h.sound.files, h.sound.scopes, h.sound.owned⟩
  have hcomponents : ((program.withoutComponent xmlPath).dropScope
      (Text.lower component.xmlPath)).components =
        program.components.removeDeclaredIn xmlPath := components_dropScope _ _
  have hbare : ((program.withoutComponent xmlPath).dropScope
      (Text.lower component.xmlPath)).bareScopes =
        (program.withoutComponent xmlPath).bareScopes := by
    rw [bareScopes, hcomponents]
    rfl
  -- what the other scopes hold does not change with the removal
  have hfill : ∀ bare ∈ (program.withoutComponent xmlPath).bareScopes,
      ((program.withoutComponent xmlPath).dropScope (Text.lower component.xmlPath)).fill bare =
        program.fill bare := by
    intro bare hmem
    have hfiles := h.filesOf_withoutComponent hdeclared hmem
    unfold fill
    rw [← hfiles]
    unfold dropScope
    split <;> rfl
  refine ⟨hwithout.dropScope _, ?_, ?_, fun key scope => ?_⟩
  · rw [hcomponents]
    exact h.apart.removeDeclaredIn hdeclared
  · rw [hcomponents]
    intro other hother
    exact h.offSource other ((Components.mem_list_removeDeclaredIn h.apart hdeclared).mp hother).1
  · rw [get?_scopes_dropScope, hbare]
    constructor
    · intro hget
      split at hget
      · cases hget
      · rename_i hne
        obtain ⟨bare, hold, hkey, rfl⟩ := (h.scopes key scope).mp hget
        have hkept : bare ∈ (program.withoutComponent xmlPath).bareScopes := by
          rcases mem_bareScopes.mp hold with rfl | ⟨other, hother, rfl⟩
          · exact mem_bareScopes.mpr (Or.inl rfl)
          · refine mem_bareScopes.mpr (Or.inr ⟨other, ?_, rfl⟩)
            refine (Components.mem_list_removeDeclaredIn h.apart hdeclared).mpr ⟨hother, ?_⟩
            rintro rfl
            exact hne hkey.symm
        exact ⟨bare, hkept, hkey, (hfill bare hkept).symm⟩
    · rintro ⟨bare, hkept, hkey, rfl⟩
      rw [hfill bare hkept]
      -- no scope that is left has the key of the dropped one: paths of components differ, and none
      -- is called as the program scope
      have hne : key ≠ Text.lower component.xmlPath := by
        rw [← hkey]
        rcases mem_bareScopes.mp hkept with rfl | ⟨other, hother, rfl⟩
        · rw [key_ofProgram]
          exact (lower_xmlPath_ne_source (h.offSource component hmem)).symm
        · obtain ⟨hold, hdiffers⟩ :=
            (Components.mem_list_removeDeclaredIn h.apart hdeclared).mp hother
          exact fun hlower => hdiffers (h.eq_of_lower_eq hold hmem hlower)
      rw [if_neg hne]
      refine (h.scopes key _).mpr ⟨bare, ?_, hkey, rfl⟩
      rcases mem_bareScopes.mp hkept with rfl | ⟨other, hother, rfl⟩
      · exact mem_bareScopes.mpr (Or.inl rfl)
      · exact mem_bareScopes.mpr (Or.inr ⟨other,
          ((Components.mem_list_removeDeclaredIn h.apart hdeclared).mp hother).1, rfl⟩)

/-! ## All operations -/

/-- Validation touches nothing that scopes follow. -/
theorem validateIn (h : program.Consistent) (order : List Task) :
    (program.validateIn order).Consistent := by
  have hfill : (program.validateIn order).fill = program.fill := by
    funext scope
    simp only [fill, filesOf, files_validateIn, components_validateIn]
  have hbare : (program.validateIn order).bareScopes = program.bareScopes := by
    rw [bareScopes, components_validateIn, bareScopes]
  refine ⟨h.sound.validateIn order, ?_, ?_, ?_⟩
  · rw [components_validateIn]
    exact h.apart
  · rw [components_validateIn]
    exact h.offSource
  · rw [scopes_validateIn, hfill, hbare]
    exact h.scopes

/-- Every operation that is allowed keeps scopes consistent with scripts and components. -/
theorem perform (h : program.Consistent) {op : Op} (hallowed : program.Allows op) :
    (program.perform op).Consistent := by
  cases op with
  | setFile file => exact (h.withFiles (h.sound.get?_put_file file)).invalidate _
  | removeFile path =>
    rw [perform_removeFile]
    split
    · exact (h.withFiles (h.sound.get?_erase_file (pathKey path))).invalidate _
    · exact h
  | addComponent component => exact (h.refresh_withComponent hallowed.1 hallowed.2).invalidateAll
  | removeComponent xmlPath =>
    rw [perform_removeComponent]
    split
    · rename_i component hdeclared
      exact (h.removeComponent hdeclared).invalidateAll
    · exact h
  | validate => exact h.validateIn program.schedule

end Consistent

end Program

end ScopeCheck
