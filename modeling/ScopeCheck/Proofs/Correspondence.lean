import ScopeCheck.Proofs.Consistency

/-!
# Components and their scopes

As long as no component is added in the file of a component of another name, components and scopes
correspond one to one through every run of operations (`scopes_match_components`): the scope of a
component stands under the lower case of the path of its file and has the scripts that the component
lists, as far as they are in the program.

The condition is needed. A file that is declared again under another name leaves the earlier
component registered. Its scope is then that of the later component by name, but has the scripts of
the earlier one (`renamed_has_earlier_scripts`).
-/

namespace ScopeCheck.Program

variable {program : Program}

/-- The scripts that a component lists, as far as they are in the program, in the order of the
component. -/
def listedScripts (program : Program) (component : Component) : List Script :=
  component.scripts.filterMap fun script => program.files.get? (pathKey script)

/-- The scope of a component with the scripts that the component lists. -/
def scopeOf (program : Program) (component : Component) : Scope :=
  .ofComponent component.name component.xmlPath component.nameRange
    (program.listedScripts component) component.parentName

namespace Consistent

/-- What operations keep one by one they keep in a run. -/
theorem performAll (h : program.Consistent) {ops : List Op} (hallowed : program.AllowsAll ops) :
    (program.performAll ops).Consistent := by
  induction ops generalizing program with
  | nil => exact h
  | cons op rest ih => exact ih (h.perform hallowed.1) hallowed.2

/-- The scope of a component holds the scripts that the component lists and that exist. -/
theorem fill_componentScope (h : program.Consistent) {component : Component}
    (hmem : component ∈ program.components.list) :
    program.fill (componentScope component) = program.scopeOf component := by
  have hname : component.xmlPath ≠ sourceScope := by
    intro hsource
    refine h.offSource component hmem ?_
    rw [Component.xmlKey, hsource, pathKey_sourceScope]
  have hfiles : program.filesOf component.xmlPath = program.listedScripts component := by
    rw [filesOf, if_neg hname, h.apart.declaredIn?_of_mem hmem]
    rfl
  rw [fill, scopeOf, ← hfiles]
  rfl

/-- A scope is named after the file of a component exactly if it is the one of that component. -/
theorem get?_and_name_iff (h : program.Consistent) {component : Component}
    (hmem : component ∈ program.components.list) {key : String} {scope : Scope} :
    (program.scopes.get? key = some scope ∧ pathKey scope.name = component.xmlKey) ↔
      key = Text.lower component.xmlPath ∧ scope = program.scopeOf component := by
  constructor
  · rintro ⟨hget, hname⟩
    obtain ⟨bare, hbare, rfl, rfl⟩ := (h.scopes key scope).mp hget
    rcases mem_bareScopes.mp hbare with rfl | ⟨other, hother, rfl⟩
    · exact absurd (hname.symm.trans pathKey_sourceScope) (h.offSource component hmem)
    · obtain rfl := h.apart.declared other hother component hmem hname
      exact ⟨rfl, h.fill_componentScope hmem⟩
  · rintro ⟨rfl, rfl⟩
    rw [← h.fill_componentScope hmem]
    exact ⟨h.get?_component hmem, rfl⟩

/-- A scope other than that of the program is named after the file of one component. -/
theorem existsUnique_component (h : program.Consistent) {key : String} {scope : Scope}
    (hget : program.scopes.get? key = some scope) (hkey : key ≠ sourceScope) :
    ∃! component, component ∈ program.components.list ∧
      component.xmlKey = pathKey scope.name := by
  obtain ⟨bare, hbare, rfl, rfl⟩ := (h.scopes key scope).mp hget
  rcases mem_bareScopes.mp hbare with rfl | ⟨component, hmem, rfl⟩
  · exact absurd key_ofProgram hkey
  · exact ⟨component, ⟨hmem, rfl⟩, fun other hother =>
      h.apart.declared other hother.1 component hmem hother.2⟩

end Consistent

/-- Through every run of operations in which no component is added under the name of the program
scope or in the file of a component of another name, a component has one scope: the one under the
lower case of the path of its file, with the scripts that it lists, in their order. And every scope
but that of the program is the scope of one component. -/
theorem scopes_match_components (config : Config) (ops : List Op)
    (hallowed : (new config).AllowsAll ops) :
    let program := (new config).performAll ops
    (∀ component ∈ program.components.list, ∀ key scope,
      (program.scopes.get? key = some scope ∧ pathKey scope.name = component.xmlKey) ↔
        key = Text.lower component.xmlPath ∧ scope = program.scopeOf component) ∧
      ∀ key scope, program.scopes.get? key = some scope → key ≠ sourceScope →
        ∃! component, component ∈ program.components.list ∧
          component.xmlKey = pathKey scope.name := by
  have h := (Consistent.new config).performAll hallowed
  exact ⟨fun component hmem key scope => h.get?_and_name_iff hmem,
    fun key scope hget hkey => h.existsUnique_component hget hkey⟩

/-- A keyboard with a script that is missing. -/
def keyboard : Component := ⟨"keyboard", "Keys.xml", .zero, none, ["gone.brs", "KEYS.brs"]⟩

/-- A keyboard that moves to another file, beside the component that it extended. -/
def keyboardMoves : List Op :=
  [.setFile ⟨"keys.brs", none, []⟩, .addComponent ⟨"Dialog", "dialog.xml", .zero, none, []⟩,
    .addComponent ⟨"Keyboard", "keyboard.xml", .zero, some "Dialog", ["keys.brs"]⟩,
    .addComponent keyboard]

/-- The moves are allowed. -/
theorem allowsAll_keyboardMoves : (new .usual).AllowsAll keyboardMoves := by
  simp only [keyboardMoves, AllowsAll, Allows, Components.Admits]
  decide +kernel

/-- The keyboard has the scope of the file that it moved to, with the one script of its list that
exists. -/
theorem keyboardMoves_match :
    (new .usual).AllowsAll keyboardMoves ∧
      ((new .usual).performAll keyboardMoves).scopes.get? "keys.xml" =
        some (((new .usual).performAll keyboardMoves).scopeOf keyboard) ∧
      (((new .usual).performAll keyboardMoves).listedScripts keyboard).map Script.path =
        ["keys.brs"] := by
  have hmem : keyboard ∈ ((new .usual).performAll keyboardMoves).components.list := by
    decide +kernel
  have hkey : "keys.xml" = Text.lower keyboard.xmlPath := by decide +kernel
  have hscripts : (((new .usual).performAll keyboardMoves).listedScripts keyboard).map
      Script.path = ["keys.brs"] := by
    decide +kernel
  have hmatch := (scopes_match_components .usual keyboardMoves allowsAll_keyboardMoves).1
  exact ⟨allowsAll_keyboardMoves, ((hmatch keyboard hmem _ _).mpr ⟨hkey, rfl⟩).1, hscripts⟩

/-- A file that is declared under one name and then under another. -/
def renamed : List Op :=
  [.setFile ⟨"old.brs", none, []⟩, .setFile ⟨"new.brs", none, []⟩,
    .addComponent ⟨"Old", "menu.xml", .zero, none, ["old.brs"]⟩,
    .addComponent ⟨"New", "menu.xml", .zero, none, ["new.brs"]⟩]

/-- Both components stay registered, and the scope of the later one has the scripts of the earlier
one. -/
theorem renamed_has_earlier_scripts :
    ((new .usual).performAll renamed).components.names = ["Old", "New"] ∧
      ((new .usual).performAll renamed).scopes.get? "menu.xml" =
        some (.ofComponent "New" "menu.xml" .zero [⟨"old.brs", none, []⟩] none) ∧
      ((new .usual).performAll renamed).listedScripts
        ⟨"New", "menu.xml", .zero, none, ["new.brs"]⟩ = [⟨"new.brs", none, []⟩] :=
  ⟨rfl, rfl, rfl⟩

end ScopeCheck.Program
