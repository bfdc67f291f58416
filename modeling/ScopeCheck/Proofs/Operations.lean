import ScopeCheck.Program.Validation
import ScopeCheck.Proofs.Keyed

/-!
# Programs under operations

The operations on a program, and what all of them keep: scripts and scopes stand under their keys,
and a scope has scripts of the program only (`Sound`). An operation that is refused leaves the
program as it is.
-/

namespace ScopeCheck

namespace Program

/-- An operation on a program. -/
inductive Op where
  /-- A script is added or replaced. -/
  | setFile (file : Script)
  /-- The script of a path is removed. -/
  | removeFile (path : String)
  /-- A component is added or replaced. -/
  | addComponent (component : Component)
  /-- The component that a file declares is removed. -/
  | removeComponent (xmlPath : String)
  /-- The program is validated. -/
  | validate

/-- The program after an operation. -/
def perform (program : Program) : Op → Program
  | .setFile file => program.setFile file
  | .removeFile path =>
    match program.removeFile path with
    | .ok (_, later) => later
    | .error _ => program
  | .addComponent component => program.addComponent component
  | .removeComponent xmlPath =>
    match program.removeComponent xmlPath with
    | .ok (_, later) => later
    | .error _ => program
  | .validate => program.validate

/-- The program after some operations. -/
def performAll (program : Program) (ops : List Op) : Program := ops.foldl perform program

/-! ## The operations in steps -/

/-- The program with other scripts, which are given to the scopes they belong to. -/
def withFiles (program : Program) (files : Keyed String Script) : Program :=
  { program with files }.refresh

/-- The program without the scope of the component that another one replaces. -/
def clearedFor (program : Program) (component : Component) : Program :=
  match program.components.get? component.name with
  | some previous => program.dropScope (Text.lower previous.xmlPath)
  | none => program

/-- The program with one more component, whose scope has no scripts yet. -/
def withComponent (program : Program) (component : Component) : Program :=
  { program.clearedFor component with
    components := program.components.add component
    scopes := (program.clearedFor component).scopes.put (componentScope component).key
      (componentScope component) }

/-- The program without the component that a file declares, whose scope is still there. -/
def withoutComponent (program : Program) (xmlPath : String) : Program :=
  { program with components := program.components.removeDeclaredIn xmlPath }

/-- The program after its scopes are examined in a given order. -/
def validateIn (program : Program) (order : List Task) : Program :=
  if program.dirty.isEmpty then program
  else
    let results := runTasks program.platform (.ofScripts program.files.values) order
    (results.foldl (fun program (key, found) => program.note key found) program).aggregate

section Steps

variable (program : Program)

/-- Setting a script takes two steps: the scopes are refilled, and those that held the script before
or hold it now are to be validated again. -/
theorem perform_setFile (file : Script) :
    program.perform (.setFile file) =
      (program.withFiles (program.files.put file.key file)).invalidate
        (program.scopesWith file.key ++
          (program.withFiles (program.files.put file.key file)).scopesWith file.key) := rfl

/-- Removing a script that is not there does nothing. Otherwise the scopes are refilled and those
that held it are to be validated again. -/
theorem perform_removeFile (path : String) :
    program.perform (.removeFile path) =
      if (program.files.get? (pathKey path)).isSome then
        (program.withFiles (program.files.erase (pathKey path))).invalidate
          (program.scopesWith (pathKey path))
      else program := by
  simp only [perform, removeFile, file?]
  cases program.files.get? (pathKey path) <;> rfl

/-- Adding a component enters it with its scope and refills all scopes, which are all to be
validated again. -/
theorem perform_addComponent (component : Component) :
    program.perform (.addComponent component) =
      (program.withComponent component).refresh.invalidateAll := rfl

/-- Removing a component that is not there does nothing. Otherwise its scope goes with it, and all
others are to be validated again. -/
theorem perform_removeComponent (xmlPath : String) :
    program.perform (.removeComponent xmlPath) =
      match program.components.declaredIn? xmlPath with
      | some component =>
        ((program.withoutComponent xmlPath).dropScope (Text.lower component.xmlPath)).invalidateAll
      | none => program := by
  simp only [perform, removeComponent]
  cases program.components.declaredIn? xmlPath <;> rfl

/-- Validation runs the tasks in the order that the program schedules them in. -/
theorem perform_validate :
    program.perform .validate = program.validateIn program.schedule := rfl

end Steps

/-! ## The scopes above a scope -/

/-- A scope that no component declares has none above it. -/
theorem ancestors_of_none {program : Program} {scope : Scope}
    (hnone : program.components.declaredIn? scope.name = none) : program.ancestors scope = [] := by
  rw [ancestors, hnone]

/-- Above the scope of a component are those of the components it extends. -/
theorem ancestors_of_some {program : Program} {scope : Scope} {component : Component}
    (hdeclared : program.components.declaredIn? scope.name = some component) :
    program.ancestors scope =
      (program.components.ancestors component.name).filterMap fun parent =>
        program.scopes.get? (Text.lower parent.xmlPath) := by
  rw [ancestors, hdeclared]

/-! ## What the operations do to scopes -/

section Scopes

variable (program : Program)

/-- Refreshing gives each scope the files that it should hold, and keeps all else of it. -/
theorem get?_scopes_refresh (key : String) :
    program.refresh.scopes.get? key = (program.scopes.get? key).map fun scope =>
      { scope with files := program.filesOf scope.name } :=
  Keyed.get?_mapValues _ _ _

/-- Dropping a scope leaves all others. -/
theorem get?_scopes_dropScope (key other : String) :
    (program.dropScope key).scopes.get? other =
      if other = key then none else program.scopes.get? other := by
  unfold dropScope
  split
  · rename_i hnone
    by_cases hother : other = key
    · rw [if_pos hother, hother, hnone]
    · rw [if_neg hother]
  · exact Keyed.get?_erase _ _ _

/-- Dropping a scope leaves the scripts. -/
theorem files_dropScope (key : String) : (program.dropScope key).files = program.files := by
  unfold dropScope
  split <;> rfl

/-- Dropping a scope leaves the components. -/
theorem components_dropScope (key : String) :
    (program.dropScope key).components = program.components := by
  unfold dropScope
  split <;> rfl

/-- Noting findings touches neither scripts nor components nor scopes. -/
theorem foldl_note (results : List (String × ScopeFindings)) :
    results.foldl (fun program result => program.note result.1 result.2) program =
      { program with
        findings := results.foldl (fun findings result =>
          findings.put result.2.scope.name result.2) program.findings
        validated := results.foldl (fun validated result =>
          if validated.contains result.1 then validated else validated ++ [result.1])
            program.validated } := by
  induction results generalizing program with
  | nil => rfl
  | cons result rest ih => rw [List.foldl_cons, ih]; rfl

/-- What a validation in some order comes to. -/
theorem validateIn_eq (order : List Task) :
    program.validateIn order =
      if program.dirty.isEmpty then program
      else
        Program.aggregate { program with
          findings := (runTasks program.platform (.ofScripts program.files.values) order).foldl
            (fun findings result => findings.put result.2.scope.name result.2) program.findings
          validated := (runTasks program.platform (.ofScripts program.files.values) order).foldl
            (fun validated result =>
              if validated.contains result.1 then validated else validated ++ [result.1])
            program.validated } := by
  unfold validateIn
  split
  · rfl
  · rw [← foldl_note]

/-- Validation leaves the scripts. -/
theorem files_validateIn (order : List Task) :
    (program.validateIn order).files = program.files := by
  rw [validateIn_eq]
  split <;> rfl

/-- Validation leaves the components. -/
theorem components_validateIn (order : List Task) :
    (program.validateIn order).components = program.components := by
  rw [validateIn_eq]
  split <;> rfl

/-- Validation leaves the scopes. -/
theorem scopes_validateIn (order : List Task) :
    (program.validateIn order).scopes = program.scopes := by
  rw [validateIn_eq]
  split <;> rfl

end Scopes

/-! ## Scripts and scopes under their keys -/

/-- A scope holds scripts of the program only. -/
theorem mem_values_of_mem_filesOf {program : Program} {name : String} {file : Script}
    (hmem : file ∈ program.filesOf name) : file ∈ program.files.values := by
  unfold filesOf at hmem
  split at hmem
  · obtain ⟨entry, hentry, rfl⟩ := List.mem_map.mp hmem
    exact List.mem_map_of_mem (List.mem_filter.mp hentry).1
  · split at hmem
    · cases hmem
    · obtain ⟨script, -, hget⟩ := List.mem_filterMap.mp hmem
      exact Keyed.mem_values_iff.mpr ⟨_, hget⟩

/-- Scripts and scopes stand under their keys, and a scope has scripts of the program only. -/
structure Sound (program : Program) : Prop where
  /-- Scripts stand under their keys. -/
  files : ∀ key file, program.files.get? key = some file → file.key = key
  /-- Scopes stand under their keys. -/
  scopes : ∀ key scope, program.scopes.get? key = some scope → scope.key = key
  /-- A scope has scripts of the program only. -/
  owned : ∀ key scope, program.scopes.get? key = some scope →
    ∀ file ∈ scope.files, file ∈ program.files.values

namespace Sound

variable {program : Program}

/-- In a new program there is one scope and no script. -/
theorem new (config : Config) : (Program.new config).Sound where
  files key file hget := by
    rw [Program.new, Keyed.get?_empty] at hget
    cases hget
  scopes key scope hget := by
    rw [Program.new, Keyed.get?_put, Keyed.get?_empty] at hget
    split at hget
    · rename_i hkey
      rw [← Option.some.inj hget, hkey]
    · cases hget
  owned key scope hget := by
    rw [Program.new, Keyed.get?_put, Keyed.get?_empty] at hget
    split at hget
    · rw [← Option.some.inj hget]
      exact fun file hmem => nomatch hmem
    · cases hget

/-- Scopes that are given their scripts anew have scripts of the program only. -/
theorem refresh (program : Program)
    (hfiles : ∀ key file, program.files.get? key = some file → file.key = key)
    (hscopes : ∀ key scope, program.scopes.get? key = some scope → scope.key = key) :
    program.refresh.Sound where
  files := hfiles
  scopes key scope hget := by
    rw [get?_scopes_refresh, Option.map_eq_some_iff] at hget
    obtain ⟨before, hbefore, rfl⟩ := hget
    exact hscopes key before hbefore
  owned key scope hget := by
    rw [get?_scopes_refresh, Option.map_eq_some_iff] at hget
    obtain ⟨before, -, rfl⟩ := hget
    exact fun file hmem => mem_values_of_mem_filesOf hmem

/-- Dropping a scope moves no other to another key. -/
theorem dropScope (h : program.Sound) (key : String) : (program.dropScope key).Sound where
  files := by
    rw [files_dropScope]
    exact h.files
  scopes other scope hget := by
    rw [get?_scopes_dropScope] at hget
    split at hget
    · cases hget
    · exact h.scopes other scope hget
  owned other scope hget := by
    rw [get?_scopes_dropScope] at hget
    rw [files_dropScope]
    split at hget
    · cases hget
    · exact h.owned other scope hget

/-- Refilling scopes leaves their keys, so it is enough that scripts stand under theirs. -/
theorem withFiles (h : program.Sound) {files : Keyed String Script}
    (hfiles : ∀ key file, files.get? key = some file → file.key = key) :
    (program.withFiles files).Sound :=
  refresh { program with files } hfiles h.scopes

/-- Making room for a component at most drops a scope. -/
theorem clearedFor (h : program.Sound) (component : Component) :
    (program.clearedFor component).Sound := by
  unfold Program.clearedFor
  split
  · exact h.dropScope _
  · exact h

/-- The scope of a new component is entered under its own key. -/
theorem refresh_withComponent (h : program.Sound) (component : Component) :
    (program.withComponent component).refresh.Sound := by
  have hcleared := h.clearedFor component
  refine refresh _ hcleared.files fun key scope hget => ?_
  rw [withComponent, Keyed.get?_put] at hget
  split at hget
  · rename_i hkey
    rw [← Option.some.inj hget, hkey]
  · exact hcleared.scopes key scope hget

/-- A script that is put goes under its key. -/
theorem get?_put_file (h : program.Sound) (file : Script) (key : String) (other : Script)
    (hget : (program.files.put file.key file).get? key = some other) : other.key = key := by
  rw [Keyed.get?_put] at hget
  split at hget
  · rename_i hkey
    rw [← Option.some.inj hget, hkey]
  · exact h.files key other hget

/-- Without one script the others still stand under their keys. -/
theorem get?_erase_file (h : program.Sound) (gone : String) (key : String) (other : Script)
    (hget : (program.files.erase gone).get? key = some other) : other.key = key := by
  rw [Keyed.get?_erase] at hget
  split at hget
  · cases hget
  · exact h.files key other hget

/-- Validation touches neither scripts nor scopes. -/
theorem validateIn (h : program.Sound) (order : List Task) : (program.validateIn order).Sound where
  files := by
    rw [files_validateIn]
    exact h.files
  scopes := by
    rw [scopes_validateIn]
    exact h.scopes
  owned := by
    rw [scopes_validateIn, files_validateIn]
    exact h.owned

/-- Every operation keeps scripts and scopes under their keys. -/
theorem perform (h : program.Sound) (op : Op) : (program.perform op).Sound := by
  cases op with
  | setFile file =>
    have hlater := h.withFiles (h.get?_put_file file)
    exact ⟨hlater.files, hlater.scopes, hlater.owned⟩
  | removeFile path =>
    rw [perform_removeFile]
    split
    · have hlater := h.withFiles (h.get?_erase_file (pathKey path))
      exact ⟨hlater.files, hlater.scopes, hlater.owned⟩
    · exact h
  | addComponent component =>
    have hlater := h.refresh_withComponent component
    exact ⟨hlater.files, hlater.scopes, hlater.owned⟩
  | removeComponent xmlPath =>
    rw [perform_removeComponent]
    split
    · rename_i component _
      have hwithout : (program.withoutComponent xmlPath).Sound := ⟨h.files, h.scopes, h.owned⟩
      have hlater := hwithout.dropScope (Text.lower component.xmlPath)
      exact ⟨hlater.files, hlater.scopes, hlater.owned⟩
    · exact h
  | validate => exact h.validateIn program.schedule

/-- So does every history, by induction on the operations. -/
theorem performAll (h : program.Sound) (ops : List Op) : (program.performAll ops).Sound := by
  induction ops generalizing program with
  | nil => exact h
  | cons op rest ih => exact ih (h.perform op)

end Sound

end Program

end ScopeCheck
