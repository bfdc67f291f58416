import ScopeCheck.Aggregation
import ScopeCheck.Component
import ScopeCheck.Config.Basic
import ScopeCheck.Diagnostic.Report

/-!
# Programs

A program has scripts and components. The scripts under the source folder form one scope, and each
component has a scope with its scripts. Changes mark as unvalidated the scopes that they concern:
a script concerns the scopes whose chain has it, before or after the change; a component concerns
all scopes, since its name becomes a node type.
-/

namespace ScopeCheck

/-- The folder whose scripts form the scope of the program. -/
def sourceFolder : String := "source/"

/-- Scripts, components and scopes, with what has been found in them. -/
structure Program where
  /-- The settings. -/
  config : Config
  /-- The scripts, under their keys. -/
  files : Keyed String Script
  /-- The components. -/
  components : Components
  /-- The scopes, under their keys. -/
  scopes : Keyed String Scope
  /-- The keys of the scopes that have been examined since they last changed. -/
  validated : List String
  /-- What the last examination of each scope found, under the name of the scope. -/
  findings : Keyed String ScopeFindings
  /-- The diagnostics that are kept, under the name of the scope they are filed for. -/
  filed : Keyed String (List Diagnostic)

/-- Why an operation on a program is refused. -/
inductive ProgramError where
  | unknownScope (name : String)
  | unknownFile (path : String)
  | unknownComponent (xmlPath : String)
deriving DecidableEq, Repr

namespace ProgramError

/-- What is said of an error. -/
def message : ProgramError → String
  | unknownScope name => s!"No scope named '{name}'"
  | unknownFile path => s!"No file with package path '{path}'"
  | unknownComponent xmlPath => s!"No component declared in '{xmlPath}'"

/-- The identifier of the kind of error. -/
def tag : ProgramError → String
  | unknownScope _ => "bsc_db::unknown_scope"
  | unknownFile _ => "bsc_db::unknown_file"
  | unknownComponent _ => "bsc_db::unknown_component"

end ProgramError

namespace Program

/-- A program without scripts and components. -/
def new (config : Config) : Program :=
  { config
    files := .empty
    components := .empty
    scopes := Keyed.empty.put (Scope.ofProgram []).key (.ofProgram [])
    validated := []
    findings := .empty
    filed := .empty }

/-! ## Scopes -/

/-- The scope of a name. -/
def scope (program : Program) (name : String) : Except ProgramError Scope :=
  match program.scopes.get? (Text.lower name) with
  | some scope => .ok scope
  | none => .error (.unknownScope name)

/-- The scopes above a scope: those of the components above its component. -/
def ancestors (program : Program) (scope : Scope) : List Scope :=
  match program.components.declaredIn? scope.name with
  | none => []
  | some component =>
    (program.components.ancestors component.name).filterMap fun parent =>
      program.scopes.get? (Text.lower parent.xmlPath)

/-- A scope with the scopes above it. -/
def chain (program : Program) (scope : Scope) : ScopeChain := ⟨scope, program.ancestors scope⟩

/-- The keys of the scopes whose chain has a script. -/
def scopesWith (program : Program) (fileKey : String) : List String :=
  (program.scopes.values.filter fun scope =>
    (program.chain scope).allFiles.any fun file => file.key = fileKey).map Scope.key

/-- Whether a scope has been examined since it last changed. -/
def isValidated (program : Program) (name : String) : Except ProgramError Bool := do
  let scope ← program.scope name
  pure (program.validated.contains scope.key)

/-- The platform with the components of the program as node types. -/
def platform (program : Program) : Platform := .withNodes program.components.names

/-- The scripts that belong to a scope of a name. -/
def filesOf (program : Program) (name : String) : List Script :=
  if name = sourceScope then
    (program.files.entries.filter fun entry =>
      sourceFolder.toList.isPrefixOf entry.1.toList).map Prod.snd
  else
    match program.components.declaredIn? name with
    | none => []
    | some component => component.scripts.filterMap fun script =>
      program.files.get? (pathKey script)

/-- Gives every scope the scripts that now belong to it. -/
def refresh (program : Program) : Program :=
  { program with
    scopes := program.scopes.mapValues fun scope =>
      { scope with files := program.filesOf scope.name } }

/-- Marks scopes as unvalidated. -/
def invalidate (program : Program) (keys : List String) : Program :=
  { program with validated := program.validated.filter fun key => !keys.contains key }

/-- Marks all scopes as unvalidated. -/
def invalidateAll (program : Program) : Program := { program with validated := [] }

/-- Removes a scope under a key, with what has been found in it. -/
def dropScope (program : Program) (key : String) : Program :=
  match program.scopes.get? key with
  | none => program
  | some scope =>
    { program with
      scopes := program.scopes.erase key
      validated := program.validated.filter fun other => other ≠ scope.key
      findings := program.findings.erase scope.name
      filed := program.filed.erase scope.name }

/-! ## Scripts -/

/-- The script of a path. -/
def file? (program : Program) (path : String) : Option Script :=
  program.files.get? (pathKey path)

/-- Adds a script; one of the same key is replaced. -/
def setFile (program : Program) (file : Script) : Program :=
  let changed := { program with files := program.files.put file.key file }.refresh
  changed.invalidate (program.scopesWith file.key ++ changed.scopesWith file.key)

/-- Removes the script of a path. -/
def removeFile (program : Program) (path : String) : Except ProgramError (Script × Program) :=
  match program.file? path with
  | none => .error (.unknownFile path)
  | some file =>
    let changed := { program with files := program.files.erase (pathKey path) }.refresh
    .ok (file, changed.invalidate (program.scopesWith (pathKey path)))

/-! ## Components -/

/-- The scope of a component, without its scripts. -/
def componentScope (component : Component) : Scope :=
  .ofComponent component.name component.xmlPath component.nameRange [] component.parentName

/-- Adds a component and its scope; a component of the same name goes with its scope. -/
def addComponent (program : Program) (component : Component) : Program :=
  let cleared :=
    match program.components.get? component.name with
    | some previous => program.dropScope (Text.lower previous.xmlPath)
    | none => program
  let added : Program :=
    { cleared with
      components := program.components.add component
      scopes := cleared.scopes.put (componentScope component).key (componentScope component) }
  added.refresh.invalidateAll

/-- Removes the component that a file declares, with its scope. -/
def removeComponent (program : Program) (xmlPath : String) :
    Except ProgramError (Component × Program) :=
  match program.components.declaredIn? xmlPath with
  | none => .error (.unknownComponent xmlPath)
  | some component =>
    let removed := { program with components := program.components.removeDeclaredIn xmlPath }
    .ok (component, (removed.dropScope (Text.lower component.xmlPath)).invalidateAll)

/-! ## Diagnostics -/

/-- All diagnostics that are kept, by file and place. -/
def diagnostics (program : Program) : List Diagnostic :=
  Diagnostic.sort program.filed.values.flatten

/-- The diagnostics that are filed for a scope. -/
def scopeDiagnostics (program : Program) (name : String) :
    Except ProgramError (List Diagnostic) := do
  let scope ← program.scope name
  pure ((program.filed.get? scope.name).getD [])

/-- Whether any diagnostic that is kept is an error. -/
def hasErrors (program : Program) : Bool :=
  program.filed.values.any fun diagnostics => diagnostics.any Diagnostic.isError

/-- The texts of the scripts that have one, under their keys. -/
def sources (program : Program) : Keyed String SourceText :=
  .ofList (program.files.entries.filterMap fun (key, file) =>
    file.contents.map fun contents => (key, ⟨file.path, some contents⟩))

/-- The diagnostics with source context. -/
def render (program : Program) (handler : ReportHandler) : String :=
  Diagnostic.render handler program.sources program.diagnostics

end Program

end ScopeCheck
