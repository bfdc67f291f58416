import ScopeCheck.Program.Basic

/-!
# Validating a program

Validation examines every scope that is not validated, in the order of their keys or in batches of
scopes without common scripts, and then files anew what is known of all scopes. The examinations
of one validation share the tables of the scripts and their inventories.
-/

namespace ScopeCheck

/-- A chain to be examined, with the key of its scope. -/
structure Task where
  /-- The key of the scope. -/
  key : String
  /-- The scope with those above it. -/
  chain : ScopeChain

/-- The keys of the scripts that a task reads. -/
def Task.fileKeys (task : Task) : List String := task.chain.allFiles.map Script.key

/-- Tasks that can be run at the same time, with the keys of all scripts that they read. -/
structure Batch where
  /-- The keys of the scripts that are in use. -/
  used : List String
  /-- The tasks, in the order in which they came. -/
  tasks : List Task

namespace Batch

/-- The batch without tasks. -/
def empty : Batch := ⟨[], []⟩

/-- Whether a task reads none of the scripts that are in use. -/
def admits (batch : Batch) (task : Task) : Bool :=
  task.fileKeys.all fun key => !batch.used.contains key

/-- The batch with one more task. -/
def add (batch : Batch) (task : Task) : Batch :=
  ⟨batch.used ++ task.fileKeys, batch.tasks ++ [task]⟩

end Batch

/-- Puts a task into the first batch that admits it, or into a new one. -/
def placeTask (task : Task) : List Batch → List Batch
  | [] => [Batch.empty.add task]
  | batch :: rest =>
    if batch.admits task then batch.add task :: rest else batch :: placeTask task rest

/-- Places tasks one after the other. -/
def packTasks (tasks : List Task) : List Batch :=
  tasks.foldl (fun batches task => placeTask task batches) []

/-- Batches of tasks without common scripts; every task goes into the first that it fits. -/
def disjointBatches (tasks : List Task) : List (List Task) := (packTasks tasks).map Batch.tasks

/-- Runs tasks one after the other on a workbench. -/
def runTasks (platform : Platform) (bench : Workbench) :
    List Task → List (String × ScopeFindings)
  | [] => []
  | task :: rest =>
    let (found, bench) := examineOn task.chain platform bench
    (task.key, found) :: runTasks platform bench rest

namespace Program

/-- The keys of the scopes that are not validated, in order. -/
def dirty (program : Program) : List String :=
  (program.scopes.keys.filter fun key => !program.validated.contains key).mergeSort textAtOrBefore

/-- The tasks of a validation. -/
def tasks (program : Program) : List Task :=
  program.dirty.filterMap fun key =>
    (program.scopes.get? key).map fun scope => ⟨key, program.chain scope⟩

/-- The tasks in the order in which they are run. -/
def schedule (program : Program) : List Task :=
  if program.config.parallel && 2 ≤ program.tasks.length then
    (disjointBatches program.tasks).flatten
  else program.tasks

/-- Notes what the examination of a scope found. -/
def note (program : Program) (key : String) (found : ScopeFindings) : Program :=
  { program with
    findings := program.findings.put found.scope.name found
    validated := if program.validated.contains key then program.validated
      else program.validated ++ [key] }

/-- Files all findings anew and applies the settings. -/
def aggregate (program : Program) : Program :=
  { program with
    filed := (Cycle.empty.aggregate program.findings).1.mapValues program.config.apply }

/-- Examines every scope that is not validated. -/
def validate (program : Program) : Program :=
  if program.dirty.isEmpty then program
  else
    let results := runTasks program.platform (.ofScripts program.files.values) program.schedule
    (results.foldl (fun program (key, found) => program.note key found) program).aggregate

end Program

end ScopeCheck
