import ScopeCheck.Check.Examination

/-!
# Bringing the findings of scopes together

A script that belongs to several scopes is examined once for each, so one problem may be found many
times. A cycle files every problem once, with the first scope that reports it. A problem that is
listed once for each file is marked with every scope that reports it: the cycle remembers where the
problem is filed and adds the marks of later scopes there.
-/

namespace ScopeCheck

/-- The mark of a scope on a diagnostic: it stands where the scope is declared, or else where the
diagnostic itself is. -/
def ScopeLabel.mark (scope : ScopeLabel) (diagnostic : Diagnostic) : Related :=
  ⟨s!"Not defined in scope '{scope.name}'",
    scope.declaration.getD ⟨diagnostic.file, diagnostic.range⟩⟩

/-- What makes two diagnostics the same problem of the same file. -/
structure FileProblem where
  /-- The key of the file. -/
  file : String
  /-- The key of the diagnostic. -/
  problem : DiagnosticKey
deriving DecidableEq, Repr

/-- The problem of a file that a diagnostic is about. -/
def Diagnostic.fileProblem (diagnostic : Diagnostic) : FileProblem :=
  ⟨diagnostic.fileKey, diagnostic.key⟩

/-- Where a diagnostic is filed. -/
structure Slot where
  /-- The place of the scope among the scopes that have a list. -/
  scope : Nat
  /-- The place of the diagnostic in the list of the scope. -/
  position : Nat
deriving DecidableEq, Repr

/-- What has been filed since the last reset. -/
structure Cycle where
  /-- What has been filed to be listed once. -/
  once : List DiagnosticKey
  /-- Where the problems that are listed once for each file are filed. -/
  slots : Keyed FileProblem Slot
  /-- The names of the scopes that have reported such a problem, first one first. -/
  reporters : Keyed FileProblem (List String)
  /-- The diagnostics of each scope, under its name. -/
  filed : Keyed String (List Diagnostic)

namespace Cycle

/-- A cycle in which nothing is filed. -/
def empty : Cycle := ⟨[], .empty, .empty, .empty⟩

/-- Gives a scope a list, which may stay empty. -/
def register (cycle : Cycle) (scope : ScopeLabel) : Cycle :=
  { cycle with filed := cycle.filed.putNew scope.name [] }

/-- Where the next diagnostic of a scope is filed, once the scope has a list. -/
def nextSlot (cycle : Cycle) (scope : ScopeLabel) : Slot :=
  ⟨cycle.filed.placeOf scope.name, ((cycle.filed.get? scope.name).getD []).length⟩

/-- Files a diagnostic at the end of the list of a scope. -/
def file (cycle : Cycle) (scope : ScopeLabel) (diagnostic : Diagnostic) : Cycle :=
  let registered := cycle.register scope
  { registered with
    filed := registered.filed.adjustAt (registered.nextSlot scope).scope (· ++ [diagnostic]) }

/-- Adds a mark to the diagnostic in a slot. -/
def markAt (cycle : Cycle) (slot : Slot) (mark : Related) : Cycle :=
  { cycle with
    filed := cycle.filed.adjustAt slot.scope fun diagnostics =>
      diagnostics.modify slot.position (Diagnostic.withRelated · mark) }

/-- Whether a scope has reported a problem of a file. -/
def hasReported (cycle : Cycle) (problem : FileProblem) (scope : ScopeLabel) : Bool :=
  ((cycle.reporters.get? problem).getD []).contains scope.name

/-- Notes that a scope has reported a problem of a file. -/
def noteReporter (cycle : Cycle) (problem : FileProblem) (scope : ScopeLabel) : Cycle :=
  if cycle.hasReported problem scope then cycle
  else
    { cycle with
      reporters := cycle.reporters.put problem
        ((cycle.reporters.get? problem).getD [] ++ [scope.name]) }

/-- Takes in a diagnostic that is listed once; whether it is filed anew. -/
def addOnce (cycle : Cycle) (scope : ScopeLabel) (diagnostic : Diagnostic) : Bool × Cycle :=
  if cycle.once.contains diagnostic.key then (false, cycle)
  else
    (true, { cycle.file scope diagnostic with once := diagnostic.key :: cycle.once })

/-- Takes in a diagnostic that is listed once for each file; whether it is filed anew. A scope marks
the filed diagnostic when it first reports the problem, whether that is filed now or was before. -/
def addPerFile (cycle : Cycle) (scope : ScopeLabel) (diagnostic : Diagnostic) : Bool × Cycle :=
  let problem := diagnostic.fileProblem
  let noted := cycle.noteReporter problem scope
  let (slot, isNew, placed) :=
    match cycle.slots.get? problem with
    | some slot => (slot, false, noted)
    | none =>
      let slot := (noted.register scope).nextSlot scope
      (slot, true, { noted.file scope diagnostic with slots := noted.slots.put problem slot })
  (isNew,
    if cycle.hasReported problem scope then placed
    else placed.markAt slot (scope.mark diagnostic))

/-- Takes in a finding of a scope; whether it is filed anew. -/
def add (cycle : Cycle) (scope : ScopeLabel) (finding : Finding) : Bool × Cycle :=
  match finding.route with
  | .once => cycle.addOnce scope finding.diagnostic
  | .perFile => cycle.addPerFile scope finding.diagnostic

/-- Takes in all findings of a scope. -/
def addAll (cycle : Cycle) (found : ScopeFindings) : Cycle :=
  found.findings.foldl (fun cycle finding => (cycle.add found.scope finding).2) cycle

/-- The diagnostics filed for each scope. -/
def diagnostics (cycle : Cycle) : Keyed String (List Diagnostic) := cycle.filed

/-- Takes in the findings of several scopes in the order of their names, and gives the diagnostics
that are then filed for each of these names. -/
def aggregate (cycle : Cycle) (perScope : Keyed String ScopeFindings) :
    Keyed String (List Diagnostic) × Cycle :=
  let ordered := perScope.sorted textAtOrBefore
  let registered := ordered.values.foldl (fun cycle found => cycle.register found.scope) cycle
  let full := ordered.values.foldl addAll registered
  (ordered.mapEntries fun name _ => (full.diagnostics.get? name).getD [], full)

end Cycle

end ScopeCheck
