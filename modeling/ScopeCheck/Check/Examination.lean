import ScopeCheck.Check.Classes
import ScopeCheck.Check.Names
import ScopeCheck.Memo
import ScopeCheck.Registry.Link

/-!
# The examination of a scope

To examine a scope, its declarations are registered and its classes are checked; then its symbol
tables are linked, every script is checked, and the tables are unlinked again. Scripts and their
tables are shared by scopes, so an examination is handed the tables and gives them back, together
with a memo of the inventories of scripts that it has made.
-/

namespace ScopeCheck

/-- What the examination of a scope found. -/
structure ScopeFindings where
  /-- The scope. -/
  scope : ScopeLabel
  /-- The findings, in the order in which they were made. -/
  findings : List Finding
deriving DecidableEq, Repr

/-- What examinations share: the symbol tables of the scripts, and inventories under the keys of
their scripts. -/
structure Workbench where
  /-- The symbol tables. -/
  tables : Tables TableRef
  /-- The inventories that have been made. -/
  inventories : Memo String Inventory

/-- A workbench with the tables of some scripts. -/
def Workbench.ofScripts (scripts : List Script) : Workbench :=
  ⟨Script.tablesOf scripts, .empty⟩

/-- The inventories of some scripts, of which the memo may know some. -/
def takeInventories (memo : Memo String Inventory) :
    List Script → List Inventory × Memo String Inventory
  | [] => ([], memo)
  | script :: rest =>
    let (inventory, memo) := memo.remember script.key (Inventory.collect script)
    let (others, memo) := takeInventories memo rest
    (inventory :: others, memo)

/-- Checks the names of a scope whose tables are linked. -/
def checkNames (registry : Registry) (tables : Tables TableRef) (inventories : List Inventory) :
    List Finding :=
  inventories.flatMap (checkInventory registry tables)
    ++ checkDuplicateEnums registry
    ++ checkEnumValues registry

/-- Links the tables of a scope, checks its names and unlinks the tables. -/
def examineNames (registry : Registry) (bench : Workbench) : List Finding × Workbench :=
  let examination := freshExamination bench.tables
  let linked := registry.link examination bench.tables
  let (inventories, memo) := takeInventories bench.inventories registry.files
  (checkNames registry linked inventories, ⟨registry.unlink examination linked, memo⟩)

/-- Examines a scope on a workbench. -/
def examineOn (chain : ScopeChain) (platform : Platform) (bench : Workbench) :
    ScopeFindings × Workbench :=
  let registry := Registry.build chain platform
  let (names, bench) := examineNames registry bench
  (⟨chain.scope.label, checkClasses registry ++ names⟩, bench)

/-- Examines a scope by itself. -/
def examine (chain : ScopeChain) (platform : Platform) : ScopeFindings :=
  (examineOn chain platform (.ofScripts chain.sortedFiles)).1

end ScopeCheck
