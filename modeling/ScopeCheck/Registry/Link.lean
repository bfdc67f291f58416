import ScopeCheck.Registry.Basic

/-!
# Linking the tables of a scope

While a scope is examined, the table of the scope becomes the parent of every file table, and the
joint table of a namespace becomes a sibling of the table of each of its blocks. Afterwards all of
this is undone, since scripts are shared by several scopes. The tables that are made for an
examination carry its number, which no table mentions yet.
-/

namespace ScopeCheck

/-- The number of the examination that a reference belongs to, plus one; zero if to none. -/
def TableRef.examinationBound : TableRef → Nat
  | inFile .. => 0
  | ofScope examination => examination + 1
  | ofNamespace examination _ => examination + 1

/-- The references that a table makes. -/
def SymbolTable.mentions {ρ : Type} (table : SymbolTable ρ) : List ρ :=
  table.siblings ++ table.parents.filterMap id

/-- A number of an examination that no table mentions. -/
def freshExamination (tables : Tables TableRef) : Nat :=
  ((tables.keys ++ tables.values.flatMap SymbolTable.mentions).map
    TableRef.examinationBound).foldl max 0

namespace Registry

/-- The reference to the table of a file. -/
def fileRef (file : Script) : TableRef := file.ref []

/-- The reference to the table of a block. -/
def blockRef (block : NamespaceBlock) : TableRef := block.script.ref block.owner

/-- Adds the tables that are made for an examination. -/
def addTables (registry : Registry) (examination : Nat) (tables : Tables TableRef) :
    Tables TableRef :=
  registry.namespaces.entries.foldl
    (fun tables entry => tables.put (.ofNamespace examination entry.1)
      (registry.namespaceTable entry.1 entry.2))
    (tables.put (.ofScope examination) registry.scopeTable)

/-- Takes away the tables that were made for an examination. -/
def dropTables (registry : Registry) (examination : Nat) (tables : Tables TableRef) :
    Tables TableRef :=
  registry.namespaces.keys.foldl (fun tables key => tables.erase (.ofNamespace examination key))
    (tables.erase (.ofScope examination))

/-- Puts the table of the scope above the tables of the files. -/
def pushScope (registry : Registry) (examination : Nat) (tables : Tables TableRef) :
    Tables TableRef :=
  registry.files.foldl
    (fun tables file => tables.adjust (fileRef file)
      (SymbolTable.pushParent · (some (.ofScope examination)))) tables

/-- Takes away the topmost parent of the tables of the files. -/
def popScope (registry : Registry) (tables : Tables TableRef) : Tables TableRef :=
  registry.files.foldl
    (fun tables file => tables.adjust (fileRef file) SymbolTable.popParent) tables

/-- Puts the joint table of each namespace beside the tables of its blocks. -/
def joinBlocks (registry : Registry) (examination : Nat) (tables : Tables TableRef) :
    Tables TableRef :=
  registry.blocks.foldl
    (fun tables block => tables.adjust (blockRef block)
      (SymbolTable.addSibling · (.ofNamespace examination block.key))) tables

/-- Takes the joint table of each namespace away from the tables of its blocks. -/
def partBlocks (registry : Registry) (examination : Nat) (tables : Tables TableRef) :
    Tables TableRef :=
  registry.blocks.foldl
    (fun tables block =>
      Tables.removeSibling tables (blockRef block) (.ofNamespace examination block.key)) tables

/-- Links the tables of the scope for an examination. -/
def link (registry : Registry) (examination : Nat) (tables : Tables TableRef) :
    Tables TableRef :=
  registry.joinBlocks examination
    (registry.pushScope examination (registry.addTables examination tables))

/-- Undoes `link`. -/
def unlink (registry : Registry) (examination : Nat) (tables : Tables TableRef) :
    Tables TableRef :=
  registry.dropTables examination
    (registry.partBlocks examination (registry.popScope tables))

end Registry

end ScopeCheck
