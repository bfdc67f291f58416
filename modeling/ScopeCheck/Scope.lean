import ScopeCheck.Diagnostic.Basic
import ScopeCheck.Script.Visit

/-!
# Scopes

A scope is what is examined at a time: the scripts under the source folder, or the scripts of one
component. A component may extend another, whose scripts then belong to its scope too; a chain is
a scope with the scopes above it, nearest first.
-/

namespace ScopeCheck

/-- The name of the scope of all scripts that belong to no component. -/
def sourceScope : String := "source"

/-- What a scope is made for. -/
inductive ScopeKind where
  /-- The scripts of the program itself. -/
  | program
  /-- A component, with the file that declares it and the place of its name in that file. -/
  | component (name xmlPath : String) (nameRange : Range)
deriving DecidableEq, Repr

/-- A set of scripts that are examined together. -/
structure Scope where
  /-- The name of the scope. -/
  name : String
  /-- What the scope is made for. -/
  kind : ScopeKind
  /-- The scripts of the scope itself. -/
  files : List Script
  /-- The component that is extended, as written. -/
  parent : Option String

/-- A scope as it is named in messages, with the place where it is declared, if there is one. -/
structure ScopeLabel where
  /-- The name of the scope. -/
  name : String
  /-- Where the scope is declared. -/
  declaration : Option Location
deriving DecidableEq, Repr

namespace Scope

/-- The scope of the program with the given scripts. -/
def ofProgram (files : List Script) : Scope := ⟨sourceScope, .program, files, none⟩

/-- The scope of a component, named after the file that declares it. -/
def ofComponent (name xmlPath : String) (nameRange : Range) (files : List Script)
    (parent : Option String) : Scope :=
  ⟨xmlPath, .component name xmlPath nameRange, files, parent⟩

/-- The name in lower case, under which the scope is kept. -/
def key (scope : Scope) : String := Text.lower scope.name

/-- Whether the scope is that of a component. -/
def isComponent (scope : Scope) : Bool :=
  match scope.kind with
  | .program => false
  | .component .. => true

/-- Whether a script of a path belongs to the scope itself. -/
def ownsFile (scope : Scope) (path : String) : Bool :=
  scope.files.any fun file => file.key = pathKey path

/-- The label of a scope. -/
def label (scope : Scope) : ScopeLabel :=
  match scope.kind with
  | .program => ⟨scope.name, none⟩
  | .component _ xmlPath nameRange => ⟨scope.name, some ⟨xmlPath, nameRange⟩⟩

end Scope

/-- A scope with the scopes above it. -/
structure ScopeChain where
  /-- The scope. -/
  scope : Scope
  /-- The scopes above it, nearest first. -/
  ancestors : List Scope

/-- Of scripts with one key, the first. `seen` holds the keys that are taken. -/
def distinctFiles (seen : List String) : List Script → List Script
  | [] => []
  | file :: rest =>
    if seen.contains file.key then distinctFiles seen rest
    else file :: distinctFiles (file.key :: seen) rest

/-- Whether a text comes no later than another in the order of code points. -/
def textAtOrBefore (left right : String) : Bool := (compare left right).isLE

namespace ScopeChain

/-- The scripts of the scope and of those above it, each key once. -/
def allFiles (chain : ScopeChain) : List Script :=
  distinctFiles [] ((chain.scope :: chain.ancestors).flatMap Scope.files)

/-- The scripts of a chain in the order of their keys. -/
def sortedFiles (chain : ScopeChain) : List Script :=
  chain.allFiles.mergeSort fun left right => textAtOrBefore left.key right.key

end ScopeChain

end ScopeCheck
