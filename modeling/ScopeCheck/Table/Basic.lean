import ScopeCheck.Script.ValueType
import ScopeCheck.Text.Quoted

/-!
# Symbol tables

A symbol table holds the bindings of one function, namespace block, file, namespace or scope.
Names are bound without regard to case, and a name may be bound many times. A table also refers to
other tables: siblings, whose bindings count as its own, and a stack of parents, of which the top
one is asked next. References are values of a type `ρ`; a reference need not lead to a table, for
the table may be gone.
-/

namespace ScopeCheck

/-- A name bound at a place. -/
structure Binding where
  /-- The name as written. -/
  name : String
  /-- Where it is bound. -/
  range : Range
  /-- The type of what it is bound to. -/
  type : ValueType
deriving DecidableEq, Repr

namespace Binding

/-- The name in lower case, under which the binding is found. -/
def key (binding : Binding) : String := Text.lower binding.name

/-- The order of listing: by name, then by place. -/
def listingOrder : Binding → Binding → Ordering :=
  compareLex (compareOn key) (compareOn range)

/-- Whether a binding is listed no later than another. -/
def listedBefore (left right : Binding) : Bool := (listingOrder left right).isLE

end Binding

/-- The bindings of one stretch of code, and the tables to ask beside and after it. -/
structure SymbolTable (ρ : Type) where
  /-- What the table is called in messages. -/
  name : String
  /-- The bindings, oldest first. -/
  bindings : List Binding
  /-- Tables whose bindings count as those of this one, in the order in which they joined. -/
  siblings : List ρ
  /-- The stack of parents, top first. An entry may lead nowhere. -/
  parents : List (Option ρ)
deriving DecidableEq, Repr

namespace SymbolTable

variable {ρ : Type}

/-- A table without bindings that refers to no other. -/
def named (name : String) : SymbolTable ρ := ⟨name, [], [], []⟩

/-- The table with one more binding. -/
def bind (table : SymbolTable ρ) (binding : Binding) : SymbolTable ρ :=
  { table with bindings := table.bindings ++ [binding] }

/-- The own bindings under a name in lower case, oldest first. -/
def own (table : SymbolTable ρ) (key : String) : List Binding :=
  table.bindings.filter fun binding => binding.key = key

/-- All own bindings by name and place; those that compare equal stay in the order of binding. -/
def listing (table : SymbolTable ρ) : List Binding :=
  table.bindings.mergeSort Binding.listedBefore

/-- The table with the listed bindings of another added at the end. -/
def absorb (table other : SymbolTable ρ) : SymbolTable ρ :=
  { table with bindings := table.bindings ++ other.listing }

/-- The number of different names that the table binds. -/
def nameCount (table : SymbolTable ρ) : Nat := (table.bindings.map Binding.key).eraseDups.length

/-- The table with one more parent on the stack. -/
def pushParent (table : SymbolTable ρ) (parent : Option ρ) : SymbolTable ρ :=
  { table with parents := parent :: table.parents }

/-- The table without the parent on top of the stack. -/
def popParent (table : SymbolTable ρ) : SymbolTable ρ :=
  { table with parents := table.parents.tail }

/-- The table with a sibling, which is listed once. -/
def addSibling [DecidableEq ρ] (table : SymbolTable ρ) (sibling : ρ) : SymbolTable ρ :=
  if table.siblings.contains sibling then table
  else { table with siblings := table.siblings ++ [sibling] }

/-- A description of the table. -/
def describe (table : SymbolTable ρ) : String :=
  let fields := s!"symbols: {table.nameCount}, siblings: {table.siblings.length}, " ++
    s!"parents: {table.parents.length}"
  "SymbolTable \x7b name: " ++ Text.quote table.name ++ ", " ++ fields ++ " \x7d"

end SymbolTable

end ScopeCheck
