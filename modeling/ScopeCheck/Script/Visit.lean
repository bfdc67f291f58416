import ScopeCheck.PackagePath
import ScopeCheck.Script.Tree

/-!
# Visiting a script

A script is a file of statements. `Script.visits` lists its nodes, each before its children and
in the order in which they are written, together with the nodes above it. The place of a node is
told by its path: the numbers of the children to take on the way from the file to the node,
nearest first. Two different nodes never share a path, so a path also names the symbol table that
a node owns; the file itself has the empty path.
-/

namespace ScopeCheck

/-- A file of statements. -/
structure Script where
  /-- The package path of the file. -/
  path : String
  /-- The text of the file, if it is known. -/
  contents : Option String
  /-- The statements of the file. -/
  body : List Stmt

/-- The key of the file. -/
def Script.key (script : Script) : String := pathKey script.path

/-- A node of a syntax tree. -/
inductive Node where
  | statement (stmt : Stmt)
  | expression (expr : Expr)
  | member (member : Member)
  | function (func : Func)

/-- The children of an expression, left to right. -/
def Expr.children : Expr → List Node
  | literal .. | name .. => []
  | dottedGet object _ _ => [.expression object]
  | indexedGet object index _ => [.expression object, .expression index]
  | call callee args _ => .expression callee :: args.map .expression
  | callfunc object _ args _ => .expression object :: args.map .expression
  | new _ args _ => args.map .expression
  | binary _ left right _ => [.expression left, .expression right]
  | unary _ operand _ => [.expression operand]
  | grouping inner _ => [.expression inner]
  | function func _ => [.function func]
  | array items _ | template items _ => items.map .expression
  | record entries _ => entries.map fun entry => .expression entry.value

/-- The children of a function: default values of its parameters, then its body. -/
def Func.children (func : Func) : List Node :=
  (func.params.filterMap fun param => param.default.map .expression)
    ++ func.body.map .statement

/-- The children of a member of a class. -/
def Member.children : Member → List Node
  | method target => [.function target.func]
  | field target => (target.initial.map .expression).toList

/-- The children of a statement, in the order in which they are written. -/
def Stmt.children : Stmt → List Node
  | assign _ value _ => [.expression value]
  | dottedSet object _ value _ => [.expression object, .expression value]
  | expression value _ => [.expression value]
  | print values _ => values.map .expression
  | ret value _ => (value.map .expression).toList
  | branch condition thenBody elseBody _ =>
    .expression condition :: (thenBody.map .statement ++ elseBody.map .statement)
  | loop condition body _ => .expression condition :: body.map .statement
  | forEach _ target body _ => .expression target :: body.map .statement
  | functionDecl decl _ => [.function decl.func]
  | namespaceDecl decl _ => decl.body.map .statement
  | classDecl decl _ => decl.members.map .member
  | enumDecl decl _ => decl.items.filterMap fun item => item.value.map .expression
  | constDecl decl _ => [.expression decl.value]
  | interfaceDecl .. | importScript .. => []

namespace Node

/-- The children of a node. -/
def children : Node → List Node
  | statement stmt => stmt.children
  | expression expr => expr.children
  | member target => target.children
  | function func => func.children

/-! ## Children are smaller -/

/-- The children of an expression are smaller than it. -/
theorem sizeOf_expr_child {child : Node} {expr : Expr} (h : child ∈ expr.children) :
    sizeOf child < sizeOf (expression expr) := by
  cases expr with
  | literal | name => simp [Expr.children] at h
  | dottedGet | unary | grouping | function =>
    simp only [Expr.children, List.mem_singleton] at h
    subst h
    simp only [expression.sizeOf_spec, function.sizeOf_spec, Expr.dottedGet.sizeOf_spec,
      Expr.unary.sizeOf_spec, Expr.grouping.sizeOf_spec, Expr.function.sizeOf_spec]
    omega
  | indexedGet | binary =>
    simp only [Expr.children, List.mem_cons, List.not_mem_nil, or_false] at h
    rcases h with rfl | rfl <;>
      simp only [expression.sizeOf_spec, Expr.indexedGet.sizeOf_spec,
        Expr.binary.sizeOf_spec] <;> omega
  | call callee args | callfunc callee _ args =>
    simp only [Expr.children, List.mem_cons, List.mem_map] at h
    rcases h with rfl | ⟨arg, harg, rfl⟩
    · simp only [expression.sizeOf_spec, Expr.call.sizeOf_spec, Expr.callfunc.sizeOf_spec]
      omega
    · have := List.sizeOf_lt_of_mem harg
      simp only [expression.sizeOf_spec, Expr.call.sizeOf_spec, Expr.callfunc.sizeOf_spec]
      omega
  | new _ args | array args | template args =>
    simp only [Expr.children, List.mem_map] at h
    obtain ⟨arg, harg, rfl⟩ := h
    have := List.sizeOf_lt_of_mem harg
    simp only [expression.sizeOf_spec, Expr.new.sizeOf_spec, Expr.array.sizeOf_spec,
      Expr.template.sizeOf_spec]
    omega
  | record entries =>
    simp only [Expr.children, List.mem_map] at h
    obtain ⟨entry, hentry, rfl⟩ := h
    have := List.sizeOf_lt_of_mem hentry
    cases entry
    simp only [expression.sizeOf_spec, Expr.record.sizeOf_spec, Entry.mk.sizeOf_spec] at *
    omega

/-- The children of a function are smaller than it. -/
theorem sizeOf_func_child {child : Node} {func : Func} (h : child ∈ func.children) :
    sizeOf child < sizeOf (function func) := by
  cases func
  simp only [Func.children, List.mem_append, List.mem_filterMap, List.mem_map,
    Option.map_eq_some_iff] at h
  rcases h with ⟨param, hparam, value, hvalue, rfl⟩ | ⟨stmt, hstmt, rfl⟩
  · have := List.sizeOf_lt_of_mem hparam
    cases param
    simp only at hvalue
    subst hvalue
    simp only [expression.sizeOf_spec, function.sizeOf_spec, Func.mk.sizeOf_spec,
      Param.mk.sizeOf_spec, Option.some.sizeOf_spec] at *
    omega
  · have := List.sizeOf_lt_of_mem hstmt
    simp only [statement.sizeOf_spec, function.sizeOf_spec, Func.mk.sizeOf_spec]
    omega

/-- The children of a member are smaller than it. -/
theorem sizeOf_member_child {child : Node} {target : Member} (h : child ∈ target.children) :
    sizeOf child < sizeOf (member target) := by
  cases target with
  | method target =>
    simp only [Member.children, List.mem_singleton] at h
    subst h
    cases target
    simp only [function.sizeOf_spec, member.sizeOf_spec, Member.method.sizeOf_spec,
      Method.mk.sizeOf_spec]
    omega
  | field target =>
    cases target
    simp only [Member.children, Option.mem_toList, Option.map_eq_some_iff] at h
    obtain ⟨value, rfl, rfl⟩ := h
    simp only [expression.sizeOf_spec, member.sizeOf_spec, Member.field.sizeOf_spec,
      Field.mk.sizeOf_spec, Option.some.sizeOf_spec]
    omega

/-- The children of a statement are smaller than it. -/
theorem sizeOf_stmt_child {child : Node} {stmt : Stmt} (h : child ∈ stmt.children) :
    sizeOf child < sizeOf (statement stmt) := by
  cases stmt with
  | interfaceDecl | importScript => simp [Stmt.children] at h
  | assign | expression =>
    simp only [Stmt.children, List.mem_singleton] at h
    subst h
    simp only [expression.sizeOf_spec, statement.sizeOf_spec, Stmt.assign.sizeOf_spec,
      Stmt.expression.sizeOf_spec]
    omega
  | dottedSet =>
    simp only [Stmt.children, List.mem_cons, List.not_mem_nil, or_false] at h
    rcases h with rfl | rfl <;>
      simp only [expression.sizeOf_spec, statement.sizeOf_spec,
        Stmt.dottedSet.sizeOf_spec] <;> omega
  | print values =>
    simp only [Stmt.children, List.mem_map] at h
    obtain ⟨value, hvalue, rfl⟩ := h
    have := List.sizeOf_lt_of_mem hvalue
    simp only [expression.sizeOf_spec, statement.sizeOf_spec, Stmt.print.sizeOf_spec]
    omega
  | ret value =>
    simp only [Stmt.children, Option.mem_toList, Option.map_eq_some_iff] at h
    obtain ⟨value, rfl, rfl⟩ := h
    simp only [expression.sizeOf_spec, statement.sizeOf_spec, Stmt.ret.sizeOf_spec,
      Option.some.sizeOf_spec]
    omega
  | branch condition thenBody elseBody =>
    simp only [Stmt.children, List.mem_cons, List.mem_append, List.mem_map] at h
    rcases h with rfl | ⟨stmt, hstmt, rfl⟩ | ⟨stmt, hstmt, rfl⟩
    · simp only [expression.sizeOf_spec, statement.sizeOf_spec, Stmt.branch.sizeOf_spec]
      omega
    · have := List.sizeOf_lt_of_mem hstmt
      simp only [statement.sizeOf_spec, Stmt.branch.sizeOf_spec]
      omega
    · have := List.sizeOf_lt_of_mem hstmt
      simp only [statement.sizeOf_spec, Stmt.branch.sizeOf_spec]
      omega
  | loop condition body | forEach _ condition body =>
    simp only [Stmt.children, List.mem_cons, List.mem_map] at h
    rcases h with rfl | ⟨stmt, hstmt, rfl⟩
    · simp only [expression.sizeOf_spec, statement.sizeOf_spec, Stmt.loop.sizeOf_spec,
        Stmt.forEach.sizeOf_spec]
      omega
    · have := List.sizeOf_lt_of_mem hstmt
      simp only [statement.sizeOf_spec, Stmt.loop.sizeOf_spec, Stmt.forEach.sizeOf_spec]
      omega
  | functionDecl decl =>
    simp only [Stmt.children, List.mem_singleton] at h
    subst h
    cases decl
    simp only [function.sizeOf_spec, statement.sizeOf_spec, Stmt.functionDecl.sizeOf_spec,
      FunctionDecl.mk.sizeOf_spec]
    omega
  | namespaceDecl decl =>
    cases decl
    simp only [Stmt.children, List.mem_map] at h
    obtain ⟨stmt, hstmt, rfl⟩ := h
    have := List.sizeOf_lt_of_mem hstmt
    simp only [statement.sizeOf_spec, Stmt.namespaceDecl.sizeOf_spec,
      NamespaceDecl.mk.sizeOf_spec]
    omega
  | classDecl decl =>
    cases decl
    simp only [Stmt.children, List.mem_map] at h
    obtain ⟨target, htarget, rfl⟩ := h
    have := List.sizeOf_lt_of_mem htarget
    simp only [member.sizeOf_spec, statement.sizeOf_spec, Stmt.classDecl.sizeOf_spec,
      ClassDecl.mk.sizeOf_spec]
    omega
  | enumDecl decl =>
    cases decl
    simp only [Stmt.children, List.mem_filterMap, Option.map_eq_some_iff] at h
    obtain ⟨item, hitem, value, hvalue, rfl⟩ := h
    have := List.sizeOf_lt_of_mem hitem
    cases item
    simp only at hvalue
    subst hvalue
    simp only [expression.sizeOf_spec, statement.sizeOf_spec, Stmt.enumDecl.sizeOf_spec,
      EnumDecl.mk.sizeOf_spec, EnumItem.mk.sizeOf_spec, Option.some.sizeOf_spec] at *
    omega
  | constDecl decl =>
    simp only [Stmt.children, List.mem_singleton] at h
    subst h
    cases decl
    simp only [expression.sizeOf_spec, statement.sizeOf_spec, Stmt.constDecl.sizeOf_spec,
      ConstDecl.mk.sizeOf_spec]
    omega

/-- A child is smaller than its parent, so a walk over a tree ends. -/
theorem sizeOf_child_lt {child node : Node} (h : child ∈ node.children) :
    sizeOf child < sizeOf node := by
  cases node with
  | statement => exact sizeOf_stmt_child h
  | expression => exact sizeOf_expr_child h
  | member => exact sizeOf_member_child h
  | function => exact sizeOf_func_child h

end Node

/-- The way from the file to a node: the numbers of the children to take, nearest first. -/
abbrev Path := List Nat

/-- A node at its place in a file. -/
structure Place where
  /-- The node. -/
  node : Node
  /-- The way to it. -/
  path : Path

/-- A node together with the nodes above it. -/
structure Visit extends Place where
  /-- The nodes above, nearest first. The file itself is not listed. -/
  above : List Place

/-- The visits of a node and all below it. -/
def Node.visits (above : List Place) (path : Path) (node : Node) : List Visit :=
  { node, path, above } ::
    node.children.attach.zipIdx.flatMap fun (child, index) =>
      child.1.visits ({ node, path } :: above) (index :: path)
termination_by sizeOf node
decreasing_by exact Node.sizeOf_child_lt child.2

/-- The visits of the nodes of a script, each before its children. -/
def Script.visits (script : Script) : List Visit :=
  script.body.zipIdx.flatMap fun (stmt, index) => (Node.statement stmt).visits [] [index]

namespace Place

/-- The namespace whose block is at this place. -/
def namespaceDecl? (place : Place) : Option NamespaceDecl :=
  match place.node with
  | .statement (.namespaceDecl decl _) => some decl
  | _ => none

/-- The class that is declared at this place. -/
def classDecl? (place : Place) : Option ClassDecl :=
  match place.node with
  | .statement (.classDecl decl _) => some decl
  | _ => none

/-- The function at this place. -/
def func? (place : Place) : Option Func :=
  match place.node with
  | .function func => some func
  | _ => none

/-- Whether the node at this place owns a symbol table. -/
def ownsTable (place : Place) : Bool := place.namespaceDecl?.isSome || place.func?.isSome

end Place

namespace Visit

/-- The node right above, unless that is the file. -/
def parent? (visit : Visit) : Option Node := visit.above.head?.map Place.node

/-- The innermost namespace block around a node. -/
def namespaceDecl? (visit : Visit) : Option NamespaceDecl :=
  visit.above.findSome? Place.namespaceDecl?

/-- The full name of the innermost namespace block around a node, in lower case. -/
def namespaceKey? (visit : Visit) : Option String :=
  visit.namespaceDecl?.map fun decl => decl.name.lower

/-- The innermost class around a node. -/
def classDecl? (visit : Visit) : Option ClassDecl := visit.above.findSome? Place.classDecl?

/-- The place of the innermost function around a node. -/
def funcPlace? (visit : Visit) : Option Place := visit.above.find? fun place => place.func?.isSome

/-- The innermost function around a node. -/
def func? (visit : Visit) : Option Func := visit.above.findSome? Place.func?

/-- The innermost symbol table around a node, which is at last that of the file. -/
def table (visit : Visit) : Path :=
  match visit.above.find? Place.ownsTable with
  | some place => place.path
  | none => []

end Visit

end ScopeCheck
