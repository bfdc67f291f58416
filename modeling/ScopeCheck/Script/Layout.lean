import ScopeCheck.Script.Tree

/-!
# Laying out trees

A tree can be made without a text: `Layout` hands out the ranges. Every piece that needs a place
gets a line of its own, starting at the same column, and lines are handed out in the order in
which pieces are made. A dotted name takes one line for all its parts. A node that is put
together from others takes no line; it covers the ranges of its parts.

The children of a node are made before the node itself.
-/

namespace ScopeCheck

/-- Makes pieces of a tree; the state is the next free line. -/
abbrev Layout := StateM Nat

namespace Layout

/-- The column at which every piece starts. -/
def column : Nat := 4

/-- Takes the next free line. -/
def nextLine : Layout Nat := fun line => (line, line + 1)

/-- The range of a piece of the given length, on a line of its own. -/
def range (length : Nat) : Layout Range := do
  return .onLine (← nextLine) column length

/-- An identifier. -/
def ident (text : String) : Layout Ident := do
  return ⟨text, ← range text.utf8ByteSize⟩

/-- The words of a dotted name at their columns. Empty pieces are left out, but keep their dot. -/
def placeParts (line column : Nat) : List String → List Ident
  | [] => []
  | piece :: rest =>
    let more := placeParts line (column + piece.utf8ByteSize + 1) rest
    if piece.isEmpty then more else ⟨piece, .onLine line column piece.utf8ByteSize⟩ :: more

/-- A dotted name on one line. -/
def name (dotted : String) : Layout DottedName := do
  let line ← nextLine
  return .ofParts (placeParts line column (Text.split '.' dotted))

/-- A type annotation. -/
def typeNote (text : String) : Layout TypeNote := do
  return ⟨text, ← range text.utf8ByteSize⟩

/-- A type annotation where one is written. -/
def typeNote? : Option String → Layout (Option TypeNote)
  | none => pure none
  | some text => some <$> typeNote text

/-! ## Expressions -/

/-- A literal of the given length. -/
def literal (value : Literal) (length : Nat) : Layout Expr := do
  return .literal value (← range length)

/-- A whole number. -/
def integer (value : Int) : Layout Expr := literal (.integer value) (toString value).utf8ByteSize

/-- A long whole number, which is written with a mark at its end. -/
def longInteger (value : Int) : Layout Expr :=
  literal (.longInteger value) ((toString value).utf8ByteSize + 1)

/-- A fraction of single precision. -/
def float (text : String) : Layout Expr := literal (.float text) text.utf8ByteSize

/-- A fraction of double precision. -/
def double (text : String) : Layout Expr := literal (.double text) text.utf8ByteSize

/-- A text between quotes. -/
def string (value : String) : Layout Expr := literal (.string value) (value.utf8ByteSize + 2)

/-- A truth value. -/
def boolean (value : Bool) : Layout Expr := literal (.boolean value) (if value then 4 else 5)

/-- The value `invalid`. -/
def invalid : Layout Expr := literal .invalid 7

/-- A name on its own. -/
def variableNamed (text : String) : Layout Expr := do
  let word ← ident text
  return .name word word.range

/-- A chain of member accesses on one line, from its words. -/
def chainOf : Expr → List Ident → Expr
  | object, [] => object
  | object, word :: rest => chainOf (.dottedGet object word (object.range.merge word.range)) rest

/-- A chain of member accesses on one line. Without any word it is a variable without a name. -/
def dotted (path : String) : Layout Expr := do
  let whole ← name path
  match whole.parts with
  | [] => return .name ⟨"", whole.range⟩ whole.range
  | first :: rest => return chainOf (.name first first.range) rest

/-- A member of an object. -/
def get (object : Expr) (member : String) : Layout Expr := do
  let word ← ident member
  return .dottedGet object word (object.range.merge word.range)

/-- An element of an object. -/
def index (object place : Expr) : Layout Expr :=
  return .indexedGet object place (object.range.merge place.range)

/-- A call, which covers its callee and its arguments. -/
def callOf (callee : Expr) (args : List Expr) : Expr :=
  .call callee args (args.foldl (fun range arg => range.merge arg.range) callee.range)

/-- A call. -/
def call (callee : Expr) (args : List Expr) : Layout Expr := return callOf callee args

/-- A call of `CreateObject` with texts as arguments. -/
def createObject (texts : List String) : Layout Expr := do
  let callee ← variableNamed "CreateObject"
  let args ← texts.mapM string
  return callOf callee args

/-- A call of a function on a node. -/
def callfunc (object : Expr) (method : String) (args : List Expr) : Layout Expr := do
  let word ← ident method
  return .callfunc object word args (object.range.merge word.range)

/-- The making of an object of a class. -/
def newObject (className : String) (args : List Expr) : Layout Expr := do
  let whole ← name className
  return .new whole args whole.range

/-- An operator between two operands. -/
def binary (op : BinaryOp) (left right : Expr) : Layout Expr :=
  return .binary op left right (left.range.merge right.range)

/-- An operator before its operand; its range is that of the operand. -/
def unary (op : UnaryOp) (operand : Expr) : Layout Expr :=
  return .unary op operand operand.range

/-- An expression in parentheses; its range is that of the expression. -/
def grouping (inner : Expr) : Layout Expr := return .grouping inner inner.range

/-- A list of values. -/
def array (items : List Expr) : Layout Expr := do
  return .array items (← range 2)

/-- A map from keys to values. -/
def record (entries : List (String × Expr)) : Layout Expr := do
  let placed ← entries.mapM fun (key, value) => do
    return Entry.mk (← ident key) value
  return .record placed (← range 2)

/-- A text with expressions in it. -/
def template (items : List Expr) : Layout Expr := do
  return .template items (← range 2)

/-- A parameter without a default value. -/
def param (text : String) (typeText : Option String) : Layout Param := do
  let word ← ident text
  return ⟨word, ← typeNote? typeText, none⟩

/-- A parameter with a default value. -/
def optionalParam (text : String) (default : Expr) : Layout Param := do
  return ⟨← ident text, none, some default⟩

/-- The parameters and body of a function. -/
def func (kind : FuncKind) (params : List Param) (returnType : Option String) (body : List Stmt) :
    Layout Func := do
  let note ← typeNote? returnType
  return ⟨kind, params, note, body, ← range 8⟩

/-- A function without a name. -/
def functionExpr (params : List Param) (body : List Stmt) : Layout Expr := do
  let function ← func .function params none body
  return .function function function.range

/-! ## Statements -/

/-- The assignment of a variable. -/
def assign (target : String) (value : Expr) : Layout Stmt := do
  let word ← ident target
  return .assign word value (word.range.merge value.range)

/-- The assignment of a member of an object. -/
def dottedSet (object : Expr) (member : String) (value : Expr) : Layout Stmt := do
  let word ← ident member
  return .dottedSet object word value (object.range.merge value.range)

/-- An expression on its own. -/
def expression (value : Expr) : Layout Stmt := return .expression value value.range

/-- The printing of values. -/
def print (values : List Expr) : Layout Stmt := do
  return .print values (← range 5)

/-- The end of a function. -/
def ret (value : Option Expr) : Layout Stmt := do
  return .ret value (← range 6)

/-- A choice between two lists of statements. -/
def branch (condition : Expr) (thenBody elseBody : List Stmt) : Layout Stmt := do
  return .branch condition thenBody elseBody (← range 2)

/-- A loop under a condition. -/
def loop (condition : Expr) (body : List Stmt) : Layout Stmt := do
  return .loop condition body (← range 5)

/-- A loop over the items of a value. -/
def forEach (item : String) (target : Expr) (body : List Stmt) : Layout Stmt := do
  let word ← ident item
  return .forEach word target body (← range 8)

/-- The declaration of a function or sub. -/
def functionDecl (kind : FuncKind) (text : String) (params : List Param)
    (returnType : Option String) (body : List Stmt) : Layout Stmt := do
  let word ← ident text
  let function ← func kind params returnType body
  return .functionDecl ⟨word, function⟩ function.range

/-- A block of a namespace. -/
def namespaceDecl (dotted : String) (body : List Stmt) : Layout Stmt := do
  let whole ← name dotted
  return .namespaceDecl ⟨whole, body⟩ whole.range

/-- A dotted name where one is written. -/
def name? : Option String → Layout (Option DottedName)
  | none => pure none
  | some dotted => some <$> name dotted

/-- The declaration of a class. -/
def classDecl (text : String) (parent : Option String) (members : List Member) :
    Layout Stmt := do
  let word ← ident text
  let base ← name? parent
  return .classDecl ⟨word, base, members⟩ word.range

/-- A method. With a written result type it is a function, else a sub. -/
def method (text : String) (params : List Param) (returnType : Option String)
    (body : List Stmt) : Layout Member := do
  let word ← ident text
  let kind := if returnType.isSome then FuncKind.function else FuncKind.sub
  let function ← func kind params returnType body
  return .method ⟨word, none, false, function, word.range⟩

/-- A field. -/
def field (text : String) (typeText : Option String) (initial : Option Expr) :
    Layout Member := do
  let word ← ident text
  let note ← typeNote? typeText
  return .field ⟨word, none, note, initial, word.range⟩

/-- The declaration of an enum. -/
def enumDecl (text : String) (items : List (String × Option Expr)) : Layout Stmt := do
  let word ← ident text
  let placed ← items.mapM fun (item, value) => do
    let itemWord ← ident item
    return EnumItem.mk itemWord value itemWord.range
  return .enumDecl ⟨word, placed⟩ word.range

/-- The declaration of an interface. -/
def interfaceDecl (text : String) (fields : List (String × String)) : Layout Stmt := do
  let word ← ident text
  let placed ← fields.mapM fun (fieldName, typeText) => do
    let fieldWord ← ident fieldName
    return InterfaceField.mk fieldWord (← typeNote typeText)
  return .interfaceDecl ⟨word, placed⟩ word.range

/-- The declaration of a constant. -/
def constDecl (text : String) (value : Expr) : Layout Stmt := do
  let word ← ident text
  return .constDecl ⟨word, value⟩ word.range

/-- The import of another script. -/
def importScript (path : String) : Layout Stmt := do
  return .importScript path (← range (path.utf8ByteSize + 7))

end Layout

/-! ## Moving a node -/

/-- The expression written elsewhere. A name on its own moves with its identifier. -/
def Expr.moveTo (range : Range) : Expr → Expr
  | literal value _ => literal value range
  | name ident _ => name { ident with range } range
  | dottedGet object member _ => dottedGet object member range
  | indexedGet object index _ => indexedGet object index range
  | call callee args _ => call callee args range
  | callfunc object method args _ => callfunc object method args range
  | new className args _ => new className args range
  | binary op left right _ => binary op left right range
  | unary op operand _ => unary op operand range
  | grouping inner _ => grouping inner range
  | function func _ => function func range
  | array items _ => array items range
  | record entries _ => record entries range
  | template items _ => template items range

/-- The statement written elsewhere. The name that it declares or assigns moves with it; of a
namespace the whole dotted name moves, and its parts stay. -/
def Stmt.moveTo (range : Range) : Stmt → Stmt
  | assign name value _ => assign { name with range } value range
  | dottedSet object name value _ => dottedSet object name value range
  | expression value _ => expression value range
  | print values _ => print values range
  | ret value _ => ret value range
  | branch condition thenBody elseBody _ => branch condition thenBody elseBody range
  | loop condition body _ => loop condition body range
  | forEach item target body _ => forEach { item with range } target body range
  | functionDecl decl _ => functionDecl { decl with name := { decl.name with range } } range
  | namespaceDecl decl _ => namespaceDecl { decl with name := { decl.name with range } } range
  | classDecl decl _ => classDecl { decl with name := { decl.name with range } } range
  | enumDecl decl _ => enumDecl { decl with name := { decl.name with range } } range
  | interfaceDecl decl _ => interfaceDecl { decl with name := { decl.name with range } } range
  | constDecl decl _ => constDecl { decl with name := { decl.name with range } } range
  | importScript path _ => importScript path range

end ScopeCheck
