import ScopeCheck.Script.Name
import ScopeCheck.Script.ValueType

/-!
# Syntax trees of scripts

Statements and expressions as a parser hands them over. Every node carries the range in which it
is written; a name inside a node carries its own. Nothing here depends on what the names mean.
-/

namespace ScopeCheck

/-- A value written in a script. Fractions are kept as written. -/
inductive Literal where
  | integer (value : Int)
  | longInteger (value : Int)
  | float (text : String)
  | double (text : String)
  | string (value : String)
  | boolean (value : Bool)
  | invalid
deriving DecidableEq, Repr

/-- The type of a literal. -/
def Literal.type : Literal → ValueType
  | integer _ => .integer
  | longInteger _ => .longInteger
  | float _ => .float
  | double _ => .double
  | string _ => .string
  | boolean _ => .boolean
  | invalid => .invalid

/-- An operator with two operands. -/
inductive BinaryOp where
  | add
  | subtract
  | multiply
  | divide
  | integerDivide
  | modulo
  | power
  | equal
  | notEqual
  | less
  | lessEqual
  | greater
  | greaterEqual
  | and
  | or
deriving DecidableEq, Repr

/-- An operator with one operand. -/
inductive UnaryOp where
  | negate
  | not
deriving DecidableEq, Repr

/-- Whether a body is written as a function or as a sub. -/
inductive FuncKind where
  | function
  | sub
deriving DecidableEq, Repr

/-- Who may use a member of a class. -/
inductive Access where
  /-- Everyone. -/
  | everyone
  /-- The class and those that extend it. -/
  | family
  /-- The class alone. -/
  | ownClass
deriving DecidableEq, Repr

/-- The keyword of an access level. -/
def Access.word : Access → String
  | everyone => "public"
  | family => "protected"
  | ownClass => "private"

/-- A field of an interface. -/
structure InterfaceField where
  /-- The name of the field. -/
  name : Ident
  /-- Its type. -/
  note : TypeNote
deriving DecidableEq, Repr

/-- The declaration of an interface. -/
structure InterfaceDecl where
  /-- The name of the interface. -/
  name : Ident
  /-- Its fields. -/
  fields : List InterfaceField
deriving DecidableEq, Repr

mutual

/-- An expression. -/
inductive Expr where
  /-- A written value. -/
  | literal (value : Literal) (range : Range)
  /-- A name on its own. -/
  | name (ident : Ident) (range : Range)
  /-- A member of an object, `object.name`. -/
  | dottedGet (object : Expr) (name : Ident) (range : Range)
  /-- An element of an object, `object[index]`. -/
  | indexedGet (object index : Expr) (range : Range)
  /-- A call. -/
  | call (callee : Expr) (args : List Expr) (range : Range)
  /-- A call of a function on a node, `object@.method(args)`. -/
  | callfunc (object : Expr) (method : Ident) (args : List Expr) (range : Range)
  /-- The making of an object of a class. -/
  | new (className : DottedName) (args : List Expr) (range : Range)
  /-- An operator between two operands. -/
  | binary (op : BinaryOp) (left right : Expr) (range : Range)
  /-- An operator before its operand. -/
  | unary (op : UnaryOp) (operand : Expr) (range : Range)
  /-- An expression in parentheses. -/
  | grouping (inner : Expr) (range : Range)
  /-- A function without a name. -/
  | function (func : Func) (range : Range)
  /-- A list of values. -/
  | array (items : List Expr) (range : Range)
  /-- A map from keys to values. -/
  | record (entries : List Entry) (range : Range)
  /-- A text with expressions in it. -/
  | template (items : List Expr) (range : Range)

/-- An entry of a map. -/
structure Entry where
  /-- The key. -/
  key : Ident
  /-- The value. -/
  value : Expr

/-- A parameter of a function. -/
structure Param where
  /-- The name of the parameter. -/
  name : Ident
  /-- Its type, if one is written. -/
  note : Option TypeNote
  /-- The value it has when the caller gives none. -/
  default : Option Expr

/-- The parameters and the body of a function. -/
structure Func where
  /-- How the function is written. -/
  kind : FuncKind
  /-- The parameters, in order. -/
  params : List Param
  /-- The type of the result, if one is written. -/
  returnType : Option TypeNote
  /-- The statements of the body. -/
  body : List Stmt
  /-- Where the function is written. -/
  range : Range

/-- A method of a class. -/
structure Method where
  /-- The name of the method. -/
  name : Ident
  /-- Who may call it, if that is written. -/
  access : Option Access
  /-- Whether it is marked as replacing an inherited method. -/
  isOverride : Bool
  /-- The function it runs. -/
  func : Func
  /-- Where the method is written. -/
  range : Range

/-- A field of a class. -/
structure Field where
  /-- The name of the field. -/
  name : Ident
  /-- Who may use it, if that is written. -/
  access : Option Access
  /-- Its type, if one is written. -/
  note : Option TypeNote
  /-- Its first value, if one is written. -/
  initial : Option Expr
  /-- Where the field is written. -/
  range : Range

/-- A member of a class. -/
inductive Member where
  | method (method : Method)
  | field (field : Field)

/-- The declaration of a class. -/
structure ClassDecl where
  /-- The name of the class. -/
  name : Ident
  /-- The class it extends, if it extends one. -/
  parent : Option DottedName
  /-- Its members, in order. -/
  members : List Member

/-- A value of an enum. -/
structure EnumItem where
  /-- The name of the value. -/
  name : Ident
  /-- What it stands for, if that is written. -/
  value : Option Expr
  /-- Where the item is written. -/
  range : Range

/-- The declaration of an enum. -/
structure EnumDecl where
  /-- The name of the enum. -/
  name : Ident
  /-- Its values, in order. -/
  items : List EnumItem

/-- The declaration of a constant. -/
structure ConstDecl where
  /-- The name of the constant. -/
  name : Ident
  /-- Its value. -/
  value : Expr

/-- The declaration of a function. -/
structure FunctionDecl where
  /-- The name of the function. -/
  name : Ident
  /-- Its parameters and body. -/
  func : Func

/-- A block of a namespace. -/
structure NamespaceDecl where
  /-- The name of the namespace. -/
  name : DottedName
  /-- The statements of the block. -/
  body : List Stmt

/-- A statement. -/
inductive Stmt where
  /-- The assignment of a variable. -/
  | assign (name : Ident) (value : Expr) (range : Range)
  /-- The assignment of a member of an object. -/
  | dottedSet (object : Expr) (name : Ident) (value : Expr) (range : Range)
  /-- An expression on its own. -/
  | expression (value : Expr) (range : Range)
  /-- The printing of values. -/
  | print (values : List Expr) (range : Range)
  /-- The end of a function, with its result if it has one. -/
  | ret (value : Option Expr) (range : Range)
  /-- A choice between two lists of statements. -/
  | branch (condition : Expr) (thenBody elseBody : List Stmt) (range : Range)
  /-- A loop under a condition. -/
  | loop (condition : Expr) (body : List Stmt) (range : Range)
  /-- A loop over the items of a value. -/
  | forEach (item : Ident) (target : Expr) (body : List Stmt) (range : Range)
  /-- The declaration of a function. -/
  | functionDecl (decl : FunctionDecl) (range : Range)
  /-- A block of a namespace. -/
  | namespaceDecl (decl : NamespaceDecl) (range : Range)
  /-- The declaration of a class. -/
  | classDecl (decl : ClassDecl) (range : Range)
  /-- The declaration of an enum. -/
  | enumDecl (decl : EnumDecl) (range : Range)
  /-- The declaration of an interface. -/
  | interfaceDecl (decl : InterfaceDecl) (range : Range)
  /-- The declaration of a constant. -/
  | constDecl (decl : ConstDecl) (range : Range)
  /-- The import of another script. -/
  | importScript (path : String) (range : Range)

end

namespace Expr

/-- Where an expression is written. -/
def range : Expr → Range
  | literal _ range | name _ range | dottedGet _ _ range | indexedGet _ _ range
  | call _ _ range | callfunc _ _ _ range | new _ _ range | binary _ _ _ range
  | unary _ _ range | grouping _ range | function _ range | array _ range | record _ range
  | template _ range => range

/-- The names of a chain of member accesses that starts at a variable. -/
def dottedParts : Expr → Option (List Ident)
  | name ident _ => some [ident]
  | dottedGet object member _ => (dottedParts object).map (· ++ [member])
  | _ => none

/-- The type of an expression that is a literal, or a literal with parentheses and minus signs
around it. A minus sign takes a number only. -/
def literalType : Expr → Option ValueType
  | literal value _ => some value.type
  | unary .negate operand _ => (literalType operand).filter ValueType.isNumeric
  | grouping inner _ => literalType inner
  | _ => none

/-- The type of an expression as far as its form tells. -/
def inferredType (expr : Expr) : ValueType :=
  match expr.literalType with
  | some type => type
  | none =>
    match expr with
    | new className _ _ => .custom className.text
    | function _ _ => .function
    | template _ _ => .string
    | array _ _ | record _ _ => .object
    | _ => .dynamic

/-- The text of an expression that is a string literal. -/
def stringLiteral? : Expr → Option String
  | literal (.string value) _ => some value
  | _ => none

/-- Whether an expression is the given name on its own, up to the case of A to Z. -/
def isNamed (expr : Expr) (word : String) : Bool :=
  match expr with
  | name ident _ => Text.sameIgnoringAsciiCase ident.text word
  | _ => false

end Expr

namespace Param

/-- The type of a parameter: the written one, else that of its default value. -/
def type (param : Param) : ValueType :=
  match param.note, param.default with
  | some note, _ => note.type
  | none, some value => value.inferredType
  | none, none => .dynamic

end Param

/-- The least and the greatest number of arguments that a function takes. -/
def Func.arity (func : Func) : Nat × Nat :=
  (func.params.countP fun param => param.default.isNone, func.params.length)

/-- The type of a field: the written one, else that of its first value. -/
def Field.type (field : Field) : ValueType :=
  match field.note, field.initial with
  | some note, _ => note.type
  | none, some value => value.inferredType
  | none, none => .dynamic

namespace Member

/-- The name of a member. -/
def name : Member → Ident
  | .method target => target.name
  | .field target => target.name

/-- Where a member is written. -/
def range : Member → Range
  | .method target => target.range
  | .field target => target.range

/-- Who may use a member. What is not marked is open to everyone. -/
def access : Member → Access
  | .method target => target.access.getD .everyone
  | .field target => target.access.getD .everyone

/-- Whether a member is a method. -/
def isMethod : Member → Bool
  | .method _ => true
  | .field _ => false

/-- The member marked as replacing an inherited one; only methods take the mark. -/
def overriding : Member → Member
  | .method target => .method { target with isOverride := true }
  | .field target => .field target

/-- The member with the given access level. -/
def withAccess (level : Access) : Member → Member
  | .method target => .method { target with access := some level }
  | .field target => .field { target with access := some level }

end Member

namespace ClassDecl

/-- The methods of a class. -/
def methods (decl : ClassDecl) : List Method :=
  decl.members.filterMap fun
    | .method method => some method
    | .field _ => none

/-- The fields of a class. -/
def fields (decl : ClassDecl) : List Field :=
  decl.members.filterMap fun
    | .method _ => none
    | .field field => some field

/-- The constructor of a class: its first method of the name `new`. -/
def constructor? (decl : ClassDecl) : Option Method :=
  decl.methods.find? fun method => Text.sameIgnoringAsciiCase method.name.text "new"

end ClassDecl

/-- Where a statement is written. -/
def Stmt.range : Stmt → Range
  | assign _ _ range | dottedSet _ _ _ range | expression _ range | print _ range | ret _ range
  | branch _ _ _ range | loop _ _ range | forEach _ _ _ range | functionDecl _ range
  | namespaceDecl _ range | classDecl _ range | enumDecl _ range | interfaceDecl _ range
  | constDecl _ range | importScript _ range => range

end ScopeCheck
