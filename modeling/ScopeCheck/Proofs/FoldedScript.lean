import ScopeCheck.Check.Inventory
import ScopeCheck.Proofs.FoldedText
import ScopeCheck.Proofs.Visits
import ScopeCheck.Script.Binding

/-!
# Folding the names of a script

A script is folded by folding the letters A to Z in its identifiers, its dotted names and its type
annotations. Ranges, string literals and the path of the file stay as they are; the text of the file
is dropped. Two scripts that differ in the case of these letters only, name by name, are the same
when folded.

Folding commutes with taking a script apart. A folded script has the same places
(`Script.visits_folded`), with the same tables and namespaces around them, and its tables bind the
folded names at the same ranges (`Script.bindings_folded`).
-/

namespace ScopeCheck

/-! ## Folding -/

/-- The identifier with its letters folded. -/
def Ident.folded (ident : Ident) : Ident := ⟨Text.asciiLower ident.text, ident.range⟩

/-- The dotted name with its letters folded. -/
def DottedName.folded (name : DottedName) : DottedName :=
  ⟨name.parts.map Ident.folded, name.range⟩

/-- The type with the letters of a declared name folded. -/
def ValueType.folded : ValueType → ValueType
  | .custom name => .custom (Text.asciiLower name)
  | type => type

/-- The annotation with its letters folded. -/
def TypeNote.folded (note : TypeNote) : TypeNote := ⟨Text.asciiLower note.text, note.range⟩

/-- The interface with its names and annotations folded. -/
def InterfaceDecl.folded (decl : InterfaceDecl) : InterfaceDecl :=
  ⟨decl.name.folded, decl.fields.map fun field => ⟨field.name.folded, field.note.folded⟩⟩

mutual

/-- The expression with its names folded. -/
def Expr.folded : Expr → Expr
  | .literal value range => .literal value range
  | .name ident range => .name ident.folded range
  | .dottedGet object name range => .dottedGet object.folded name.folded range
  | .indexedGet object index range => .indexedGet object.folded index.folded range
  | .call callee args range => .call callee.folded (args.map Expr.folded) range
  | .callfunc object method args range =>
    .callfunc object.folded method.folded (args.map Expr.folded) range
  | .new className args range => .new className.folded (args.map Expr.folded) range
  | .binary op left right range => .binary op left.folded right.folded range
  | .unary op operand range => .unary op operand.folded range
  | .grouping inner range => .grouping inner.folded range
  | .function func range => .function func.folded range
  | .array items range => .array (items.map Expr.folded) range
  | .record entries range => .record (entries.map Entry.folded) range
  | .template items range => .template (items.map Expr.folded) range

/-- The entry with its key and the names of its value folded. -/
def Entry.folded : Entry → Entry
  | ⟨key, value⟩ => ⟨key.folded, value.folded⟩

/-- The parameter with its name, its annotation and the names of its default value folded. -/
def Param.folded : Param → Param
  | ⟨name, note, none⟩ => ⟨name.folded, note.map TypeNote.folded, none⟩
  | ⟨name, note, some value⟩ => ⟨name.folded, note.map TypeNote.folded, some value.folded⟩

/-- The function with the names and annotations of its parameters and its body folded. -/
def Func.folded : Func → Func
  | ⟨kind, params, returnType, body, range⟩ =>
    ⟨kind, params.map Param.folded, returnType.map TypeNote.folded, body.map Stmt.folded, range⟩

/-- The method with its names folded. -/
def Method.folded : Method → Method
  | ⟨name, access, isOverride, func, range⟩ => ⟨name.folded, access, isOverride, func.folded, range⟩

/-- The field with its name, its annotation and the names of its first value folded. -/
def Field.folded : Field → Field
  | ⟨name, access, note, none, range⟩ =>
    ⟨name.folded, access, note.map TypeNote.folded, none, range⟩
  | ⟨name, access, note, some value, range⟩ =>
    ⟨name.folded, access, note.map TypeNote.folded, some value.folded, range⟩

/-- The member with its names folded. -/
def Member.folded : Member → Member
  | .method target => .method target.folded
  | .field target => .field target.folded

/-- The class with its names folded. -/
def ClassDecl.folded : ClassDecl → ClassDecl
  | ⟨name, parent, members⟩ =>
    ⟨name.folded, parent.map DottedName.folded, members.map Member.folded⟩

/-- The value of an enum with its names folded. -/
def EnumItem.folded : EnumItem → EnumItem
  | ⟨name, none, range⟩ => ⟨name.folded, none, range⟩
  | ⟨name, some value, range⟩ => ⟨name.folded, some value.folded, range⟩

/-- The enum with its names folded. -/
def EnumDecl.folded : EnumDecl → EnumDecl
  | ⟨name, items⟩ => ⟨name.folded, items.map EnumItem.folded⟩

/-- The constant with its names folded. -/
def ConstDecl.folded : ConstDecl → ConstDecl
  | ⟨name, value⟩ => ⟨name.folded, value.folded⟩

/-- The declared function with its names folded. -/
def FunctionDecl.folded : FunctionDecl → FunctionDecl
  | ⟨name, func⟩ => ⟨name.folded, func.folded⟩

/-- The block of a namespace with its names folded. -/
def NamespaceDecl.folded : NamespaceDecl → NamespaceDecl
  | ⟨name, body⟩ => ⟨name.folded, body.map Stmt.folded⟩

/-- The statement with its names folded. -/
def Stmt.folded : Stmt → Stmt
  | .assign name value range => .assign name.folded value.folded range
  | .dottedSet object name value range => .dottedSet object.folded name.folded value.folded range
  | .expression value range => .expression value.folded range
  | .print values range => .print (values.map Expr.folded) range
  | .ret none range => .ret none range
  | .ret (some value) range => .ret (some value.folded) range
  | .branch condition thenBody elseBody range =>
    .branch condition.folded (thenBody.map Stmt.folded) (elseBody.map Stmt.folded) range
  | .loop condition body range => .loop condition.folded (body.map Stmt.folded) range
  | .forEach item target body range =>
    .forEach item.folded target.folded (body.map Stmt.folded) range
  | .functionDecl decl range => .functionDecl decl.folded range
  | .namespaceDecl decl range => .namespaceDecl decl.folded range
  | .classDecl decl range => .classDecl decl.folded range
  | .enumDecl decl range => .enumDecl decl.folded range
  | .interfaceDecl decl range => .interfaceDecl decl.folded range
  | .constDecl decl range => .constDecl decl.folded range
  | .importScript path range => .importScript path range

end

/-- The node with its names folded. -/
def Node.folded : Node → Node
  | .statement stmt => .statement stmt.folded
  | .expression expr => .expression expr.folded
  | .member target => .member target.folded
  | .function func => .function func.folded

/-- The place with the names of its node folded. -/
def Place.folded (place : Place) : Place := ⟨place.node.folded, place.path⟩

/-- The visit with the names of its node and of those above folded. -/
def Visit.folded (visit : Visit) : Visit :=
  ⟨visit.toPlace.folded, visit.above.map Place.folded⟩

/-- The script with its names folded and without its text. -/
def Script.folded (script : Script) : Script := ⟨script.path, none, script.body.map Stmt.folded⟩

/-- The binding with its name and type folded. -/
def Binding.folded (binding : Binding) : Binding :=
  ⟨Text.asciiLower binding.name, binding.range, binding.type.folded⟩

/-! ## Names and types -/

/-- The text of a folded identifier is folded. -/
@[simp]
theorem Ident.text_folded (ident : Ident) : ident.folded.text = Text.asciiLower ident.text := rfl

/-- An identifier stays where it is, as folding keeps the length of a text. -/
@[simp]
theorem Ident.range_folded (ident : Ident) : ident.folded.range = ident.range := rfl

/-- Folding comes before lowering, so what an identifier is looked up by stays. -/
@[simp]
theorem Ident.lower_folded (ident : Ident) : ident.folded.lower = ident.lower :=
  Text.lower_asciiLower ident.text

/-- A dotted name stays where it is. -/
@[simp]
theorem DottedName.range_folded (name : DottedName) : name.folded.range = name.range := rfl

/-- Folding the parts of a dotted name folds its whole text, as dots are no letters. -/
@[simp]
theorem DottedName.text_folded (name : DottedName) :
    name.folded.text = Text.asciiLower name.text := by
  rw [text, text, Text.asciiLower_intercalate, folded, List.map_map, List.map_map]
  rfl

/-- What a dotted name is looked up by stays. -/
@[simp]
theorem DottedName.lower_folded (name : DottedName) : name.folded.lower = name.lower := by
  rw [lower, text_folded, Text.lower_asciiLower, lower]

/-- A binding keeps the key that it is found by. -/
@[simp]
theorem Binding.key_folded (binding : Binding) : binding.folded.key = binding.key :=
  Text.lower_asciiLower binding.name

namespace ValueType

/-- A type that has a word of its own names no class, so folding leaves it. -/
theorem folded_of_mem_written {key : String} {type : ValueType}
    (hmem : written.lookup key = some type) : type.folded = type := by
  have hall : ∀ entry ∈ written, entry.2.folded = entry.2 := by decide
  obtain ⟨before, after, hwritten, -⟩ := List.lookup_eq_some_iff.mp hmem
  exact hall (key, type) (by rw [hwritten]; exact List.mem_append_right _ List.mem_cons_self)

/-- Types are read in any letter case. A word for a type is read as before, and the name of a class
is folded. -/
theorem ofTypeName_asciiLower (name : String) :
    ofTypeName (Text.asciiLower name) = (ofTypeName name).folded := by
  rw [ofTypeName, ofTypeName, Text.trim_asciiLower, Text.lower_asciiLower]
  cases hlookup : written.lookup (Text.lower (Text.trim name)) with
  | none => rfl
  | some type => exact (folded_of_mem_written hlookup).symm

/-- Which values a place accepts does not depend on the case of letters. -/
theorem assignableTo_folded (source target : ValueType) :
    source.folded.assignableTo target.folded = source.assignableTo target := by
  cases source <;> cases target <;> simp [folded, assignableTo]

end ValueType

/-- The type that is noted is folded with the note. -/
@[simp]
theorem TypeNote.type_folded (note : TypeNote) : note.folded.type = note.type.folded :=
  ValueType.ofTypeName_asciiLower note.text

/-- The type of a literal names no class, so folding leaves it. -/
theorem Literal.folded_type (value : Literal) : value.type.folded = value.type := by
  cases value <;> rfl

/-! ## Expressions -/

namespace Expr

/-- An expression stays where it is. -/
@[simp]
theorem range_folded (expr : Expr) : expr.folded.range = expr.range := by
  cases expr <;> simp [folded, range]

/-- A chain of names stays one, with its parts folded. -/
theorem dottedParts_folded (expr : Expr) :
    expr.folded.dottedParts = expr.dottedParts.map (List.map Ident.folded) := by
  fun_induction dottedParts expr with
  | case1 ident range => simp [folded, dottedParts]
  | case2 object member range ih =>
    simp only [folded, dottedParts, ih, Option.map_map]
    refine congrArg (Option.map · object.dottedParts) (funext fun parts => ?_)
    simp
  | case3 expr hname hget =>
    cases expr <;> simp_all [folded, dottedParts]

/-- Folding leaves literals and what is taken for one. -/
theorem literalType_folded (expr : Expr) : expr.folded.literalType = expr.literalType := by
  fun_induction literalType expr with
  | case1 value range => simp [folded, literalType]
  | case2 operand range ih => simp [folded, literalType, ih]
  | case3 inner range ih => simp [folded, literalType, ih]
  | case4 expr hliteral hunary hgrouping =>
    cases expr <;> simp_all [folded, literalType]

/-- A type that comes from a literal names no class, so folding leaves it. -/
theorem folded_of_literalType {expr : Expr} {type : ValueType}
    (htype : expr.literalType = some type) : type.folded = type := by
  fun_induction literalType expr generalizing type with
  | case1 value range =>
    obtain rfl := Option.some.inj htype
    exact value.folded_type
  | case2 operand range ih => exact ih (Option.filter_eq_some_iff.mp htype).1
  | case3 inner range ih => exact ih htype
  | case4 => cases htype

/-- The type that is inferred for an expression is folded: it names a class only where the
expression makes an object of the class. -/
theorem inferredType_folded (expr : Expr) :
    expr.folded.inferredType = expr.inferredType.folded := by
  unfold inferredType
  rw [literalType_folded]
  cases htype : expr.literalType with
  | some type => exact (folded_of_literalType htype).symm
  | none => cases expr <;> simp [folded, ValueType.folded]

/-- Strings are not names and are kept as they are written. -/
@[simp]
theorem stringLiteral?_folded (expr : Expr) : expr.folded.stringLiteral? = expr.stringLiteral? := by
  cases expr <;> simp [folded, stringLiteral?]

/-- Whether an expression is a certain word does not depend on the case of its letters. -/
@[simp]
theorem isNamed_folded (expr : Expr) (word : String) :
    expr.folded.isNamed word = expr.isNamed word := by
  cases expr <;> simp [folded, isNamed, Ident.folded]

/-- A call that makes a platform object stays one. -/
theorem isCreateObject_folded (expr : Expr) :
    expr.folded.isCreateObject = expr.isCreateObject := by
  cases expr <;> simp [folded, isCreateObject]

end Expr

/-! ## Declarations -/

/-- An entry is folded field by field. The definition matches on the constructor, as the recursion
needs, and is stated here through the projections. -/
theorem Entry.folded_eq (entry : Entry) :
    entry.folded = ⟨entry.key.folded, entry.value.folded⟩ := by
  cases entry
  rw [folded]

/-- A parameter is folded field by field, and its default if it has one. -/
theorem Param.folded_eq (param : Param) :
    param.folded = ⟨param.name.folded, param.note.map TypeNote.folded,
      param.default.map Expr.folded⟩ := by
  obtain ⟨name, note, _ | value⟩ := param <;> simp [folded]

/-- A function is folded field by field. -/
theorem Func.folded_eq (func : Func) :
    func.folded = ⟨func.kind, func.params.map Param.folded,
      func.returnType.map TypeNote.folded, func.body.map Stmt.folded, func.range⟩ := by
  cases func
  rw [folded]

/-- A method is folded field by field. -/
theorem Method.folded_eq (method : Method) :
    method.folded = ⟨method.name.folded, method.access, method.isOverride, method.func.folded,
      method.range⟩ := by
  cases method
  rw [folded]

/-- A field is folded field by field, and its first value if it has one. -/
theorem Field.folded_eq (field : Field) :
    field.folded = ⟨field.name.folded, field.access, field.note.map TypeNote.folded,
      field.initial.map Expr.folded, field.range⟩ := by
  obtain ⟨name, access, note, _ | value, range⟩ := field <;> simp [folded]

/-- A class is folded field by field. -/
theorem ClassDecl.folded_eq (decl : ClassDecl) :
    decl.folded = ⟨decl.name.folded, decl.parent.map DottedName.folded,
      decl.members.map Member.folded⟩ := by
  cases decl
  rw [folded]

/-- A value of an enum is folded field by field, and the expression written for it if there is one.
-/
theorem EnumItem.folded_eq (item : EnumItem) :
    item.folded = ⟨item.name.folded, item.value.map Expr.folded, item.range⟩ := by
  obtain ⟨name, _ | value, range⟩ := item <;> simp [folded]

/-- An enum is folded field by field. -/
theorem EnumDecl.folded_eq (decl : EnumDecl) :
    decl.folded = ⟨decl.name.folded, decl.items.map EnumItem.folded⟩ := by
  cases decl
  rw [folded]

/-- A constant is folded field by field. -/
theorem ConstDecl.folded_eq (decl : ConstDecl) :
    decl.folded = ⟨decl.name.folded, decl.value.folded⟩ := by
  cases decl
  rw [folded]

/-- A declared function is folded field by field. -/
theorem FunctionDecl.folded_eq (decl : FunctionDecl) :
    decl.folded = ⟨decl.name.folded, decl.func.folded⟩ := by
  cases decl
  rw [folded]

/-- A namespace block is folded field by field. -/
theorem NamespaceDecl.folded_eq (decl : NamespaceDecl) :
    decl.folded = ⟨decl.name.folded, decl.body.map Stmt.folded⟩ := by
  cases decl
  rw [folded]

/-- A return statement is folded with its value, if it has one. -/
@[simp]
theorem Stmt.folded_ret (value : Option Expr) (range : Range) :
    (Stmt.ret value range).folded = .ret (value.map Expr.folded) range := by
  cases value <;> rw [folded] <;> rfl

/-- The name of a folded parameter is folded. -/
@[simp]
theorem Param.name_folded (param : Param) : param.folded.name = param.name.folded := by
  rw [folded_eq]

/-- The type of a parameter is folded, whether it is noted or inferred from the default. -/
@[simp]
theorem Param.type_folded (param : Param) : param.folded.type = param.type.folded := by
  rw [folded_eq, type, type]
  cases param.note <;> cases param.default <;> simp [Expr.inferredType_folded, ValueType.folded]

/-- The type of a field is folded, whether it is noted or inferred from the first value. -/
@[simp]
theorem Field.type_folded (field : Field) : field.folded.type = field.type.folded := by
  rw [folded_eq, type, type]
  cases field.note <;> cases field.initial <;> simp [Expr.inferredType_folded, ValueType.folded]

/-- A function takes as many arguments as before. -/
@[simp]
theorem Func.arity_folded (func : Func) : func.folded.arity = func.arity := by
  simp [folded_eq, arity, List.countP_map, Function.comp_def, Param.folded_eq]

/-- The name of a folded member is folded. -/
@[simp]
theorem Member.name_folded (target : Member) : target.folded.name = target.name.folded := by
  cases target with
  | method target => simp [folded, name, Method.folded_eq]
  | field target => simp [folded, name, Field.folded_eq]

namespace ClassDecl

/-- The fields of a folded class are its fields, folded. -/
theorem fields_folded (decl : ClassDecl) : decl.folded.fields = decl.fields.map Field.folded := by
  rw [fields, fields, folded_eq, List.filterMap_map, List.map_filterMap]
  refine List.filterMap_congr fun target _ => ?_
  cases target <;> simp [Member.folded]

/-- The methods of a folded class are its methods, folded. -/
theorem methods_folded (decl : ClassDecl) :
    decl.folded.methods = decl.methods.map Method.folded := by
  rw [methods, methods, folded_eq, List.filterMap_map, List.map_filterMap]
  refine List.filterMap_congr fun target _ => ?_
  cases target <;> simp [Member.folded]

/-- A method is a constructor whatever the case of its letters, so the folded class has the same
one. -/
theorem constructor?_folded (decl : ClassDecl) :
    decl.folded.constructor? = decl.constructor?.map Method.folded := by
  have hname : (fun method : Method => Text.sameIgnoringAsciiCase method.name.text "new") ∘
      Method.folded = fun method => Text.sameIgnoringAsciiCase method.name.text "new" := by
    funext method
    simp [Method.folded_eq, Ident.folded]
  rw [constructor?, methods_folded, List.find?_map, hname, constructor?]

end ClassDecl

/-! ## Places -/

/-- The tree of a folded expression has the same shape. -/
theorem Expr.children_folded (expr : Expr) :
    expr.folded.children = expr.children.map Node.folded := by
  cases expr <;> simp [folded, children, Node.folded, Entry.folded_eq]

/-- The tree of a folded function has the same shape: the defaults of parameters are children in the
same places. -/
theorem Func.children_folded (func : Func) :
    func.folded.children = func.children.map Node.folded := by
  simp [folded_eq, children, Node.folded, List.filterMap_map, List.map_filterMap,
    Function.comp_def, Param.folded_eq]

/-- The tree of a folded member has the same shape. -/
theorem Member.children_folded (target : Member) :
    target.folded.children = target.children.map Node.folded := by
  cases target with
  | method target => simp [folded, children, Node.folded, Method.folded_eq]
  | field target => cases hinitial : target.initial <;>
      simp [folded, children, Node.folded, Field.folded_eq, hinitial]

/-- The tree of a folded statement has the same shape. -/
theorem Stmt.children_folded (stmt : Stmt) :
    stmt.folded.children = stmt.children.map Node.folded := by
  cases stmt with
  | ret value => cases value <;> simp [children, Node.folded]
  | _ => simp [folded, children, Node.folded, List.filterMap_map, List.map_filterMap,
      Function.comp_def, FunctionDecl.folded_eq, NamespaceDecl.folded_eq, ClassDecl.folded_eq,
      EnumDecl.folded_eq, EnumItem.folded_eq, ConstDecl.folded_eq]

/-- Folding keeps the shape of a tree, node by node. -/
theorem Node.children_folded (node : Node) :
    node.folded.children = node.children.map Node.folded := by
  cases node with
  | statement stmt => exact stmt.children_folded
  | expression expr => exact expr.children_folded
  | member target => exact target.children_folded
  | function func => exact func.children_folded

/-- The walk over a folded tree meets the folded nodes at the same paths and below the same nodes.
-/
theorem Node.visits_folded (above : List Place) (path : Path) (node : Node) :
    node.folded.visits (above.map Place.folded) path =
      (node.visits above path).map Visit.folded := by
  rw [visits_eq, visits_eq, children_folded, List.zipIdx_map, List.flatMap_map, List.map_cons,
    List.map_flatMap]
  refine congrArg (_ :: ·) (List.flatMap_congr fun entry hentry => ?_)
  exact visits_folded (⟨node, path⟩ :: above) (entry.2 :: path) entry.1
termination_by sizeOf node
decreasing_by exact sizeOf_child_lt (List.fst_mem_of_mem_zipIdx hentry)

/-- The places of a folded script are those of the script. -/
theorem Script.visits_folded (script : Script) :
    script.folded.visits = script.visits.map Visit.folded := by
  rw [visits, visits, folded, List.zipIdx_map, List.flatMap_map, List.map_flatMap]
  exact List.flatMap_congr fun entry _ => Node.visits_folded [] [entry.2] (.statement entry.1)

namespace Place

/-- A place is a namespace block exactly if its folding is. -/
@[simp]
theorem namespaceDecl?_folded (place : Place) :
    place.folded.namespaceDecl? = place.namespaceDecl?.map NamespaceDecl.folded := by
  obtain ⟨node, path⟩ := place
  cases node with
  | statement stmt => cases stmt <;> simp [folded, namespaceDecl?, Node.folded, Stmt.folded]
  | _ => rfl

/-- A place is a class exactly if its folding is. -/
@[simp]
theorem classDecl?_folded (place : Place) :
    place.folded.classDecl? = place.classDecl?.map ClassDecl.folded := by
  obtain ⟨node, path⟩ := place
  cases node with
  | statement stmt => cases stmt <;> simp [folded, classDecl?, Node.folded, Stmt.folded]
  | _ => rfl

/-- A place is a function exactly if its folding is. -/
@[simp]
theorem func?_folded (place : Place) : place.folded.func? = place.func?.map Func.folded := by
  obtain ⟨node, path⟩ := place
  cases node <;> rfl

/-- The same places own tables. -/
@[simp]
theorem ownsTable_folded (place : Place) : place.folded.ownsTable = place.ownsTable := by
  simp [ownsTable]

end Place

namespace Visit

/-- The node that is met is folded. -/
@[simp]
theorem node_folded (visit : Visit) : visit.folded.node = visit.node.folded := rfl

/-- A node is met at the same path. -/
@[simp]
theorem path_folded (visit : Visit) : visit.folded.path = visit.path := rfl

/-- The node above is folded. -/
theorem parent?_folded (visit : Visit) : visit.folded.parent? = visit.parent?.map Node.folded := by
  rw [parent?, parent?, folded, List.head?_map, Option.map_map, Option.map_map]
  rfl

/-- The innermost block around a node is the same one, folded. -/
@[simp]
theorem namespaceDecl?_folded (visit : Visit) :
    visit.folded.namespaceDecl? = visit.namespaceDecl?.map NamespaceDecl.folded := by
  simp [namespaceDecl?, folded, List.findSome?_map, Function.comp_def, List.map_findSome?]

/-- The key of the namespace around a node stays. -/
@[simp]
theorem namespaceKey?_folded (visit : Visit) :
    visit.folded.namespaceKey? = visit.namespaceKey? := by
  simp [namespaceKey?, Function.comp_def, NamespaceDecl.folded_eq]

/-- The innermost class around a node is the same one, folded. -/
theorem classDecl?_folded (visit : Visit) :
    visit.folded.classDecl? = visit.classDecl?.map ClassDecl.folded := by
  simp [classDecl?, folded, List.findSome?_map, Function.comp_def, List.map_findSome?]

/-- The innermost function around a node is the same one, folded. -/
theorem funcPlace?_folded (visit : Visit) :
    visit.folded.funcPlace? = visit.funcPlace?.map Place.folded := by
  have hfunc : (fun place : Place => place.func?.isSome) ∘ Place.folded =
      fun place => place.func?.isSome := by
    funext place
    simp
  simp only [funcPlace?, folded, List.find?_map, hfunc]

/-- A node stands in the same table. -/
@[simp]
theorem table_folded (visit : Visit) : visit.folded.table = visit.table := by
  simp only [table, folded, List.find?_map, Function.comp_def, Place.ownsTable_folded]
  cases visit.above.find? Place.ownsTable <;> rfl

/-- What stands at file level or in blocks still does. -/
@[simp]
theorem isTopLevel_folded (visit : Visit) : visit.folded.isTopLevel = visit.isTopLevel := by
  simp [isTopLevel, folded, List.all_map, Function.comp_def]

/-! ## Bindings -/

/-- A declaration binds its folded name. -/
theorem declared_folded (stmt : Stmt) :
    declared stmt.folded = (declared stmt).map Binding.folded := by
  cases stmt <;> simp [Stmt.folded, declared, Binding.folded, FunctionDecl.folded_eq,
    ClassDecl.folded_eq, ConstDecl.folded_eq, Ident.folded, Expr.inferredType_folded,
    ValueType.folded]

/-- An assignment binds the folded name. -/
theorem assigned_folded (stmt : Stmt) :
    assigned stmt.folded = (assigned stmt).map Binding.folded := by
  cases stmt <;> simp [Stmt.folded, assigned, Binding.folded, Ident.folded,
    Expr.inferredType_folded, ValueType.folded]

/-- A method belongs to the same class, folded. -/
theorem methodOf?_folded (visit : Visit) :
    visit.folded.methodOf? = visit.methodOf?.map ClassDecl.folded := by
  unfold methodOf?
  rw [parent?_folded, classDecl?_folded]
  match visit.parent? with
  | none | some (.statement _) | some (.expression _) | some (.function _) => rfl
  | some (.member (.field _)) => simp [Node.folded, Member.folded]
  | some (.member (.method _)) => simp [Node.folded, Member.folded]

/-- A function receives the same bindings, folded: `m` in a method, and its parameters. -/
theorem received_folded (visit : Visit) (func : Func) :
    visit.folded.received func.folded = (visit.received func).map Binding.folded := by
  have hm : Text.asciiLower "m" = "m" := by decide
  have hsuper : Text.asciiLower "super" = "super" := by decide
  have hparams : (func.folded.params.map fun param =>
      (⟨param.name.text, param.name.range, param.type⟩ : Binding)) =
      (func.params.map fun param => (⟨param.name.text, param.name.range, param.type⟩ : Binding)).map
        Binding.folded := by
    simp [Func.folded_eq, Binding.folded, Ident.folded]
  unfold received
  rw [hparams, methodOf?_folded, List.map_append]
  cases visit.methodOf? with
  | none => simp [Func.folded_eq, Binding.folded, ValueType.folded, hm]
  | some decl =>
    cases hparent : decl.parent <;> simp [ClassDecl.folded_eq, Binding.folded, ValueType.folded,
      hm, hsuper, Ident.folded, hparent]

/-- What a node binds when folded is what it binds, folded, in the same table. -/
theorem binds_folded (visit : Visit) :
    visit.folded.binds = visit.binds.map (Prod.map id Binding.folded) := by
  unfold binds
  rw [node_folded, path_folded, funcPlace?_folded, table_folded]
  cases visit.node with
  | statement stmt =>
    cases visit.funcPlace? with
    | none => simp [Node.folded, declared_folded]
    | some place => simp [Node.folded, assigned_folded, Place.folded]
  | function func => simp [Node.folded, received_folded]
  | expression expr => rfl
  | member target => rfl

end Visit

namespace Script

/-- A script keeps its path, and so its key. -/
@[simp]
theorem key_folded (script : Script) : script.folded.key = script.key := rfl

/-- The tables of a folded script bind the folded names. -/
theorem bindings_folded (script : Script) :
    script.folded.bindings = script.bindings.map (Prod.map id Binding.folded) := by
  rw [bindings, visits_folded, List.flatMap_map, bindings, List.map_flatMap]
  exact List.flatMap_congr fun visit _ => visit.binds_folded

/-- The bindings of one table are found among the folded ones as before. -/
theorem ownedBy_folded (owner : Path) (bindings : List (Path × Binding)) :
    ownedBy owner (bindings.map (Prod.map id Binding.folded)) =
      (ownedBy owner bindings).map Binding.folded := by
  rw [ownedBy, ownedBy, List.filter_map, List.map_map, List.map_map]
  rfl

end Script

/-! ## Inventories -/

/-- The chain of names with its names folded. -/
def ChainUse.folded (use : ChainUse) : ChainUse := { use with parts := use.parts.map Ident.folded }

/-- The making of an object with the name of the class folded. -/
def NewUse.folded (use : NewUse) : NewUse := { use with className := use.className.folded }

/-- The function with its names folded. -/
def FuncUse.folded (use : FuncUse) : FuncUse := { use with func := use.func.folded }

namespace Visit

/-- A name is used in the same way, as this is read off the node above. -/
theorem usage_folded (visit : Visit) : visit.folded.usage = visit.usage := by
  unfold usage
  rw [parent?_folded, path_folded]
  match visit.parent?, visit.path with
  | none, _ | some (.statement _), _ | some (.member _), _ | some (.function _), _ => rfl
  | some (.expression expr), [] => cases expr <;> simp [Node.folded, Expr.folded]
  | some (.expression expr), 0 :: _ => cases expr <;> simp [Node.folded, Expr.folded]
  | some (.expression expr), (_ + 1) :: _ => cases expr <;> simp [Node.folded, Expr.folded]

/-- A name is the object of a member as before. -/
theorem isObjectOfMember_folded (visit : Visit) :
    visit.folded.isObjectOfMember = visit.isObjectOfMember := by
  unfold isObjectOfMember
  rw [parent?_folded]
  match visit.parent? with
  | none | some (.statement _) | some (.member _) | some (.function _) => rfl
  | some (.expression expr) => cases expr <;> simp [Node.folded, Expr.folded]

/-- A use of a chain stays one, with its parts folded. -/
theorem chainUse?_folded (visit : Visit) :
    visit.folded.chainUse? = visit.chainUse?.map ChainUse.folded := by
  unfold chainUse?
  rw [node_folded, isObjectOfMember_folded, usage_folded, namespaceKey?_folded, table_folded]
  cases visit.node with
  | statement stmt =>
    cases stmt <;> simp [Node.folded, Stmt.folded, ClassDecl.folded_eq, ChainUse.folded,
      DottedName.folded, Function.comp_def]
  | expression expr =>
    cases visit.isObjectOfMember <;> simp [Node.folded, Expr.dottedParts_folded, ChainUse.folded,
      Function.comp_def]
  | member target => rfl
  | function func => rfl

/-- A use of a class stays one, with its name folded. -/
theorem newUse?_folded (visit : Visit) :
    visit.folded.newUse? = visit.newUse?.map NewUse.folded := by
  unfold newUse?
  rw [node_folded, namespaceKey?_folded]
  cases visit.node with
  | expression expr => cases expr <;> simp [Node.folded, Expr.folded, NewUse.folded]
  | _ => rfl

/-- A function is listed as before, folded. -/
theorem funcUse?_folded (visit : Visit) :
    visit.folded.funcUse? = visit.funcUse?.map FuncUse.folded := by
  unfold funcUse?
  rw [node_folded, namespaceKey?_folded]
  cases visit.node <;> rfl

/-- A call that makes a platform object is listed as before, folded. -/
theorem createObject?_folded (visit : Visit) :
    visit.folded.createObject? = visit.createObject?.map Expr.folded := by
  unfold createObject?
  rw [node_folded]
  cases visit.node with
  | expression expr =>
    simp only [Node.folded, expr.isCreateObject_folded]
    split <;> rfl
  | _ => rfl

end Visit

end ScopeCheck
