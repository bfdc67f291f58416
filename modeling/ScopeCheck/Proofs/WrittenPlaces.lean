import ScopeCheck.Check.Examination
import ScopeCheck.Proofs.FoldedRegistry

/-!
# What is written in a script

A range is written in a script if it is that of a node of the script, of an identifier or a dotted
name in a node, or of a type note (`Script.Written`). A node of a script has its children in the
script too (`Script.Has.child`), so a check that starts at a node of a script and goes down stays in
the script. This is said here of everything that is checked: the entries of an inventory, the
declarations of classes and enums, and the body of a constructor.
-/

namespace ScopeCheck

namespace Node

/-- Where a node is written. -/
def range : Node → Range
  | statement stmt => stmt.range
  | expression expr => expr.range
  | member target => target.range
  | function func => func.range

/-- The dotted names in a node, those in its children left out. -/
def dottedNames : Node → List DottedName
  | statement (.namespaceDecl decl _) => [decl.name]
  | statement (.classDecl decl _) => decl.parent.toList
  | expression (.new className _ _) => [className]
  | _ => []

/-- The values of the enum that a node declares. -/
def items : Node → List EnumItem
  | statement (.enumDecl decl _) => decl.items
  | _ => []

/-- The identifiers in a node that are not parts of dotted names, those in its children left
out. -/
def idents : Node → List Ident
  | statement (.assign name _ _) => [name]
  | statement (.dottedSet _ name _ _) => [name]
  | statement (.forEach item _ _ _) => [item]
  | statement (.functionDecl decl _) => [decl.name]
  | statement (.classDecl decl _) => [decl.name]
  | statement (.enumDecl decl _) => decl.name :: decl.items.map EnumItem.name
  | statement (.interfaceDecl decl _) => decl.name :: decl.fields.map InterfaceField.name
  | statement (.constDecl decl _) => [decl.name]
  | expression (.name ident _) => [ident]
  | expression (.dottedGet _ name _) => [name]
  | expression (.callfunc _ method _ _) => [method]
  | expression (.record entries _) => entries.map Entry.key
  | member target => [target.name]
  | function func => func.params.map Param.name
  | _ => []

/-- The type notes in a node, those in its children left out. -/
def notes : Node → List TypeNote
  | statement (.interfaceDecl decl _) => decl.fields.map InterfaceField.note
  | member (.field field) => field.note.toList
  | function func => func.params.filterMap Param.note ++ func.returnType.toList
  | _ => []

end Node

/-- A node occurs in a script. -/
def Script.Has (script : Script) (node : Node) : Prop :=
  ∃ visit ∈ script.visits, visit.node = node

/-- A range is that of something in a script. -/
inductive Script.Written (script : Script) : Range → Prop
  /-- A node. -/
  | node {node : Node} (hnode : script.Has node) : Written script node.range
  /-- A value of an enum. -/
  | item {node : Node} (hnode : script.Has node) {item : EnumItem} (hitem : item ∈ node.items) :
    Written script item.range
  /-- An identifier on its own. -/
  | ident {node : Node} (hnode : script.Has node) {ident : Ident} (hident : ident ∈ node.idents) :
    Written script ident.range
  /-- A dotted name. -/
  | name {node : Node} (hnode : script.Has node) {name : DottedName}
    (hname : name ∈ node.dottedNames) : Written script name.range
  /-- An identifier that is part of a dotted name. -/
  | part {node : Node} (hnode : script.Has node) {name : DottedName}
    (hname : name ∈ node.dottedNames) {part : Ident} (hpart : part ∈ name.parts) :
    Written script part.range
  /-- A type note. -/
  | note {node : Node} (hnode : script.Has node) {note : TypeNote} (hnote : note ∈ node.notes) :
    Written script note.range

/-! ## Nodes below nodes -/

/-- The children of a visited node are visited. -/
theorem Node.child_mem_visits {above : List Place} {path : Path} {node : Node} {visit : Visit}
    (hmem : visit ∈ node.visits above path) {index : Nat} {child : Node}
    (hchild : visit.node.children[index]? = some child) :
    visit.child index child ∈ node.visits above path := by
  rw [visits_eq] at hmem ⊢
  rcases List.mem_cons.mp hmem with rfl | hbelow
  · refine List.mem_cons_of_mem _ (List.mem_flatMap.mpr
      ⟨(child, index), List.mem_zipIdx_iff_getElem?.mpr hchild, ?_⟩)
    rw [visits_eq]
    exact List.mem_cons_self
  · obtain ⟨entry, hentry, hvisit⟩ := List.mem_flatMap.mp hbelow
    have hsmaller : entry.1 ∈ node.children := List.fst_mem_of_mem_zipIdx hentry
    exact List.mem_cons_of_mem _
      (List.mem_flatMap.mpr ⟨entry, hentry, child_mem_visits hvisit hchild⟩)
termination_by sizeOf node
decreasing_by exact sizeOf_child_lt hsmaller

namespace Script

variable {script : Script}

/-- What the walk over a script meets is in it. -/
theorem has_of_mem_visits {visit : Visit} (hmem : visit ∈ script.visits) :
    script.Has visit.node := ⟨visit, hmem, rfl⟩

/-- Children of what is in a script are in it. -/
theorem Has.child {node child : Node} (h : script.Has node) (hchild : child ∈ node.children) :
    script.Has child := by
  obtain ⟨visit, hvisit, rfl⟩ := h
  obtain ⟨index, hindex⟩ := List.mem_iff_getElem?.mp hchild
  obtain ⟨entry, hentry, hmem⟩ := List.mem_flatMap.mp hvisit
  exact ⟨visit.child index child,
    List.mem_flatMap.mpr ⟨entry, hentry, Node.child_mem_visits hmem hindex⟩, rfl⟩

/-! ## Chains of names -/

/-- The parts of a chain of member accesses are written where the chain is. -/
theorem written_of_dottedParts {expr : Expr} (hexpr : script.Has (.expression expr))
    {parts : List Ident} (hparts : expr.dottedParts = some parts) {part : Ident}
    (hpart : part ∈ parts) : script.Written part.range := by
  fun_induction Expr.dottedParts expr generalizing parts with
  | case1 ident range =>
    cases hparts
    rw [List.mem_singleton.mp hpart]
    exact .ident hexpr (List.mem_singleton_self ident)
  | case2 object member range ih =>
    obtain ⟨front, hfront, rfl⟩ := Option.map_eq_some_iff.mp hparts
    rcases List.mem_append.mp hpart with hmem | hlast
    · exact ih (hexpr.child (List.mem_singleton_self _)) hfront hmem
    · rw [List.mem_singleton.mp hlast]
      exact .ident hexpr (List.mem_singleton_self member)
  | case3 => cases hparts

/-- A chain of names that is used in a script is written in it, and so are its names. -/
theorem written_of_chainUse? {visit : Visit} (hmem : visit ∈ script.visits) {use : ChainUse}
    (huse : visit.chainUse? = some use) :
    script.Written use.range ∧ ∀ part ∈ use.parts, script.Written part.range := by
  have hhas := has_of_mem_visits hmem
  unfold Visit.chainUse? at huse
  split at huse
  next decl range hnode =>
    rw [hnode] at hhas
    obtain ⟨parent, hparent, rfl⟩ := Option.map_eq_some_iff.mp huse
    have hname : parent ∈ (Node.statement (.classDecl decl range)).dottedNames :=
      Option.mem_toList.mpr hparent
    exact ⟨.name hhas hname, fun part hpart => .part hhas hname hpart⟩
  next expr hnode =>
    rw [hnode] at hhas
    split at huse
    · cases huse
    · obtain ⟨parts, hparts, rfl⟩ := Option.map_eq_some_iff.mp huse
      exact ⟨.node hhas, fun part hpart => written_of_dottedParts hhas hparts hpart⟩
  next => cases huse

/-! ## Declarations -/

/-- What a script declares is a statement of the script. -/
theorem has_of_mem_declaredAs {α : Type} {node? : Stmt → Option α} {nameOf : α → Ident}
    {decl : Declaration α} (hdecl : decl ∈ script.declaredAs node? nameOf) :
    decl.file = script.path ∧ decl.name = nameOf decl.node ∧
      ∃ stmt, script.Has (.statement stmt) ∧ node? stmt = some decl.node := by
  obtain ⟨entry, hentry, heq⟩ := List.mem_filterMap.mp hdecl
  obtain ⟨node, hnode, rfl⟩ := Option.map_eq_some_iff.mp heq
  obtain ⟨hvisit, -, hstmt⟩ := mem_topLevel.mp hentry
  exact ⟨rfl, rfl, entry.2, ⟨entry.1, hvisit, hstmt⟩, hnode⟩

/-- A class that a script declares is a statement of the script. -/
theorem has_of_mem_classes {decl : Declaration ClassDecl} (hdecl : decl ∈ script.classes) :
    decl.file = script.path ∧ decl.name = decl.node.name ∧
      ∃ range, script.Has (.statement (.classDecl decl.node range)) := by
  rw [classes_eq] at hdecl
  obtain ⟨hfile, hname, stmt, hhas, hstmt⟩ := has_of_mem_declaredAs hdecl
  cases stmt <;> cases hstmt
  exact ⟨hfile, hname, _, hhas⟩

/-- An enum that a script declares is a statement of the script. -/
theorem has_of_mem_enums {decl : Declaration EnumDecl} (hdecl : decl ∈ script.enums) :
    decl.file = script.path ∧ decl.name = decl.node.name ∧
      ∃ range, script.Has (.statement (.enumDecl decl.node range)) := by
  rw [enums_eq] at hdecl
  obtain ⟨hfile, hname, stmt, hhas, hstmt⟩ := has_of_mem_declaredAs hdecl
  cases stmt <;> cases hstmt
  exact ⟨hfile, hname, _, hhas⟩

/-- The name of a class is written in its script. -/
theorem written_name_of_mem_classes {decl : Declaration ClassDecl} (hdecl : decl ∈ script.classes) :
    script.Written decl.name.range := by
  obtain ⟨-, hname, range, hhas⟩ := has_of_mem_classes hdecl
  rw [hname]
  exact .ident hhas (List.mem_singleton_self _)

/-- The name of an enum is written in its script. -/
theorem written_name_of_mem_enums {decl : Declaration EnumDecl} (hdecl : decl ∈ script.enums) :
    script.Written decl.name.range := by
  obtain ⟨-, hname, range, hhas⟩ := has_of_mem_enums hdecl
  rw [hname]
  exact .ident hhas List.mem_cons_self

/-- The members of a class are nodes of the script. -/
theorem has_member {decl : Declaration ClassDecl} (hdecl : decl ∈ script.classes)
    {target : Member} (htarget : target ∈ decl.node.members) : script.Has (.member target) := by
  obtain ⟨-, -, range, hhas⟩ := has_of_mem_classes hdecl
  exact hhas.child (List.mem_map_of_mem htarget)

/-- The name of a member is written in the script of its class. -/
theorem written_name_of_member {decl : Declaration ClassDecl} (hdecl : decl ∈ script.classes)
    {target : Member} (htarget : target ∈ decl.node.members) :
    script.Written target.name.range :=
  .ident (has_member hdecl htarget) (List.mem_singleton_self _)

/-! ## Constructors -/

/-- Where a node of a script names the object of a constructor is written in the script. -/
theorem written_of_receiverUse? {node : Node} (hnode : script.Has node) {range : Range}
    (huse : node.receiverUse? = some range) : script.Written range := by
  unfold Node.receiverUse? at huse
  split at huse
  next ident _ =>
    split at huse
    · cases huse
      exact .ident hnode (List.mem_singleton_self ident)
    · cases huse
  next => cases huse

/-- What a scan of a node adds is written in the script of the node. -/
theorem written_of_mem_scanConstructor {node : Node} (hnode : script.Has node)
    {scan : ConstructorScan} (hscan : ∀ range ∈ scan.uses, script.Written range) :
    ∀ range ∈ (node.scanConstructor scan).uses, script.Written range := by
  -- what has been met is handed on from child to child, so the fold carries all of it along
  have hbelow : ∀ children : List Node, (∀ child ∈ children, child ∈ node.children) →
      ∀ scan : ConstructorScan, (∀ range ∈ scan.uses, script.Written range) →
        ∀ range ∈ (children.foldl (fun scan child => child.scanConstructor scan) scan).uses,
          script.Written range := by
    intro children hchildren
    induction children with
    | nil => exact fun scan hscan => hscan
    | cons child rest ih =>
      intro scan hscan
      have hchild : child ∈ node.children := hchildren child List.mem_cons_self
      refine ih (fun other hother => hchildren other (List.mem_cons_of_mem child hother)) _ ?_
      exact written_of_mem_scanConstructor (hnode.child hchild) hscan
  rw [Node.scanConstructor]
  simp only [List.foldl_attach (f := fun scan (child : Node) => child.scanConstructor scan)]
  split
  · exact hscan
  · split
    · exact hscan
    · split
      · exact hbelow _ (fun _ hmem => List.mem_of_mem_tail hmem) scan hscan
      · refine hbelow _ (fun _ hmem => hmem) _ fun range hrange => ?_
        rcases List.mem_append.mp hrange with hold | huse
        · exact hscan range hold
        · exact written_of_receiverUse? hnode (Option.mem_toList.mp huse)
termination_by sizeOf node
decreasing_by exact Node.sizeOf_child_lt hchild

/-- What is noted in a constructor is written in its script. -/
theorem written_of_mem_scanBody {body : List Stmt}
    (hbody : ∀ stmt ∈ body, script.Has (.statement stmt)) :
    ∀ range ∈ (scanBody body).uses, script.Written range := by
  have hrun : ∀ scan : ConstructorScan, (∀ range ∈ scan.uses, script.Written range) →
      ∀ range ∈ (body.foldl (fun scan stmt => (Node.statement stmt).scanConstructor scan)
        scan).uses, script.Written range := by
    induction body with
    | nil => exact fun scan hscan => hscan
    | cons stmt rest ih =>
      intro scan hscan
      refine ih (fun other hother => hbody other (List.mem_cons_of_mem stmt hother)) _ ?_
      exact written_of_mem_scanConstructor (hbody stmt List.mem_cons_self) hscan
  exact hrun ⟨[], false⟩ fun range hrange => absurd hrange List.not_mem_nil

end Script

end ScopeCheck
