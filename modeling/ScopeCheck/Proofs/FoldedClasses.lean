import ScopeCheck.Proofs.FoldedRegistry

/-!
# Checking the classes of a folded scope

The outline of a finding is all of it but its wording. The checks of the classes of a folded scope
give findings of the same outlines, in the same order (`checkClasses_folded`): the hierarchy is the
same up to the names of the classes (`Hierarchy.ofRegistry_folded`), members and types are compared
without regard to case, and constructors are read for words that are.
-/

namespace ScopeCheck

/-! ## Outlines -/

/-- A finding without its wording: what it is, where, and how it is listed. -/
structure Outline where
  /-- The number of the kind of problem. -/
  code : Nat
  /-- The package path of the file. -/
  file : String
  /-- Where the problem is. -/
  range : Range
  /-- How serious the problem is. -/
  severity : Severity
  /-- How the finding is brought together with those of other scopes. -/
  route : Route
  /-- The further places, in the order in which they are listed. -/
  related : List Location
deriving DecidableEq, Repr

/-- The outline of a finding. -/
def Finding.outline (finding : Finding) : Outline :=
  { code := finding.diagnostic.code
    file := finding.diagnostic.file
    range := finding.diagnostic.range
    severity := finding.diagnostic.severity
    route := finding.route
    related := finding.diagnostic.related.map Related.location }

namespace Finding

/-- The outline of a finding has what its problem and its place decide. -/
@[simp]
theorem outline_of (problem : Problem) (file : String) (range : Range) :
    (Finding.of problem file range).outline =
      ⟨problem.code, file, range, problem.severity, .perFile, []⟩ := rfl

/-- A related place is added to the outline without its wording. -/
@[simp]
theorem outline_withRelated (finding : Finding) (message file : String) (range : Range) :
    (finding.withRelated message file range).outline =
      { finding.outline with related := finding.outline.related ++ [⟨file, range⟩] } := by
  simp [withRelated, outline, Diagnostic.withRelated]

end Finding

/-! ## Declarations under one key -/

section Keys

variable {α : Type} (fold : α → α) (decls : List (Declaration α))

/-- Folded declarations have the same keys, so they are visited in the same order. -/
theorem sortedKeys_folded :
    sortedKeys (decls.map (Declaration.folded fold)) = sortedKeys decls := by
  simp only [sortedKeys, List.map_map, Function.comp_def, Declaration.key_folded]

/-- Under a key stand the same declarations, folded. -/
theorem declaredAs_folded (key : String) :
    declaredAs (decls.map (Declaration.folded fold)) key =
      (declaredAs decls key).map (Declaration.folded fold) := by
  simp only [declaredAs, List.filter_map, Function.comp_def, Declaration.key_folded]

end Keys

/-- The same classes are found to be declared twice. -/
theorem checkDuplicateClasses_folded (registry : Registry) :
    (checkDuplicateClasses registry.folded).map Finding.outline =
      (checkDuplicateClasses registry).map Finding.outline := by
  simp only [checkDuplicateClasses, Registry.folded, sortedKeys_folded, declaredAs_folded,
    List.map_flatMap]
  refine List.flatMap_congr fun key _ => ?_
  cases declaredAs registry.classes key with
  | nil => rfl
  | cons first others => simp [Problem.code, Problem.severity]

/-! ## The hierarchy of classes -/

/-- The hierarchy with its classes folded. -/
def Hierarchy.folded (hierarchy : Hierarchy) : Hierarchy :=
  ⟨hierarchy.classes.mapValues (Declaration.folded ClassDecl.folded), hierarchy.links⟩

/-- A class extends the same class, folded. -/
theorem Registry.parentClass?_folded (registry : Registry) (decl : Declaration ClassDecl) :
    registry.folded.parentClass? (decl.folded ClassDecl.folded) =
      (registry.parentClass? decl).map (Declaration.folded ClassDecl.folded) := by
  simp only [parentClass?, Declaration.folded, ClassDecl.folded_eq]
  cases decl.node.parent with
  | none => rfl
  | some parent =>
    have hlength : parent.folded.parts.length = parent.parts.length := List.length_map _
    simp only [Option.map_some, DottedName.text_folded, class?_folded, hlength]

namespace Hierarchy

/-- The hierarchy of a folded registry is the hierarchy of the registry, folded. -/
theorem ofRegistry_folded (registry : Registry) :
    ofRegistry registry.folded = (ofRegistry registry).folded := by
  have hcanonical : ((sortedKeys registry.folded.classes).filterMap fun key =>
      (registry.folded.classes.find? fun decl => decl.key = key).map fun decl => (key, decl)) =
      ((sortedKeys registry.classes).filterMap fun key =>
        (registry.classes.find? fun decl => decl.key = key).map fun decl => (key, decl)).map
          (Prod.map id (Declaration.folded ClassDecl.folded)) := by
    simp only [Registry.folded, sortedKeys_folded, find?_key_folded, List.map_filterMap,
      Option.map_map]
    rfl
  simp only [ofRegistry, hcanonical, folded, Keyed.mapValues_ofList, List.filterMap_map,
    Function.comp_def, Prod.map_fst, Prod.map_snd, id_eq, Registry.parentClass?_folded,
    Option.map_map, Declaration.key_folded]

variable (hierarchy : Hierarchy)

/-- Above a class are the same classes, folded. -/
theorem ancestors_folded (key : String) :
    hierarchy.folded.ancestors key =
      (hierarchy.ancestors key).map (Declaration.folded ClassDecl.folded) := by
  simp only [ancestors, folded, Keyed.keys_mapValues, List.map_filterMap, Keyed.get?_mapValues]

/-- The links are by keys, so the circles are the same. -/
theorem circles_folded : hierarchy.folded.circles = hierarchy.circles := by
  have hfrom : hierarchy.folded.circleFrom = hierarchy.circleFrom := by
    funext start
    simp only [circleFrom, folded, Keyed.keys_mapValues]
  rw [circles, circles, hfrom, folded, Keyed.keys_mapValues]

/-- The same circles are reported at the same classes. -/
theorem checkCircles_folded :
    hierarchy.folded.checkCircles.map Finding.outline =
      hierarchy.checkCircles.map Finding.outline := by
  rw [checkCircles, checkCircles, circles_folded, List.map_filterMap, List.map_filterMap]
  refine List.filterMap_congr fun circle _ => ?_
  have hclasses : circle.filterMap hierarchy.folded.classes.get? =
      (circle.filterMap hierarchy.classes.get?).map (Declaration.folded ClassDecl.folded) := by
    simp only [folded, List.map_filterMap, Keyed.get?_mapValues]
  rw [reportCircle, reportCircle, hclasses]
  cases circle.filterMap hierarchy.classes.get? with
  | nil => rfl
  | cons anchor others => simp [Problem.code, Problem.severity]

/-- The same classes are found to share their names with one outside of namespaces. -/
theorem checkSharedName_folded (decl : Declaration ClassDecl) :
    (hierarchy.folded.checkSharedName (decl.folded ClassDecl.folded)).map Finding.outline =
      (hierarchy.checkSharedName decl).map Finding.outline := by
  have hget : hierarchy.folded.classes.get? decl.name.lower =
      (hierarchy.classes.get? decl.name.lower).map (Declaration.folded ClassDecl.folded) :=
    Keyed.get?_mapValues _ _ _
  simp only [checkSharedName, Declaration.isNamespaced_folded, Declaration.name_folded,
    Ident.lower_folded, hget]
  cases decl.isNamespaced with
  | false => rfl
  | true =>
    cases hierarchy.classes.get? decl.name.lower with
    | none => rfl
    | some outer => cases houter : outer.isNamespaced <;>
        simp [houter, Problem.code, Problem.severity]

/-! ## Inherited members -/

/-- A name means the same inherited member of the same class, folded. -/
theorem inherited?_folded (key name : String) :
    hierarchy.folded.inherited? key (Text.asciiLower name) =
      (hierarchy.inherited? key name).map
        (Prod.map (Declaration.folded ClassDecl.folded) Member.folded) := by
  have hmembers : ∀ ancestor : Declaration ClassDecl,
      ((ancestor.folded ClassDecl.folded).node.members.find? fun target =>
        Text.sameIgnoringAsciiCase target.name.text (Text.asciiLower name)) =
      (ancestor.node.members.find? fun target =>
        Text.sameIgnoringAsciiCase target.name.text name).map Member.folded := by
    intro ancestor
    simp only [Declaration.folded, ClassDecl.folded_eq, List.find?_map, Function.comp_def,
      Member.name_folded, Ident.folded, Text.sameIgnoringAsciiCase_asciiLower_left,
      Text.sameIgnoringAsciiCase_asciiLower_right]
  simp only [inherited?, ancestors_folded, List.findSome?_map, List.map_findSome?,
    Function.comp_def, hmembers, Option.map_map]
  rfl

variable (registry : Registry)

/-- Which types a field may have does not depend on the case of letters. -/
theorem acceptsType_folded (child base : ValueType) (childNamespace baseNamespace : Option String) :
    hierarchy.folded.acceptsType registry.folded child.folded childNamespace base.folded
        baseNamespace =
      hierarchy.acceptsType registry child childNamespace base baseNamespace := by
  unfold acceptsType
  rw [ValueType.assignableTo_folded]
  cases child with
  | custom childName =>
    cases base with
    | custom baseName =>
      simp only [ValueType.folded, Registry.class?_folded]
      cases registry.class? childName childNamespace with
      | none => rfl
      | some childClass =>
        cases registry.class? baseName baseNamespace with
        | none => rfl
        | some baseClass =>
          simp only [Option.map_some, Declaration.key_folded, ancestors_folded, List.any_map,
            Function.comp_def]
    | _ => rfl
  | _ => rfl

/-- The types of two fields are compared alike, in any letter case. -/
theorem checkField_folded (decl ancestor : Declaration ClassDecl) (child base : Field) :
    (hierarchy.folded.checkField registry.folded (decl.folded ClassDecl.folded)
        (ancestor.folded ClassDecl.folded) child.folded base.folded).map Finding.outline =
      (hierarchy.checkField registry decl ancestor child base).map Finding.outline := by
  have hrange : child.folded.name.range = child.name.range := by
    rw [Field.folded_eq, Ident.range_folded]
  simp only [checkField, Field.type_folded, Declaration.namespaceKey_folded, acceptsType_folded,
    hrange]
  split <;> simp [Problem.code, Problem.severity]

omit hierarchy registry in
/-- Two methods are compared alike, as access and the override keyword are not folded. -/
theorem checkMethod_folded (decl ancestor : Declaration ClassDecl) (child base : Method) :
    (checkMethod (decl.folded ClassDecl.folded) (ancestor.folded ClassDecl.folded) child.folded
        base.folded).map Finding.outline =
      (checkMethod decl ancestor child base).map Finding.outline := by
  have haccess : ∀ method : Method,
      (Member.method method.folded).access = (Member.method method).access := by
    intro method
    rw [Method.folded_eq]
    rfl
  have hname : child.folded.name = child.name.folded := by rw [Method.folded_eq]
  have hoverride : child.folded.isOverride = child.isOverride := by rw [Method.folded_eq]
  simp only [checkMethod, haccess, hname, hoverride, Ident.text_folded, Ident.range_folded,
    Text.sameIgnoringAsciiCase_asciiLower_left, List.map_append]
  refine congrArg₂ (· ++ ·) ?_ ?_
  · split <;> simp [Problem.code, Problem.severity]
  · split <;> simp [Problem.code, Problem.severity]

/-- A member is compared with an inherited one alike, whatever kinds they are. -/
theorem checkOverride_folded (decl ancestor : Declaration ClassDecl) (child base : Member) :
    (hierarchy.folded.checkOverride registry.folded (decl.folded ClassDecl.folded)
        (ancestor.folded ClassDecl.folded) child.folded base.folded).map Finding.outline =
      (hierarchy.checkOverride registry decl ancestor child base).map Finding.outline := by
  cases child with
  | method child =>
    cases base with
    | method base =>
      simp only [Member.folded, checkOverride]
      exact checkMethod_folded decl ancestor child base
    | field base =>
      have hname := (Member.method child).name_folded
      simp only [Member.folded] at hname
      simp [Member.folded, checkOverride, hname, Problem.code, Problem.severity]
  | field child =>
    cases base with
    | method base =>
      have hname := (Member.field child).name_folded
      simp only [Member.folded] at hname
      simp [Member.folded, checkOverride, hname, Problem.code, Problem.severity]
    | field base =>
      simp only [Member.folded, checkOverride]
      exact hierarchy.checkField_folded registry decl ancestor child base

/-- A member is compared with the same inherited member or with none. -/
theorem checkMember_folded (key : String) (decl : Declaration ClassDecl) (target : Member) :
    (hierarchy.folded.checkMember registry.folded key (decl.folded ClassDecl.folded)
        target.folded).map Finding.outline =
      (hierarchy.checkMember registry key decl target).map Finding.outline := by
  have hinherited := hierarchy.inherited?_folded key target.name.text
  rw [checkMember, checkMember, Member.name_folded, Ident.text_folded, hinherited]
  cases hierarchy.inherited? key target.name.text with
  | none => rfl
  | some found => exact hierarchy.checkOverride_folded registry decl found.1 target found.2

/-- The members of a class are checked alike one after the other, duplicates included. -/
theorem checkMembersAfter_folded (key : String) (decl : Declaration ClassDecl)
    (seen : List String) (members : List Member) :
    (hierarchy.folded.checkMembersAfter registry.folded key (decl.folded ClassDecl.folded) seen
        (members.map Member.folded)).map Finding.outline =
      (hierarchy.checkMembersAfter registry key decl seen members).map Finding.outline := by
  induction members generalizing seen with
  | nil => rfl
  | cons target rest ih =>
    rw [List.map_cons, checkMembersAfter, checkMembersAfter, Member.name_folded,
      Ident.lower_folded]
    split
    · simp [ih, Problem.code, Problem.severity]
    · rw [List.map_append, List.map_append, ih, checkMember_folded]

/-- The members of all classes are checked alike. -/
theorem checkMembers_folded :
    (hierarchy.folded.checkMembers registry.folded).map Finding.outline =
      (hierarchy.checkMembers registry).map Finding.outline := by
  simp only [checkMembers, folded, Keyed.mapValues, List.flatMap_map, List.map_flatMap]
  refine List.flatMap_congr fun entry _ => ?_
  have hmembers : (entry.2.folded ClassDecl.folded).node.members =
      entry.2.node.members.map Member.folded := by
    simp only [Declaration.folded, ClassDecl.folded_eq]
  rw [hmembers]
  exact hierarchy.checkMembersAfter_folded registry entry.1 entry.2 [] entry.2.node.members

end Hierarchy

/-! ## Constructors -/

namespace Node

/-- A node is a function exactly if its folding is. -/
theorem isFunction_folded (node : Node) : node.folded.isFunction = node.isFunction := by
  cases node <;> rfl

/-- A call of the constructor of the parent is one in any letter case. -/
theorem isParentCall_folded (node : Node) : node.folded.isParentCall = node.isParentCall := by
  cases node with
  | expression expr => cases expr <;> simp [folded, Expr.folded, isParentCall]
  | _ => rfl

/-- A use of the object itself is one in any letter case, at the same place. -/
theorem receiverUse?_folded (node : Node) : node.folded.receiverUse? = node.receiverUse? := by
  cases node with
  | expression expr => cases expr <;> simp [folded, Expr.folded, receiverUse?, Ident.folded]
  | _ => rfl

/-- A folded body is read as the body is. -/
theorem scanConstructor_folded (scan : ConstructorScan) (node : Node) :
    node.folded.scanConstructor scan = node.scanConstructor scan := by
  have hbelow : ∀ children : List Node, (∀ child ∈ children, child ∈ node.children) →
      ∀ scan : ConstructorScan,
        (children.map folded).foldl (fun scan child => child.scanConstructor scan) scan =
          children.foldl (fun scan child => child.scanConstructor scan) scan := by
    intro children hchildren scan
    rw [List.foldl_map]
    refine List.foldl_ext _ _ _ fun scan child hmem => ?_
    have hchild := hchildren child hmem
    exact scanConstructor_folded scan child
  rw [scanConstructor, scanConstructor, isFunction_folded, isParentCall_folded,
    receiverUse?_folded]
  simp only [List.foldl_attach (f := fun scan (child : Node) => child.scanConstructor scan),
    children_folded, ← List.map_tail, hbelow _ fun _ hmem => hmem,
    hbelow _ fun _ hmem => List.mem_of_mem_tail hmem]
termination_by sizeOf node
decreasing_by exact sizeOf_child_lt hchild

end Node

/-- The walk over the body of a constructor sees the same uses and calls. -/
theorem scanBody_folded (body : List Stmt) : scanBody (body.map Stmt.folded) = scanBody body := by
  rw [scanBody, scanBody, List.foldl_map]
  refine List.foldl_ext _ _ _ fun scan stmt _ => ?_
  exact Node.scanConstructor_folded scan (.statement stmt)

/-- Constructors are checked alike. -/
theorem checkConstructor_folded (decl : Declaration ClassDecl) :
    (checkConstructor (decl.folded ClassDecl.folded)).map Finding.outline =
      (checkConstructor decl).map Finding.outline := by
  have hparent : (decl.folded ClassDecl.folded).node.parent =
      decl.node.parent.map DottedName.folded := by
    simp only [Declaration.folded, ClassDecl.folded_eq]
  have hconstructor : (decl.folded ClassDecl.folded).node.constructor? =
      decl.node.constructor?.map Method.folded :=
    decl.node.constructor?_folded
  unfold checkConstructor
  rw [hparent, hconstructor]
  cases decl.node.parent with
  | none => rfl
  | some parent =>
    cases decl.node.constructor? with
    | none => rfl
    | some constructor =>
      have hbody : constructor.folded.func.body = constructor.func.body.map Stmt.folded := by
        rw [Method.folded_eq, Func.folded_eq]
      have hname : constructor.folded.name = constructor.name.folded := by rw [Method.folded_eq]
      simp only [Option.map_some, hbody, hname, scanBody_folded, Declaration.file_folded,
        Ident.range_folded]

/-- The same types of fields are found to be unknown. -/
theorem checkFieldTypes_folded (registry : Registry) (decl : Declaration ClassDecl) :
    (checkFieldTypes registry.folded (decl.folded ClassDecl.folded)).map Finding.outline =
      (checkFieldTypes registry decl).map Finding.outline := by
  have hfields : (decl.folded ClassDecl.folded).node.fields = decl.node.fields.map Field.folded :=
    decl.node.fields_folded
  rw [checkFieldTypes, hfields, checkFieldTypes, List.filterMap_map, List.map_filterMap,
    List.map_filterMap]
  refine List.filterMap_congr fun field _ => ?_
  simp only [Function.comp_apply, Field.folded_eq]
  cases field.note with
  | none => rfl
  | some note =>
    simp only [Option.map_some, TypeNote.type_folded]
    cases note.type with
    | custom name =>
      simp only [ValueType.folded, Registry.isKnownType_folded, Declaration.namespaceKey_folded]
      split <;> simp [TypeNote.folded, Problem.code, Problem.severity]
    | _ => rfl

/-- The classes of a folded scope give the same findings. -/
theorem checkClasses_folded (registry : Registry) :
    (checkClasses registry.folded).map Finding.outline =
      (checkClasses registry).map Finding.outline := by
  have hvalues : (Hierarchy.ofRegistry registry).folded.classes.values =
      (Hierarchy.ofRegistry registry).classes.values.map (Declaration.folded ClassDecl.folded) :=
    Keyed.values_mapValues _ _
  simp only [checkClasses, Hierarchy.ofRegistry_folded, hvalues, List.map_append,
    checkDuplicateClasses_folded, Hierarchy.checkCircles_folded, Hierarchy.checkMembers_folded,
    List.filterMap_map, List.map_filterMap, List.flatMap_map, List.map_flatMap, Function.comp_def,
    Hierarchy.checkSharedName_folded, checkConstructor_folded, checkFieldTypes_folded]

end ScopeCheck
