import ScopeCheck.Proofs.InheritedMembers
import ScopeCheck.Proofs.Visits

/-!
# Types of fields that replace inherited ones

Whether a field of a type of its own may replace an inherited one is decided by the names of the two
types first. Names that differ at most in the case of their letters agree, whatever they mean at the
two places. Names that differ are looked up, each in the namespace it is written in, and only
classes are looked up. If both are classes, the field may narrow its type to the same class or to
one below it (`acceptsType_custom_iff`). So whether a field is reported can be told from the names
and the links of the classes (`field_reported_iff`).

The names alone do not tell which types are meant. Two classes of one name in two namespaces are
taken for one type, and an interface that is written with its namespace and without it is taken for
two (`fields_judged_by_written_names`).
-/

namespace ScopeCheck

namespace Hierarchy

/-- A class may stand where another is expected: it is that class, or links lead from it to that
class. -/
def Narrows (hierarchy : Hierarchy) (child base : Declaration ClassDecl) : Prop :=
  child = base ∨ Relation.TransGen hierarchy.Extends child.key base.key

variable (registry : Registry)

/-! ## Names of types -/

/-- The classes above a class stand under their own keys. -/
theorem map_key_ancestors (key : String) :
    ((ofRegistry registry).ancestors key).map Declaration.key =
      (ofRegistry registry).ancestorKeys key := by
  have hkeys : List.Forall₂ (fun other (decl : Declaration ClassDecl) => other = decl.key)
      ((ofRegistry registry).ancestorKeys key) ((ofRegistry registry).ancestors key) :=
    ((ofRegistry registry).forall₂_ancestors key).imp fun other decl hdecl =>
      (key_of_get?_classes registry other hdecl).symm
  have hmapped := List.forall₂_map_right_iff.mpr hkeys
  rw [List.forall₂_eq_eq_eq] at hmapped
  exact hmapped.symm

variable {registry}

/-- Two names mean the same class exactly if the classes found have the same key. -/
theorem eq_iff_key_eq {childName baseName : String} {childOuter baseOuter : Option String}
    {childClass baseClass : Declaration ClassDecl}
    (hchild : registry.class? childName childOuter = some childClass)
    (hbase : registry.class? baseName baseOuter = some baseClass) :
    childClass = baseClass ↔ childClass.key = baseClass.key := by
  constructor
  · intro heq
    rw [heq]
  · intro hkey
    have hfirst := Registry.canonical?_of_class? hchild
    rw [hkey, Registry.canonical?_of_class? hbase] at hfirst
    exact (Option.some.inj hfirst).symm

/-- What is asked of two classes is whether one narrows the other. -/
theorem narrows_iff {childName baseName : String} {childOuter baseOuter : Option String}
    {childClass baseClass : Declaration ClassDecl}
    (hchild : registry.class? childName childOuter = some childClass)
    (hbase : registry.class? baseName baseOuter = some baseClass) :
    (childClass.key = baseClass.key ∨
      ∃ ancestor ∈ (ofRegistry registry).ancestors childClass.key, ancestor.key = baseClass.key) ↔
        (ofRegistry registry).Narrows childClass baseClass := by
  have habove : (∃ ancestor ∈ (ofRegistry registry).ancestors childClass.key,
      ancestor.key = baseClass.key) ↔
        baseClass.key ≠ childClass.key ∧
          Relation.TransGen (ofRegistry registry).Extends childClass.key baseClass.key := by
    rw [← mem_ancestorKeys_iff (linksClasses_ofRegistry registry), ← map_key_ancestors,
      List.mem_map]
  rw [habove, Narrows, eq_iff_key_eq hchild hbase]
  constructor
  · rintro (hkey | ⟨-, hreach⟩)
    · exact Or.inl hkey
    · exact Or.inr hreach
  · rintro (hkey | hreach)
    · exact Or.inl hkey
    · by_cases hkey : childClass.key = baseClass.key
      · exact Or.inl hkey
      · exact Or.inr ⟨Ne.symm hkey, hreach⟩

/-- A class is accepted in place of another if the names agree or if it is narrower, each looked up
where it is written. -/
theorem acceptsType_custom_iff {childName baseName : String}
    {childOuter baseOuter : Option String} :
    (ofRegistry registry).acceptsType registry (.custom childName) childOuter (.custom baseName)
        baseOuter ↔
      Text.sameIgnoringAsciiCase childName baseName ∨
        ∃ childClass baseClass, registry.class? childName childOuter = some childClass ∧
          registry.class? baseName baseOuter = some baseClass ∧
            (ofRegistry registry).Narrows childClass baseClass := by
  rw [acceptsType, Bool.or_eq_true]
  refine or_congr Iff.rfl ?_
  cases hchild : registry.class? childName childOuter with
  | none => simp
  | some childClass =>
    cases hbase : registry.class? baseName baseOuter with
    | none => simp
    | some baseClass => simp [← narrows_iff hchild hbase]

/-! ## Fields -/

/-- The names of two types, each written in a namespace, differ by more than the case of their
letters, and they do not mean two classes of which the first narrows the second. -/
def TypesDiffer (registry : Registry) (childName : String) (childOuter : Option String)
    (baseName : String) (baseOuter : Option String) : Prop :=
  ¬ Text.sameIgnoringAsciiCase childName baseName ∧
    ¬ ∃ childClass baseClass, registry.class? childName childOuter = some childClass ∧
      registry.class? baseName baseOuter = some baseClass ∧
        (ofRegistry registry).Narrows childClass baseClass

/-- A field with a type of its own and the inherited one are told apart by their types. -/
theorem checkField_custom {decl ancestor : Declaration ClassDecl} {child base : Field}
    {childName baseName : String} (hchild : child.type = .custom childName)
    (hbase : base.type = .custom baseName) :
    let found := (ofRegistry registry).checkField registry decl ancestor child base
    let report := Finding.of (.fieldTypeDiffers decl.fullName ancestor.fullName child.name.text
      childName baseName) decl.file child.name.range
    let differ := TypesDiffer registry childName decl.namespaceKey baseName ancestor.namespaceKey
    (found = [report] ↔ differ) ∧ (found = [] ↔ ¬ differ) := by
  intro found report differ
  have hdiffer : differ ↔ ¬ (ofRegistry registry).acceptsType registry (.custom childName)
      decl.namespaceKey (.custom baseName) ancestor.namespaceKey := by
    unfold differ TypesDiffer
    rw [acceptsType_custom_iff, not_or]
  unfold found
  rw [hdiffer, checkField, hchild, hbase]
  split
  next haccepts => simp [haccepts]
  next hrejects => simp [hrejects, report, ValueType.text]

/-- A field that is no duplicate is compared with the inherited one. -/
theorem memberFindings_field {hierarchy : Hierarchy} {key : String}
    {decl ancestor : Declaration ClassDecl} {earlier : List Member} {child base : Field}
    (hnew : ∀ other ∈ earlier, ¬ other.SameName (.field child))
    (hbase : hierarchy.inherited? key child.name.text = some (ancestor, .field base)) :
    hierarchy.memberFindings registry key decl earlier (.field child) =
      hierarchy.checkField registry decl ancestor child base := by
  have hcompared : hierarchy.checkMember registry key decl (.field child) =
      hierarchy.checkOverride registry decl ancestor (.field child) (.field base) :=
    checkMember_of_inherited? hbase
  rw [memberFindings_of_new hnew, hcompared, checkOverride]

/-- What is found for a member of a class is listed among what is found for all members. -/
theorem memberFindings_within {hierarchy : Hierarchy} {key : String} {decl : Declaration ClassDecl}
    (hdecl : hierarchy.classes.get? key = some decl) {turn : List Member × Member}
    (hturn : turn ∈ Member.turns [] decl.node.members) :
    hierarchy.memberFindings registry key decl turn.1 turn.2 <:+:
      hierarchy.checkMembers registry := by
  have hentry : (key, decl) ∈ hierarchy.classes.entries := Keyed.get?_eq_some_iff.mp hdecl
  rw [checkMembers_eq]
  refine List.IsInfix.trans ?_ (List.infix_of_mem_flatten (List.mem_map_of_mem hentry))
  exact List.infix_of_mem_flatten (List.mem_map_of_mem hturn)

/-- For every field that replaces an inherited one, where both have types of their own and the field
is no duplicate, one problem is found or none. It is found exactly if the names of the types differ
by more than the case of their letters and do not mean two classes of which the first narrows the
second. -/
theorem field_reported_iff {key : String} {decl ancestor : Declaration ClassDecl}
    {earlier : List Member} {child base : Field} {childName baseName : String}
    (hdecl : (ofRegistry registry).classes.get? key = some decl)
    (hturn : (earlier, Member.field child) ∈ Member.turns [] decl.node.members)
    (hnew : ∀ other ∈ earlier, ¬ other.SameName (.field child))
    (hbase : (ofRegistry registry).inherited? key child.name.text = some (ancestor, .field base))
    (hchildType : child.type = .custom childName) (hbaseType : base.type = .custom baseName) :
    let found := (ofRegistry registry).memberFindings registry key decl earlier (.field child)
    let report := Finding.of (.fieldTypeDiffers decl.fullName ancestor.fullName child.name.text
      childName baseName) decl.file child.name.range
    let differ := TypesDiffer registry childName decl.namespaceKey baseName ancestor.namespaceKey
    found <:+: (ofRegistry registry).checkMembers registry ∧
      (found = [report] ↔ differ) ∧ (found = [] ↔ ¬ differ) := by
  intro found report differ
  have hfound : found = (ofRegistry registry).checkField registry decl ancestor child base :=
    memberFindings_field hnew hbase
  refine ⟨memberFindings_within hdecl hturn, ?_⟩
  rw [hfound]
  exact checkField_custom hchildType hbaseType

/-! ## Boxes and crates -/

/-- A word on a line of its own. -/
def wordOn (line : Nat) (text : String) : Ident := ⟨text, .onLine line 4 text.utf8ByteSize⟩

/-- A field with a type. -/
def typedField (line : Nat) (name type : String) : Field :=
  ⟨wordOn line name, none, some ⟨type, .onLine line 20 type.utf8ByteSize⟩, none, .zero⟩

/-- A class without members. -/
def widgetDecl (line : Nat) : ClassDecl := ⟨wordOn line "widget", none, []⟩

/-- A class that extends one of the other namespace. -/
def panelDecl : ClassDecl :=
  ⟨wordOn 11 "panel", some (.ofParts [wordOn 11 "a", wordOn 11 "widget"]), []⟩

/-- A class with fields. -/
def boxDecl : ClassDecl :=
  ⟨wordOn 3 "box", none,
    [.field (typedField 4 "item" "widget"), .field (typedField 5 "form" "shape"),
      .field (typedField 6 "lid" "widget")]⟩

/-- A class with fields of the same names, one of them twice. -/
def crateDecl : ClassDecl :=
  ⟨wordOn 12 "crate", some (.ofParts [wordOn 12 "a", wordOn 12 "box"]),
    [.field (typedField 13 "item" "widget"), .field (typedField 14 "form" "a.shape"),
      .field (typedField 15 "lid" "panel"), .field (typedField 16 "Lid" "crate")]⟩

/-- The interface of the first namespace. -/
def shapeInterface : InterfaceDecl := ⟨wordOn 2 "shape", []⟩

/-- Two namespaces that both have a class `widget`. -/
def boxes : Script :=
  ⟨"boxes.bs", none,
    [.namespaceDecl ⟨.ofParts [wordOn 0 "a"], [.classDecl (widgetDecl 1) .zero,
      .interfaceDecl shapeInterface .zero, .classDecl boxDecl .zero]⟩ .zero,
    .namespaceDecl ⟨.ofParts [wordOn 9 "b"], [.classDecl (widgetDecl 10) .zero,
      .classDecl panelDecl .zero, .classDecl crateDecl .zero]⟩ .zero]⟩

/-- What is registered for the script on its own. -/
def boxesRegistry : Registry := .build ⟨.ofProgram [boxes], []⟩ (.withNodes [])

/-- A class of the script as it is registered. -/
def registered (outer : String) (decl : ClassDecl) : Declaration ClassDecl :=
  ⟨"boxes.bs", decl.name, some outer, outer ++ "." ++ decl.name.text, decl⟩

/-- The interface of the script as it is registered. -/
def registeredShape : Declaration InterfaceDecl :=
  ⟨"boxes.bs", wordOn 2 "shape", some "a", "a.shape", shapeInterface⟩

/-- The classes of the script as they are registered. -/
def boxesClasses : List (Declaration ClassDecl) :=
  [registered "a" (widgetDecl 1), registered "a" boxDecl, registered "b" (widgetDecl 10),
    registered "b" panelDecl, registered "b" crateDecl]

/-- The scope has one file. -/
theorem sortedFiles_boxes : (⟨.ofProgram [boxes], []⟩ : ScopeChain).sortedFiles = [boxes] := by
  have hall : (⟨.ofProgram [boxes], []⟩ : ScopeChain).allFiles = [boxes] := rfl
  simp [ScopeChain.sortedFiles, hall]

/-- The classes of the registry, spelled out. -/
theorem boxesRegistry_eq :
    boxesRegistry = { boxesRegistry with
      classes := boxesClasses, interfaces := [registeredShape] } := by
  have hclasses : boxes.classes = boxesClasses := by
    rw [Script.classes, Script.topLevel, Script.visits_eq_visitsTo 4 rfl]
    rfl
  have hinterfaces : boxes.interfaces = [registeredShape] := by
    rw [Script.interfaces, Script.topLevel, Script.visits_eq_visitsTo 4 rfl]
    rfl
  simp [boxesRegistry, Registry.build, sortedFiles_boxes, hclasses, hinterfaces]

/-- Above the crate is the box. -/
theorem ancestors_crate :
    (ofRegistry boxesRegistry).ancestors "b.crate" = [registered "a" boxDecl] := by
  apply ancestors_of_only_parent
  · rw [get?_links, boxesRegistry_eq]
    rfl
  · rw [get?_links, boxesRegistry_eq]
    rfl
  · rw [get?_classes, boxesRegistry_eq]
    rfl
  · decide

/-- The crate counts under its name. -/
theorem get?_crate :
    (ofRegistry boxesRegistry).classes.get? "b.crate" = some (registered "b" crateDecl) := by
  rw [get?_classes, boxesRegistry_eq]
  rfl

/-- The fields of the crate and what they replace. -/
theorem inherited?_crate :
    (ofRegistry boxesRegistry).inherited? "b.crate" "item" =
        some (registered "a" boxDecl, .field (typedField 4 "item" "widget")) ∧
      (ofRegistry boxesRegistry).inherited? "b.crate" "form" =
        some (registered "a" boxDecl, .field (typedField 5 "form" "shape")) ∧
      (ofRegistry boxesRegistry).inherited? "b.crate" "lid" =
        some (registered "a" boxDecl, .field (typedField 6 "lid" "widget")) ∧
      (ofRegistry boxesRegistry).inherited? "b.crate" "Lid" =
        some (registered "a" boxDecl, .field (typedField 6 "lid" "widget")) := by
  simp only [inherited?, ancestors_crate]
  exact ⟨rfl, rfl, rfl, rfl⟩

/-- A panel is a widget of the first namespace. -/
theorem narrows_panel :
    boxesRegistry.class? "panel" (some "b") = some (registered "b" panelDecl) ∧
      boxesRegistry.class? "widget" (some "a") = some (registered "a" (widgetDecl 1)) ∧
      (ofRegistry boxesRegistry).Narrows (registered "b" panelDecl)
        (registered "a" (widgetDecl 1)) := by
  have hlink : (ofRegistry boxesRegistry).links.get? "b.panel" = some "a.widget" := by
    rw [get?_links, boxesRegistry_eq]
    rfl
  refine ⟨?_, ?_, Or.inr (.single hlink)⟩ <;> rw [boxesRegistry_eq] <;> rfl

/-- The two classes of one name are not related. -/
theorem not_narrows_widget :
    boxesRegistry.class? "widget" (some "b") = some (registered "b" (widgetDecl 10)) ∧
      boxesRegistry.class? "widget" (some "a") = some (registered "a" (widgetDecl 1)) ∧
      ¬ (ofRegistry boxesRegistry).Narrows (registered "b" (widgetDecl 10))
        (registered "a" (widgetDecl 1)) := by
  have hlast : (ofRegistry boxesRegistry).links.get? "b.widget" = none := by
    rw [get?_links, boxesRegistry_eq]
    rfl
  refine ⟨?_, ?_, ?_⟩
  · rw [boxesRegistry_eq]
    rfl
  · rw [boxesRegistry_eq]
    rfl
  · rintro (heq | hreach)
    · have hkey := congrArg Declaration.key heq
      revert hkey
      decide
    · obtain ⟨parent, hstep, -⟩ := Relation.TransGen.head'_iff.mp hreach
      have hlink : (ofRegistry boxesRegistry).links.get? "b.widget" = some parent := hstep
      rw [hlast] at hlink
      cases hlink

/-- A crate is no widget. -/
theorem not_narrows_crate :
    boxesRegistry.class? "crate" (some "b") = some (registered "b" crateDecl) ∧
      boxesRegistry.class? "widget" (some "a") = some (registered "a" (widgetDecl 1)) ∧
      ¬ (ofRegistry boxesRegistry).Narrows (registered "b" crateDecl)
        (registered "a" (widgetDecl 1)) := by
  have hcrate : boxesRegistry.class? "crate" (some "b") = some (registered "b" crateDecl) := by
    rw [boxesRegistry_eq]
    rfl
  have hwidget := not_narrows_widget.2.1
  have hkey : (registered "b" crateDecl).key = "b.crate" := by decide
  refine ⟨hcrate, hwidget, ?_⟩
  rw [← narrows_iff hcrate hwidget, hkey, ancestors_crate]
  decide

/-- The two names of the interface mean the same declaration. -/
theorem interface?_shape :
    boxesRegistry.interface? "a.shape" (some "b") = some registeredShape ∧
      boxesRegistry.interface? "shape" (some "a") = some registeredShape := by
  rw [boxesRegistry_eq]
  exact ⟨rfl, rfl⟩

/-- The two names of the interface are taken for different types. -/
theorem typesDiffer_shape : TypesDiffer boxesRegistry "a.shape" (some "b") "shape" (some "a") := by
  refine ⟨by decide, ?_⟩
  rintro ⟨childClass, -, hchild, -⟩
  have hnone : boxesRegistry.class? "a.shape" (some "b") = none := by
    rw [boxesRegistry_eq]
    rfl
  rw [hnone] at hchild
  cases hchild

/-- The form of a crate is written differently from that of a box and is reported, the lid of a
crate narrows that of a box and is not. -/
theorem crate_fields_reported :
    (ofRegistry boxesRegistry).memberFindings boxesRegistry "b.crate" (registered "b" crateDecl)
        [.field (typedField 13 "item" "widget")] (.field (typedField 14 "form" "a.shape")) =
      [.of (.fieldTypeDiffers "b.crate" "a.box" "form" "a.shape" "shape") "boxes.bs"
        (.onLine 14 4 4)] ∧
      (ofRegistry boxesRegistry).memberFindings boxesRegistry "b.crate" (registered "b" crateDecl)
        [.field (typedField 13 "item" "widget"), .field (typedField 14 "form" "a.shape")]
        (.field (typedField 15 "lid" "panel")) = [] := by
  obtain ⟨-, hform, hlid, -⟩ := inherited?_crate
  constructor
  · exact (field_reported_iff get?_crate (List.mem_cons_of_mem _ List.mem_cons_self) (by decide)
      hform rfl rfl).2.1.mpr typesDiffer_shape
  · refine (field_reported_iff get?_crate
      (List.mem_cons_of_mem _ (List.mem_cons_of_mem _ List.mem_cons_self)) (by decide) hlid rfl
      rfl).2.2.mpr ?_
    rintro ⟨-, hnarrows⟩
    exact hnarrows ⟨_, _, narrows_panel⟩

/-- The items of a crate and of a box are accepted, their forms are reported. -/
theorem checkField_crate :
    (ofRegistry boxesRegistry).checkField boxesRegistry (registered "b" crateDecl)
        (registered "a" boxDecl) (typedField 13 "item" "widget") (typedField 4 "item" "widget") =
      [] ∧
    (ofRegistry boxesRegistry).checkField boxesRegistry (registered "b" crateDecl)
        (registered "a" boxDecl) (typedField 14 "form" "a.shape") (typedField 5 "form" "shape") =
      [.of (.fieldTypeDiffers "b.crate" "a.box" "form" "a.shape" "shape") "boxes.bs"
        (.onLine 14 4 4)] := by
  have hwidget : (typedField 13 "item" "widget").type = .custom "widget" ∧
      (typedField 4 "item" "widget").type = .custom "widget" := ⟨rfl, rfl⟩
  have hshape : (typedField 14 "form" "a.shape").type = .custom "a.shape" ∧
      (typedField 5 "form" "shape").type = .custom "shape" := ⟨rfl, rfl⟩
  constructor
  · refine (checkField_custom hwidget.1 hwidget.2).2.mpr ?_
    rintro ⟨hnames, -⟩
    exact hnames (by decide)
  · exact (checkField_custom hshape.1 hshape.2).1.mpr typesDiffer_shape

/-- Fields are judged by the written names of their types. Two unrelated classes of one name are
accepted, two names of one interface are reported, and a duplicate is not compared at all. -/
theorem fields_judged_by_written_names :
    (∃ childClass baseClass,
      boxesRegistry.class? "widget" (some "b") = some childClass ∧
      boxesRegistry.class? "widget" (some "a") = some baseClass ∧
      ¬ (ofRegistry boxesRegistry).Narrows childClass baseClass ∧
      (ofRegistry boxesRegistry).inherited? "b.crate" "item" =
        some (registered "a" boxDecl, .field (typedField 4 "item" "widget")) ∧
      (ofRegistry boxesRegistry).memberFindings boxesRegistry "b.crate" (registered "b" crateDecl)
        [] (.field (typedField 13 "item" "widget")) = []) ∧
    (∃ meant,
      boxesRegistry.interface? "a.shape" (some "b") = some meant ∧
      boxesRegistry.interface? "shape" (some "a") = some meant ∧
      (ofRegistry boxesRegistry).inherited? "b.crate" "form" =
        some (registered "a" boxDecl, .field (typedField 5 "form" "shape")) ∧
      (ofRegistry boxesRegistry).memberFindings boxesRegistry "b.crate" (registered "b" crateDecl)
          [.field (typedField 13 "item" "widget")] (.field (typedField 14 "form" "a.shape")) =
        [.of (.fieldTypeDiffers "b.crate" "a.box" "form" "a.shape" "shape") "boxes.bs"
          (.onLine 14 4 4)]) ∧
    ∃ childClass baseClass,
      boxesRegistry.class? "crate" (some "b") = some childClass ∧
      boxesRegistry.class? "widget" (some "a") = some baseClass ∧
      ¬ (ofRegistry boxesRegistry).Narrows childClass baseClass ∧
      (ofRegistry boxesRegistry).inherited? "b.crate" "Lid" =
        some (registered "a" boxDecl, .field (typedField 6 "lid" "widget")) ∧
      (ofRegistry boxesRegistry).memberFindings boxesRegistry "b.crate" (registered "b" crateDecl)
          [.field (typedField 13 "item" "widget"), .field (typedField 14 "form" "a.shape"),
            .field (typedField 15 "lid" "panel")] (.field (typedField 16 "Lid" "crate")) =
        [.of (.duplicateIdentifier "Lid") "boxes.bs" (.onLine 16 4 3)] := by
  obtain ⟨hitem, hform, -, hlid⟩ := inherited?_crate
  obtain ⟨hchild, hbase, hunrelated⟩ := not_narrows_widget
  obtain ⟨hcrate, hwidget, hno⟩ := not_narrows_crate
  refine ⟨⟨_, _, hchild, hbase, hunrelated, hitem, ?_⟩,
    ⟨_, interface?_shape.1, interface?_shape.2, hform, ?_⟩,
    ⟨_, _, hcrate, hwidget, hno, hlid, ?_⟩⟩
  · have hnew : ∀ other ∈ ([] : List Member),
        ¬ other.SameName (.field (typedField 13 "item" "widget")) := by decide
    exact (memberFindings_field hnew hitem).trans checkField_crate.1
  · have hnew : ∀ other ∈ [Member.field (typedField 13 "item" "widget")],
        ¬ other.SameName (.field (typedField 14 "form" "a.shape")) := by decide
    exact (memberFindings_field hnew hform).trans checkField_crate.2
  · have hsame : (Member.field (typedField 15 "lid" "panel")).SameName
        (.field (typedField 16 "Lid" "crate")) := by decide
    exact if_pos ⟨_, by simp, hsame⟩

end Hierarchy

end ScopeCheck
