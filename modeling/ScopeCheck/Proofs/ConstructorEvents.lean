import Mathlib.Data.List.Basic
import ScopeCheck.Check.Classes
import ScopeCheck.Proofs.Hierarchy
import ScopeCheck.Proofs.RegistryMaps

/-!
# What happens in a constructor

What a constructor does with its object and its parent can be listed without regard to what has
been met before: every use of the object, and every call of the constructor of the parent after
the events of its arguments. The scan of a body stops at the first call of the parent, at whatever
depth it stands. It meets the listed events up to there and no others
(`Node.scanConstructor_eq`, `foldl_meet_eq`), so what is found for the constructors of a registry
is read off the lists of events (`constructor_findings_eq`).
-/

namespace ScopeCheck

/-- Something that matters in the body of a constructor. -/
inductive ConstructorEvent where
  /-- The object is used in this range. -/
  | receiver (range : Range)
  /-- The constructor of the parent has been called. -/
  | parentCall
deriving DecidableEq, Repr

/-! ## The events of a body -/

mutual

/-- The events of an expression, left to right. A function has an object of its own. -/
def Expr.constructorEvents : Expr → List ConstructorEvent
  | .literal _ _ => []
  | .name ident _ =>
    if Text.sameIgnoringAsciiCase ident.text "m" then [.receiver ident.range] else []
  | .dottedGet object _ _ => object.constructorEvents
  | .indexedGet object index _ => object.constructorEvents ++ index.constructorEvents
  | .call callee args _ =>
    callee.constructorEvents ++ args.flatMap Expr.constructorEvents
      ++ if callee.isNamed "super" then [.parentCall] else []
  | .callfunc object _ args _ => object.constructorEvents ++ args.flatMap Expr.constructorEvents
  | .new _ args _ => args.flatMap Expr.constructorEvents
  | .binary _ left right _ => left.constructorEvents ++ right.constructorEvents
  | .unary _ operand _ => operand.constructorEvents
  | .grouping inner _ => inner.constructorEvents
  | .function _ _ => []
  | .array items _ => items.flatMap Expr.constructorEvents
  | .record entries _ => entries.flatMap Entry.constructorEvents
  | .template items _ => items.flatMap Expr.constructorEvents

/-- The events of an entry of a map. -/
def Entry.constructorEvents : Entry → List ConstructorEvent
  | ⟨_, value⟩ => value.constructorEvents

end

/-- The events of the value of an enum. -/
def EnumItem.constructorEvents (item : EnumItem) : List ConstructorEvent :=
  item.value.toList.flatMap Expr.constructorEvents

/-- The events of a member of a class: those of the first value of a field. -/
def Member.constructorEvents : Member → List ConstructorEvent
  | .method _ => []
  | .field target => target.initial.toList.flatMap Expr.constructorEvents

/-- The events of a statement, in the order in which they are written. -/
def Stmt.constructorEvents : Stmt → List ConstructorEvent
  | .assign _ value _ => value.constructorEvents
  | .dottedSet object _ value _ => object.constructorEvents ++ value.constructorEvents
  | .expression value _ => value.constructorEvents
  | .print values _ => values.flatMap Expr.constructorEvents
  | .ret value _ => value.toList.flatMap Expr.constructorEvents
  | .branch condition thenBody elseBody _ =>
    condition.constructorEvents ++ thenBody.flatMap Stmt.constructorEvents
      ++ elseBody.flatMap Stmt.constructorEvents
  | .loop condition body _ => condition.constructorEvents ++ body.flatMap Stmt.constructorEvents
  | .forEach _ target body _ => target.constructorEvents ++ body.flatMap Stmt.constructorEvents
  | .functionDecl _ _ => []
  | .namespaceDecl ⟨_, body⟩ _ => body.flatMap Stmt.constructorEvents
  | .classDecl ⟨_, _, members⟩ _ => members.flatMap Member.constructorEvents
  | .enumDecl ⟨_, items⟩ _ => items.flatMap EnumItem.constructorEvents
  | .interfaceDecl _ _ => []
  | .constDecl ⟨_, value⟩ _ => value.constructorEvents
  | .importScript _ _ => []

namespace Node

/-- The events of a node. -/
def constructorEvents : Node → List ConstructorEvent
  | statement stmt => stmt.constructorEvents
  | expression expr => expr.constructorEvents
  | member target => target.constructorEvents
  | function _ => []

/-- The event that the node is itself, before all below it. -/
def ownEvents (node : Node) : List ConstructorEvent := node.receiverUse?.toList.map .receiver

/-- The event that the node is itself, after all below it. -/
def closingEvents (node : Node) : List ConstructorEvent :=
  if node.isParentCall then [.parentCall] else []

/-- A value that may be missing has the events of the value, if it is there. -/
theorem constructorEvents_value (value : Option Expr) :
    (value.map expression).toList.flatMap constructorEvents =
      value.toList.flatMap Expr.constructorEvents := by
  cases value <;> rfl

/-- The values of an enum have the events of the expressions that are written for them. -/
theorem constructorEvents_items (items : List EnumItem) :
    (items.filterMap fun item => item.value.map expression).flatMap constructorEvents =
      items.flatMap EnumItem.constructorEvents := by
  rw [List.filterMap_eq_flatMap_toList, List.flatMap_assoc]
  exact List.flatMap_congr fun item _ => constructorEvents_value item.value

/-- A statement has the events of its children in their order, as functions inside have none. -/
theorem constructorEvents_statement (stmt : Stmt) :
    (statement stmt).constructorEvents = stmt.children.flatMap constructorEvents := by
  cases stmt with
  | ret value =>
    rw [Stmt.children, constructorEvents_value, constructorEvents, Stmt.constructorEvents]
  | enumDecl decl =>
    cases decl
    rw [Stmt.children, constructorEvents_items, constructorEvents, Stmt.constructorEvents]
  | namespaceDecl decl | classDecl decl | constDecl decl =>
    cases decl
    simp [constructorEvents, Stmt.constructorEvents, Stmt.children, List.flatMap_map]
  | _ => simp [constructorEvents, Stmt.constructorEvents, Stmt.children, List.flatMap_map]

/-- An expression has its own use first, then the events of its children, and a call of the parent
last, after its arguments. -/
theorem constructorEvents_expression (expr : Expr) :
    (expression expr).constructorEvents = (expression expr).ownEvents
      ++ expr.children.flatMap constructorEvents ++ (expression expr).closingEvents := by
  cases expr with
  | name ident =>
    simp only [constructorEvents, Expr.constructorEvents, ownEvents, receiverUse?]
    split <;> rfl
  | call callee args =>
    simp only [constructorEvents, Expr.constructorEvents, Expr.children, List.flatMap_cons,
      List.flatMap_map]
    rfl
  | record entries =>
    have hentry : Entry.constructorEvents = fun entry => entry.value.constructorEvents := by
      funext entry
      cases entry
      rw [Entry.constructorEvents]
    simp [constructorEvents, Expr.constructorEvents, Expr.children, ownEvents, receiverUse?,
      closingEvents, isParentCall, List.flatMap_map, hentry]
  | _ =>
    simp [constructorEvents, Expr.constructorEvents, Expr.children, ownEvents, receiverUse?,
      closingEvents, isParentCall, List.flatMap_map]

/-- The events of a node are its own and those of its children, left to right. -/
theorem constructorEvents_eq {node : Node} (hnode : node.isFunction = false) :
    node.constructorEvents =
      node.ownEvents ++ node.children.flatMap constructorEvents ++ node.closingEvents := by
  cases node with
  | statement stmt =>
    rw [constructorEvents_statement]
    exact (List.append_nil _).symm
  | expression expr => exact constructorEvents_expression expr
  | member target =>
    cases target with
    | method => rfl
    | field target =>
      rw [children, Member.children, constructorEvents_value]
      exact (List.append_nil _).symm
  | function func => cases hnode

end Node

/-! ## The scan meets the events one after the other -/

namespace ConstructorScan

/-- What has been met after one more event. Nothing counts once the parent has been called. -/
def meet (scan : ConstructorScan) : ConstructorEvent → ConstructorScan
  | .receiver range =>
    if scan.calledParent then scan else { scan with uses := scan.uses ++ [range] }
  | .parentCall => { scan with calledParent := true }

/-- After the call of the parent nothing changes a scan. -/
theorem foldl_meet_of_called {scan : ConstructorScan} (hcalled : scan.calledParent = true)
    (events : List ConstructorEvent) : events.foldl meet scan = scan := by
  induction events with
  | nil => rfl
  | cons event rest ih =>
    have hmeet : scan.meet event = scan := by
      cases event with
      | receiver range => exact if_pos hcalled
      | parentCall => rw [meet, ← hcalled]
    rw [List.foldl_cons, hmeet, ih]

end ConstructorScan

/-- Where the object is used. -/
def ConstructorEvent.receiver? : ConstructorEvent → Option Range
  | .receiver range => some range
  | .parentCall => none

/-- Where the object is used before the first call of the parent. -/
def earlyUses (events : List ConstructorEvent) : List Range :=
  (events.takeWhile (· ≠ .parentCall)).filterMap ConstructorEvent.receiver?

open ConstructorScan

/-- Meeting events one after the other is cutting their list at the first call of the parent. -/
theorem foldl_meet_eq (events : List ConstructorEvent) (uses : List Range) :
    events.foldl meet ⟨uses, false⟩ =
      ⟨uses ++ earlyUses events, decide (.parentCall ∈ events)⟩ := by
  induction events generalizing uses with
  | nil => simp [earlyUses]
  | cons event rest ih =>
    cases event with
    | receiver range =>
      rw [List.foldl_cons, meet, if_neg Bool.false_ne_true, ih]
      simp [earlyUses, ConstructorEvent.receiver?]
    | parentCall =>
      rw [List.foldl_cons, meet, foldl_meet_of_called rfl]
      simp [earlyUses]

namespace Node

/-- The callee of a call of the parent is no use of the object. -/
theorem constructorEvents_callee {callee : Expr} (hnamed : callee.isNamed "super" = true) :
    callee.constructorEvents = [] := by
  cases callee with
  | name ident =>
    rw [Expr.constructorEvents]
    refine if_neg fun hreceiver => ?_
    have hsuper : Text.asciiLower ident.text = "super" := beq_iff_eq.mp hnamed
    have hm : Text.asciiLower ident.text = "m" := beq_iff_eq.mp hreceiver
    rw [hsuper] at hm
    exact absurd hm (by decide)
  | _ => cases hnamed

/-- The events of a call of the parent are those of its arguments, then the call. -/
theorem constructorEvents_of_isParentCall {node : Node} (hcall : node.isParentCall = true) :
    node.constructorEvents = node.children.tail.flatMap constructorEvents ++ [.parentCall] := by
  cases node with
  | expression expr =>
    cases expr with
    | call callee args =>
      have hnamed : callee.isNamed "super" = true := hcall
      rw [constructorEvents, Expr.constructorEvents, constructorEvents_callee hnamed,
        if_pos hnamed, List.nil_append, children, Expr.children, List.tail_cons, List.flatMap_map]
      rfl
    | _ => cases hcall
  | _ => cases hcall

/-- Any other node closes with no event. -/
theorem constructorEvents_of_not_isParentCall {node : Node} (hnode : node.isFunction = false)
    (hcall : node.isParentCall = false) :
    node.constructorEvents = node.ownEvents ++ node.children.flatMap constructorEvents := by
  rw [constructorEvents_eq hnode, closingEvents, hcall, if_neg Bool.false_ne_true, List.append_nil]

/-- Before the call of the parent a use is noted where it is met. -/
theorem foldl_meet_ownEvents {scan : ConstructorScan} (hcalled : scan.calledParent = false)
    (node : Node) :
    node.ownEvents.foldl meet scan =
      { scan with uses := scan.uses ++ node.receiverUse?.toList } := by
  cases huse : node.receiverUse? with
  | none => simp [ownEvents, huse]
  | some range => simp [ownEvents, huse, meet, hcalled]

/-- The scan of a node meets the events of the node, however far the scan has come. -/
theorem scanConstructor_eq (scan : ConstructorScan) (node : Node) :
    node.scanConstructor scan = node.constructorEvents.foldl meet scan := by
  -- the children hand the scan on from one to the next, so their events follow one another
  have hbelow : ∀ children : List Node, (∀ child ∈ children, child ∈ node.children) →
      ∀ scan : ConstructorScan,
        children.foldl (fun scan child => child.scanConstructor scan) scan =
          (children.flatMap constructorEvents).foldl meet scan := by
    intro children hchildren scan
    rw [List.foldl_flatMap]
    refine List.foldl_ext _ _ _ fun scan child hmem => ?_
    have hchild := hchildren child hmem
    exact scanConstructor_eq scan child
  rw [scanConstructor]
  simp only [List.foldl_attach (f := fun scan (child : Node) => child.scanConstructor scan)]
  cases hcalled : scan.calledParent with
  | true => rw [if_pos rfl, foldl_meet_of_called hcalled]
  | false =>
    rw [if_neg Bool.false_ne_true]
    cases hfunction : node.isFunction with
    | true =>
      cases node with
      | function func => rfl
      | _ => cases hfunction
    | false =>
      rw [if_neg Bool.false_ne_true]
      cases hcall : node.isParentCall with
      | true =>
        rw [if_pos rfl, constructorEvents_of_isParentCall hcall, List.foldl_append,
          hbelow _ fun _ hmem => List.mem_of_mem_tail hmem]
        rfl
      | false =>
        rw [if_neg Bool.false_ne_true, constructorEvents_of_not_isParentCall hfunction hcall,
          List.foldl_append, foldl_meet_ownEvents hcalled, hbelow _ fun _ hmem => hmem, hcalled]
termination_by sizeOf node
decreasing_by exact sizeOf_child_lt hchild

end Node

/-- The events of the body of a function. -/
def Func.constructorEvents (func : Func) : List ConstructorEvent :=
  func.body.flatMap Stmt.constructorEvents

/-- The scan of a body notes the uses before the first call of the parent, and whether there is such
a call. -/
theorem scanBody_eq (func : Func) :
    scanBody func.body =
      ⟨earlyUses func.constructorEvents, decide (.parentCall ∈ func.constructorEvents)⟩ := by
  have hmeet : scanBody func.body = func.constructorEvents.foldl meet ⟨[], false⟩ := by
    rw [scanBody, Func.constructorEvents, List.foldl_flatMap]
    refine List.foldl_ext _ _ _ fun scan stmt _ => ?_
    exact Node.scanConstructor_eq scan (.statement stmt)
  rw [hmeet, foldl_meet_eq, List.nil_append]

/-! ## What is found for constructors -/

/-- The classes that are checked are the first declarations, by their keys. -/
theorem Hierarchy.values_classes (registry : Registry) :
    (ofRegistry registry).classes.values =
      (sortedKeys registry.classes).filterMap registry.canonical? :=
  Keyed.values_ofList_filterMap (nodup_sortedKeys registry.classes) registry.canonical?

/-- The method that a member is, if it is one named `new`, in whatever case of the letters. -/
def Member.namedNew? : Member → Option Method
  | .method target =>
    if Text.sameIgnoringAsciiCase target.name.text "new" then some target else none
  | .field _ => none

/-- The constructor of a class is its first method named `new`. -/
theorem ClassDecl.constructor?_eq (decl : ClassDecl) :
    decl.constructor? = decl.members.findSome? Member.namedNew? := by
  unfold constructor? methods
  induction decl.members with
  | nil => rfl
  | cons target rest ih =>
    cases target with
    | field => exact ih
    | method target =>
      simp only [List.filterMap_cons, List.find?_cons, List.findSome?_cons, Member.namedNew?]
      cases Text.sameIgnoringAsciiCase target.name.text "new" with
      | true => rfl
      | false => exact ih

/-- The findings that the events of the constructor of a class, its first method named `new`, call
for. A class that extends no other and a class without a constructor have none. -/
def constructorFindings (decl : Declaration ClassDecl) : List Finding :=
  match decl.node.parent, decl.node.members.findSome? Member.namedNew? with
  | some _, some constructor =>
    let events := constructor.func.constructorEvents
    (earlyUses events).map (.of .receiverBeforeSuperCall decl.file)
      ++ if .parentCall ∈ events then []
        else [.of .missingSuperCall decl.file constructor.name.range]
  | _, _ => []

/-- The check finds what the events of the body say. -/
theorem checkConstructor_eq (decl : Declaration ClassDecl) :
    checkConstructor decl = constructorFindings decl := by
  unfold checkConstructor constructorFindings
  rw [ClassDecl.constructor?_eq]
  cases decl.node.parent with
  | none => rfl
  | some parent =>
    cases decl.node.members.findSome? Member.namedNew? with
    | none => rfl
    | some constructor => simp only [scanBody_eq, decide_eq_true_eq]

/-- Whether a finding is about what a constructor does with its object and its parent. -/
def Finding.isOfConstructor (finding : Finding) : Bool :=
  finding.diagnostic.code = Problem.receiverBeforeSuperCall.code
    || finding.diagnostic.code = Problem.missingSuperCall.code

/-- What is found for a constructor is of the two kinds that are found for constructors. -/
theorem isOfConstructor_of_mem {decl : Declaration ClassDecl} {finding : Finding}
    (hmem : finding ∈ constructorFindings decl) : finding.isOfConstructor = true := by
  unfold constructorFindings at hmem
  split at hmem
  next =>
    rcases List.mem_append.mp hmem with huse | hmissing
    · obtain ⟨range, -, rfl⟩ := List.mem_map.mp huse
      rfl
    · split at hmissing
      · cases hmissing
      · rw [List.mem_singleton.mp hmissing]
        rfl
  next => cases hmem

/-- None of the findings is about a constructor. -/
def AllOther (findings : List Finding) : Prop :=
  ∀ finding ∈ findings, finding.isOfConstructor = false

/-- A list without findings of constructors has none to pick. -/
theorem AllOther.filter_eq_nil {findings : List Finding} (hother : AllOther findings) :
    findings.filter Finding.isOfConstructor = [] := by
  refine List.filter_eq_nil_iff.mpr fun finding hmem => ?_
  rw [hother finding hmem]
  exact Bool.false_ne_true

/-! The other checks of classes have findings of other kinds. -/

/-- Classes that were declared before are no matter of constructors. -/
theorem allOther_checkDuplicateClasses (registry : Registry) :
    AllOther (checkDuplicateClasses registry) := by
  intro finding hmem
  obtain ⟨key, -, hkey⟩ := List.mem_flatMap.mp hmem
  split at hkey
  · cases hkey
  · obtain ⟨other, -, rfl⟩ := List.mem_map.mp hkey
    rfl

/-- Types of fields are no matter of constructors. -/
theorem allOther_checkFieldTypes (registry : Registry) (decl : Declaration ClassDecl) :
    AllOther (checkFieldTypes registry decl) := by
  intro finding hmem
  obtain ⟨field, -, hfield⟩ := List.mem_filterMap.mp hmem
  split at hfield
  · cases hfield
  · split at hfield
    · split at hfield <;> cases hfield
      rfl
    · cases hfield

namespace Hierarchy

variable {hierarchy : Hierarchy} {registry : Registry}

/-- Classes that share a name are no matter of constructors. -/
theorem allOther_checkSharedName (decls : List (Declaration ClassDecl)) :
    AllOther (decls.filterMap hierarchy.checkSharedName) := by
  intro finding hmem
  obtain ⟨decl, -, hdecl⟩ := List.mem_filterMap.mp hmem
  unfold checkSharedName at hdecl
  split at hdecl
  · split at hdecl
    · split at hdecl <;> cases hdecl
      rfl
    · cases hdecl
  · cases hdecl

/-- Circles are no matter of constructors. -/
theorem allOther_checkCircles : AllOther hierarchy.checkCircles := by
  intro finding hmem
  obtain ⟨circle, -, hcircle⟩ := List.mem_filterMap.mp hmem
  unfold reportCircle at hcircle
  split at hcircle <;> cases hcircle
  rfl

/-- Comparisons with inherited members are no matter of constructors, even if the member is one. -/
theorem allOther_checkOverride (decl ancestor : Declaration ClassDecl) (child base : Member) :
    AllOther (hierarchy.checkOverride registry decl ancestor child base) := by
  intro finding hmem
  unfold checkOverride at hmem
  split at hmem
  · unfold checkField at hmem
    split at hmem
    · cases hmem
    · rw [List.mem_singleton.mp hmem]
      rfl
  · unfold checkMethod at hmem
    rcases List.mem_append.mp hmem with hmark | haccess
    · split at hmark
      · cases hmark
      · rw [List.mem_singleton.mp hmark]
        rfl
    · split at haccess
      · cases haccess
      · rw [List.mem_singleton.mp haccess]
        rfl
  · rw [List.mem_singleton.mp hmem]
    rfl

/-- The members of a class are checked without findings of constructors. -/
theorem allOther_checkMembersAfter (key : String) (decl : Declaration ClassDecl)
    (seen : List String) (members : List Member) :
    AllOther (hierarchy.checkMembersAfter registry key decl seen members) := by
  induction members generalizing seen with
  | nil => exact fun _ hmem => absurd hmem List.not_mem_nil
  | cons target rest ih =>
    intro finding hmem
    unfold checkMembersAfter at hmem
    split at hmem
    · rcases List.mem_cons.mp hmem with rfl | hrest
      · rfl
      · exact ih seen finding hrest
    · rcases List.mem_append.mp hmem with htarget | hrest
      · unfold checkMember at htarget
        split at htarget
        · exact allOther_checkOverride _ _ _ _ finding htarget
        · cases htarget
      · exact ih _ finding hrest

/-- So are the members of all classes. -/
theorem allOther_checkMembers : AllOther (hierarchy.checkMembers registry) := by
  intro finding hmem
  obtain ⟨entry, -, hentry⟩ := List.mem_flatMap.mp hmem
  exact allOther_checkMembersAfter entry.1 entry.2 [] _ finding hentry

end Hierarchy

/-- What is found for the constructors of the classes of a registry is what their events call for,
class by class: each use of the object before the first call of the parent, in order, and the
missing call if there is none. -/
theorem constructor_findings_eq (registry : Registry) :
    (checkClasses registry).filter Finding.isOfConstructor =
      ((sortedKeys registry.classes).filterMap registry.canonical?).flatMap
        constructorFindings := by
  rw [← Hierarchy.values_classes]
  have htypes : AllOther ((Hierarchy.ofRegistry registry).classes.values.flatMap
      (checkFieldTypes registry)) := by
    intro finding hmem
    obtain ⟨decl, -, hdecl⟩ := List.mem_flatMap.mp hmem
    exact allOther_checkFieldTypes registry decl finding hdecl
  have hconstructors : ∀ finding ∈
      (Hierarchy.ofRegistry registry).classes.values.flatMap constructorFindings,
        finding.isOfConstructor = true := by
    intro finding hmem
    obtain ⟨decl, -, hdecl⟩ := List.mem_flatMap.mp hmem
    exact isOfConstructor_of_mem hdecl
  simp only [checkClasses, List.filter_append,
    (allOther_checkDuplicateClasses registry).filter_eq_nil,
    (Hierarchy.allOther_checkSharedName _).filter_eq_nil,
    Hierarchy.allOther_checkCircles.filter_eq_nil, Hierarchy.allOther_checkMembers.filter_eq_nil,
    htypes.filter_eq_nil, List.nil_append, List.append_nil, funext checkConstructor_eq,
    List.filter_eq_self.mpr hconstructors]

end ScopeCheck
