import ScopeCheck.Check.Members
import ScopeCheck.Proofs.Hierarchy
import ScopeCheck.Proofs.Lowercase

/-!
# Which inherited member a member is compared with

The members of a class are checked one after the other, each in view of those before it
(`checkMembers_eq`). A member whose name is taken is a duplicate and is compared with nothing. Any
other member is compared with the nearest inherited member of its name, if there is one: the first
one of the first ancestor that has one (`inherits_of_inherited?`). What comparing two members finds
is told by `Compared`, one case for each way in which they can differ: in kind, in the type of a
field, in the keyword of a method and in its access level (`compared_checkOverride`). Together with
what the ancestors of a class are, also where links run in circles, this says what is found for the
members of every class (`members_compared_with_nearest`).

Duplicates are told by the lower case of their names, inherited members by the letters A to Z alone.
For names of ASCII characters this is the same.
-/

namespace ScopeCheck

/-- Two members have the same name, in whatever letter case. -/
def Member.SameName (left right : Member) : Prop := left.name.lower = right.name.lower

instance (left right : Member) : Decidable (left.SameName right) :=
  inferInstanceAs (Decidable (left.name.lower = right.name.lower))

/-- Members that come one after the other, each with those that come before it. -/
def Member.turns (earlier : List Member) : List Member → List (List Member × Member)
  | [] => []
  | target :: rest => (earlier, target) :: turns (earlier ++ [target]) rest

namespace Hierarchy

/-- What is found for a member in view of those before it. -/
def memberFindings (hierarchy : Hierarchy) (registry : Registry) (key : String)
    (decl : Declaration ClassDecl) (earlier : List Member) (target : Member) : List Finding :=
  if ∃ other ∈ earlier, other.SameName target then
    [.of (.duplicateIdentifier target.name.text) decl.file target.name.range]
  else hierarchy.checkMember registry key decl target

/-- A class inherits a member of the name of another from an ancestor: no nearer ancestor has one,
and it is the first one of this ancestor. -/
structure Inherits (hierarchy : Hierarchy) (key : String) (target : Member)
    (ancestor : Declaration ClassDecl) (base : Member) : Prop where
  nearest : ∃ nearer further, hierarchy.ancestors key = nearer ++ ancestor :: further ∧
    ∀ other ∈ nearer, ∀ inner ∈ other.node.members, ¬ inner.SameName target
  first : ∃ before after, ancestor.node.members = before ++ base :: after ∧
    ∀ inner ∈ before, ¬ inner.SameName target
  same : base.SameName target

/-- The type of a field fits the one that is expected. Names of classes are looked up, each in the
namespace in which it is written. -/
inductive Fits (hierarchy : Hierarchy) (registry : Registry) (outer baseOuter : Option String) :
    ValueType → ValueType → Prop
  /-- A value of the type may stand where one of the expected type is. -/
  | assignable {child base : ValueType} (hassignable : child.assignableTo base = true) :
    Fits hierarchy registry outer baseOuter child base
  /-- Both names mean the same class. -/
  | sameClass {childName baseName : String} {childClass baseClass : Declaration ClassDecl}
    (hchild : registry.class? childName outer = some childClass)
    (hbase : registry.class? baseName baseOuter = some baseClass)
    (hkey : childClass.key = baseClass.key) :
    Fits hierarchy registry outer baseOuter (.custom childName) (.custom baseName)
  /-- The first name means a class that has the other one among its ancestors. -/
  | below {childName baseName : String} {childClass baseClass ancestor : Declaration ClassDecl}
    (hchild : registry.class? childName outer = some childClass)
    (hbase : registry.class? baseName baseOuter = some baseClass)
    (hancestor : ancestor ∈ hierarchy.ancestors childClass.key)
    (hkey : ancestor.key = baseClass.key) :
    Fits hierarchy registry outer baseOuter (.custom childName) (.custom baseName)

/-- What should be found where a member of a class is compared with one of an ancestor. Every
problem is at the name of the member. -/
inductive Compared (hierarchy : Hierarchy) (registry : Registry)
    (decl ancestor : Declaration ClassDecl) : Member → Member → List Finding → Prop
  /-- A method does not replace a field. -/
  | methodForField (child : Method) (base : Field) :
    Compared hierarchy registry decl ancestor (.method child) (.field base)
      [.of (.memberKindDiffers "method" "field" ancestor.fullName) decl.file child.name.range]
  /-- A field does not replace a method. -/
  | fieldForMethod (child : Field) (base : Method) :
    Compared hierarchy registry decl ancestor (.field child) (.method base)
      [.of (.memberKindDiffers "field" "method" ancestor.fullName) decl.file child.name.range]
  /-- A field keeps or narrows the type. -/
  | fieldFits {child base : Field}
    (hfits : hierarchy.Fits registry decl.namespaceKey ancestor.namespaceKey child.type
      base.type) :
    Compared hierarchy registry decl ancestor (.field child) (.field base) []
  /-- A field changes the type. -/
  | fieldDiffers {child base : Field}
    (hdiffers : ¬ hierarchy.Fits registry decl.namespaceKey ancestor.namespaceKey child.type
      base.type) :
    Compared hierarchy registry decl ancestor (.field child) (.field base)
      [.of (.fieldTypeDiffers decl.fullName ancestor.fullName child.name.text child.type.text
        base.type.text) decl.file child.name.range]
  /-- A method has to have the keyword, unless it is a constructor, and to keep the access level,
  which is that of everyone if none is written. -/
  | methods (child base : Method) :
    Compared hierarchy registry decl ancestor (.method child) (.method base)
      ((if child.isOverride = false ∧ Text.sameIgnoringAsciiCase child.name.text "new" = false then
          [.of (.missingOverride ancestor.fullName) decl.file child.name.range]
        else []) ++
        if child.access.getD .everyone ≠ base.access.getD .everyone then
          [.of (.accessDiffers child.name.text decl.fullName (child.access.getD .everyone).word
            ancestor.fullName (base.access.getD .everyone).word) decl.file child.name.range]
        else [])

/-- What should be found for a member in view of those before it. -/
inductive Judged (hierarchy : Hierarchy) (registry : Registry) (key : String)
    (decl : Declaration ClassDecl) (earlier : List Member) (target : Member) :
    List Finding → Prop
  /-- The name is taken. -/
  | duplicate {other : Member} (hmem : other ∈ earlier) (hsame : other.SameName target) :
    Judged hierarchy registry key decl earlier target
      [.of (.duplicateIdentifier target.name.text) decl.file target.name.range]
  /-- The name is new in the class, and the class inherits a member of it. -/
  | compared (hnew : ∀ other ∈ earlier, ¬ other.SameName target)
    {ancestor : Declaration ClassDecl} {base : Member} {findings : List Finding}
    (hinherits : hierarchy.Inherits key target ancestor base)
    (hcompared : hierarchy.Compared registry decl ancestor target base findings) :
    Judged hierarchy registry key decl earlier target findings
  /-- The name is new in the class, and no ancestor has a member of it. -/
  | introduced (hnew : ∀ other ∈ earlier, ¬ other.SameName target)
    (hnone : ∀ ancestor ∈ hierarchy.ancestors key, ∀ inner ∈ ancestor.node.members,
      ¬ inner.SameName target) :
    Judged hierarchy registry key decl earlier target []

variable {hierarchy : Hierarchy} {registry : Registry} {key : String}
  {decl : Declaration ClassDecl}

/-! ## One member after the other -/

/-- The names that are taken are those of the members before. -/
theorem checkMembersAfter_eq {seen : List String} {earlier : List Member}
    (hseen : ∀ name, name ∈ seen ↔ ∃ other ∈ earlier, other.name.lower = name)
    (members : List Member) :
    hierarchy.checkMembersAfter registry key decl seen members =
      (Member.turns earlier members).flatMap fun turn =>
        hierarchy.memberFindings registry key decl turn.1 turn.2 := by
  induction members generalizing seen earlier with
  | nil => rfl
  | cons target rest ih =>
    have htaken : (∃ other ∈ earlier, other.SameName target) ↔
        seen.contains target.name.lower = true := by
      rw [List.contains_iff_mem, hseen]
      rfl
    rw [checkMembersAfter, Member.turns, List.flatMap_cons, memberFindings]
    by_cases hsame : ∃ other ∈ earlier, other.SameName target
    · rw [if_pos (htaken.mp hsame), if_pos hsame]
      -- a duplicate takes no name, but an earlier member has the name already
      refine congrArg _ (ih fun name => ?_)
      rw [hseen]
      constructor
      · rintro ⟨other, hother, hname⟩
        exact ⟨other, List.mem_append_left _ hother, hname⟩
      · rintro ⟨other, hother, hname⟩
        rcases List.mem_append.mp hother with hold | hlast
        · exact ⟨other, hold, hname⟩
        · rw [List.mem_singleton.mp hlast] at hname
          obtain ⟨first, hfirst, heq⟩ := hsame
          exact ⟨first, hfirst, heq.trans hname⟩
    · rw [if_neg (mt htaken.mpr hsame), if_neg hsame]
      refine congrArg _ (ih fun name => ?_)
      rw [List.mem_cons, hseen]
      simp only [List.mem_append, List.mem_singleton, or_and_right, exists_or, exists_eq_left]
      exact or_comm.trans (or_congr_right eq_comm)

/-- The members of each class are judged one after the other, each after those before it. -/
theorem checkMembers_eq :
    hierarchy.checkMembers registry = hierarchy.classes.entries.flatMap fun entry =>
      (Member.turns [] entry.2.node.members).flatMap fun turn =>
        hierarchy.memberFindings registry entry.1 entry.2 turn.1 turn.2 := by
  refine List.flatMap_congr fun entry _ => checkMembersAfter_eq (fun name => ?_) _
  simp

/-- Members that come in turn are members of the list. -/
theorem mem_of_mem_turns {earlier members : List Member} {turn : List Member × Member}
    (hturn : turn ∈ Member.turns earlier members) : turn.2 ∈ members := by
  induction members generalizing earlier with
  | nil => cases hturn
  | cons target rest ih =>
    rcases List.mem_cons.mp hturn with rfl | hlater
    · exact List.mem_cons_self
    · exact List.mem_cons_of_mem target (ih hlater)

/-! ## The nearest inherited member -/

/-- A member whose name is not taken is checked against what it inherits. -/
theorem memberFindings_of_new {earlier : List Member} {target : Member}
    (hnew : ∀ other ∈ earlier, ¬ other.SameName target) :
    hierarchy.memberFindings registry key decl earlier target =
      hierarchy.checkMember registry key decl target := by
  rw [memberFindings, if_neg]
  rintro ⟨other, hmem, hsame⟩
  exact hnew other hmem hsame

/-- A member is compared with the inherited one that was found. -/
theorem checkMember_of_inherited? {target base : Member} {ancestor : Declaration ClassDecl}
    (hfound : hierarchy.inherited? key target.name.text = some (ancestor, base)) :
    hierarchy.checkMember registry key decl target =
      hierarchy.checkOverride registry decl ancestor target base := by
  rw [checkMember, hfound]

/-- A member that inherits nothing is compared with nothing. -/
theorem checkMember_of_inherited?_eq_none {target : Member}
    (hnone : hierarchy.inherited? key target.name.text = none) :
    hierarchy.checkMember registry key decl target = [] := by
  rw [checkMember, hnone]

/-! ## What comparing two members finds -/

/-- A field type is accepted exactly if it fits. -/
theorem acceptsType_iff_fits {child base : ValueType} {outer baseOuter : Option String} :
    hierarchy.acceptsType registry child outer base baseOuter = true ↔
      hierarchy.Fits registry outer baseOuter child base := by
  unfold acceptsType
  rw [Bool.or_eq_true]
  constructor
  · rintro (hassignable | hclasses)
    · exact .assignable hassignable
    · split at hclasses
      · split at hclasses
        · rename_i hchild hbase
          rcases Bool.or_eq_true _ _ |>.mp hclasses with hkey | hany
          · exact .sameClass hchild hbase (of_decide_eq_true hkey)
          · obtain ⟨ancestor, hancestor, hkey⟩ := List.any_eq_true.mp hany
            exact .below hchild hbase hancestor (of_decide_eq_true hkey)
        · cases hclasses
      · cases hclasses
  · intro hfits
    cases hfits with
    | assignable hassignable => exact Or.inl hassignable
    | sameClass hchild hbase hkey => exact Or.inr (by simp [hchild, hbase, hkey])
    | below hchild hbase hancestor hkey =>
      refine Or.inr ?_
      simp only [hchild, hbase, Bool.or_eq_true, List.any_eq_true, decide_eq_true_eq]
      exact Or.inr ⟨_, hancestor, hkey⟩

/-- A method is checked for the keyword and for the access level, each on its own. -/
theorem checkMethod_eq (decl ancestor : Declaration ClassDecl) (child base : Method) :
    checkMethod decl ancestor child base =
      (if child.isOverride = false ∧ Text.sameIgnoringAsciiCase child.name.text "new" = false then
          [.of (.missingOverride ancestor.fullName) decl.file child.name.range]
        else []) ++
        if child.access.getD .everyone ≠ base.access.getD .everyone then
          [.of (.accessDiffers child.name.text decl.fullName (child.access.getD .everyone).word
            ancestor.fullName (base.access.getD .everyone).word) decl.file child.name.range]
        else [] := by
  refine congr (congrArg HAppend.hAppend ?_) (ite_not _ _ _).symm
  cases child.isOverride <;> cases Text.sameIgnoringAsciiCase child.name.text "new" <;> rfl

/-- Comparing two members finds what should be found. -/
theorem compared_checkOverride (ancestor : Declaration ClassDecl) (target base : Member) :
    hierarchy.Compared registry decl ancestor target base
      (hierarchy.checkOverride registry decl ancestor target base) := by
  cases target with
  | method child =>
    cases base with
    | method base =>
      rw [checkOverride, checkMethod_eq]
      exact .methods child base
    | field base => exact .methodForField child base
  | field child =>
    cases base with
    | method base => exact .fieldForMethod child base
    | field base =>
      rw [checkOverride, checkField]
      split
      · rename_i haccepts
        exact .fieldFits (acceptsType_iff_fits.mp haccepts)
      · rename_i hrejects
        exact .fieldDiffers fun hfits => hrejects (acceptsType_iff_fits.mpr hfits)

/-- The members of the classes have names of ASCII characters. -/
def AsciiMembers (hierarchy : Hierarchy) : Prop :=
  ∀ decl ∈ hierarchy.classes.values, ∀ target ∈ decl.node.members, Text.IsAscii target.name.text

/-- The classes above a class are of the hierarchy. -/
theorem mem_classes_of_mem_ancestors {ancestor : Declaration ClassDecl}
    (hmem : ancestor ∈ hierarchy.ancestors key) : ancestor ∈ hierarchy.classes.values := by
  obtain ⟨other, -, hother⟩ := List.mem_filterMap.mp hmem
  exact Keyed.mem_values_iff.mpr ⟨other, hother⟩

section Ascii

variable (hascii : hierarchy.AsciiMembers) {target : Member}
  (htarget : Text.IsAscii target.name.text)
include hascii htarget

/-- Among the members of an ancestor both ways to compare names agree. -/
theorem sameIgnoringAsciiCase_iff_sameName {ancestor : Declaration ClassDecl}
    (hancestor : ancestor ∈ hierarchy.ancestors key) {inner : Member}
    (hinner : inner ∈ ancestor.node.members) :
    Text.sameIgnoringAsciiCase inner.name.text target.name.text ↔ inner.SameName target :=
  (hascii ancestor (mem_classes_of_mem_ancestors hancestor) inner hinner).sameIgnoringAsciiCase_iff
    htarget

/-- An ancestor in which no member is found has none of the name. -/
theorem not_sameName_of_find?_eq_none {ancestor : Declaration ClassDecl}
    (hancestor : ancestor ∈ hierarchy.ancestors key)
    (hnone : ancestor.node.members.find? (fun inner =>
      Text.sameIgnoringAsciiCase inner.name.text target.name.text) = none) :
    ∀ inner ∈ ancestor.node.members, ¬ inner.SameName target := fun inner hinner hsame =>
  List.find?_eq_none.mp hnone inner hinner
    ((sameIgnoringAsciiCase_iff_sameName hascii htarget hancestor hinner).mpr hsame)

/-- What is found is the first member of the name in the nearest class that has one. -/
theorem inherits_of_inherited? {ancestor : Declaration ClassDecl} {base : Member}
    (hfound : hierarchy.inherited? key target.name.text = some (ancestor, base)) :
    hierarchy.Inherits key target ancestor base := by
  obtain ⟨nearer, found, further, hsplit, hbase, hnearer⟩ := List.findSome?_eq_some_iff.mp hfound
  obtain ⟨inner, hfirst, heq⟩ := Option.map_eq_some_iff.mp hbase
  cases heq
  obtain ⟨hsame, before, after, hmembers, hbefore⟩ := List.find?_eq_some_iff_append.mp hfirst
  have hancestor : ancestor ∈ hierarchy.ancestors key := by simp [hsplit]
  refine ⟨⟨nearer, further, hsplit, fun other hother => ?_⟩,
    ⟨before, after, hmembers, fun inner hinner hname => ?_⟩, ?_⟩
  · have hmem : other ∈ hierarchy.ancestors key := by simp [hsplit, hother]
    exact not_sameName_of_find?_eq_none hascii htarget hmem
      (Option.map_eq_none_iff.mp (hnearer other hother))
  · have hmem : inner ∈ ancestor.node.members := by simp [hmembers, hinner]
    have hother := hbefore inner hinner
    rw [(sameIgnoringAsciiCase_iff_sameName hascii htarget hancestor hmem).mpr hname] at hother
    cases hother
  · have hmem : base ∈ ancestor.node.members := by simp [hmembers]
    exact (sameIgnoringAsciiCase_iff_sameName hascii htarget hancestor hmem).mp hsame

/-- If nothing is found, no class above has a member of the name. -/
theorem not_sameName_of_inherited?_eq_none
    (hnone : hierarchy.inherited? key target.name.text = none) :
    ∀ ancestor ∈ hierarchy.ancestors key, ∀ inner ∈ ancestor.node.members,
      ¬ inner.SameName target := fun ancestor hancestor =>
  not_sameName_of_find?_eq_none hascii htarget hancestor
    (Option.map_eq_none_iff.mp (List.findSome?_eq_none_iff.mp hnone ancestor hancestor))

/-- What is found for a member is what should be found. -/
theorem judged_memberFindings (earlier : List Member) :
    hierarchy.Judged registry key decl earlier target
      (hierarchy.memberFindings registry key decl earlier target) := by
  by_cases htaken : ∃ other ∈ earlier, other.SameName target
  · rw [memberFindings, if_pos htaken]
    obtain ⟨other, hmem, hsame⟩ := htaken
    exact .duplicate hmem hsame
  · have hnew : ∀ other ∈ earlier, ¬ other.SameName target :=
      fun other hmem hsame => htaken ⟨other, hmem, hsame⟩
    rw [memberFindings_of_new hnew]
    cases hfound : hierarchy.inherited? key target.name.text with
    | none =>
      rw [checkMember_of_inherited?_eq_none hfound]
      exact .introduced hnew (not_sameName_of_inherited?_eq_none hascii htarget hfound)
    | some pair =>
      obtain ⟨ancestor, base⟩ := pair
      rw [checkMember_of_inherited? hfound]
      exact .compared hnew (inherits_of_inherited? hascii htarget hfound)
        (compared_checkOverride ancestor target base)

end Ascii

/-! ## Duplicates -/

/-- The number of the problem that a name is taken. -/
abbrev duplicateCode (target : Member) : Nat := (Problem.duplicateIdentifier target.name.text).code

/-- To compare a member with another one finds problems at the name of the member, of numbers above
that of duplicates. -/
theorem Compared.exists_of_mem {ancestor : Declaration ClassDecl} {target base : Member}
    {findings : List Finding}
    (h : hierarchy.Compared registry decl ancestor target base findings) {finding : Finding}
    (hmem : finding ∈ findings) :
    ∃ problem : Problem, duplicateCode target < problem.code ∧
      finding = .of problem decl.file target.name.range := by
  cases h with
  | methodForField => exact ⟨_, by simp [Problem.code], List.mem_singleton.mp hmem⟩
  | fieldForMethod => exact ⟨_, by simp [Problem.code], List.mem_singleton.mp hmem⟩
  | fieldFits => cases hmem
  | fieldDiffers => exact ⟨_, by simp [Problem.code], List.mem_singleton.mp hmem⟩
  | methods =>
    rcases List.mem_append.mp hmem with hmem | hmem <;> split at hmem
    · exact ⟨_, by simp [Problem.code], List.mem_singleton.mp hmem⟩
    · cases hmem
    · exact ⟨_, by simp [Problem.code], List.mem_singleton.mp hmem⟩
    · cases hmem

/-- What is found for a member is located at its name. -/
theorem exists_of_mem_memberFindings {earlier : List Member} {target : Member} {finding : Finding}
    (hmem : finding ∈ hierarchy.memberFindings registry key decl earlier target) :
    ∃ problem : Problem, finding = .of problem decl.file target.name.range := by
  unfold memberFindings at hmem
  split at hmem
  · exact ⟨_, List.mem_singleton.mp hmem⟩
  · cases hfound : hierarchy.inherited? key target.name.text with
    | none =>
      rw [checkMember_of_inherited?_eq_none hfound] at hmem
      cases hmem
    | some pair =>
      obtain ⟨ancestor, base⟩ := pair
      rw [checkMember_of_inherited? hfound] at hmem
      obtain ⟨problem, -, hfinding⟩ := (compared_checkOverride _ _ _).exists_of_mem hmem
      exact ⟨problem, hfinding⟩

/-- A duplicate is reported exactly where the name is taken. -/
theorem Judged.exists_duplicate_iff {earlier : List Member} {target : Member}
    {findings : List Finding} (h : hierarchy.Judged registry key decl earlier target findings) :
    (∃ finding ∈ findings, finding.diagnostic.code = duplicateCode target) ↔
      ∃ other ∈ earlier, other.SameName target := by
  cases h with
  | duplicate hmem hsame => exact ⟨fun _ => ⟨_, hmem, hsame⟩, fun _ => ⟨_, List.mem_cons_self, rfl⟩⟩
  | compared hnew hinherits hcompared =>
    constructor
    · rintro ⟨finding, hmem, hcode⟩
      obtain ⟨problem, habove, rfl⟩ := hcompared.exists_of_mem hmem
      exact absurd hcode habove.ne'
    · rintro ⟨other, hmem, hsame⟩
      exact absurd hsame (hnew other hmem)
  | introduced hnew hnone =>
    constructor
    · rintro ⟨finding, hmem, -⟩
      cases hmem
    · rintro ⟨other, hmem, hsame⟩
      exact absurd hsame (hnew other hmem)

/-! ## The members of every class -/

/-- The keys of all ancestors of a class, nearest first and none of them twice. -/
structure ListsAncestors (hierarchy : Hierarchy) (key : String) (keys : List String) : Prop where
  nodup : (key :: keys).Nodup
  chain : (key :: keys).IsChain hierarchy.Extends
  mem_iff : ∀ other, other ∈ keys ↔ other ≠ key ∧ Relation.TransGen hierarchy.Extends key other
  declared : List.Forall₂ hierarchy.Declares keys (hierarchy.ancestors key)

/-- The classes above a class are all that can be reached by extending, nearest first, without the
class itself. -/
theorem listsAncestors_ancestorKeys (hlinks : hierarchy.LinksClasses) (key : String) :
    hierarchy.ListsAncestors key (hierarchy.ancestorKeys key) where
  nodup := hierarchy.nodup_cons_ancestorKeys key
  chain := hierarchy.isChain_cons_ancestorKeys key
  mem_iff _ := mem_ancestorKeys_iff hlinks
  declared := hierarchy.forall₂_ancestors key

/-- Whatever classes there are and however they are linked, the ancestors of a class are the other
classes that links lead to from it, nearest first. What is found for the members of the classes is
put together from what is found for each of them: that it is a duplicate exactly if a member before
it has its name, and else what comparing it with the nearest inherited member of its name should
find: that it is of another kind, or for a field that its type does not fit, or for a method that
the keyword is missing and that the access level differs. -/
theorem members_compared_with_nearest (hlinks : hierarchy.LinksClasses)
    (hascii : hierarchy.AsciiMembers) (registry : Registry) :
    (∀ key, ∃ keys, hierarchy.ListsAncestors key keys) ∧
      (hierarchy.checkMembers registry = hierarchy.classes.entries.flatMap fun entry =>
        (Member.turns [] entry.2.node.members).flatMap fun turn =>
          hierarchy.memberFindings registry entry.1 entry.2 turn.1 turn.2) ∧
      ∀ entry ∈ hierarchy.classes.entries, ∀ turn ∈ Member.turns [] entry.2.node.members,
        hierarchy.Judged registry entry.1 entry.2 turn.1 turn.2
            (hierarchy.memberFindings registry entry.1 entry.2 turn.1 turn.2) ∧
          ((∃ finding ∈ hierarchy.memberFindings registry entry.1 entry.2 turn.1 turn.2,
              finding.diagnostic.code = duplicateCode turn.2) ↔
            ∃ other ∈ turn.1, other.SameName turn.2) := by
  refine ⟨fun key => ⟨_, listsAncestors_ancestorKeys hlinks key⟩, checkMembers_eq, ?_⟩
  intro entry hentry turn hturn
  have hdecl : entry.2 ∈ hierarchy.classes.values := List.mem_map_of_mem hentry
  have hjudged : hierarchy.Judged registry entry.1 entry.2 turn.1 turn.2
      (hierarchy.memberFindings registry entry.1 entry.2 turn.1 turn.2) :=
    judged_memberFindings hascii (hascii entry.2 hdecl turn.2 (mem_of_mem_turns hturn)) turn.1
  exact ⟨hjudged, hjudged.exists_duplicate_iff⟩

/-! ## A circle of two classes -/

/-- A method without parameters. -/
def soundMethod (line : Nat) (name : String) : Member :=
  .method ⟨⟨name, .onLine line 9 name.utf8ByteSize⟩, none, false,
    ⟨.sub, [], none, [], .zero⟩, .zero⟩

/-- A field without a type. -/
def labelField (line : Nat) (name : String) : Member :=
  .field ⟨⟨name, .onLine line 2 name.utf8ByteSize⟩, none, none, none, .zero⟩

/-- A field with a type. -/
def sizeField (line : Nat) (name type : String) : Member :=
  .field ⟨⟨name, .onLine line 2 name.utf8ByteSize⟩, none,
    some ⟨type, .onLine line 20 type.utf8ByteSize⟩, none, .zero⟩

/-- A method of the class alone that says that it replaces another. -/
def hushMethod (line : Nat) (name : String) : Member :=
  .method ⟨⟨name, .onLine line 9 name.utf8ByteSize⟩, some .ownClass, true,
    ⟨.sub, [], none, [], .zero⟩, .zero⟩

/-- A class that declares a label twice, and that changes each of the members it inherits. -/
def loopChild : Declaration ClassDecl :=
  plainClass "source/loop.bs" 0 "Child"
    [labelField 1 "label", soundMethod 2 "ring", labelField 3 "Label", soundMethod 4 "volume",
      hushMethod 5 "mute", sizeField 6 "pitch" "string"]

/-- A class that declares a method twice. -/
def loopParent : Declaration ClassDecl :=
  plainClass "source/loop.bs" 10 "Parent"
    [labelField 11 "volume", soundMethod 12 "Ring", soundMethod 13 "ring", soundMethod 14 "mute",
      sizeField 15 "pitch" "integer"]

/-- Two classes that extend each other. -/
def loop : Hierarchy where
  classes := .ofList [("child", loopChild), ("parent", loopParent)]
  links := .ofList [("child", "parent"), ("parent", "child")]

/-- Both classes of the circle are there. -/
theorem linksClasses_loop : loop.LinksClasses := linksClasses_of_entries (by decide)

/-- All names in the example are ASCII. -/
theorem asciiMembers_loop : loop.AsciiMembers := by
  have hchild : ∀ target ∈ loopChild.node.members, Text.IsAscii target.name.text := by decide
  have hparent : ∀ target ∈ loopParent.node.members, Text.IsAscii target.name.text := by decide
  have hvalues : loop.classes.values = [loopChild, loopParent] := rfl
  intro decl hdecl
  rw [hvalues] at hdecl
  rcases List.mem_cons.mp hdecl with rfl | hlast
  · exact hchild
  · rw [List.mem_singleton.mp hlast]
    exact hparent

/-- The way up from the child ends where it leads back to the child. -/
theorem ancestors_loop : loop.ancestors "child" = [loopParent] := by
  have htrail : Trail.follow loop.links.get? loop.classes.keys ["child"] "child" =
      (["parent"], .again "child") := by
    apply Trail.follow_of_returns
    · exact .cons_cons rfl (.cons_cons rfl (.singleton _))
    all_goals decide
  rw [ancestors, Trail.after, htrail]
  rfl

/-- A registry without declarations. -/
abbrev noRegistry : Registry := .build ⟨.ofProgram [], []⟩ (.withNodes [])

/-- In a circle of two classes the members of one are judged as they should be. The method without
the keyword is compared with the first of the two that the other class has, one label is a
duplicate, and each of the other three differs in a way of its own from what is inherited. -/
theorem loop_members_compared :
    loop.LinksClasses ∧ loop.AsciiMembers ∧
      (∃ keys, loop.ListsAncestors "child" keys) ∧
      (∀ turn ∈ Member.turns [] loopChild.node.members,
        loop.Judged noRegistry "child" loopChild turn.1 turn.2
          (loop.memberFindings noRegistry "child" loopChild turn.1 turn.2)) ∧
      loop.Inherits "child" (soundMethod 2 "ring") loopParent (soundMethod 12 "Ring") ∧
      ((Member.turns [] loopChild.node.members).flatMap fun turn =>
        loop.memberFindings noRegistry "child" loopChild turn.1 turn.2) =
        [.of (.missingOverride "Parent") "source/loop.bs" (.onLine 2 9 4),
          .of (.duplicateIdentifier "Label") "source/loop.bs" (.onLine 3 2 5),
          .of (.memberKindDiffers "method" "field" "Parent") "source/loop.bs" (.onLine 4 9 6),
          .of (.accessDiffers "mute" "Child" "private" "Parent" "public") "source/loop.bs"
            (.onLine 5 9 4),
          .of (.fieldTypeDiffers "Child" "Parent" "pitch" "string" "integer") "source/loop.bs"
            (.onLine 6 2 5)] := by
  have hall := members_compared_with_nearest linksClasses_loop asciiMembers_loop noRegistry
  have hchild : ("child", loopChild) ∈ loop.classes.entries := Keyed.get?_eq_some_iff.mp rfl
  have hring : loop.inherited? "child" (soundMethod 2 "ring").name.text =
      some (loopParent, soundMethod 12 "Ring") := by
    rw [inherited?, ancestors_loop]
    rfl
  refine ⟨linksClasses_loop, asciiMembers_loop, hall.1 "child",
    fun turn hturn => (hall.2.2 _ hchild turn hturn).1,
    inherits_of_inherited? asciiMembers_loop (by decide) hring, ?_⟩
  simp only [memberFindings, checkMember, inherited?, ancestors_loop]
  decide +kernel

end Hierarchy

end ScopeCheck
