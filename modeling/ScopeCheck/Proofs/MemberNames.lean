import ScopeCheck.Proofs.FoldedText
import ScopeCheck.Proofs.InheritedMembers

/-!
# Two notions of one name

Two members of a class have one name if the lower cases of their names agree, and the second is then
a duplicate. An inherited member is looked for by the letters A to Z alone. The second notion is
narrower (`Text.lower_eq_of_sameIgnoringAsciiCase`), so a member may pass by an inherited one that
could not stand beside it in one class: it is compared with the nearest inherited member of its name
exactly if the two names differ in the case of the letters A to Z at most
(`Hierarchy.namesake_compared_iff`). Names that differ in the case of another letter are not
compared at all (`Hierarchy.accented_namesake_not_compared`).
-/

namespace ScopeCheck

/-- Texts that differ in the case of the letters A to Z at most have one lower case. -/
theorem Text.lower_eq_of_sameIgnoringAsciiCase {left right : String}
    (h : sameIgnoringAsciiCase left right = true) : lower left = lower right := by
  rw [← lower_asciiLower left, ← lower_asciiLower right, eq_of_beq h]

namespace Hierarchy

variable {hierarchy : Hierarchy} {key : String} {target base : Member}
  {ancestor : Declaration ClassDecl}

/-- The inherited member that is found has the name that is looked for. -/
theorem sameIgnoringAsciiCase_of_inherited? {name : String}
    (hfound : hierarchy.inherited? key name = some (ancestor, base)) :
    Text.sameIgnoringAsciiCase base.name.text name = true := by
  obtain ⟨_, -, hbase⟩ := List.exists_of_findSome?_eq_some hfound
  obtain ⟨inner, hfirst, heq⟩ := Option.map_eq_some_iff.mp hbase
  cases heq
  exact List.find?_some (p := fun inner : Member =>
    Text.sameIgnoringAsciiCase inner.name.text name) hfirst

/-- Members of another name are passed by. -/
theorem find?_eq_none_of_not_sameName {members : List Member}
    (hnone : ∀ inner ∈ members, ¬ inner.SameName target) :
    members.find? (fun inner =>
      Text.sameIgnoringAsciiCase inner.name.text target.name.text) = none :=
  List.find?_eq_none.mpr fun inner hinner hsame =>
    hnone inner hinner (Text.lower_eq_of_sameIgnoringAsciiCase hsame)

/-- The nearest inherited member of the name is found if the letters A to Z are all that differs. -/
theorem Inherits.inherited?_eq (h : hierarchy.Inherits key target ancestor base)
    (hsame : Text.sameIgnoringAsciiCase base.name.text target.name.text = true) :
    hierarchy.inherited? key target.name.text = some (ancestor, base) := by
  obtain ⟨nearer, further, hancestors, hnearer⟩ := h.nearest
  obtain ⟨before, after, hmembers, hbefore⟩ := h.first
  refine List.findSome?_eq_some_iff.mpr ⟨nearer, ancestor, further, hancestors, ?_, ?_⟩
  · have hfirst : ancestor.node.members.find? (fun inner =>
        Text.sameIgnoringAsciiCase inner.name.text target.name.text) = some base := by
      rw [hmembers, List.find?_append, find?_eq_none_of_not_sameName hbefore, Option.none_or,
        List.find?_cons, hsame]
    rw [hfirst]
    rfl
  · intro other hother
    rw [find?_eq_none_of_not_sameName (hnearer other hother)]
    rfl

/-- A new member is compared with nothing if no inherited one has its name up to the case of the
letters A to Z. -/
theorem memberFindings_of_passed {registry : Registry} {decl : Declaration ClassDecl}
    {earlier : List Member} (hnew : ∀ other ∈ earlier, ¬ other.SameName target)
    (hnone : ∀ other ∈ hierarchy.ancestors key, ∀ inner ∈ other.node.members,
      Text.sameIgnoringAsciiCase inner.name.text target.name.text = false) :
    hierarchy.memberFindings registry key decl earlier target = [] := by
  have hpassed : hierarchy.inherited? key target.name.text = none := by
    refine List.findSome?_eq_none_iff.mpr fun other hother => Option.map_eq_none_iff.mpr ?_
    exact List.find?_eq_none.mpr fun inner hinner => by simp [hnone other hother inner hinner]
  rw [memberFindings_of_new hnew, checkMember_of_inherited?_eq_none hpassed]

/-- A member that is no duplicate would be one beside the nearest inherited member of its name. It
is compared with that member exactly if the two names differ in the case of the letters A to Z at
most, and with nothing if no inherited member is such. -/
theorem namesake_compared_iff (registry : Registry) (decl : Declaration ClassDecl)
    {earlier : List Member} (hnew : ∀ other ∈ earlier, ¬ other.SameName target)
    (hinherits : hierarchy.Inherits key target ancestor base) :
    hierarchy.memberFindings registry key decl [base] target =
        [.of (.duplicateIdentifier target.name.text) decl.file target.name.range] ∧
      (hierarchy.inherited? key target.name.text = some (ancestor, base) ↔
        Text.sameIgnoringAsciiCase base.name.text target.name.text = true) ∧
      (Text.sameIgnoringAsciiCase base.name.text target.name.text = true →
        hierarchy.memberFindings registry key decl earlier target =
          hierarchy.checkOverride registry decl ancestor target base) ∧
      ((∀ other ∈ hierarchy.ancestors key, ∀ inner ∈ other.node.members,
          Text.sameIgnoringAsciiCase inner.name.text target.name.text = false) →
        hierarchy.memberFindings registry key decl earlier target = []) := by
  refine ⟨?_, ⟨sameIgnoringAsciiCase_of_inherited?, hinherits.inherited?_eq⟩, fun hsame => ?_,
    memberFindings_of_passed hnew⟩
  · rw [memberFindings, if_pos ⟨base, List.mem_singleton_self base, hinherits.same⟩]
  · rw [memberFindings_of_new hnew, checkMember_of_inherited? (hinherits.inherited?_eq hsame)]

/-! ## Letters with accents -/

/-- A class whose methods have names with an accented capital. -/
def choirParent : Declaration ClassDecl :=
  plainClass "source/choir.bs" 0 "Choir" [soundMethod 1 "ÉTUDE", soundMethod 2 "fÊTE"]

/-- A class that takes up both names, one of them with the capital and one without. -/
def choirChild : Declaration ClassDecl :=
  plainClass "source/choir.bs" 4 "Octet" [soundMethod 5 "Étude", soundMethod 6 "fête"]

/-- The second class extends the first. -/
def choir : Hierarchy where
  classes := .ofList [("choir", choirParent), ("octet", choirChild)]
  links := .ofList [("octet", "choir")]

/-- Above the octet is the choir. -/
theorem ancestors_choir : choir.ancestors "octet" = [choirParent] :=
  ancestors_of_only_parent rfl rfl rfl (by decide)

/-- Both methods of the second class have the name of a method that it inherits. -/
theorem inherits_choir :
    choir.Inherits "octet" (soundMethod 5 "Étude") choirParent (soundMethod 1 "ÉTUDE") ∧
      choir.Inherits "octet" (soundMethod 6 "fête") choirParent (soundMethod 2 "fÊTE") := by
  have hetude : (soundMethod 1 "ÉTUDE").SameName (soundMethod 5 "Étude") := by decide +kernel
  have hfete : (soundMethod 2 "fÊTE").SameName (soundMethod 6 "fête") := by decide +kernel
  have hother : ¬ (soundMethod 1 "ÉTUDE").SameName (soundMethod 6 "fête") := by decide +kernel
  refine ⟨⟨⟨[], [], ancestors_choir, by simp⟩, ⟨[], _, rfl, by simp⟩, hetude⟩,
    ⟨⟨[], [], ancestors_choir, by simp⟩, ⟨[soundMethod 1 "ÉTUDE"], [], rfl, ?_⟩, hfete⟩⟩
  intro inner hinner
  rw [List.mem_singleton.mp hinner]
  exact hother

/-- A name whose accented letter is the same is compared, and the missing keyword is reported. -/
theorem etude_compared :
    choir.Inherits "octet" (soundMethod 5 "Étude") choirParent (soundMethod 1 "ÉTUDE") ∧
      choir.memberFindings noRegistry "octet" choirChild [] (soundMethod 5 "Étude") =
        [.of (.missingOverride "Choir") "source/choir.bs" (soundMethod 5 "Étude").name.range] := by
  have hnew : ∀ other ∈ ([] : List Member), ¬ other.SameName (soundMethod 5 "Étude") := by simp
  have hsame : Text.sameIgnoringAsciiCase "ÉTUDE" "Étude" = true := by decide +kernel
  have hcompared := (namesake_compared_iff noRegistry choirChild hnew inherits_choir.1).2.2.1 hsame
  have hmissing : choir.checkOverride noRegistry choirChild choirParent (soundMethod 5 "Étude")
      (soundMethod 1 "ÉTUDE") =
      [.of (.missingOverride "Choir") "source/choir.bs" (soundMethod 5 "Étude").name.range] := by
    decide +kernel
  exact ⟨inherits_choir.1, hcompared.trans hmissing⟩

/-- A name whose accented letter differs in case is that of the nearest inherited method and no
duplicate in its class, but nothing is found, where comparing the two finds a missing keyword. -/
theorem accented_namesake_not_compared :
    choir.Inherits "octet" (soundMethod 6 "fête") choirParent (soundMethod 2 "fÊTE") ∧
      ¬ (soundMethod 5 "Étude").SameName (soundMethod 6 "fête") ∧
      choir.memberFindings noRegistry "octet" choirChild [soundMethod 5 "Étude"]
        (soundMethod 6 "fête") = [] ∧
      choir.checkOverride noRegistry choirChild choirParent (soundMethod 6 "fête")
          (soundMethod 2 "fÊTE") =
        [.of (.missingOverride "Choir") "source/choir.bs" (soundMethod 6 "fête").name.range] := by
  have hother : ¬ (soundMethod 5 "Étude").SameName (soundMethod 6 "fête") := by decide +kernel
  refine ⟨inherits_choir.2, hother, memberFindings_of_passed ?_ ?_, by decide +kernel⟩
  · intro inner hinner
    rw [List.mem_singleton.mp hinner]
    exact hother
  · rw [ancestors_choir]
    intro other hmem
    rw [List.mem_singleton.mp hmem]
    decide +kernel

end Hierarchy

end ScopeCheck
