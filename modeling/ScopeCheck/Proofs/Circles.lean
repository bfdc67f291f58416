import Mathlib.Data.List.Rotate
import ScopeCheck.Proofs.Hierarchy
import ScopeCheck.Proofs.RegistryMaps
import ScopeCheck.Proofs.TextOrder

/-!
# Circles of classes

Every class is a start from which the way up is followed, so a circle of classes is met from each of
its members and from every class that leads into it. All these ways give the same list of keys once
it is turned to start at the smallest: what is found is a turned circle (`exists_of_circleFrom`),
every circle is found from each of its keys (`circleFrom_of_isCircle`), and two turns of one circle
that start at the smallest key are equal (`IsCircle.eq_of_isRotated`). So every circle is reported
once (`checkCircles_one_per_circle`), and a class is named in a report exactly if links lead from it
back to itself.
-/

namespace ScopeCheck

/-- A list of texts starts at the smallest of them. -/
def StartsSmallest (texts : List String) : Prop :=
  ∀ first ∈ texts.head?, ∀ text ∈ texts, first ≤ text

namespace Hierarchy

/-- Classes each of which extends the next, and the last of them the first. -/
def IsCircle (hierarchy : Hierarchy) : List String → Prop
  | [] => False
  | first :: rest =>
    (first :: rest).Nodup ∧ (first :: (rest ++ [first])).IsChain hierarchy.Extends

/-- A finding reports a circle: it is located at the class of the first key, and it names the
classes in the order of the circle and the first of them once more. -/
def Reports (hierarchy : Hierarchy) (circle : List String) (finding : Finding) : Prop :=
  ∃ anchor others, List.Forall₂ hierarchy.Declares circle (anchor :: others) ∧
    finding = .of (.circularReference
      (" -> ".intercalate ((anchor :: others ++ [anchor]).map Declaration.fullName)))
      anchor.file anchor.name.range

/-! ## Turning a circle -/

/-- The smaller of two texts is the minimum of the library. -/
theorem smallerText_eq (left right : String) : smallerText left right = min left right := by
  rw [smallerText, min_def]
  exact if_congr textAtOrBefore_iff rfl rfl

/-- The smallest of some texts is one of them and comes before all. -/
theorem foldl_smallerText (first : String) (rest : List String) :
    rest.foldl smallerText first ∈ first :: rest ∧
      ∀ text ∈ first :: rest, rest.foldl smallerText first ≤ text := by
  induction rest generalizing first with
  | nil => exact ⟨List.mem_cons_self, fun text htext => (List.mem_singleton.mp htext).ge⟩
  | cons second rest ih =>
    obtain ⟨hmem, hle⟩ := ih (smallerText first second)
    rw [List.foldl_cons]
    have hsmaller : smallerText first second ≤ first ∧ smallerText first second ≤ second := by
      rw [smallerText_eq]
      exact ⟨min_le_left first second, min_le_right first second⟩
    constructor
    · rcases List.mem_cons.mp hmem with heq | hrest
      · rw [heq, smallerText_eq]
        rcases min_choice first second with h | h <;> rw [h] <;> simp
      · exact List.mem_cons_of_mem first (List.mem_cons_of_mem second hrest)
    · intro text htext
      have hstart := hle _ List.mem_cons_self
      rcases List.mem_cons.mp htext with rfl | hlater
      · exact hstart.trans hsmaller.1
      · rcases List.mem_cons.mp hlater with rfl | hrest
        · exact hstart.trans hsmaller.2
        · exact hle text (List.mem_cons_of_mem _ hrest)

/-- What stands before the first occurrence of a member is dropped. -/
theorem dropWhile_ne_of_mem {list : List String} {text : String} (hmem : text ∈ list) :
    ∃ rest, list.dropWhile (· ≠ text) = text :: rest := by
  induction list with
  | nil => cases hmem
  | cons first others ih =>
    by_cases heq : first = text
    · exact ⟨others, by rw [List.dropWhile_cons_of_neg (by simpa using heq), heq]⟩
    · rw [List.dropWhile_cons_of_pos (by simpa using heq)]
      exact ih ((List.mem_cons.mp hmem).resolve_left (Ne.symm heq))

/-- A circle is cut in two, and its parts change places. -/
theorem turnToSmallest_cases {circle : List String} (hne : circle ≠ []) :
    ∃ left right, circle = left ++ right ∧ turnToSmallest circle = right ++ left ∧
      right ≠ [] ∧ StartsSmallest (right ++ left) := by
  cases circle with
  | nil => exact absurd rfl hne
  | cons first rest =>
    obtain ⟨hmem, hle⟩ := foldl_smallerText first rest
    obtain ⟨later, hdrop⟩ := dropWhile_ne_of_mem hmem
    have hwhole := List.takeWhile_append_dropWhile
      (p := fun text => decide (text ≠ rest.foldl smallerText first)) (l := first :: rest)
    refine ⟨_, _, hwhole.symm, rfl, by rw [hdrop]; exact List.cons_ne_nil _ _, ?_⟩
    intro head hhead text htext
    rw [hdrop, List.cons_append, List.head?_cons, Option.mem_some_iff] at hhead
    rw [← hhead]
    refine hle text ?_
    rw [← hwhole]
    exact (List.perm_append_comm.mem_iff).mp htext

variable {hierarchy : Hierarchy}

/-- A turned circle is a circle. -/
theorem IsCircle.turn {left right : List String} (h : hierarchy.IsCircle (left ++ right)) :
    hierarchy.IsCircle (right ++ left) := by
  cases left with
  | nil => simpa using h
  | cons first before =>
    cases right with
    | nil => simpa using h
    | cons second after =>
      obtain ⟨hnodup, hchain⟩ := h
      have hperm : (first :: before ++ second :: after).Perm (second :: after ++ first :: before) :=
        List.perm_append_comm
      refine ⟨hperm.nodup_iff.mp hnodup, ?_⟩
      have hsplit : (first :: before ++ second :: (after ++ [first])).IsChain
          hierarchy.Extends := by
        simpa using hchain
      obtain ⟨hbefore, hafter⟩ := List.isChain_split.mp hsplit
      -- The two halves are joined at the key that used to be the first.
      have hjoined : (second :: after ++ first :: (before ++ [second])).IsChain
          hierarchy.Extends :=
        List.isChain_split.mpr ⟨hafter, hbefore⟩
      simpa using hjoined

/-- A circle has a class. -/
theorem IsCircle.ne_nil {circle : List String} (h : hierarchy.IsCircle circle) : circle ≠ [] := by
  rintro rfl
  exact h

/-- Turned to its smallest key, a circle is the same circle and starts there. -/
theorem IsCircle.turnToSmallest {circle : List String} (h : hierarchy.IsCircle circle) :
    hierarchy.IsCircle (turnToSmallest circle) ∧ StartsSmallest (turnToSmallest circle) ∧
      (Hierarchy.turnToSmallest circle).IsRotated circle := by
  obtain ⟨left, right, rfl, hturned, -, hstarts⟩ := turnToSmallest_cases h.ne_nil
  rw [hturned]
  exact ⟨h.turn, hstarts, List.isRotated_append⟩

/-! ## Circles and the way up -/

/-- Links lead from every class of a circle back to it. -/
theorem IsCircle.transGen {circle : List String} (h : hierarchy.IsCircle circle) {key : String}
    (hkey : key ∈ circle) : Relation.TransGen hierarchy.Extends key key := by
  obtain ⟨left, right, rfl⟩ := List.append_of_mem hkey
  obtain ⟨-, hchain⟩ := h.turn
  refine (hchain.imp fun _ _ hlink => Relation.TransGen.single hlink).rel_cons ?_
  exact List.mem_append_right _ (List.mem_singleton_self key)

/-- All classes of a circle are there, as each is linked to. -/
theorem IsCircle.mem_keys (hlinks : hierarchy.LinksClasses) {circle : List String}
    (h : hierarchy.IsCircle circle) {key : String} (hkey : key ∈ circle) :
    key ∈ hierarchy.classes.keys := by
  obtain ⟨parent, hlink, -⟩ := Relation.TransGen.head'_iff.mp (h.transGen hkey)
  exact (hlinks key parent hlink).1

/-- From a class of a circle the way up is the circle. -/
theorem follow_of_isCircle (hlinks : hierarchy.LinksClasses) {first : String} {rest : List String}
    (h : hierarchy.IsCircle (first :: rest)) :
    Trail.follow hierarchy.links.get? hierarchy.classes.keys [first] first =
      (rest, .again first) := by
  obtain ⟨hfirst, hrest⟩ := List.nodup_cons.mp h.1
  refine Trail.follow_of_returns h.2 ?_ hrest ?_ (Or.inl (List.mem_singleton_self first))
  · exact fun key hkey => h.mem_keys hlinks (List.mem_cons_of_mem first hkey)
  · intro key hkey hmet
    exact hfirst (List.mem_singleton.mp hmet ▸ hkey)

/-- Two circles with one start are equal. -/
theorem IsCircle.eq_of_head (hlinks : hierarchy.LinksClasses) {first : String}
    {rest others : List String} (hleft : hierarchy.IsCircle (first :: rest))
    (hright : hierarchy.IsCircle (first :: others)) : rest = others := by
  have hsame := (follow_of_isCircle hlinks hleft).symm.trans (follow_of_isCircle hlinks hright)
  exact congrArg Prod.fst hsame

/-- Where the way up from a class meets a class again, it has run into a circle. -/
theorem isCircle_of_again {start target : String}
    (hend : Trail.ending hierarchy.links.get? hierarchy.classes.keys start = .again target) :
    hierarchy.IsCircle ((start :: hierarchy.ancestorKeys start).dropWhile (· ≠ target)) := by
  have hwalk := Trail.walk_follow hierarchy.links.get? hierarchy.classes.keys [start] start
  have hmet : target ∈ start :: hierarchy.ancestorKeys start := by
    rcases hwalk.again target hend with hstart | hpassed
    · exact List.mem_singleton.mp hstart ▸ List.mem_cons_self
    · exact List.mem_cons_of_mem start hpassed
  obtain ⟨rest, hdrop⟩ := dropWhile_ne_of_mem hmet
  have hsuffix : target :: rest <:+ start :: hierarchy.ancestorKeys start :=
    hdrop ▸ List.dropWhile_suffix _
  -- The last class passed is linked to the class that is met again.
  have hlast : hierarchy.Extends ((target :: rest).getLast (List.cons_ne_nil _ _)) target := by
    rw [hsuffix.getLast (List.cons_ne_nil _ _)]
    exact hwalk.last.trans (congrArg TrailEnd.target? hend)
  rw [hdrop]
  refine ⟨(hierarchy.nodup_cons_ancestorKeys start).sublist hsuffix.sublist, ?_⟩
  rw [← List.cons_append]
  refine List.IsChain.append ((hierarchy.isChain_cons_ancestorKeys start).suffix hsuffix)
    (.singleton target) ?_
  intro last hmem next hnext
  rw [List.getLast?_eq_some_getLast (List.cons_ne_nil target rest), Option.mem_some_iff] at hmem
  rw [List.head?_cons, Option.mem_some_iff] at hnext
  rw [← hmem, ← hnext]
  exact hlast

/-- What is found from a class is a circle, turned to its smallest key. -/
theorem exists_of_circleFrom {start : String} {circle : List String}
    (hcircle : hierarchy.circleFrom start = some circle) :
    ∃ entered, hierarchy.IsCircle entered ∧ circle = Hierarchy.turnToSmallest entered := by
  unfold circleFrom at hcircle
  simp only at hcircle
  split at hcircle
  · rename_i target hend
    exact ⟨_, isCircle_of_again hend, (Option.some.inj hcircle).symm⟩
  · cases hcircle
  · cases hcircle

/-- From a class on a circle the way up goes once around it and comes back. -/
theorem circleFrom_of_isCircle (hlinks : hierarchy.LinksClasses) {first : String}
    {rest : List String} (h : hierarchy.IsCircle (first :: rest)) :
    hierarchy.circleFrom first = some (Hierarchy.turnToSmallest (first :: rest)) := by
  unfold circleFrom
  simp only [follow_of_isCircle hlinks h]
  rw [List.dropWhile_cons_of_neg (by simp)]

/-! ## All circles -/

/-- Of the turns of a circle, one starts at the smallest key. -/
theorem IsCircle.eq_of_isRotated (hlinks : hierarchy.LinksClasses) {left right : List String}
    (hleft : hierarchy.IsCircle left) (hright : hierarchy.IsCircle right)
    (hstarts : StartsSmallest left) (hstarts' : StartsSmallest right)
    (hturn : left.IsRotated right) : left = right := by
  cases left with
  | nil => exact absurd rfl hleft.ne_nil
  | cons first rest =>
    cases right with
    | nil => exact absurd rfl hright.ne_nil
    | cons second others =>
      obtain rfl : first = second := by
        apply le_antisymm
        · exact hstarts first rfl second (hturn.mem_iff.mpr List.mem_cons_self)
        · exact hstarts' second rfl first (hturn.mem_iff.mp List.mem_cons_self)
      rw [hleft.eq_of_head hlinks hright]

/-- The circles of a hierarchy are its circles that start at their smallest keys. -/
theorem mem_circles_iff (hlinks : hierarchy.LinksClasses) {circle : List String} :
    circle ∈ hierarchy.circles ↔ hierarchy.IsCircle circle ∧ StartsSmallest circle := by
  rw [circles, List.mem_eraseDups, List.mem_filterMap]
  constructor
  · rintro ⟨start, -, hcircle⟩
    obtain ⟨entered, hentered, rfl⟩ := exists_of_circleFrom hcircle
    exact ⟨hentered.turnToSmallest.1, hentered.turnToSmallest.2.1⟩
  · rintro ⟨hcircle, hstarts⟩
    cases circle with
    | nil => exact absurd rfl hcircle.ne_nil
    | cons first rest =>
      obtain ⟨hturned, hstarts', hturn⟩ := hcircle.turnToSmallest
      refine ⟨first, hcircle.mem_keys hlinks List.mem_cons_self, ?_⟩
      rw [circleFrom_of_isCircle hlinks hcircle,
        hturned.eq_of_isRotated hlinks hcircle hstarts' hstarts hturn]

/-- Every circle is among the circles of the hierarchy in one of its turns. -/
theorem existsUnique_turn (hlinks : hierarchy.LinksClasses) {circle : List String}
    (h : hierarchy.IsCircle circle) :
    ∃! turned, turned ∈ hierarchy.circles ∧ turned.IsRotated circle := by
  obtain ⟨hturned, hstarts, hturn⟩ := h.turnToSmallest
  refine ⟨_, ⟨(mem_circles_iff hlinks).mpr ⟨hturned, hstarts⟩, hturn⟩, ?_⟩
  rintro other ⟨hother, hturn'⟩
  obtain ⟨hcircle, hstarts'⟩ := (mem_circles_iff hlinks).mp hother
  exact hcircle.eq_of_isRotated hlinks hturned hstarts' hstarts (hturn'.trans hturn.symm)

/-- The classes on circles are those from which links lead back to them. -/
theorem exists_circle_iff (hlinks : hierarchy.LinksClasses) {key : String} :
    (∃ circle ∈ hierarchy.circles, key ∈ circle) ↔ Relation.TransGen hierarchy.Extends key key := by
  constructor
  · rintro ⟨circle, hcircle, hkey⟩
    exact ((mem_circles_iff hlinks).mp hcircle).1.transGen hkey
  · intro hreturns
    have hend := Trail.ending_of_returns
      (fun child parent hlink => (hlinks child parent hlink).2) hreturns
    obtain ⟨turned, ⟨hturned, hturn⟩, -⟩ := existsUnique_turn hlinks (isCircle_of_again hend)
    refine ⟨turned, hturned, hturn.mem_iff.mpr ?_⟩
    rw [List.dropWhile_cons_of_neg (by simp)]
    exact List.mem_cons_self

/-- Every circle can be reported, at its first class and with its whole path. -/
theorem exists_report (hlinks : hierarchy.LinksClasses) {circle : List String}
    (h : hierarchy.IsCircle circle) :
    ∃ finding, hierarchy.reportCircle circle = some finding ∧ hierarchy.Reports circle finding := by
  have hdecls := hierarchy.forall₂_declares fun key hkey => h.mem_keys hlinks hkey
  unfold reportCircle
  cases hfound : circle.filterMap hierarchy.classes.get? with
  | nil =>
    rw [hfound] at hdecls
    cases hdecls
    exact absurd rfl h.ne_nil
  | cons anchor others => exact ⟨_, rfl, anchor, others, hfound ▸ hdecls, rfl⟩

/-- Every circle of classes is reported once, at the class of its smallest key, and nothing else is.
A report names the classes of the circle in the order of their links. The classes that are named are
those that links lead back to: a class that only leads into a circle is not among them. -/
theorem checkCircles_one_per_circle {hierarchy : Hierarchy} (hlinks : hierarchy.LinksClasses) :
    ∃ circles : List (List String),
      (∀ circle ∈ circles, hierarchy.IsCircle circle ∧ StartsSmallest circle) ∧
      (∀ circle, hierarchy.IsCircle circle →
        ∃! turned, turned ∈ circles ∧ turned.IsRotated circle) ∧
      circles.Nodup ∧
      (∀ key, (∃ circle ∈ circles, key ∈ circle) ↔
        Relation.TransGen hierarchy.Extends key key) ∧
      List.Forall₂ hierarchy.Reports circles hierarchy.checkCircles := by
  have hnodup : hierarchy.circles.Nodup := by
    unfold circles
    exact nodup_eraseDups _
  refine ⟨hierarchy.circles, fun circle => (mem_circles_iff hlinks).mp,
    fun circle => existsUnique_turn hlinks, hnodup, fun key => exists_circle_iff hlinks,
    forall₂_filterMap fun circle hcircle => ?_⟩
  exact exists_report hlinks ((mem_circles_iff hlinks).mp hcircle).1

/-- A class that extends itself, two that extend each other, one that leads into this circle and one
that extends nothing. -/
def pets : Hierarchy where
  classes := .ofList
    [("ant", plainClass "source/pets.bs" 0 "Ant" []),
      ("bee", plainClass "source/pets.bs" 1 "Bee" []),
      ("cat", plainClass "source/pets.bs" 2 "Cat" []),
      ("dog", plainClass "source/pets.bs" 3 "Dog" []),
      ("owl", plainClass "source/pets.bs" 4 "Owl" [])]
  links := .ofList [("ant", "ant"), ("cat", "dog"), ("dog", "cat"), ("owl", "dog")]

/-- All classes of the example are there. -/
theorem linksClasses_pets : pets.LinksClasses := linksClasses_of_entries (by decide)

/-- The circles of the pets are reported once each. -/
theorem pets_circles_reported :
    pets.LinksClasses ∧ pets.IsCircle ["dog", "cat"] ∧ pets.IsCircle ["ant"] ∧
      ∃ circles : List (List String),
        (∀ circle ∈ circles, pets.IsCircle circle ∧ StartsSmallest circle) ∧
        (∀ circle, pets.IsCircle circle →
          ∃! turned, turned ∈ circles ∧ turned.IsRotated circle) ∧
        circles.Nodup ∧
        (∀ key, (∃ circle ∈ circles, key ∈ circle) ↔ Relation.TransGen pets.Extends key key) ∧
        List.Forall₂ pets.Reports circles pets.checkCircles := by
  refine ⟨linksClasses_pets, ⟨by decide, ?_⟩, ⟨by decide, ?_⟩,
    checkCircles_one_per_circle linksClasses_pets⟩
  · exact .cons_cons rfl (.cons_cons rfl (.singleton _))
  · exact .cons_cons rfl (.singleton _)

end Hierarchy

end ScopeCheck
