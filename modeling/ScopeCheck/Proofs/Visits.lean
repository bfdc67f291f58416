import ScopeCheck.Proofs.Keyed
import ScopeCheck.Script.Visit

/-!
# The places of a script

Every node that is visited stands directly in the file or is a child of a node that is visited
(`Script.visits_cases`), so whatever holds of the statements of the file and passes from a node to
its children holds of every visit (`Script.visits_induction`). The nodes above a visit are visits
themselves, with ever shorter paths, and a path leads to one visit only (`Script.eq_of_path_eq`).
-/

namespace ScopeCheck

/-- The visits of some nodes, each of which stands under those that follow it. -/
def visitsUp : List Place → List Visit
  | [] => []
  | place :: outer => ⟨place, outer⟩ :: visitsUp outer

namespace Visit

/-- The visits of the nodes above a node, nearest first. -/
def enclosing (visit : Visit) : List Visit := visitsUp visit.above

/-- The visit of a child. -/
def child (visit : Visit) (index : Nat) (node : Node) : Visit :=
  ⟨⟨node, index :: visit.path⟩, visit.toPlace :: visit.above⟩

/-- Around a child are its parent and what is around that. -/
theorem enclosing_child (visit : Visit) (index : Nat) (node : Node) :
    (visit.child index node).enclosing = visit :: visit.enclosing := rfl

/-- The nodes around a node are those that the walk came through. -/
theorem map_toPlace_enclosing (visit : Visit) :
    visit.enclosing.map Visit.toPlace = visit.above := by
  have hup : ∀ above : List Place, (visitsUp above).map Visit.toPlace = above := by
    intro above
    induction above with
    | nil => rfl
    | cons place outer ih => rw [visitsUp, List.map_cons, ih]
  exact hup visit.above

end Visit

namespace Node

/-- The walk meets a node and then walks each child, with the node above it. -/
theorem visits_eq (above : List Place) (path : Path) (node : Node) :
    node.visits above path = ⟨⟨node, path⟩, above⟩ ::
      node.children.zipIdx.flatMap fun entry =>
        entry.1.visits (⟨node, path⟩ :: above) (entry.2 :: path) := by
  have hattach : node.children.zipIdx =
      node.children.attach.zipIdx.map (Prod.map Subtype.val id) := by
    rw [← List.zipIdx_map, List.attach_map_subtype_val]
  rw [visits, hattach, List.flatMap_map]
  rfl

/-- A visit below a node is that of the node, or that of a child of a visit below the node. -/
theorem visits_cases {above : List Place} {path : Path} {node : Node} {visit : Visit}
    (hmem : visit ∈ node.visits above path) :
    visit = ⟨⟨node, path⟩, above⟩ ∨
      ∃ parent ∈ node.visits above path, ∃ index child,
        parent.node.children[index]? = some child ∧ visit = parent.child index child := by
  rw [visits_eq] at hmem
  rcases List.mem_cons.mp hmem with rfl | hbelow
  · exact Or.inl rfl
  · obtain ⟨⟨child, index⟩, hentry, hvisit⟩ := List.mem_flatMap.mp hbelow
    have hchild : node.children[index]? = some child := List.mem_zipIdx_iff_getElem?.mp hentry
    right
    rcases visits_cases hvisit with rfl | ⟨parent, hparent, hrest⟩
    · refine ⟨⟨⟨node, path⟩, above⟩, ?_, index, child, hchild, rfl⟩
      rw [visits_eq]
      exact List.mem_cons_self
    · refine ⟨parent, ?_, hrest⟩
      rw [visits_eq]
      exact List.mem_cons_of_mem _ (List.mem_flatMap.mpr ⟨_, hentry, hparent⟩)
termination_by sizeOf node
decreasing_by exact sizeOf_child_lt (List.mem_of_getElem? hchild)

/-! ## Visits of a bounded depth -/

/-- Whether a tree has so many levels at most. -/
def within : Nat → Node → Bool
  | 0, _ => false
  | depth + 1, node => node.children.all (within depth)

/-- The visits of so many levels of a tree. -/
def visitsTo : Nat → List Place → Path → Node → List Visit
  | 0, _, _, _ => []
  | depth + 1, above, path, node =>
    ⟨⟨node, path⟩, above⟩ :: node.children.zipIdx.flatMap fun entry =>
      entry.1.visitsTo depth (⟨node, path⟩ :: above) (entry.2 :: path)

/-- A walk with a bound on its depth meets the same if the tree is no deeper. This one the kernel
can compute. -/
theorem visits_eq_visitsTo {depth : Nat} {node : Node} (hwithin : node.within depth = true)
    (above : List Place) (path : Path) :
    node.visits above path = node.visitsTo depth above path := by
  induction depth generalizing node above path with
  | zero => cases hwithin
  | succ depth ih =>
    rw [visits_eq, visitsTo]
    refine congrArg (_ :: ·) (List.flatMap_congr fun entry hentry => ?_)
    exact ih (List.all_eq_true.mp hwithin entry.1 (List.fst_mem_of_mem_zipIdx hentry)) _ _

end Node

namespace Script

variable {script : Script}

/-- The visits of a script of a bounded depth can be evaluated. -/
theorem visits_eq_visitsTo (depth : Nat)
    (hwithin : (script.body.all fun stmt => (Node.statement stmt).within depth) = true) :
    script.visits = script.body.zipIdx.flatMap fun entry =>
      (Node.statement entry.1).visitsTo depth [] [entry.2] := by
  refine List.flatMap_congr fun entry hentry => ?_
  exact Node.visits_eq_visitsTo
    (List.all_eq_true.mp hwithin entry.1 (List.fst_mem_of_mem_zipIdx hentry)) _ _

/-! ## What is visited -/

/-- A visit is that of a statement of the file or of a child of a visit. -/
theorem visits_cases {visit : Visit} (hmem : visit ∈ script.visits) :
    (∃ index stmt, script.body[index]? = some stmt ∧
      visit = ⟨⟨.statement stmt, [index]⟩, []⟩) ∨
      ∃ parent ∈ script.visits, ∃ index child,
        parent.node.children[index]? = some child ∧ visit = parent.child index child := by
  obtain ⟨⟨stmt, index⟩, hentry, hvisit⟩ := List.mem_flatMap.mp hmem
  rcases Node.visits_cases hvisit with rfl | ⟨parent, hparent, hrest⟩
  · exact Or.inl ⟨index, stmt, List.mem_zipIdx_iff_getElem?.mp hentry, rfl⟩
  · exact Or.inr ⟨parent, List.mem_flatMap.mpr ⟨_, hentry, hparent⟩, hrest⟩

/-- What holds of the statements of a file and passes on to children holds of all visits. -/
@[elab_as_elim]
theorem visits_induction {motive : ∀ visit, visit ∈ script.visits → Prop}
    (file : ∀ index stmt, script.body[index]? = some stmt →
      ∀ hmem, motive ⟨⟨.statement stmt, [index]⟩, []⟩ hmem)
    (below : ∀ parent hparent, motive parent hparent → ∀ index child,
      parent.node.children[index]? = some child → ∀ hmem, motive (parent.child index child) hmem)
    {visit : Visit} (hmem : visit ∈ script.visits) : motive visit hmem := by
  generalize hdepth : visit.above.length = depth
  induction depth generalizing visit with
  | zero =>
    rcases visits_cases hmem with ⟨index, stmt, hstmt, rfl⟩ | ⟨parent, -, index, child, -, rfl⟩
    · exact file index stmt hstmt hmem
    · cases hdepth
  | succ depth ih =>
    rcases visits_cases hmem with
      ⟨index, stmt, hstmt, rfl⟩ | ⟨parent, hparent, index, child, hchild, rfl⟩
    · exact file index stmt hstmt hmem
    · exact below parent hparent (ih hparent (Nat.succ.inj hdepth)) index child hchild hmem

/-- The empty path is that of the file and of no node. -/
theorem path_ne_nil {visit : Visit} (hmem : visit ∈ script.visits) : visit.path ≠ [] := by
  rcases visits_cases hmem with ⟨index, stmt, -, rfl⟩ | ⟨parent, -, index, child, -, rfl⟩ <;>
    exact List.cons_ne_nil _ _

/-- The nodes above a visit are visited. -/
theorem mem_visits_of_mem_enclosing {visit outer : Visit} (hmem : visit ∈ script.visits)
    (houter : outer ∈ visit.enclosing) : outer ∈ script.visits := by
  induction hmem using visits_induction with
  | file index stmt hstmt _ => cases houter
  | below parent hparent ih index child hchild _ =>
    rcases List.mem_cons.mp houter with rfl | hfurther
    · exact hparent
    · exact ih hfurther

/-- A place above a visit is that of a visit. -/
theorem exists_visit_of_mem_above {visit : Visit} {place : Place} (hmem : visit ∈ script.visits)
    (hplace : place ∈ visit.above) : ∃ outer ∈ script.visits, outer.toPlace = place := by
  rw [← visit.map_toPlace_enclosing] at hplace
  obtain ⟨outer, houter, hsame⟩ := List.mem_map.mp hplace
  exact ⟨outer, mem_visits_of_mem_enclosing hmem houter, hsame⟩

/-- Paths get shorter on the way up. -/
theorem pairwise_enclosing {visit : Visit} (hmem : visit ∈ script.visits) :
    (visit :: visit.enclosing).Pairwise fun inner outer =>
      outer.path.length < inner.path.length := by
  induction hmem using visits_induction with
  | file index stmt hstmt _ => exact List.pairwise_singleton _ _
  | below parent hparent ih index child hchild _ =>
    refine List.pairwise_cons.mpr ⟨fun outer houter => ?_, ih⟩
    rcases List.mem_cons.mp houter with rfl | hfurther
    · exact Nat.lt_succ_self _
    · exact Nat.lt_succ_of_lt ((List.pairwise_cons.mp ih).1 outer hfurther)

/-- A path leads to one visit. -/
theorem eq_of_path_eq {left right : Visit} (hleft : left ∈ script.visits)
    (hright : right ∈ script.visits) (hpath : left.path = right.path) : left = right := by
  induction hleft using visits_induction generalizing right with
  | file index stmt hstmt _ =>
    rcases visits_cases hright with ⟨_, other, hother, rfl⟩ | ⟨parent, hparent, _, _, -, rfl⟩
    · obtain rfl : index = _ := List.cons.inj hpath |>.1
      obtain rfl := Option.some.inj (hstmt.symm.trans hother)
      rfl
    · exact absurd (List.cons.inj hpath).2.symm (path_ne_nil hparent)
  | below parent hparent ih index child hchild _ =>
    rcases visits_cases hright with ⟨_, _, -, rfl⟩ | ⟨other, hother, _, found, hfound, rfl⟩
    · exact absurd (List.cons.inj hpath).2 (path_ne_nil hparent)
    · obtain rfl := ih hother (List.cons.inj hpath).2
      obtain rfl : index = _ := (List.cons.inj hpath).1
      obtain rfl := Option.some.inj (hchild.symm.trans hfound)
      rfl

/-- There is one node at the path of a visit. -/
theorem find?_path (hvisit : visit ∈ script.visits) :
    (script.visits.find? fun other => other.path = visit.path) = some visit := by
  have hfound : (script.visits.find? fun other => other.path = visit.path).isSome = true :=
    List.find?_isSome.mpr ⟨visit, hvisit, decide_eq_true rfl⟩
  obtain ⟨other, hother⟩ := Option.isSome_iff_exists.mp hfound
  have hpath : other.path = visit.path := by simpa using List.find?_some hother
  rw [hother, eq_of_path_eq (List.mem_of_find?_eq_some hother) hvisit hpath]

/-- So no node is found under it. -/
theorem find?_path_nil : (script.visits.find? fun visit => visit.path = []) = none :=
  List.find?_eq_none.mpr fun _ hvisit hpath => path_ne_nil hvisit (of_decide_eq_true hpath)

end Script

end ScopeCheck
