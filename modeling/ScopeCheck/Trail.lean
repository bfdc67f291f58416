/-!
# Trails

A trail follows a "next" function from a starting point as long as it stays inside a finite domain
and meets nothing twice. Parents of symbol tables, parents of classes and parents of components
are all followed in this way: the relations come from what users write, so they may lead nowhere
or run in a circle, and the trail ends on all of them.
-/

namespace ScopeCheck

/-- How a trail ends. -/
inductive TrailEnd (α : Type) where
  /-- The last point has no next one. -/
  | stop
  /-- The next point is not in the domain. -/
  | outside (target : α)
  /-- The next point has been met before. -/
  | again (target : α)
deriving DecidableEq, Repr

namespace Trail

variable {α : Type} [DecidableEq α]

/-- The points of the domain that have not been met. -/
def unmet (domain met : List α) : List α := domain.filter fun point => !met.contains point

/-- With each new point there are fewer that have not been met. -/
theorem length_unmet_cons_lt {domain met : List α} {point : α} (hmem : point ∈ domain)
    (hnew : met.contains point = false) :
    (unmet domain (point :: met)).length < (unmet domain met).length := by
  have himp : ∀ x : α, (!(point :: met).contains x) = true → (!met.contains x) = true := by
    intro x hx
    simp only [List.contains_cons, Bool.not_eq_true', Bool.or_eq_false_iff] at hx ⊢
    exact hx.2
  unfold unmet
  rw [← List.countP_eq_length_filter, ← List.countP_eq_length_filter]
  induction domain with
  | nil => cases hmem
  | cons head tail ih =>
    have hle := List.countP_mono_left (l := tail) fun x _ h => himp x h
    by_cases hhead : head = point
    · subst hhead
      rw [List.countP_cons_of_neg (by simp), List.countP_cons_of_pos (by simpa using hnew)]
      exact Nat.lt_succ_of_le hle
    · have htail : point ∈ tail := by
        rcases List.mem_cons.mp hmem with h | h
        · exact absurd h.symm hhead
        · exact h
      have hlt := ih htail
      rw [List.countP_cons, List.countP_cons]
      have hsame : (!(point :: met).contains head) = (!met.contains head) := by
        rw [List.contains_cons, beq_eq_false_iff_ne.mpr hhead, Bool.false_or]
      rw [hsame]
      omega

/-- Follows `next` from a point that has been met: the points passed, nearest first, and how the
trail ends. A point met before ends the trail even if it is outside the domain. -/
def follow (next : α → Option α) (domain met : List α) (current : α) : List α × TrailEnd α :=
  match next current with
  | none => ([], .stop)
  | some target =>
    if _hmet : met.contains target = true then ([], .again target)
    else if _hmem : target ∈ domain then
      let further := follow next domain (target :: met) target
      (target :: further.1, further.2)
    else ([], .outside target)
termination_by (unmet domain met).length
decreasing_by exact length_unmet_cons_lt _hmem (Bool.eq_false_iff.mpr _hmet)

/-- The points after a starting point, nearest first. -/
def after (next : α → Option α) (domain : List α) (start : α) : List α :=
  (follow next domain [start] start).1

/-- How the trail from a starting point ends. -/
def ending (next : α → Option α) (domain : List α) (start : α) : TrailEnd α :=
  (follow next domain [start] start).2

end Trail

end ScopeCheck
