import Mathlib.Data.List.Chain
import ScopeCheck.Trail

/-!
# Where a trail leads

A trail goes from each point to the next one, meets nothing twice, stays inside the domain and ends
for a reason (`walk_follow`). Everything else about trails is drawn from that. If no step leads out
of the domain, the points after a start are exactly the other points that steps lead to from there
(`mem_after_iff`), and a start that steps lead back to is where its own trail ends
(`ending_of_returns`). Conversely, points that lead from one to the next and back to one of them are
what the trail passes (`follow_of_returns`), and so are points that lead from one to the next and
then no further (`follow_fst_of_stops`).
-/

namespace ScopeCheck

/-- The point that a trail would have gone on to. -/
def TrailEnd.target? {α : Type} : TrailEnd α → Option α
  | .stop => none
  | .outside target => some target
  | .again target => some target

namespace Trail

variable {α : Type}

/-- One point leads to another. -/
def Step (next : α → Option α) (point target : α) : Prop := next point = some target

/-- What the trail from a point is like when some points have been met. -/
structure Walk (next : α → Option α) (domain met : List α) (current : α)
    (trail : List α × TrailEnd α) : Prop where
  /-- Each point leads to the one after it. -/
  chain : (current :: trail.1).IsChain (Step next)
  /-- No point is passed twice. -/
  nodup : trail.1.Nodup
  /-- No point is passed that has been met. -/
  new : ∀ point ∈ trail.1, point ∉ met
  /-- The points are in the domain. -/
  inside : ∀ point ∈ trail.1, point ∈ domain
  /-- The last point leads to where the trail does not go. -/
  last : next ((current :: trail.1).getLast (List.cons_ne_nil _ _)) = trail.2.target?
  /-- What is outside is not in the domain. -/
  outside : ∀ target, trail.2 = .outside target → target ∉ domain
  /-- What is met again has been met or passed. -/
  again : ∀ target, trail.2 = .again target → target ∈ met ∨ target ∈ trail.1

/-- Following a trail walks until it stops, returns or leaves the domain, by the recursion of
`follow`. -/
theorem walk_follow [DecidableEq α] (next : α → Option α) (domain met : List α) (current : α) :
    Walk next domain met current (follow next domain met current) := by
  fun_induction follow next domain met current with
  | case1 met current hnone =>
    exact ⟨.singleton _, .nil, by simp, by simp, hnone, by simp, by simp⟩
  | case2 met current target hsome hmet =>
    refine ⟨.singleton _, .nil, by simp, by simp, hsome, by simp, fun other heq => Or.inl ?_⟩
    cases heq
    exact List.contains_iff_mem.mp hmet
  -- the point is new and inside: what is met from it on is met with it in the list
  | case3 met current target hsome hmet hmem further ih =>
    have hnew : target ∉ further.1 := fun hpassed => ih.new target hpassed List.mem_cons_self
    refine ⟨.cons_cons hsome ih.chain, List.nodup_cons.mpr ⟨hnew, ih.nodup⟩, ?_, ?_, ?_, ih.outside,
      ?_⟩
    · intro point hpoint
      rcases List.mem_cons.mp hpoint with rfl | hfurther
      · exact mt List.contains_iff_mem.mpr hmet
      · exact fun hold => ih.new point hfurther (List.mem_cons_of_mem target hold)
    · intro point hpoint
      rcases List.mem_cons.mp hpoint with rfl | hfurther
      · exact hmem
      · exact ih.inside point hfurther
    · rw [List.getLast_cons (List.cons_ne_nil target further.1)]
      exact ih.last
    · intro back hback
      rcases ih.again back hback with hold | hfurther
      · rcases List.mem_cons.mp hold with rfl | holder
        · exact Or.inr List.mem_cons_self
        · exact Or.inl holder
      · exact Or.inr (List.mem_cons_of_mem target hfurther)
  | case4 met current target hsome hmet hmem =>
    refine ⟨.singleton _, .nil, by simp, by simp, hsome, fun other heq => ?_, by simp⟩
    cases heq
    exact hmem

/-- A trail whose last point leads into the domain ends where it meets a point again. -/
theorem Walk.again_of_mem {next : α → Option α} {domain met : List α} {current : α}
    {trail : List α × TrailEnd α} (hwalk : Walk next domain met current trail) {target : α}
    (hstep : Step next ((current :: trail.1).getLast (List.cons_ne_nil _ _)) target)
    (hmem : target ∈ domain) : trail.2 = .again target := by
  have htarget : trail.2.target? = some target := hwalk.last.symm.trans hstep
  cases hend : trail.2 with
  | stop =>
    rw [hend] at htarget
    cases htarget
  | outside other =>
    rw [hend] at htarget
    cases htarget
    exact absurd hmem (hwalk.outside _ hend)
  | again other =>
    rw [hend] at htarget
    cases htarget
    rfl

/-! ## Closed domains -/

/-- A point of a chain leads into the chain, unless it is the last one. -/
theorem mem_of_step {next : α → Option α} {current : α} {passed : List α}
    (hchain : (current :: passed).IsChain (Step next)) {point target : α}
    (hpoint : point ∈ current :: passed) (hstep : Step next point target) :
    target ∈ passed ∨ point = (current :: passed).getLast (List.cons_ne_nil _ _) := by
  induction passed generalizing current with
  | nil => exact Or.inr (List.mem_singleton.mp hpoint)
  | cons first rest ih =>
    obtain ⟨hfirst, hrest⟩ := List.isChain_cons_cons.mp hchain
    rcases List.mem_cons.mp hpoint with rfl | hlater
    · obtain rfl : target = first := Option.some.inj (hstep.symm.trans hfirst)
      exact Or.inl List.mem_cons_self
    · rw [List.getLast_cons (List.cons_ne_nil first rest)]
      exact (ih hrest hlater).imp_left (List.mem_cons_of_mem first)

section Closed

variable {next : α → Option α} {domain : List α}
  (hdomain : ∀ point target, Step next point target → target ∈ domain)
include hdomain

/-- A trail that could go on ends where it meets a point again. -/
theorem Walk.again_of_step {met : List α} {current : α} {trail : List α × TrailEnd α}
    (hwalk : Walk next domain met current trail) {target : α}
    (hstep : Step next ((current :: trail.1).getLast (List.cons_ne_nil _ _)) target) :
    trail.2 = .again target :=
  hwalk.again_of_mem hstep (hdomain _ _ hstep)

/-- What the points of a trail lead to has been met or is passed. -/
theorem Walk.closed {met : List α} {current : α} {trail : List α × TrailEnd α}
    (hwalk : Walk next domain met current trail) {point target : α}
    (hpoint : point ∈ current :: trail.1) (hstep : Step next point target) :
    target ∈ met ∨ target ∈ trail.1 := by
  rcases mem_of_step hwalk.chain hpoint hstep with hpassed | rfl
  · exact Or.inr hpassed
  · exact hwalk.again target (hwalk.again_of_step hdomain hstep)

variable [DecidableEq α]

/-- The start and the points after it are closed under steps. -/
theorem mem_of_reaches {start point : α}
    (hreach : Relation.ReflTransGen (Step next) start point) :
    point ∈ start :: after next domain start := by
  induction hreach with
  | refl => exact List.mem_cons_self
  | tail _ hstep ih =>
    rcases (walk_follow next domain [start] start).closed hdomain ih hstep with hold | hpassed
    · exact List.mem_singleton.mp hold ▸ List.mem_cons_self
    · exact List.mem_cons_of_mem start hpassed

/-- The points after a start are the other points that steps lead to from there. -/
theorem mem_after_iff {start point : α} :
    point ∈ after next domain start ↔
      point ≠ start ∧ Relation.TransGen (Step next) start point := by
  have hwalk := walk_follow next domain [start] start
  constructor
  · intro hpoint
    refine ⟨fun heq => hwalk.new point hpoint (List.mem_singleton.mpr heq), ?_⟩
    exact (hwalk.chain.imp fun _ _ hstep => Relation.TransGen.single hstep).rel_cons hpoint
  · rintro ⟨hne, hreach⟩
    exact (List.mem_cons.mp (mem_of_reaches hdomain hreach.to_reflTransGen)).resolve_left hne

/-- A start that steps lead back to is met again at the end of its trail. -/
theorem ending_of_returns {start : α} (hreturns : Relation.TransGen (Step next) start start) :
    ending next domain start = .again start := by
  have hwalk := walk_follow next domain [start] start
  obtain ⟨before, hreach, hstep⟩ := Relation.TransGen.tail'_iff.mp hreturns
  rcases mem_of_step hwalk.chain (mem_of_reaches hdomain hreach) hstep with hpassed | rfl
  · exact absurd (List.mem_singleton_self start) (hwalk.new start hpassed)
  · exact hwalk.again_of_step hdomain hstep

end Closed

/-! ## Trails that return -/

/-- A trail passes the points that lead from one to the next, and ends where they lead back. -/
theorem follow_of_returns [DecidableEq α] {next : α → Option α} {domain met : List α}
    {current back : α} {rest : List α} (hchain : (current :: (rest ++ [back])).IsChain (Step next))
    (hdomain : ∀ point ∈ rest, point ∈ domain) (hnodup : rest.Nodup)
    (hmet : ∀ point ∈ rest, point ∉ met) (hback : back ∈ met ∨ back ∈ rest) :
    follow next domain met current = (rest, .again back) := by
  -- along the points between; the one that is returned to has been met or is still to come
  induction rest generalizing met current with
  | nil =>
    have hstep : Step next current back := List.isChain_pair.mp hchain
    have hnext : next current = some back := hstep
    have hold : met.contains back = true :=
      List.contains_iff_mem.mpr (hback.resolve_right List.not_mem_nil)
    rw [follow, hnext]
    simp only [hold, dite_true]
  | cons target rest ih =>
    obtain ⟨hstep, hrest⟩ := List.isChain_cons_cons.mp hchain
    obtain ⟨hfirst, hlater⟩ := List.nodup_cons.mp hnodup
    have hnew : ¬ met.contains target = true :=
      mt List.contains_iff_mem.mp (hmet target List.mem_cons_self)
    have hinner : ∀ point ∈ rest, point ∉ target :: met := by
      intro point hpoint hmem
      rcases List.mem_cons.mp hmem with rfl | hold
      · exact hfirst hpoint
      · exact hmet point (List.mem_cons_of_mem target hpoint) hold
    have hreturns : back ∈ target :: met ∨ back ∈ rest := by
      rcases hback with hold | hlist
      · exact Or.inl (List.mem_cons_of_mem target hold)
      · rcases List.mem_cons.mp hlist with rfl | hfurther
        · exact Or.inl List.mem_cons_self
        · exact Or.inr hfurther
    have hnext : next current = some target := hstep
    rw [follow, hnext]
    simp only [dif_neg hnew, dif_pos (hdomain target List.mem_cons_self)]
    rw [ih hrest (fun point hpoint => hdomain point (List.mem_cons_of_mem target hpoint)) hlater
      hinner hreturns]

/-! ## Trails that stop -/

/-- A trail passes the points of the domain that lead from one to the next, if the last one leads to
no further point of the domain. -/
theorem follow_fst_of_stops [DecidableEq α] {next : α → Option α} {domain met : List α}
    {current : α} {rest : List α}
    (hchain : (current :: rest).IsChain fun point target =>
      Step next point target ∧ target ∈ domain)
    (hmet : ∀ point ∈ rest, point ∉ met) (hnodup : rest.Nodup)
    (hstop : ∀ target, next ((current :: rest).getLast (List.cons_ne_nil _ _)) = some target →
      target ∈ domain → target ∈ met ∨ target ∈ rest) :
    (follow next domain met current).1 = rest := by
  -- along the points that are passed; each becomes one that has been met
  induction rest generalizing met current with
  | nil =>
    rw [follow]
    cases hnext : next current with
    | none => rfl
    | some target =>
      have hold : target ∈ domain → met.contains target = true := fun hmem =>
        List.contains_iff_mem.mpr ((hstop target hnext hmem).resolve_right List.not_mem_nil)
      by_cases hmem : target ∈ domain
      · simp only [hold hmem, dite_true]
      · simp only [hmem, dite_false]
        split <;> rfl
  | cons target rest ih =>
    obtain ⟨⟨hstep, hmem⟩, hrest⟩ := List.isChain_cons_cons.mp hchain
    obtain ⟨hfirst, hlater⟩ := List.nodup_cons.mp hnodup
    have hnew : ¬ met.contains target = true :=
      mt List.contains_iff_mem.mp (hmet target List.mem_cons_self)
    have hnext : next current = some target := hstep
    rw [follow, hnext]
    simp only [dif_neg hnew, dif_pos hmem]
    refine congrArg (target :: ·) (ih hrest ?_ hlater ?_)
    · intro point hpoint hold
      rcases List.mem_cons.mp hold with rfl | hold
      · exact hfirst hpoint
      · exact hmet point (List.mem_cons_of_mem target hpoint) hold
    · intro further hfurther hinside
      rw [List.getLast_cons (List.cons_ne_nil target rest)] at hstop
      rcases hstop further hfurther hinside with hold | hpassed
      · exact Or.inl (List.mem_cons_of_mem target hold)
      · exact (List.mem_cons.mp hpassed).imp_left fun heq => List.mem_cons.mpr (Or.inl heq)

end Trail

end ScopeCheck
