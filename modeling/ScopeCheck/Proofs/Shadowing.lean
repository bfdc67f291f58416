import ScopeCheck.Proofs.Visibility

/-!
# Calls of shadowed names

A name that a function binds itself, as a parameter or a variable, hides whatever functions the
scope has under that name. A lookup from inside the function then gives the bindings of the function
alone (`lookup_linked_of_binder?`). A call of such a name is not checked, unless one of those
bindings stands at the very range at which the name of the hidden function is written, which may be
in another file: ranges are all that tells a binding of the function from a local that hides it
(`shadowed_call_checked_iff`).
-/

namespace ScopeCheck

/-! ## The innermost binder -/

/-- On the way up each node stands below those that come later. -/
theorem pairwise_visitsUp (above : List Place) :
    (visitsUp above).Pairwise fun inner outer => outer.toPlace ∈ inner.above := by
  induction above with
  | nil => exact List.Pairwise.nil
  | cons place outer ih =>
    refine List.pairwise_cons.mpr ⟨fun further hfurther => ?_, ih⟩
    have hmem := List.mem_map_of_mem (f := Visit.toPlace) hfurther
    rw [show (visitsUp outer).map Visit.toPlace = outer from
      Visit.map_toPlace_enclosing ⟨place, outer⟩] at hmem
    exact hmem

/-- The innermost node around a visit whose own table binds a name. -/
def Script.binder? (script : Script) (visit : Visit) (name : String) : Option Visit :=
  visit.owners.find? fun owner => script.boundAt owner.path (Text.lower name) ≠ []

/-- Inside a function no block is joined by others. -/
theorem Visit.joined?_eq_none_of_func {visit : Visit} {outer : Place} (houter : outer ∈ visit.above)
    (hfunction : outer.func?.isSome = true) : visit.joined? = none := by
  have hnot : outer.namespaceDecl? = none := by
    unfold Place.func? at hfunction
    unfold Place.namespaceDecl?
    split
    · simp_all
    · rfl
  have htop : visit.isTopLevel ≠ true := by
    intro htop
    have hsome := List.all_eq_true.mp htop outer houter
    rw [hnot] at hsome
    cases hsome
  exact if_neg htop

section Lookup

variable {chain : ScopeChain} (platform : Platform) {script : Script}
  (hscript : script ∈ chain.sortedFiles) {visit : Visit} (hvisit : visit ∈ script.visits)
include hscript hvisit

/-- A name that is bound by a function first is looked up there. -/
theorem lookup_linked_of_binder? {name : String} {owner : Visit}
    (hbinder : script.binder? visit name = some owner)
    (hfunction : owner.toPlace.func?.isSome = true) :
    Tables.lookup (linkedTables chain platform) (script.ref visit.table) name =
      some (script.boundAt owner.path (Text.lower name)) := by
  obtain ⟨hbound, front, back, howners, hfront⟩ := List.find?_eq_some_iff_append.mp hbinder
  have hnonempty : script.boundAt owner.path (Text.lower name) ≠ [] := of_decide_eq_true hbound
  have hinside : ∀ inner ∈ front, owner.toPlace ∈ inner.above := by
    have hpairwise : visit.owners.Pairwise fun inner outer => outer.toPlace ∈ inner.above :=
      (pairwise_visitsUp visit.above).sublist List.filter_sublist
    rw [howners] at hpairwise
    exact fun inner hinner => (List.pairwise_append.mp hpairwise).2.2 inner hinner owner
      List.mem_cons_self
  -- inside a function no block is joined with its namespace, so the nodes before the binder give
  -- nothing
  have hempty : ∀ inner ∈ front,
      (Registry.build chain platform).boundAround script (Text.lower name) inner = [] := by
    intro inner hinner
    have hown : script.boundAt inner.path (Text.lower name) = [] := by
      simpa using hfront inner hinner
    rw [Registry.boundAround, hown,
      Visit.joined?_eq_none_of_func (hinside inner hinner) hfunction]
    rfl
  have hskip : (front.map ((Registry.build chain platform).boundAround script
      (Text.lower name))).find? (fun found => found ≠ []) = none := by
    rw [List.find?_eq_none]
    intro found hfound
    obtain ⟨inner, hinner, rfl⟩ := List.mem_map.mp hfound
    simpa using hempty inner hinner
  have hhere : (Registry.build chain platform).boundAround script (Text.lower name) owner =
      script.boundAt owner.path (Text.lower name) := if_pos hnonempty
  rw [lookup_linked platform hscript hvisit, Registry.levels, howners, List.map_append,
    List.append_assoc, List.find?_append, hskip, List.map_cons, hhere, List.cons_append,
    List.find?_cons, hbound]
  rfl

end Lookup

/-! ## Calls -/

/-- A use of a chain is looked up from where it stands. -/
theorem Visit.table_of_chainUse? {visit : Visit} {use : ChainUse}
    (huse : visit.chainUse? = some use) :
    use.table = visit.table ∧ use.namespaceKey = visit.namespaceKey? := by
  unfold chainUse? at huse
  split at huse
  · obtain ⟨parent, -, rfl⟩ := Option.map_eq_some_iff.mp huse
    exact ⟨rfl, rfl⟩
  · split at huse
    · cases huse
    · obtain ⟨parts, -, rfl⟩ := Option.map_eq_some_iff.mp huse
      exact ⟨rfl, rfl⟩
  · cases huse

/-- What is found in a chain of names is among the findings of the scope. -/
theorem mem_examine_of_checkChain {chain : ScopeChain} {platform : Platform} {script : Script}
    (hscript : script ∈ chain.sortedFiles) {visit : Visit} (hvisit : visit ∈ script.visits)
    {use : ChainUse} (huse : visit.chainUse? = some use) {finding : Finding}
    (hfinding : checkChain (Registry.build chain platform) (linkedTables chain platform) script
      use = some finding) :
    finding ∈ (examine chain platform).findings :=
  List.mem_append_right _ (mem_examineNames_of_checkChain hscript hvisit huse hfinding)

/-- A call is reported exactly if its number of arguments is out of bounds, with the bounds in its
wording. -/
theorem checkArity_eq_some_iff {file : String} {range : Range} {callable : Callable} {count : Nat}
    {finding : Finding} :
    checkArity file range callable count = some finding ↔
      ¬ (callable.arity.1 ≤ count ∧ count ≤ callable.arity.2) ∧
        finding = .of (.argumentCount (arityText callable.arity) count) file range := by
  simp only [checkArity, Bool.and_eq_true, decide_eq_true_eq]
  split
  · rename_i htaken
    exact ⟨fun h => (nomatch h), fun h => absurd htaken h.1⟩
  · rename_i hrefused
    rw [Option.some.injEq, and_iff_right hrefused, eq_comm]

/-- Of a call of a bare name that a function around it binds something is found exactly if one of
these bindings stands at the range at which the name of the function that the call would else mean
is written, and that function does not take so many arguments. -/
theorem shadowed_call_checked_iff (chain : ScopeChain) (platform : Platform) {script : Script}
    (hscript : script ∈ chain.sortedFiles) {visit : Visit} (hvisit : visit ∈ script.visits)
    {use : ChainUse} (huse : visit.chainUse? = some use) {root : Ident}
    (hparts : use.parts = [root]) {count : Nat} (husage : use.usage = .callee count) {owner : Visit}
    (hbinder : script.binder? visit root.text = some owner)
    (hfunction : owner.toPlace.func?.isSome = true) (finding : Finding) :
    checkChain (Registry.build chain platform) (linkedTables chain platform) script use =
        some finding ↔
      ∃ callable,
        (Registry.build chain platform).callable? root.text visit.namespaceKey? = some callable ∧
        (∃ binding ∈ script.boundAt owner.path (Text.lower root.text),
          binding.range = callable.bindingRange) ∧
        ¬ (callable.arity.1 ≤ count ∧ count ≤ callable.arity.2) ∧
        finding = .of (.argumentCount (arityText callable.arity) count) script.path use.range := by
  obtain ⟨htable, hnamespace⟩ := Visit.table_of_chainUse? huse
  have hlookup := lookup_linked_of_binder? platform hscript hvisit hbinder hfunction
  have hbound : checkChain (Registry.build chain platform) (linkedTables chain platform) script
      use = checkBound (Registry.build chain platform) script.path use root []
        (script.boundAt owner.path (Text.lower root.text)) := by
    simp only [checkChain, hparts, htable, hlookup]
  rw [hbound]
  simp only [checkBound, husage, hnamespace]
  cases hcallable : (Registry.build chain platform).callable? root.text visit.namespaceKey? with
  | none => simp
  | some callable =>
    have hrange : bindsCallable (script.boundAt owner.path (Text.lower root.text)) callable = true ↔
        ∃ binding ∈ script.boundAt owner.path (Text.lower root.text),
          binding.range = callable.bindingRange := by
      simp [bindsCallable]
    simp only [Option.some.injEq, exists_eq_left']
    split
    · rename_i hbinds
      rw [checkArity_eq_some_iff, and_iff_right (hrange.mp hbinds)]
    · rename_i hbinds
      exact ⟨fun h => (nomatch h), fun h => absurd (hrange.mpr h.1) hbinds⟩

/-! ## A parameter at the place of a function -/

/-- The name `go`, nine columns into the first line of a file. -/
def goName : Ident := ⟨"go", .onLine 0 9 2⟩

/-- A function `go` that takes an argument. -/
def goFunction : FunctionDecl :=
  ⟨goName, ⟨.function, [⟨⟨"x", .onLine 0 12 1⟩, none, none⟩], none, [], .zero⟩⟩

/-- The name `go` on the second line of a file. -/
def goCallee : Ident := ⟨"go", .onLine 1 2 2⟩

/-- A call of `go` without arguments. -/
def goCall : Expr := .call (.name goCallee goCallee.range) [] (.onLine 1 2 4)

/-- A sub with a parameter `go`, which it calls. -/
def goSub : FunctionDecl :=
  ⟨⟨"main", .onLine 0 4 4⟩,
    ⟨.sub, [⟨goName, none, none⟩], none, [.expression goCall (.onLine 1 2 4)], .zero⟩⟩

/-- The script of the sub. -/
def callsParameter : Script := ⟨"main.brs", none, [.functionDecl goSub .zero]⟩

/-- The script of the function. -/
def declaresGo : Script := ⟨"go.brs", none, [.functionDecl goFunction .zero]⟩

/-- A scope with both scripts. -/
def goChain : ScopeChain := ⟨.ofProgram [callsParameter, declaresGo], []⟩

/-- The visit of the body of the sub. -/
def goSubVisit : Visit :=
  (⟨⟨.statement (.functionDecl goSub .zero), [0]⟩, []⟩ : Visit).child 0 (.function goSub.func)

/-- The visit of the callee. -/
def goVisit : Visit :=
  ((goSubVisit.child 0 (.statement (.expression goCall (.onLine 1 2 4)))).child 0
    (.expression goCall)).child 0 (.expression (.name goCallee goCallee.range))

/-- The declaring script comes first. -/
theorem sortedFiles_goChain : goChain.sortedFiles = [declaresGo, callsParameter] := by
  have hall : goChain.allFiles = [callsParameter, declaresGo] := rfl
  have hbefore : textAtOrBefore callsParameter.key declaresGo.key = false := by decide +kernel
  simp [ScopeChain.sortedFiles, hall, List.mergeSort, List.MergeSort.Internal.splitInTwo,
    List.splitAt, List.splitAt.go, hbefore]

/-- The walk over the calling script, with a bound on its depth that the kernel can count down. -/
theorem visits_callsParameter :
    callsParameter.visits = callsParameter.body.zipIdx.flatMap fun entry =>
      (Node.statement entry.1).visitsTo 5 [] [entry.2] :=
  Script.visits_eq_visitsTo 5 rfl

/-- The call is met on the walk. -/
theorem goVisit_mem : goVisit ∈ callsParameter.visits := by
  rw [visits_callsParameter]
  simp [Node.visitsTo, callsParameter, goVisit, goCall, goSub, goSubVisit, Visit.child,
    Node.children, Stmt.children, Func.children, Expr.children]

/-- The name is in lower case. -/
theorem lower_go : Text.lower "go" = "go" := by decide +kernel

/-- The function binds its parameter at the very range where the other script names its function. -/
theorem boundAt_callsParameter :
    callsParameter.boundAt goSubVisit.path "go" = [⟨"go", goName.range, .dynamic⟩] := by
  rw [Script.boundAt, Script.bindings, visits_callsParameter]
  decide +kernel

/-- The function with the parameter is the innermost binder around the call. -/
theorem binder?_callsParameter : callsParameter.binder? goVisit "go" = some goSubVisit := by
  have howners : goVisit.owners = [goSubVisit] := rfl
  have hbound : callsParameter.boundAt goSubVisit.path (Text.lower "go") ≠ [] := by
    rw [lower_go, boundAt_callsParameter]
    exact List.cons_ne_nil _ _
  rw [Script.binder?, howners]
  exact List.find?_cons_of_pos (decide_eq_true hbound)

/-- The name means the function of the other script. -/
theorem callable?_goChain :
    (Registry.build goChain (.withNodes [])).callable? "go" none = some (.declared
      ((⟨⟨.statement (.functionDecl goFunction .zero), [0]⟩, []⟩ : Visit).declaration "go.brs"
        goName goFunction)) := by
  have hvisits : declaresGo.visits = declaresGo.body.zipIdx.flatMap fun entry =>
      (Node.statement entry.1).visitsTo 2 [] [entry.2] := Script.visits_eq_visitsTo 2 rfl
  simp only [Registry.callable?, Registry.callables, Registry.build, sortedFiles_goChain,
    List.flatMap_cons, Script.functions, Script.topLevel, hvisits]
  rfl

/-- The parameter stands where another script has the name of the function, so its call is checked
as one of the function. -/
theorem parameter_checked_as_function :
    callsParameter.binder? goVisit goCallee.text = some goSubVisit ∧
      goSubVisit.toPlace.func?.isSome = true ∧
      Finding.of (.argumentCount "1" 0) "main.brs" goCallee.range ∈
        (examine goChain (.withNodes [])).findings := by
  have hscript : callsParameter ∈ goChain.sortedFiles := by
    rw [sortedFiles_goChain]
    exact List.mem_cons_of_mem _ List.mem_cons_self
  have huse : goVisit.chainUse? =
      some ⟨[goCallee], .callee 0, none, goSubVisit.path, goCallee.range⟩ := rfl
  have hbound : (⟨"go", goName.range, .dynamic⟩ : Binding) ∈
      callsParameter.boundAt goSubVisit.path (Text.lower goCallee.text) := by
    rw [show goCallee.text = "go" from rfl, lower_go, boundAt_callsParameter]
    exact List.mem_cons_self
  have hchecked := shadowed_call_checked_iff goChain (.withNodes []) hscript goVisit_mem huse rfl
    rfl binder?_callsParameter rfl (.of (.argumentCount "1" 0) "main.brs" goCallee.range)
  refine ⟨binder?_callsParameter, rfl, mem_examine_of_checkChain hscript goVisit_mem huse ?_⟩
  exact hchecked.mpr ⟨_, callable?_goChain, ⟨_, hbound, rfl⟩, by decide, by decide⟩

end ScopeCheck
