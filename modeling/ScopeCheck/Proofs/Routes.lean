import ScopeCheck.Check.Examination

/-!
# How findings are listed

What is wrong with a call of `CreateObject` is listed once, everything else once for each file. The
number of a problem tells which of the two it is (`Problem.route_eq_of_code_eq`), and every finding
of an examination is listed in the way of its number (`examineOn_catalogued`). So a problem that is
listed once never meets one of the same number that is listed once for each file.

Each check reports problems of a few numbers (`AllNumbered`). Missing names are found in chains of
names only; all other checks report other problems (`mem_examineOn`).
-/

namespace ScopeCheck

/-- How a problem is listed. -/
def Problem.route : Problem → Route
  | unknownNode .. | unknownObject .. | objectArgumentCount .. | deprecatedObject .. => .once
  | _ => .perFile

/-- The numbers tell the routes apart: those of what is made by `CreateObject` are listed once, all
others per file. -/
theorem Problem.route_eq (problem : Problem) :
    problem.route = if 1020 ≤ problem.code ∧ problem.code ≤ 1023 then .once else .perFile := by
  cases problem <;> rfl

/-- The number of a problem tells how it is listed. -/
theorem Problem.route_eq_of_code_eq {left right : Problem} (hcode : left.code = right.code) :
    left.route = right.route := by
  rw [route_eq, route_eq, hcode]

/-- A finding has the number of a problem and is listed in the way of that problem. -/
def Finding.Catalogued (finding : Finding) : Prop :=
  ∃ problem : Problem, finding.diagnostic.code = problem.code ∧ finding.route = problem.route

/-- Findings with one number are listed in one way. -/
theorem Finding.Catalogued.route_eq {left right : Finding} (hleft : left.Catalogued)
    (hright : right.Catalogued) (hcode : left.diagnostic.code = right.diagnostic.code) :
    left.route = right.route := by
  obtain ⟨problem, hproblem, hroute⟩ := hleft
  obtain ⟨other, hother, hroute'⟩ := hright
  rw [hroute, hroute']
  exact Problem.route_eq_of_code_eq (hproblem.symm.trans (hcode.trans hother))

/-- A finding that is made from a problem has its number and, if the problem goes by file, its
route. -/
theorem Finding.catalogued_of {problem : Problem} (hroute : problem.route = .perFile)
    (file : String) (range : Range) : (Finding.of problem file range).Catalogued :=
  ⟨problem, rfl, hroute.symm⟩

/-! ## Missing names -/

/-- Whether the problem is that a name is not found. -/
def Problem.isMissingName : Problem → Bool
  | cannotFindName .. => true
  | _ => false

/-- Missing names have a number of their own. -/
theorem Problem.isMissingName_eq (problem : Problem) :
    problem.isMissingName = decide (problem.code = 1001) := by
  cases problem <;> rfl

/-- A finding has the number of a problem other than a missing name, and is listed in the way of
that problem. -/
def Finding.Elsewhere (finding : Finding) : Prop :=
  ∃ problem : Problem, problem.isMissingName = false ∧
    finding.diagnostic.code = problem.code ∧ finding.route = problem.route

/-- A finding of another problem is one of the catalogue. -/
theorem Finding.Elsewhere.catalogued {finding : Finding} (h : finding.Elsewhere) :
    finding.Catalogued := by
  obtain ⟨problem, -, hproblem⟩ := h
  exact ⟨problem, hproblem⟩

/-- A finding of another problem does not have the number of a missing name. -/
theorem Finding.Elsewhere.code_ne {finding : Finding} (h : finding.Elsewhere) :
    finding.diagnostic.code ≠ 1001 := by
  obtain ⟨problem, hkind, hcode, -⟩ := h
  rw [Problem.isMissingName_eq, decide_eq_false_iff_not] at hkind
  rwa [hcode]

/-! ## Numbers of findings -/

/-- A finding has the number of a problem, which is one of some numbers, and is listed in the way of
that problem. -/
def Finding.Numbered (numbers : List Nat) (finding : Finding) : Prop :=
  ∃ problem : Problem, numbers.contains problem.code = true ∧
    finding.diagnostic.code = problem.code ∧ finding.route = problem.route

namespace Finding

variable {numbers : List Nat} {finding : Finding} {problem : Problem}

/-- A finding that is made from a problem has the number of the problem and goes by file, as the
problem does. -/
theorem numbered_of (hroute : problem.route = .perFile)
    (hnumber : numbers.contains problem.code = true) (file : String) (range : Range) :
    (Finding.of problem file range).Numbered numbers :=
  ⟨problem, hnumber, rfl, hroute.symm⟩

/-- A finding that is made to be listed once has the number of its problem and goes as the problem
does. -/
theorem numbered_once (hroute : problem.route = .once)
    (hnumber : numbers.contains problem.code = true) (file : String) (range : Range) :
    (Finding.once problem file range).Numbered numbers :=
  ⟨problem, hnumber, rfl, hroute.symm⟩

namespace Numbered

/-- A related place changes neither the number nor the route. -/
theorem withRelated (h : finding.Numbered numbers) (message file : String) (range : Range) :
    (finding.withRelated message file range).Numbered numbers := h

/-- The number of a finding is one of those that were claimed for it. -/
theorem code_mem (h : finding.Numbered numbers) : finding.diagnostic.code ∈ numbers := by
  obtain ⟨problem, hnumber, hcode, -⟩ := h
  rw [hcode]
  exact List.contains_iff_mem.mp hnumber

/-- More numbers may be claimed. -/
theorem mono (h : finding.Numbered numbers) {more : List Nat} (hmore : numbers ⊆ more) :
    finding.Numbered more := by
  obtain ⟨problem, hnumber, hlisted⟩ := h
  exact ⟨problem, List.contains_iff_mem.mpr (hmore (List.contains_iff_mem.mp hnumber)), hlisted⟩

/-- A finding with another number than that of missing names is about something else. -/
theorem elsewhere (h : finding.Numbered numbers) (hother : 1001 ∉ numbers) :
    finding.Elsewhere := by
  obtain ⟨problem, hnumber, hlisted⟩ := h
  refine ⟨problem, ?_, hlisted⟩
  rw [Problem.isMissingName_eq, decide_eq_false_iff_not]
  intro hcode
  rw [hcode] at hnumber
  exact hother (List.contains_iff_mem.mp hnumber)

end Numbered

end Finding

/-! ## Lists of findings -/

/-- All findings of a list are listed in the way of their numbers. -/
def AllCatalogued (findings : List Finding) : Prop := ∀ finding ∈ findings, finding.Catalogued

/-- All findings of a list have some of the given numbers. -/
def AllNumbered (numbers : List Nat) (findings : List Finding) : Prop :=
  ∀ finding ∈ findings, finding.Numbered numbers

/-- The findings of a list with a number. -/
def withNumber (number : Nat) (findings : List Finding) : List Finding :=
  findings.filter fun finding => finding.diagnostic.code = number

/-- Findings are picked by number from each part of a list. -/
theorem withNumber_append (number : Nat) (left right : List Finding) :
    withNumber number (left ++ right) = withNumber number left ++ withNumber number right :=
  List.filter_append left right

namespace AllNumbered

variable {numbers : List Nat}

/-- Nothing is found, so nothing is claimed. -/
theorem nil : AllNumbered numbers [] := fun _ hmem => nomatch hmem

/-- One finding and its number. -/
theorem singleton {finding : Finding} (h : finding.Numbered numbers) :
    AllNumbered numbers [finding] :=
  fun other hmem => by rwa [List.mem_singleton.mp hmem]

/-- A finding in front of others. -/
theorem cons {finding : Finding} {rest : List Finding} (h : finding.Numbered numbers)
    (hrest : AllNumbered numbers rest) : AllNumbered numbers (finding :: rest) :=
  List.forall_mem_cons.mpr ⟨h, hrest⟩

/-- Findings of one check after those of another. -/
theorem append {left right : List Finding} (hleft : AllNumbered numbers left)
    (hright : AllNumbered numbers right) : AllNumbered numbers (left ++ right) :=
  List.forall_mem_append.mpr ⟨hleft, hright⟩

/-- More numbers may be claimed of a list, so lists of different checks can be put together. -/
theorem mono {findings : List Finding} (h : AllNumbered numbers findings) {more : List Nat}
    (hmore : numbers ⊆ more) : AllNumbered more findings :=
  fun finding hmem => (h finding hmem).mono hmore

/-- One finding for each item of a list. -/
theorem ofMap {α : Type} {list : List α} {check : α → Finding}
    (h : ∀ item ∈ list, (check item).Numbered numbers) : AllNumbered numbers (list.map check) := by
  intro finding hmem
  obtain ⟨item, hitem, rfl⟩ := List.mem_map.mp hmem
  exact h item hitem

/-- At most one finding for each item of a list. -/
theorem ofFilterMap {α : Type} {list : List α} {check : α → Option Finding}
    (h : ∀ item finding, check item = some finding → finding.Numbered numbers) :
    AllNumbered numbers (list.filterMap check) := by
  intro finding hmem
  obtain ⟨item, -, hitem⟩ := List.mem_filterMap.mp hmem
  exact h item finding hitem

/-- A list of findings for each item of a list. -/
theorem ofFlatMap {α : Type} {list : List α} {check : α → List Finding}
    (h : ∀ item, AllNumbered numbers (check item)) : AllNumbered numbers (list.flatMap check) := by
  intro finding hmem
  obtain ⟨item, -, hitem⟩ := List.mem_flatMap.mp hmem
  exact h item finding hitem

/-- Where all findings have a number, the number singles out all of them. -/
theorem withNumber_eq_self {number : Nat} {findings : List Finding}
    (h : AllNumbered [number] findings) : withNumber number findings = findings :=
  List.filter_eq_self.mpr fun finding hmem =>
    decide_eq_true (List.mem_singleton.mp (h finding hmem).code_mem)

/-- Another number singles out none. -/
theorem withNumber_eq_nil {number : Nat} {findings : List Finding}
    (h : AllNumbered numbers findings) (hother : number ∉ numbers) :
    withNumber number findings = [] := by
  refine List.filter_eq_nil_iff.mpr fun finding hmem hcode => hother ?_
  rw [← of_decide_eq_true hcode]
  exact (h finding hmem).code_mem

end AllNumbered

/-! ## Names -/

/-- A finding has one of some numbers, and is located at a place. -/
def Finding.NumberedAt (numbers : List Nat) (finding : Finding) (file : String) (range : Range) :
    Prop :=
  finding.Numbered numbers ∧ finding.diagnostic.file = file ∧ finding.diagnostic.range = range

/-- A finding is located on a chain of names in a script: on the whole chain or on one of its
names. -/
def Finding.IsWithin (finding : Finding) (script : Script) (use : ChainUse) : Prop :=
  finding.diagnostic.file = script.path ∧
    (finding.diagnostic.range = use.range ∨
      ∃ part ∈ use.parts, finding.diagnostic.range = part.range)

/-- What can be found in a chain of names: that its first name leads nowhere, that a name is not in
the namespace it is looked up in, or something else than a missing name. -/
inductive FoundInChain (registry : Registry) (tables : Tables TableRef) (script : Script)
    (use : ChainUse) : Finding → Prop
  /-- Neither the tables nor the registry know the first name. -/
  | root {root : Ident} {rest : List Ident} (hparts : use.parts = root :: rest)
      (hlookup : Tables.lookup tables (script.ref use.table) root.text = none)
      (hnamespace : registry.namespace? root.text use.namespaceKey = none)
      (henum : registry.enum? root.text use.namespaceKey = none) :
      FoundInChain registry tables script use
        (.of (.cannotFindName root.text none) script.path root.range)
  /-- A name is not in a namespace. -/
  | inside {part : Ident} (hpart : part ∈ use.parts) (fullName : String) :
      FoundInChain registry tables script use
        (.of (.cannotFindName part.text (some fullName)) script.path part.range)
  /-- Another problem. -/
  | other {finding : Finding} (helse : finding.Elsewhere) (hplace : finding.IsWithin script use) :
      FoundInChain registry tables script use finding

section Names

variable {registry : Registry} {file : String} {finding : Finding}

/-- Only a name that the namespace does not have stops a chain inside a namespace, and it is
reported where it stands. -/
theorem stepNamespace_broken {fullName : String} {part : Ident}
    (h : registry.stepNamespace file fullName part = .broken finding) :
    finding = .of (.cannotFindName part.text (some fullName)) file part.range := by
  simp only [Registry.stepNamespace] at h
  split at h
  · cases h
  · split at h
    · cases h
    · split at h
      · cases h
      · split at h
        · cases h
        · exact (Followed.broken.inj h).symm

/-- Only a value that the enum does not have stops a chain at an enum, and it is reported where it
stands. -/
theorem stepEnum_broken {decl : Declaration EnumDecl} {part : Ident}
    (h : registry.stepEnum file decl part = .broken finding) :
    finding.NumberedAt [1002] file part.range := by
  unfold Registry.stepEnum at h
  split at h
  · cases h
  · cases h
    exact ⟨(Finding.numbered_of rfl rfl _ _).withRelated _ _ _, rfl, rfl⟩

/-- A chain stops at a name that a namespace does not have or at a value that an enum does not have.
-/
theorem stepChain_broken {current : Resolved} {part : Ident}
    (h : registry.stepChain file current part = .broken finding) :
    (∃ fullName, finding = .of (.cannotFindName part.text (some fullName)) file part.range) ∨
      finding.NumberedAt [1002] file part.range := by
  cases current with
  | inNamespace fullName => exact Or.inl ⟨fullName, stepNamespace_broken h⟩
  | enum decl => exact Or.inr (stepEnum_broken h)
  | callable => cases h
  | declared => cases h

/-- If a chain stops anywhere, it is at one of its parts and for one of the two reasons, by
induction on the parts. -/
theorem followChain_broken {current : Resolved} {rest : List Ident}
    (h : registry.followChain file current rest = .broken finding) :
    ∃ part ∈ rest,
      (∃ fullName, finding = .of (.cannotFindName part.text (some fullName)) file part.range) ∨
        finding.NumberedAt [1002] file part.range := by
  induction rest generalizing current with
  | nil => cases h
  | cons part rest ih =>
    unfold Registry.followChain at h
    split at h
    · obtain ⟨later, hlater, hfound⟩ := ih h
      exact ⟨later, List.mem_cons_of_mem part hlater, hfound⟩
    · cases h
    · rename_i hstep
      cases h
      exact ⟨part, List.mem_cons_self, stepChain_broken hstep⟩

/-- The first name of a chain is reported only if it is neither a namespace nor an enum. -/
theorem resolveRoot_broken {enclosing : Option String} {root : Ident}
    (h : registry.resolveRoot file enclosing root = .broken finding) :
    registry.namespace? root.text enclosing = none ∧ registry.enum? root.text enclosing = none ∧
      finding = .of (.cannotFindName root.text none) file root.range := by
  unfold Registry.resolveRoot at h
  split at h
  · cases h
  · rename_i hnamespace
    split at h
    · cases h
    · rename_i henum
      exact ⟨hnamespace, henum, (Followed.broken.inj h).symm⟩

/-- What is reported of a call is the number of its arguments, where the call stands. -/
theorem numberedAt_of_checkArity {range : Range} {callable : Callable} {count : Nat}
    (h : checkArity file range callable count = some finding) :
    finding.NumberedAt [1003, 1004] file range := by
  simp only [checkArity] at h
  split at h
  · cases h
  · cases h
    exact ⟨Finding.numbered_of rfl rfl _ _, rfl, rfl⟩

/-- Of a name that the tables bind, only the number of arguments of a call is reported, where the
chain stands. -/
theorem numberedAt_of_checkBound {chain : ChainUse} {root : Ident} {rest : List Ident}
    {bindings : List Binding}
    (h : checkBound registry file chain root rest bindings = some finding) :
    finding.NumberedAt [1003, 1004] file chain.range := by
  unfold checkBound at h
  split at h
  · split at h
    · split at h
      · exact numberedAt_of_checkArity h
      · cases h
    · cases h
  · cases h

/-- Of what a chain has reached, only that it is a namespace and the number of arguments of a call
are reported, where the chain stands. -/
theorem numberedAt_of_checkReached {chain : ChainUse} {target : Resolved}
    (h : checkReached file chain target = some finding) :
    finding.NumberedAt [1003, 1004] file chain.range := by
  cases target with
  | inNamespace fullName =>
    cases h
    exact ⟨Finding.numbered_of rfl rfl _ _, rfl, rfl⟩
  | callable callable =>
    simp only [checkReached] at h
    split at h
    · exact numberedAt_of_checkArity h
    · cases h
    · cases h
  | enum => cases h
  | declared => cases h

/-- What is found in a chain of names, with its number. -/
theorem found_of_checkChain {tables : Tables TableRef} {script : Script} {use : ChainUse}
    (h : checkChain registry tables script use = some finding) :
    FoundInChain registry tables script use finding ∧
      finding.Numbered [1001, 1002, 1003, 1004] := by
  -- all but missing names are told by their numbers and places
  have hother : ∀ {numbers : List Nat} {range : Range},
      finding.NumberedAt numbers script.path range → 1001 ∉ numbers →
      numbers ⊆ [1001, 1002, 1003, 1004] →
      range = use.range ∨ (∃ part ∈ use.parts, range = part.range) →
      FoundInChain registry tables script use finding ∧
        finding.Numbered [1001, 1002, 1003, 1004] := by
    rintro numbers range ⟨hnumbered, hfile, rfl⟩ hnot hsome hplace
    exact ⟨.other (hnumbered.elsewhere hnot) ⟨hfile, hplace⟩, hnumbered.mono hsome⟩
  unfold checkChain at h
  split at h
  · cases h
  · rename_i root rest hparts
    split at h
    · exact hother (numberedAt_of_checkBound h) (by decide) (by decide) (Or.inl rfl)
    · rename_i hlookup
      unfold checkUnbound at h
      split at h
      · rename_i hbroken
        cases h
        obtain ⟨hnamespace, henum, rfl⟩ := resolveRoot_broken hbroken
        exact ⟨.root hparts hlookup hnamespace henum, Finding.numbered_of rfl rfl _ _⟩
      · cases h
      · split at h
        · rename_i hbroken
          cases h
          obtain ⟨part, hpart, hfound⟩ := followChain_broken hbroken
          have hmem : part ∈ use.parts := by
            rw [hparts]
            exact List.mem_cons_of_mem root hpart
          rcases hfound with ⟨fullName, rfl⟩ | hnumbered
          · exact ⟨.inside hmem fullName, Finding.numbered_of rfl rfl _ _⟩
          · exact hother hnumbered (by decide) (by decide) (Or.inr ⟨part, hmem, rfl⟩)
        · cases h
        · exact hother (numberedAt_of_checkReached h) (by decide) (by decide) (Or.inl rfl)

/-- Every finding of the check of a chain is one of the kinds that are listed. -/
theorem foundInChain_of_checkChain {tables : Tables TableRef} {script : Script} {use : ChainUse}
    (h : checkChain registry tables script use = some finding) :
    FoundInChain registry tables script use finding := (found_of_checkChain h).1

namespace FoundInChain

variable {tables : Tables TableRef} {script : Script} {use : ChainUse}

/-- Findings of chains are in the catalogue. -/
theorem catalogued (h : FoundInChain registry tables script use finding) :
    finding.Catalogued := by
  cases h with
  | root => exact Finding.catalogued_of rfl _ _
  | inside => exact Finding.catalogued_of rfl _ _
  | other helse => exact helse.catalogued

/-- Findings of chains are located at the chain or at one of its parts. -/
theorem isWithin (h : FoundInChain registry tables script use finding) :
    finding.IsWithin script use := by
  cases h with
  | root hparts =>
    refine ⟨rfl, Or.inr ⟨_, ?_, rfl⟩⟩
    rw [hparts]
    exact List.mem_cons_self
  | inside hpart => exact ⟨rfl, Or.inr ⟨_, hpart, rfl⟩⟩
  | other _ hplace => exact hplace

end FoundInChain

/-- An object is made of something that is no class or that is not declared. -/
theorem checkNew_numbered {use : NewUse} (h : checkNew registry file use = some finding) :
    finding.Numbered [1005, 1006] := by
  simp only [checkNew] at h
  split at h
  · cases h
  · split at h <;> cases h <;> exact Finding.numbered_of rfl rfl _ _

end Names

/-- Of a signature the types of its result and its parameters are reported. -/
theorem checkSignature_numbered (registry : Registry) (file : String) (use : FuncUse) :
    AllNumbered [1007, 1008] (checkSignature registry file use) := by
  refine AllNumbered.append (.ofFilterMap fun note finding h => ?_)
    (.ofFilterMap fun param finding h => ?_)
  · split at h
    · cases h
    · cases h
      exact Finding.numbered_of rfl rfl _ _
  · split at h
    · cases h
    · split at h
      · cases h
      · cases h
        exact Finding.numbered_of rfl rfl _ _

/-- Node types are among what goes by `CreateObject`. -/
theorem checkNodeType_numbered (platform : Platform) (file : String) (args : List Expr) :
    AllNumbered [1020, 1021, 1022, 1023] (checkNodeType platform file args) := by
  unfold checkNodeType
  split
  · exact .nil
  · split
    · exact .nil
    · split
      · exact .nil
      · exact .singleton (Finding.numbered_once rfl rfl _ _)

/-- Objects of the platform are among what goes by `CreateObject`. -/
theorem checkObject_numbered (platform : Platform) (file : String) (object : PlatformObject)
    (call first : Expr) (rest : List Expr) :
    AllNumbered [1020, 1021, 1022, 1023] (checkObject platform file object call first rest) := by
  refine .append (.append ?_ (.ofMap fun note _ => Finding.numbered_once rfl rfl _ _)) ?_
  · split
    · exact .nil
    · exact .singleton (Finding.numbered_once rfl rfl _ _)
  · split
    · exact checkNodeType_numbered platform file rest
    · exact .nil

/-- All that is reported of `CreateObject` has one of four numbers, which are those that are listed
once. -/
theorem checkCreateObject_numbered (platform : Platform) (file : String) (call : Expr) :
    AllNumbered [1020, 1021, 1022, 1023] (checkCreateObject platform file call) := by
  unfold checkCreateObject
  split
  · split
    · exact .nil
    · split
      · exact .singleton (Finding.numbered_once rfl rfl _ _)
      · exact checkObject_numbered platform file _ _ _ _
  · exact .nil

/-- What is found in a script is found in a chain of names or is about something else. -/
theorem mem_checkInventory {tables : Tables TableRef} {inventory : Inventory} {finding : Finding}
    (hmem : finding ∈ checkInventory registry tables inventory) :
    (∃ use ∈ inventory.chains, checkChain registry tables inventory.script use = some finding) ∨
      finding.Numbered [1005, 1006, 1007, 1008, 1020, 1021, 1022, 1023] := by
  simp only [checkInventory, List.mem_append, List.mem_filterMap, List.mem_flatMap] at hmem
  rcases hmem with ((hchain | ⟨use, -, hnew⟩) | ⟨use, -, hsignature⟩) | ⟨call, -, hobject⟩
  · exact Or.inl hchain
  · exact Or.inr ((checkNew_numbered hnew).mono (by decide))
  · exact Or.inr ((checkSignature_numbered _ _ use finding hsignature).mono (by decide))
  · exact Or.inr ((checkCreateObject_numbered _ _ call finding hobject).mono (by decide))

/-- What the uses in a file are reported for, taken together. -/
theorem checkInventory_numbered (tables : Tables TableRef) (inventory : Inventory) :
    AllNumbered [1001, 1002, 1003, 1004, 1005, 1006, 1007, 1008, 1020, 1021, 1022, 1023]
      (checkInventory registry tables inventory) := by
  intro finding hmem
  rcases mem_checkInventory hmem with ⟨use, -, hchain⟩ | hother
  · exact (found_of_checkChain hchain).2.mono (by decide)
  · exact hother.mono (by decide)

/-! ## Enums -/

/-- Enums that were declared before have a number of their own. -/
theorem checkDuplicateEnums_numbered (registry : Registry) :
    AllNumbered [1024] (checkDuplicateEnums registry) := by
  refine .ofFlatMap fun key => ?_
  split
  · exact .nil
  · exact .ofMap fun other _ => (Finding.numbered_of rfl rfl _ _).withRelated _ _ _

/-- A value of an enum has the wrong type or is missing. -/
theorem checkEnumItem_numbered {file : String} {type : ValueType} {item : EnumItem}
    {finding : Finding} (h : checkEnumItem file type item = some finding) :
    finding.Numbered [1025, 1026] := by
  unfold checkEnumItem at h
  split at h
  · split at h
    · split at h
      · cases h
      · cases h
        exact Finding.numbered_of rfl rfl _ _
    · cases h
  · split at h
    · cases h
    · cases h
      exact Finding.numbered_of rfl rfl _ _

/-- The values of all enums of a scope are reported for these two reasons. -/
theorem checkEnumValues_numbered (registry : Registry) :
    AllNumbered [1025, 1026] (checkEnumValues registry) :=
  .ofFlatMap fun _ => .ofFlatMap fun _ => .ofFilterMap fun _ _ => checkEnumItem_numbered

/-! ## Classes -/

/-- Classes that were declared before have a number of their own. -/
theorem checkDuplicateClasses_numbered (registry : Registry) :
    AllNumbered [1010] (checkDuplicateClasses registry) := by
  refine .ofFlatMap fun key => ?_
  split
  · exact .nil
  · exact .ofMap fun other _ => (Finding.numbered_of rfl rfl _ _).withRelated _ _ _

namespace Hierarchy

variable (hierarchy : Hierarchy) (registry : Registry)

variable {hierarchy} in
/-- A class in a namespace that has the name of one outside has a number of its own. -/
theorem checkSharedName_numbered {decl : Declaration ClassDecl} {finding : Finding}
    (h : hierarchy.checkSharedName decl = some finding) : finding.Numbered [1011] := by
  unfold checkSharedName at h
  split at h
  · split at h
    · split at h
      · cases h
      · cases h
        exact (Finding.numbered_of rfl rfl _ _).withRelated _ _ _
    · cases h
  · cases h

variable {hierarchy} in
/-- Circles have a number of their own. -/
theorem reportCircle_numbered {circle : List String} {finding : Finding}
    (h : hierarchy.reportCircle circle = some finding) : finding.Numbered [1012] := by
  unfold reportCircle at h
  split at h
  · cases h
  · cases h
    exact Finding.numbered_of rfl rfl _ _

/-- What a member is compared with an inherited one for. -/
theorem checkOverride_numbered (decl ancestor : Declaration ClassDecl) (child base : Member) :
    AllNumbered [1013, 1014, 1015, 1016, 1017]
      (hierarchy.checkOverride registry decl ancestor child base) := by
  unfold checkOverride
  split
  · unfold checkField
    split
    · exact .nil
    · exact .singleton (Finding.numbered_of rfl rfl _ _)
  · unfold checkMethod
    refine .append ?_ ?_ <;> split
    · exact .nil
    · exact .singleton (Finding.numbered_of rfl rfl _ _)
    · exact .nil
    · exact .singleton (Finding.numbered_of rfl rfl _ _)
  · exact .singleton (Finding.numbered_of rfl rfl _ _)

/-- The members of a class are reported as duplicates or where they are compared with inherited
ones. -/
theorem checkMembersAfter_numbered (key : String) (decl : Declaration ClassDecl)
    (seen : List String) (members : List Member) :
    AllNumbered [1013, 1014, 1015, 1016, 1017]
      (hierarchy.checkMembersAfter registry key decl seen members) := by
  induction members generalizing seen with
  | nil => exact .nil
  | cons target rest ih =>
    unfold checkMembersAfter
    split
    · exact .cons (Finding.numbered_of rfl rfl _ _) (ih seen)
    · refine .append ?_ (ih _)
      unfold checkMember
      split
      · exact checkOverride_numbered hierarchy registry _ _ _ _
      · exact .nil

end Hierarchy

/-- A constructor is reported for what it does before the call of that of the parent, or for the
missing call. -/
theorem checkConstructor_numbered (decl : Declaration ClassDecl) :
    AllNumbered [1018, 1019] (checkConstructor decl) := by
  unfold checkConstructor
  split
  · refine .append (.ofMap fun _ _ => Finding.numbered_of rfl rfl _ _) ?_
    split
    · exact .nil
    · exact .singleton (Finding.numbered_of rfl rfl _ _)
  · exact .nil

/-- Types of fields have a number of their own, apart from that of types in signatures. -/
theorem checkFieldTypes_numbered (registry : Registry) (decl : Declaration ClassDecl) :
    AllNumbered [1009] (checkFieldTypes registry decl) := by
  refine .ofFilterMap fun field finding h => ?_
  split at h
  · cases h
  · split at h
    · split at h
      · cases h
      · cases h
        exact Finding.numbered_of rfl rfl _ _
    · cases h

/-- What is found in classes after the classes that are declared twice. -/
theorem checkClasses_eq_append (registry : Registry) :
    ∃ others, checkClasses registry = checkDuplicateClasses registry ++ others ∧
      AllNumbered [1009, 1011, 1012, 1013, 1014, 1015, 1016, 1017, 1018, 1019] others := by
  have hshared (hierarchy : Hierarchy) (decls : List (Declaration ClassDecl)) :
      AllNumbered [1011] (decls.filterMap hierarchy.checkSharedName) :=
    .ofFilterMap fun _ _ => Hierarchy.checkSharedName_numbered
  have hcircles (hierarchy : Hierarchy) : AllNumbered [1012] hierarchy.checkCircles :=
    .ofFilterMap fun _ _ => Hierarchy.reportCircle_numbered
  have hmembers (hierarchy : Hierarchy) :
      AllNumbered [1013, 1014, 1015, 1016, 1017] (hierarchy.checkMembers registry) :=
    .ofFlatMap fun _ => Hierarchy.checkMembersAfter_numbered _ _ _ _ _ _
  have hconstructors (decls : List (Declaration ClassDecl)) :
      AllNumbered [1018, 1019] (decls.flatMap checkConstructor) :=
    .ofFlatMap checkConstructor_numbered
  have hfields (decls : List (Declaration ClassDecl)) :
      AllNumbered [1009] (decls.flatMap (checkFieldTypes registry)) :=
    .ofFlatMap (checkFieldTypes_numbered registry)
  unfold checkClasses
  simp only [List.append_assoc]
  exact ⟨_, rfl, ((hshared _ _).mono (by decide)).append <|
    ((hcircles _).mono (by decide)).append <| ((hmembers _).mono (by decide)).append <|
    ((hconstructors _).mono (by decide)).append ((hfields _).mono (by decide))⟩

/-! ## Examinations -/

/-- What an examination finds is found in a chain of names or is about something else. -/
theorem mem_examineOn {chain : ScopeChain} {platform : Platform} {bench : Workbench}
    {finding : Finding} (hmem : finding ∈ (examineOn chain platform bench).1.findings) :
    (∃ inventory ∈ (takeInventories bench.inventories chain.sortedFiles).1,
        ∃ use ∈ inventory.chains, checkChain (Registry.build chain platform)
          ((Registry.build chain platform).link (freshExamination bench.tables) bench.tables)
          inventory.script use = some finding) ∨
      finding.Elsewhere := by
  rcases List.mem_append.mp hmem with hclass | hname
  · obtain ⟨others, hothers, hnumbered⟩ := checkClasses_eq_append (Registry.build chain platform)
    rw [hothers] at hclass
    rcases List.mem_append.mp hclass with hduplicate | hother
    · exact Or.inr ((checkDuplicateClasses_numbered _ finding hduplicate).elsewhere (by decide))
    · exact Or.inr ((hnumbered finding hother).elsewhere (by decide))
  · rcases List.mem_append.mp hname with hrest | hvalue
    · rcases List.mem_append.mp hrest with hscript | hduplicate
      · obtain ⟨inventory, hinventory, hfound⟩ := List.mem_flatMap.mp hscript
        exact (mem_checkInventory hfound).imp (fun huse => ⟨inventory, hinventory, huse⟩)
          fun hnumbered => hnumbered.elsewhere (by decide)
      · exact Or.inr ((checkDuplicateEnums_numbered _ finding hduplicate).elsewhere (by decide))
    · exact Or.inr ((checkEnumValues_numbered _ finding hvalue).elsewhere (by decide))

/-- Whatever workbench an examination is made on, its findings are listed in the way of their
numbers. -/
theorem examineOn_catalogued (chain : ScopeChain) (platform : Platform) (bench : Workbench) :
    AllCatalogued (examineOn chain platform bench).1.findings := by
  intro finding hmem
  rcases mem_examineOn hmem with ⟨inventory, -, use, -, hchain⟩ | helse
  · exact (foundInChain_of_checkChain hchain).catalogued
  · exact helse.catalogued

end ScopeCheck
