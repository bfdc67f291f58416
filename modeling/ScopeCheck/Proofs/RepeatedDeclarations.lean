import ScopeCheck.Proofs.FindingPlaces
import ScopeCheck.Proofs.Sites

/-!
# Declarations of one name

Several statements may declare one name. The registry of a chain lists them under the key of the
name, site by site, and the functions of the scripts come before that of the platform. Whoever asks
for the name is given the head of the list, and a class or an enum that is not at the head is
reported, once, with a reference to the head. So lookups, links and reports agree on which of the
declarations counts (`Registry.build_lists_declarations`).
-/

namespace ScopeCheck

/-! ## Heads -/

/-- The members of a list after its head, each with the head. -/
def pairedWithHead {β : Type} : List β → List (β × β)
  | [] => []
  | first :: others => others.map fun other => (first, other)

section PairedWithHead

variable {β γ : Type}

/-- All but the head are paired with it. -/
theorem map_snd_pairedWithHead (list : List β) :
    (pairedWithHead list).map Prod.snd = list.tail := by
  cases list with
  | nil => rfl
  | cons first others =>
    rw [pairedWithHead, List.map_map]
    exact List.map_id others

/-- A pair is the head with one of the others. -/
theorem mem_pairedWithHead {list : List β} {first other : β} :
    (first, other) ∈ pairedWithHead list ↔ ∃ others, list = first :: others ∧ other ∈ others := by
  cases list with
  | nil => simp [pairedWithHead]
  | cons head rest => simp [pairedWithHead, and_comm]

/-- Entries may be changed before or after they are paired. -/
theorem pairedWithHead_map (change : β → γ) (list : List β) :
    pairedWithHead (list.map change) = (pairedWithHead list).map (Prod.map change change) := by
  cases list with
  | nil => rfl
  | cons first others => simp [pairedWithHead]

end PairedWithHead

/-- A lookup gives the head of what is listed: inside of the namespace around, if there is one and
if something is listed there, and outside of all namespaces otherwise. -/
structure GivesHeads {β : Type} (listed : String → List β)
    (get : String → Option String → Option β) : Prop where
  /-- Outside of all namespaces. -/
  outside : ∀ name, get name none = (listed (Text.lower name)).head?
  /-- Inside of a namespace. -/
  inside : ∀ name outer, outer ≠ "" → get name (some outer) =
    ((listed s!"{Text.lower outer}.{Text.lower name}").head?).or (listed (Text.lower name)).head?
  /-- A namespace without a name is none. -/
  nameless : ∀ name, get name (some "") = get name none

/-- A lookup by keys gives the first of what is listed under the first key with anything. -/
theorem givesHeads_of_lookupKeys {β : Type} {listed : String → List β}
    {get : String → Option String → Option β}
    (hget : ∀ name enclosing, get name enclosing =
      (lookupKeys name enclosing).findSome? fun key => (listed key).head?) :
    GivesHeads listed get := by
  refine ⟨fun name => ?_, fun name outer houter => ?_, fun name => ?_⟩
  · rw [hget, lookupKeys, List.findSome?_singleton]
  · have hfull : outer.isEmpty = false := by simpa using houter
    rw [hget, lookupKeys, hfull]
    simp only [Bool.false_eq_true, if_false, List.findSome?_cons, List.findSome?_nil]
    cases (listed s!"{Text.lower outer}.{Text.lower name}").head? with
    | none => cases (listed (Text.lower name)).head? <;> rfl
    | some first => rfl
  · rw [hget, hget]
    rfl

/-- Lookups of declarations give heads. -/
theorem givesHeads_firstDeclared {α : Type} (decls : List (Declaration α)) :
    GivesHeads (declaredAs decls) (firstDeclared decls) := by
  refine givesHeads_of_lookupKeys fun name enclosing => ?_
  simp only [firstDeclared, declaredAs, List.head?_filter]

/-! ## Declarations under a key -/

/-- What is listed under each key are the declarations of a kind with this key that some scripts
make, in the order of their sites. -/
def DeclKind.ListedIn {α : Type} (kind : DeclKind α) (scripts : List Script)
    (listed : String → List (Declaration α)) : Prop :=
  ∀ key decls, decls = listed key ↔ ListsBySite scripts decls
    fun site decl => site.Declares kind decl ∧ decl.key = key

/-- If declarations are listed by site, so are those under each key. -/
theorem DeclKind.listedIn {α : Type} {kind : DeclKind α} {scripts : List Script}
    {decls : List (Declaration α)} (h : ListsBySite scripts decls (Site.Declares kind)) :
    kind.ListedIn scripts (declaredAs decls) := by
  intro key listed
  have hkey : ListsBySite scripts (declaredAs decls key)
      fun site decl => site.Declares kind decl ∧ decl.key = key :=
    (h.filter _).congr (fun _ => Iff.rfl)
      fun _ _ => and_congr_right fun _ => decide_eq_true_iff
  exact hkey.iff_eq.symm

/-- The platform has one function of a name at most. -/
theorem nodup_globalFunctions :
    (globalFunctions.map fun function => Text.lower function.name).Nodup := by
  decide +kernel

/-- Where keys are distinct, a key has one member at most. -/
theorem filter_eq_toList_find? {β κ : Type} [DecidableEq κ] (keyOf : β → κ) {list : List β}
    (hnodup : (list.map keyOf).Nodup) (key : κ) :
    (list.filter fun item => keyOf item = key) =
      (list.find? fun item => keyOf item = key).toList := by
  induction list with
  | nil => rfl
  | cons first rest ih =>
    obtain ⟨hnew, hrest⟩ := List.nodup_cons.mp hnodup
    by_cases hfirst : keyOf first = key
    · have hnone : (rest.filter fun item => keyOf item = key) = [] := by
        refine List.filter_eq_nil_iff.mpr fun item hitem hkey => hnew ?_
        rw [hfirst, ← of_decide_eq_true hkey]
        exact List.mem_map_of_mem hitem
      simp [hfirst, hnone]
    · simp [hfirst, ih hrest]

/-- The functions of the scripts under a key come before that of the platform. -/
theorem Registry.callables_under (registry : Registry) (key : String) :
    ∃ platform : Option GlobalFunction,
      (∀ function, platform = some function ↔
        function ∈ globalFunctions ∧ Text.lower function.name = key) ∧
      (registry.callables.filter fun callable => callable.key = key) =
        (declaredAs registry.functions key).map .declared ++
          platform.toList.map .ofPlatform := by
  have hfilter := filter_eq_toList_find? (fun function : GlobalFunction =>
    Text.lower function.name) nodup_globalFunctions key
  refine ⟨globalFunctions.find? fun function => Text.lower function.name = key,
    fun function => ?_, ?_⟩
  · rw [← Option.mem_toList, ← hfilter, List.mem_filter, decide_eq_true_iff]
  · have hdeclared : (fun callable : Callable => decide (callable.key = key)) ∘ .declared =
        fun decl => decide (decl.key = key) := rfl
    have hplatform : (fun callable : Callable => decide (callable.key = key)) ∘ .ofPlatform =
        fun function => decide (Text.lower function.name = key) := rfl
    rw [callables, List.filter_append, List.filter_map, List.filter_map, hdeclared, hplatform,
      hfilter, declaredAs]

/-! ## Repeats -/

/-- A declaration repeats another, which is the first one of the name. -/
structure Repeats {α : Type} (kind : DeclKind α) (scripts : List Script)
    (first other : Site × Declaration α) : Prop where
  /-- The first one is declared at its site. -/
  declaresFirst : first.1.In scripts ∧ first.1.Declares kind first.2
  /-- So is the other. -/
  declaresOther : other.1.In scripts ∧ other.1.Declares kind other.2
  /-- Both have one name. -/
  sameKey : first.2.key = other.2.key
  /-- The other comes later. -/
  later : first.1.Precedes other.1
  /-- Nothing of the name comes before the first one. -/
  isFirst : ∀ site decl, site.In scripts → site.Declares kind decl → decl.key = first.2.key →
    site = first.1 ∨ first.1.Precedes site

/-- The findings are one report for each declaration that repeats another, with the first one of the
name. -/
def ReportsRepeats {α : Type} (kind : DeclKind α) (scripts : List Script)
    (report : Declaration α → Declaration α → Finding) (findings : List Finding) : Prop :=
  ∃ pairs : List ((Site × Declaration α) × (Site × Declaration α)),
    (pairs.map Prod.snd).Nodup ∧
    (∀ first other, (first, other) ∈ pairs ↔ Repeats kind scripts first other) ∧
    findings = pairs.map fun pair => report pair.1.2 pair.2.2

/-- Reports what is declared under each key after the first. -/
def reportRepeats {α : Type} (report : Declaration α → Declaration α → Finding)
    (decls : List (Declaration α)) : List Finding :=
  (sortedKeys decls).flatMap fun key =>
    (pairedWithHead (declaredAs decls key)).map fun pair => report pair.1 pair.2

section Placed

variable {α : Type} {kind : DeclKind α} {scripts : List Script}
  {placed : List (Site × Declaration α)}
  (horder : placed.Pairwise fun left right => left.1.Precedes right.1)

/-- The declarations under a key, at their sites. -/
def placedUnder (placed : List (Site × Declaration α)) (key : String) :
    List (Site × Declaration α) :=
  placed.filter fun place => place.2.key = key

/-- The declarations under a key, with their sites. -/
theorem mem_placedUnder {place : Site × Declaration α} {key : String} :
    place ∈ placedUnder placed key ↔ place ∈ placed ∧ place.2.key = key := by
  rw [placedUnder, List.mem_filter, decide_eq_true_iff]

include horder in
/-- What is listed first under a key comes before all else under the key. -/
theorem mem_pairedWithHead_placed {first other : Site × Declaration α} {key : String} :
    (first, other) ∈ pairedWithHead (placedUnder placed key) ↔
      first ∈ placedUnder placed key ∧ other ∈ placedUnder placed key ∧
        first.1.Precedes other.1 ∧
        ∀ place ∈ placedUnder placed key, place = first ∨ first.1.Precedes place.1 := by
  have hunder : (placedUnder placed key).Pairwise fun left right => left.1.Precedes right.1 :=
    horder.filter _
  rw [mem_pairedWithHead]
  constructor
  · rintro ⟨others, hlist, hother⟩
    rw [hlist] at hunder ⊢
    have hafter := (List.pairwise_cons.mp hunder).1
    refine ⟨List.mem_cons_self, List.mem_cons_of_mem first hother, hafter other hother, ?_⟩
    intro place hplace
    exact (List.mem_cons.mp hplace).imp_right (hafter place)
  · rintro ⟨hfirst, hother, hlater, hall⟩
    obtain ⟨head, rest, hlist⟩ := List.exists_cons_of_ne_nil (List.ne_nil_of_mem hfirst)
    rw [hlist] at hunder hfirst hother hall
    -- the head comes before what is not the head, so nothing else can come before all
    have hhead : head = first := by
      rcases hall head List.mem_cons_self with heq | hbefore
      · exact heq
      · rcases List.mem_cons.mp hfirst with heq | hrest
        · exact heq.symm
        · exact absurd hbefore ((List.pairwise_cons.mp hunder).1 first hrest).asymm
    subst hhead
    refine ⟨rest, hlist, (List.mem_cons.mp hother).resolve_left ?_⟩
    rintro rfl
    exact hlater.ne rfl

/-- The declarations that repeat another, each with the first one of its name. -/
def repeatsAmong (placed : List (Site × Declaration α)) :
    List ((Site × Declaration α) × (Site × Declaration α)) :=
  (sortedKeys (placed.map Prod.snd)).flatMap fun key => pairedWithHead (placedUnder placed key)

include horder in
/-- No declaration is listed twice. -/
theorem nodup_repeatsAmong : ((repeatsAmong placed).map Prod.snd).Nodup := by
  have hplaced : placed.Nodup := horder.imp fun h heq => h.ne (congrArg Prod.fst heq)
  simp only [repeatsAmong, List.map_flatMap, map_snd_pairedWithHead]
  refine List.nodup_flatMap.mpr
    ⟨fun key _ => ?_, (nodup_sortedKeys (placed.map Prod.snd)).imp fun {left right} hne => ?_⟩
  · exact (hplaced.filter _).sublist (List.tail_sublist _)
  · intro place hleft hright
    have hleftKey := (mem_placedUnder.mp (List.mem_of_mem_tail hleft)).2
    have hrightKey := (mem_placedUnder.mp (List.mem_of_mem_tail hright)).2
    exact hne (hleftKey.symm.trans hrightKey)

include horder in
/-- The pairs that are formed are a declaration and the first one of its name. -/
theorem mem_repeatsAmong
    (hmem : ∀ site decl, (site, decl) ∈ placed ↔ site.In scripts ∧ site.Declares kind decl)
    {first other : Site × Declaration α} :
    (first, other) ∈ repeatsAmong placed ↔ Repeats kind scripts first other := by
  simp only [repeatsAmong, List.mem_flatMap, mem_pairedWithHead_placed horder, mem_placedUnder,
    mem_sortedKeys]
  constructor
  · rintro ⟨key, -, ⟨hfirst, rfl⟩, ⟨hother, hkey⟩, hlater, hall⟩
    refine ⟨(hmem _ _).mp hfirst, (hmem _ _).mp hother, hkey.symm, hlater, ?_⟩
    intro site decl hin hdeclares hsame
    exact (hall (site, decl) ⟨(hmem site decl).mpr ⟨hin, hdeclares⟩, hsame⟩).imp_left
      (congrArg Prod.fst)
  · rintro ⟨hfirst, hother, hkey, hlater, hall⟩
    have hlisted : first ∈ placed := (hmem _ _).mpr hfirst
    refine ⟨first.2.key, ⟨first.2, List.mem_map_of_mem hlisted, rfl⟩, ⟨hlisted, rfl⟩,
      ⟨(hmem _ _).mpr hother, hkey.symm⟩, hlater, ?_⟩
    rintro ⟨site, decl⟩ ⟨hplace, hsame⟩
    obtain ⟨hin, hdeclares⟩ := (hmem site decl).mp hplace
    -- a site makes one declaration of a kind, so one site is one place
    refine (hall site decl hin hdeclares hsame).imp_left fun hsite => ?_
    have hdecl := kind.declares_iff.mp hdeclares
    rw [hsite, kind.declares_iff.mp hfirst.2] at hdecl
    exact Prod.ext hsite (Option.some.inj hdecl).symm

/-- Each such pair is reported, and nothing else. -/
theorem reportRepeats_eq_map (report : Declaration α → Declaration α → Finding) :
    reportRepeats report (placed.map Prod.snd) =
      (repeatsAmong placed).map fun pair => report pair.1.2 pair.2.2 := by
  rw [reportRepeats, repeatsAmong, List.map_flatMap]
  refine List.flatMap_congr fun key _ => ?_
  have hunder : declaredAs (placed.map Prod.snd) key = (placedUnder placed key).map Prod.snd := by
    rw [declaredAs, List.filter_map]
    rfl
  rw [hunder, pairedWithHead_map, List.map_map]
  rfl

end Placed

/-- What is reported of declarations that are listed site by site. -/
theorem ListsBySite.reportsRepeats {α : Type} {kind : DeclKind α} {scripts : List Script}
    {decls : List (Declaration α)} (h : ListsBySite scripts decls (Site.Declares kind))
    (report : Declaration α → Declaration α → Finding) :
    ReportsRepeats kind scripts report (reportRepeats report decls) := by
  obtain ⟨placed, rfl, horder, hmem⟩ := h
  exact ⟨repeatsAmong placed, nodup_repeatsAmong horder, fun _ _ => mem_repeatsAmong horder hmem,
    reportRepeats_eq_map report⟩

/-- The report of a class that is declared again. -/
def repeatedClass (scope : String) (first other : Declaration ClassDecl) : Finding :=
  (Finding.of (.duplicateClass scope other.fullName) other.file other.name.range).withRelated
    s!"'{first.fullName}' is first declared here" first.file first.name.range

/-- The report of an enum that is declared again. -/
def repeatedEnum (scope : String) (first other : Declaration EnumDecl) : Finding :=
  (Finding.of (.duplicateEnum scope other.fullName) other.file other.name.range).withRelated
    s!"Enum '{first.fullName}' is first declared here" first.file first.name.range

/-- The check of classes reports repeats. -/
theorem checkDuplicateClasses_eq (registry : Registry) :
    checkDuplicateClasses registry =
      reportRepeats (repeatedClass registry.scopeName) registry.classes := by
  refine List.flatMap_congr fun key _ => ?_
  cases declaredAs registry.classes key with
  | nil => rfl
  | cons first others =>
    rw [pairedWithHead, List.map_map]
    rfl

/-- The check of enums reports repeats. -/
theorem checkDuplicateEnums_eq (registry : Registry) :
    checkDuplicateEnums registry =
      reportRepeats (repeatedEnum registry.scopeName) registry.enums := by
  refine List.flatMap_congr fun key _ => ?_
  cases declaredAs registry.enums key with
  | nil => rfl
  | cons first others =>
    rw [pairedWithHead, List.map_map]
    rfl

/-- Of what is found in classes, the repeats are those of classes. -/
theorem withNumber_checkClasses (registry : Registry) :
    withNumber 1010 (checkClasses registry) = checkDuplicateClasses registry ∧
      withNumber 1024 (checkClasses registry) = [] := by
  obtain ⟨others, hothers, hnumbered⟩ := checkClasses_eq_append registry
  have hrepeats := checkDuplicateClasses_numbered registry
  rw [hothers, withNumber_append, withNumber_append, hrepeats.withNumber_eq_self,
    hrepeats.withNumber_eq_nil (by decide), hnumbered.withNumber_eq_nil (by decide),
    hnumbered.withNumber_eq_nil (by decide), List.append_nil]
  exact ⟨rfl, rfl⟩

/-- Of what is found in scripts and enums, the repeats are those of enums. -/
theorem withNumber_examineNames (registry : Registry) (bench : Workbench) :
    withNumber 1024 (examineNames registry bench).1 = checkDuplicateEnums registry ∧
      withNumber 1010 (examineNames registry bench).1 = [] := by
  have hscripts (inventories : List Inventory) (tables : Tables TableRef) :
      AllNumbered [1001, 1002, 1003, 1004, 1005, 1006, 1007, 1008, 1020, 1021, 1022, 1023]
        (inventories.flatMap (checkInventory registry tables)) :=
    .ofFlatMap (checkInventory_numbered tables)
  have hrepeats := checkDuplicateEnums_numbered registry
  have hvalues := checkEnumValues_numbered registry
  simp only [examineNames, checkNames, withNumber_append]
  rw [(hscripts _ _).withNumber_eq_nil (by decide), (hscripts _ _).withNumber_eq_nil (by decide),
    hrepeats.withNumber_eq_self, hrepeats.withNumber_eq_nil (by decide),
    hvalues.withNumber_eq_nil (by decide), hvalues.withNumber_eq_nil (by decide), List.nil_append,
    List.append_nil]
  exact ⟨rfl, rfl⟩

/-! ## The registry of a chain -/

namespace Registry

/-- The lists of a registry hold, under each key, what some scripts declare, site by site. Under the
key of a function that the platform has, that function stands at the end. -/
structure ListsDeclarations (registry : Registry) (scripts : List Script) : Prop where
  /-- Classes. -/
  classes : DeclKind.ofClass.ListedIn scripts (declaredAs registry.classes)
  /-- Enums. -/
  enums : DeclKind.ofEnum.ListedIn scripts (declaredAs registry.enums)
  /-- Constants. -/
  consts : DeclKind.ofConst.ListedIn scripts (declaredAs registry.consts)
  /-- Interfaces. -/
  interfaces : DeclKind.ofInterface.ListedIn scripts (declaredAs registry.interfaces)
  /-- Functions. -/
  callables : ∃ (functions : String → List (Declaration FunctionDecl))
      (platform : String → Option GlobalFunction),
    DeclKind.ofFunction.ListedIn scripts functions ∧
    (∀ key function, platform key = some function ↔
      function ∈ globalFunctions ∧ Text.lower function.name = key) ∧
    ∀ key, (registry.callables.filter fun callable => callable.key = key) =
      (functions key).map .declared ++ (platform key).toList.map .ofPlatform

/-- The lookups of a registry give the heads of its lists. -/
structure LooksUpHeads (registry : Registry) : Prop where
  /-- Classes. -/
  classes : GivesHeads (declaredAs registry.classes) registry.class?
  /-- Enums. -/
  enums : GivesHeads (declaredAs registry.enums) registry.enum?
  /-- Constants. -/
  consts : GivesHeads (declaredAs registry.consts) registry.const?
  /-- Interfaces. -/
  interfaces : GivesHeads (declaredAs registry.interfaces) registry.interface?
  /-- Functions of scripts and of the platform. -/
  callables : GivesHeads
    (fun key => registry.callables.filter fun callable => callable.key = key) registry.callable?

/-- A registry answers every lookup by the first declaration under a key. -/
theorem looksUpHeads (registry : Registry) : registry.LooksUpHeads where
  classes := givesHeads_firstDeclared registry.classes
  enums := givesHeads_firstDeclared registry.enums
  consts := givesHeads_firstDeclared registry.consts
  interfaces := givesHeads_firstDeclared registry.interfaces
  callables := by
    refine givesHeads_of_lookupKeys fun name enclosing => ?_
    simp only [callable?, List.head?_filter]

section Build

variable {chain : ScopeChain} (platform : Platform) (hkeys : Script.DistinctKeys chain.files)
include hkeys

/-- What the scripts of a chain declare of a kind is listed site by site. -/
theorem listsBySite_declared {α : Type} (kind : DeclKind α)
    {decls : Script → List (Declaration α)}
    (hdecls : ∀ script, decls script = script.declaredAs kind.node? kind.nameOf) :
    ListsBySite chain.files (chain.sortedFiles.flatMap decls) (Site.Declares kind) :=
  (kind.listsBySite chain hdecls).congr
    (fun _ => ScopeChain.mem_sortedFiles_of_distinctKeys hkeys) fun _ _ => Iff.rfl

/-- The registry of a scope lists all declarations of its files, in the order of their sites. -/
theorem listsDeclarations_build : (build chain platform).ListsDeclarations chain.files where
  classes := DeclKind.listedIn (listsBySite_declared hkeys .ofClass Script.classes_eq)
  enums := DeclKind.listedIn (listsBySite_declared hkeys .ofEnum Script.enums_eq)
  consts := DeclKind.listedIn (listsBySite_declared hkeys .ofConst Script.consts_eq)
  interfaces := DeclKind.listedIn (listsBySite_declared hkeys .ofInterface Script.interfaces_eq)
  callables := by
    choose found hfound hunder using (build chain platform).callables_under
    exact ⟨declaredAs (build chain platform).functions, found,
      DeclKind.listedIn (listsBySite_declared hkeys .ofFunction Script.functions_eq),
      hfound, hunder⟩

end Build

/-- Under every key the registry of a chain lists what is declared at file level and in blocks, each
site once, in the order of files and places; lookups give the heads of these lists; and the classes
and enums that are reported as declared again, under the numbers 1010 and 1024, are those that are
not at the head, each once and with a reference to the head. -/
theorem build_lists_declarations (chain : ScopeChain) (platform : Platform) (bench : Workbench)
    (hkeys : Script.DistinctKeys chain.files) :
    (build chain platform).ListsDeclarations chain.files ∧
    (build chain platform).LooksUpHeads ∧
    ReportsRepeats .ofClass chain.files (repeatedClass chain.scope.name)
      (withNumber 1010 (checkClasses (build chain platform))) ∧
    ReportsRepeats .ofEnum chain.files (repeatedEnum chain.scope.name)
      (withNumber 1024 (examineNames (build chain platform) bench).1) ∧
    withNumber 1024 (checkClasses (build chain platform)) = [] ∧
    withNumber 1010 (examineNames (build chain platform) bench).1 = [] := by
  obtain ⟨hclasses, hnoEnums⟩ := withNumber_checkClasses (build chain platform)
  obtain ⟨henums, hnoClasses⟩ := withNumber_examineNames (build chain platform) bench
  refine ⟨listsDeclarations_build platform hkeys, looksUpHeads _, ?_, ?_, hnoEnums, hnoClasses⟩
  · rw [hclasses, checkDuplicateClasses_eq]
    exact (listsBySite_declared hkeys .ofClass Script.classes_eq).reportsRepeats _
  · rw [henums, checkDuplicateEnums_eq]
    exact (listsBySite_declared hkeys .ofEnum Script.enums_eq).reportsRepeats _

end Registry

/-- The two files have different keys. -/
theorem distinctKeys_twinsChain : Script.DistinctKeys twinsChain.files :=
  Script.distinctKeys_of_nodup (by decide +kernel)

/-- The class that two scripts declare is reported in the second one, since it repeats the first. -/
theorem twin_repeats : Script.DistinctKeys twinsChain.files ∧
    ∃ first other, Repeats .ofClass twinsChain.files first other ∧
      twinFinding = repeatedClass "source" first.2 other.2 := by
  obtain ⟨-, -, ⟨pairs, -, hpairs, hreports⟩, -⟩ := Registry.build_lists_declarations twinsChain
    (.withNodes []) (.ofScripts []) distinctKeys_twinsChain
  rw [(withNumber_checkClasses _).1] at hreports
  have hmem := twinFinding_mem
  rw [hreports] at hmem
  obtain ⟨pair, hpair, hreport⟩ := List.mem_map.mp hmem
  exact ⟨distinctKeys_twinsChain, pair.1, pair.2, (hpairs pair.1 pair.2).mp hpair, hreport.symm⟩

end ScopeCheck
