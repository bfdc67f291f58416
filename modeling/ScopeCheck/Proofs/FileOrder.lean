import ScopeCheck.Proofs.Relinking

/-!
# Findings do not depend on order

A chain may list the scripts of its scopes, and the scopes above, in any order, and a registry may
keep what is declared in any order that leaves the declarations of one key in theirs. None of this
can be told from what an examination finds (`findings_in_any_order`), as long as different scripts
have different keys: scripts are taken in the order of their keys, checks go through sorted keys,
and where bindings come in another order only their presence is asked for.
-/

namespace ScopeCheck

/-! ## Chains in another order -/

/-- A scope is another with its scripts in another order. -/
structure Scope.Reordered (left right : Scope) : Prop where
  /-- The scopes have one name. -/
  name : left.name = right.name
  /-- They are made for the same. -/
  kind : left.kind = right.kind
  /-- They extend the same component. -/
  parent : left.parent = right.parent
  /-- They have the same scripts. -/
  files : left.files.Perm right.files

/-- A chain is another with its scopes above, and the scripts of each scope, in another order. -/
structure ScopeChain.Reordered (left right : ScopeChain) : Prop where
  /-- The scope is the same but for the order of its scripts. -/
  scope : left.scope.Reordered right.scope
  /-- The scopes above, in some order, are the same but for the order of their scripts. -/
  ancestors : ∃ ordered, left.ancestors.Perm ordered ∧
    List.Forall₂ Scope.Reordered ordered right.ancestors

/-- A scope keeps its label when its files come in another order. -/
theorem Scope.Reordered.label_eq {left right : Scope} (h : left.Reordered right) :
    left.label = right.label := by
  rw [label, label, h.kind, h.name]

/-- Scopes with reordered files hold the same files together. -/
theorem flatMap_files_perm {scopes others : List Scope}
    (h : List.Forall₂ Scope.Reordered scopes others) :
    (scopes.flatMap Scope.files).Perm (others.flatMap Scope.files) := by
  induction h with
  | nil => exact List.Perm.refl _
  | cons hfirst _ ih =>
    rw [List.flatMap_cons, List.flatMap_cons]
    exact hfirst.files.append ih

namespace ScopeChain

/-- A reordered chain holds the same files. -/
theorem Reordered.files_perm {left right : ScopeChain} (h : left.Reordered right) :
    left.files.Perm right.files := by
  obtain ⟨ordered, hperm, hscopes⟩ := h.ancestors
  unfold files
  rw [List.flatMap_cons, List.flatMap_cons]
  exact h.scope.files.append ((hperm.flatMap_right _).trans (flatMap_files_perm hscopes))

/-- If keys tell scripts apart, no file of the chain is left out. -/
theorem mem_allFiles {chain : ScopeChain} (hkeys : Script.DistinctKeys chain.files)
    {file : Script} : file ∈ chain.allFiles ↔ file ∈ chain.files := by
  rw [allFiles_eq]
  exact ⟨fun hmem => (firstBy_sublist Script.key _).subset hmem, mem_firstBy_of_injOn _ hkeys⟩

/-- The scripts of a chain come in one order, whatever order they are listed in. -/
theorem sortedFiles_of_perm {left right : ScopeChain} (hkeys : Script.DistinctKeys left.files)
    (hperm : left.files.Perm right.files) : left.sortedFiles = right.sortedFiles := by
  have hkeys' : Script.DistinctKeys right.files := by
    intro script hscript other hother
    exact hkeys script (hperm.mem_iff.mpr hscript) other (hperm.mem_iff.mpr hother)
  refine sort_by_congr Script.key ?_ left.nodup_key_allFiles
  rw [List.perm_ext_iff_of_nodup left.nodup_key_allFiles.of_map right.nodup_key_allFiles.of_map]
  intro file
  rw [mem_allFiles hkeys, mem_allFiles hkeys', hperm.mem_iff]

end ScopeChain

/-! ## Findings -/

/-- Examines a scope on a workbench with a registry that is given. -/
def examineWith (registry : Registry) (chain : ScopeChain) (bench : Workbench) : ScopeFindings :=
  ⟨chain.scope.label, checkClasses registry ++ (examineNames registry bench).1⟩

/-- The registry depends on the name of the scope and on the sorted files only. -/
theorem Registry.build_congr {chain other : ScopeChain}
    (hname : chain.scope.name = other.scope.name)
    (hfiles : chain.sortedFiles = other.sortedFiles) (platform : Platform) :
    build chain platform = build other platform := by
  unfold build
  rw [hname, hfiles]

/-- A scope is examined alike with every registry that keeps the same under every key. -/
theorem examineWith_of_sameMaps {chain : ScopeChain} {platform : Platform} {registry : Registry}
    (h : (Registry.build chain platform).SameMaps registry) (bench : Workbench) :
    examineWith registry chain bench = (examineOn chain platform bench).1 := by
  have hnames : (examineNames (Registry.build chain platform) bench).1 =
      (examineNames registry bench).1 := by
    apply h.examineNames_eq (Registry.orderly_build chain platform) fun _ => rfl
    rw [h.files]
  rw [examineWith, ← h.checkClasses_eq, ← hnames]
  rfl

/-- The scripts of the scopes of a chain, and the scopes above, can be listed in any order, and what
is declared can be kept in any order across keys: the findings are the same, in the same order. -/
theorem findings_in_any_order {chain other : ScopeChain} (platform : Platform)
    (hkeys : Script.DistinctKeys chain.files) (horder : chain.Reordered other) :
    examine other platform = examine chain platform ∧
      ∀ registry, (Registry.build other platform).SameMaps registry →
        examineWith registry other (.ofScripts other.sortedFiles) = examine chain platform ∧
          ∀ bench, examineWith registry other bench = (examineOn chain platform bench).1 := by
  have hfiles := ScopeChain.sortedFiles_of_perm hkeys horder.files_perm
  have hbench : ∀ bench,
      (examineOn other platform bench).1 = (examineOn chain platform bench).1 := by
    intro bench
    have hbuild := Registry.build_congr horder.scope.name hfiles platform
    change ScopeFindings.mk other.scope.label _ = ScopeFindings.mk chain.scope.label _
    rw [hbuild, horder.scope.label_eq]
  have hexamine : examine other platform = examine chain platform := by
    rw [examine, examine, hbench, hfiles]
  refine ⟨hexamine, fun registry hregistry => ⟨?_, fun bench => ?_⟩⟩
  · rw [← hexamine]
    exact examineWith_of_sameMaps hregistry _
  · rw [← hbench]
    exact examineWith_of_sameMaps hregistry bench

/-! ## A chain in two orders -/

/-- The class that every script of the chain declares, on a line of its own. -/
def lampClass (path : String) (line : Nat) : Declaration ClassDecl :=
  Hierarchy.plainClass path line "Lamp" []

/-- A script with the class and a block of a namespace that declares one sub. -/
def lampScript (path : String) (line : Nat) (space name : String) : Script :=
  ⟨path, none, [.classDecl (lampClass path line).node (.onLine line 0 10),
    .namespaceDecl ⟨⟨[⟨space, .zero⟩], .zero⟩,
      [.functionDecl ⟨⟨name, .zero⟩, ⟨.sub, [], none, [], .zero⟩⟩ .zero]⟩ .zero]⟩

/-- The scripts of a component that extends two others. -/
def lampScripts : List Script :=
  [lampScript "lamp/off.bs" 0 "Lamps" "off", lampScript "lamp/on.bs" 1 "Lamps" "on"]

/-- The components that it extends. -/
def lampScopes : List Scope :=
  [.ofComponent "Light" "light.xml" .zero [lampScript "light.bs" 2 "lamps" "dim"] (some "Node"),
    .ofComponent "Node" "node.xml" .zero [lampScript "node.bs" 3 "Nodes" "find"] none]

/-- The component, with its scripts and the others in this order. -/
def lampChain : ScopeChain :=
  ⟨.ofComponent "Lamp" "lamp.xml" .zero lampScripts (some "Light"), lampScopes⟩

/-- The component, with its scripts and the others the other way round. -/
def lampChainReversed : ScopeChain :=
  ⟨.ofComponent "Lamp" "lamp.xml" .zero lampScripts.reverse (some "Light"), lampScopes.reverse⟩

/-- What is found for the class of the last script: it repeats that of the first. -/
def lampFinding : Finding :=
  (Finding.of (.duplicateClass "lamp.xml" "Lamp") "node.bs" (.onLine 3 6 4)).withRelated
    "'Lamp' is first declared here" "lamp/off.bs" (.onLine 0 6 4)

/-- The walk over such a script, with a bound on its depth that the kernel can count down. -/
theorem visits_lampScript (path : String) (line : Nat) (space name : String) :
    (lampScript path line space name).visits =
      (lampScript path line space name).body.zipIdx.flatMap fun entry =>
        (Node.statement entry.1).visitsTo 3 [] [entry.2] :=
  Script.visits_eq_visitsTo 3 rfl

/-- The four files have different keys. -/
theorem nodup_key_lampFiles : (lampChain.files.map Script.key).Nodup := by decide +kernel

/-- Files and ancestors of the second chain come in another order. -/
theorem reordered_lampChain : lampChain.Reordered lampChainReversed := by
  refine ⟨⟨rfl, rfl, rfl, (List.reverse_perm _).symm⟩, _, (List.reverse_perm _).symm, ?_⟩
  exact List.forall₂_same.mpr fun scope _ => ⟨rfl, rfl, rfl, List.Perm.refl _⟩

/-- The functions of the chain have different keys. -/
theorem nodup_key_lampFunctions {chain : ScopeChain}
    (hfiles : lampChain.files.Perm chain.files) (platform : Platform) :
    ((Registry.build chain platform).functions.map Declaration.key).Nodup := by
  have hlisted : ((lampChain.files.flatMap Script.functions).map Declaration.key).Nodup := by
    simp only [lampChain, lampScripts, lampScopes, ScopeChain.files, Scope.ofComponent,
      List.flatMap_cons, List.flatMap_nil, List.append_nil, List.cons_append, List.nil_append,
      Script.functions, Script.topLevel, visits_lampScript]
    decide +kernel
  have hnodup : (chain.files.map Script.key).Nodup :=
    (hfiles.map Script.key).nodup_iff.mp nodup_key_lampFiles
  have hall : chain.allFiles = chain.files := by
    rw [ScopeChain.allFiles_eq]
    exact firstBy_of_nodup Script.key hnodup
  have hperm : chain.sortedFiles.Perm lampChain.files := by
    rw [← hall] at hfiles
    exact chain.perm_sortedFiles.trans hfiles.symm
  exact ((hperm.flatMap_right Script.functions).map Declaration.key).nodup_iff.mpr hlisted

/-- Functions with different keys can be kept the other way round. -/
theorem Registry.sameMaps_reverse {registry : Registry}
    (hnodup : (registry.functions.map Declaration.key).Nodup) :
    registry.SameMaps { registry with functions := registry.functions.reverse } := by
  refine { SameMaps.refl registry with functions := fun key => ?_ }
  have hone := filter_firstBy Declaration.key registry.functions key
  rw [firstBy_of_nodup Declaration.key hnodup] at hone
  rw [declaredAs, declaredAs, List.filter_reverse, hone]
  cases registry.functions.find? fun decl => decl.key = key <;> rfl

/-- The files of the first chain are already sorted. -/
theorem sortedFiles_lampChain : lampChain.sortedFiles = lampChain.files := by
  have hall : lampChain.allFiles = lampChain.files := by
    rw [ScopeChain.allFiles_eq]
    exact firstBy_of_nodup Script.key nodup_key_lampFiles
  rw [ScopeChain.sortedFiles, hall]
  exact List.mergeSort_of_pairwise (by decide +kernel)

/-- Each of the four files declares the class. -/
theorem classes_lampChain (platform : Platform) :
    (Registry.build lampChain platform).classes =
      [lampClass "lamp/off.bs" 0, lampClass "lamp/on.bs" 1, lampClass "light.bs" 2,
        lampClass "node.bs" 3] := by
  have hclasses : ∀ path line space name,
      (lampScript path line space name).classes = [lampClass path line] := by
    intro path line space name
    rw [Script.classes, Script.topLevel, visits_lampScript]
    rfl
  change lampChain.sortedFiles.flatMap Script.classes = _
  rw [sortedFiles_lampChain]
  simp only [lampChain, lampScripts, lampScopes, ScopeChain.files, Scope.ofComponent,
    List.flatMap_cons, List.flatMap_nil, List.cons_append, List.nil_append, hclasses]

/-- The class that all scripts declare is reported where it is not declared first. -/
theorem lampFinding_mem : lampFinding ∈ (examine lampChain (.withNodes [])).findings := by
  have hkey : ∀ path line, (lampClass path line).key = "lamp" := by
    intro path line
    have hlower : Text.lower "Lamp" = "lamp" := by decide +kernel
    exact hlower
  have hdeclared : declaredAs (Registry.build lampChain (.withNodes [])).classes "lamp" =
      [lampClass "lamp/off.bs" 0, lampClass "lamp/on.bs" 1, lampClass "light.bs" 2,
        lampClass "node.bs" 3] := by
    simp [classes_lampChain, declaredAs, hkey]
  have hrepeated := mem_checkDuplicateClasses hdeclared
    (List.mem_cons_of_mem _ (List.mem_cons_of_mem _ List.mem_cons_self))
  have hmem : lampFinding ∈ checkDuplicateClasses (Registry.build lampChain (.withNodes [])) :=
    hrepeated
  apply List.mem_append_left
  simp only [checkClasses, List.mem_append, hmem, true_or]

/-- The chain the other way round, examined with a registry that keeps its functions the other way
round: the same is found, though the class is declared last where it was declared first. -/
theorem lampChain_in_any_order :
    Script.DistinctKeys lampChain.files ∧ lampChain.Reordered lampChainReversed ∧
      examineWith
        { Registry.build lampChainReversed (.withNodes []) with
          functions := (Registry.build lampChainReversed (.withNodes [])).functions.reverse }
        lampChainReversed (.ofScripts lampChainReversed.sortedFiles) =
      examine lampChain (.withNodes []) ∧
      lampFinding ∈ (examine lampChain (.withNodes [])).findings ∧
      lampFinding ∈ (examine lampChainReversed (.withNodes [])).findings := by
  have hkeys := Script.distinctKeys_of_nodup nodup_key_lampFiles
  have hnodup := nodup_key_lampFunctions reordered_lampChain.files_perm (.withNodes [])
  have hany := findings_in_any_order (.withNodes []) hkeys reordered_lampChain
  exact ⟨hkeys, reordered_lampChain, (hany.2 _ (Registry.sameMaps_reverse hnodup)).1,
    lampFinding_mem, by rw [hany.1]; exact lampFinding_mem⟩

end ScopeCheck
