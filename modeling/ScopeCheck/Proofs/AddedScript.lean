import ScopeCheck.Proofs.Declared
import ScopeCheck.Proofs.Routes
import ScopeCheck.Proofs.Shadowing
import ScopeCheck.Proofs.VisibleNames

/-!
# Adding a script to a scope

A script that joins a scope brings declarations and takes none away: what a registry lists of the
scope, the larger registry lists too (`Registry.Within`). So every first name of a chain that led
somewhere still does, through the tables, as a namespace or as an enum, though perhaps to something
else. After a script is added, the first names that lead nowhere are among those that did before
(`added_script_loses_no_name`). Further names of a chain are another matter: what the first name
leads to may have changed.
-/

namespace ScopeCheck

/-! ## Larger registries -/

namespace Registry

/-- Everything that one registry lists of scripts, blocks, functions, enums and namespaces, another
lists too. -/
structure Within (small large : Registry) : Prop where
  /-- The scripts. -/
  files : small.files ⊆ large.files
  /-- The blocks. -/
  blocks : small.blocks ⊆ large.blocks
  /-- The functions. -/
  functions : small.functions ⊆ large.functions
  /-- The enums. -/
  enums : small.enums ⊆ large.enums
  /-- The namespaces. -/
  namespaces : small.namespaces.keys ⊆ large.namespaces.keys

/-- A chain with more scripts has a larger registry. -/
theorem within_build {chain larger : ScopeChain} {platform : Platform}
    (hfiles : chain.sortedFiles ⊆ larger.sortedFiles) :
    (build chain platform).Within (build larger platform) := by
  have hlisted : ∀ {α : Type} (list : Script → List α),
      chain.sortedFiles.flatMap list ⊆ larger.sortedFiles.flatMap list := by
    intro α list item hitem
    obtain ⟨file, hfile, hmem⟩ := List.mem_flatMap.mp hitem
    exact List.mem_flatMap.mpr ⟨file, hfiles hfile, hmem⟩
  refine ⟨hfiles, hlisted _, hlisted _, hlisted _, fun key hkey => ?_⟩
  obtain ⟨block, hblock, hentered⟩ := mem_keys_namespaces_iff.mp hkey
  exact mem_keys_namespaces_iff.mpr ⟨block, hlisted _ hblock, hentered⟩

section Within

variable {small large : Registry} (h : small.Within large)
include h

/-- A name that is visible stays so when more is declared. -/
theorem Visible.mono {script : Script} {path : Path} {key : String}
    (hvisible : small.Visible script path key) : large.Visible script path key := by
  cases hvisible with
  | around hway hbound => exact .around hway hbound
  | joined hhere hscript hway hthere hsame hbound =>
    exact .joined (h.blocks hhere) hscript hway (h.blocks hthere) hsame hbound
  | file hfile hbound => exact .file (h.files hfile) hbound
  | platform hfunction hname => exact .platform hfunction hname
  | runtime hdecl hnamespaced hname => exact .runtime (h.functions hdecl) hnamespaced hname

/-- A name that means no namespace with more declarations means none with fewer. -/
theorem Within.namespace?_eq_none {name : String} {enclosing : Option String}
    (hnone : large.namespace? name enclosing = none) : small.namespace? name enclosing = none := by
  unfold namespace? at hnone ⊢
  rw [List.findSome?_eq_none_iff] at hnone ⊢
  intro key hkey
  rw [Keyed.get?_eq_none_iff]
  intro hmem
  exact Keyed.get?_eq_none_iff.mp (hnone key hkey) (h.namespaces hmem)

/-- A name that means no enum with more declarations means none with fewer. -/
theorem Within.enum?_eq_none {name : String} {enclosing : Option String}
    (hnone : large.enum? name enclosing = none) : small.enum? name enclosing = none := by
  rw [← Option.not_isSome_iff_eq_none, enum?, isSome_firstDeclared] at hnone ⊢
  rintro ⟨decl, hdecl, hkey⟩
  exact hnone ⟨decl, h.enums hdecl, hkey⟩

end Within

end Registry

/-- The table in effect at a node exists. -/
theorem table_mem_keys_tablesOf (platform : Platform) {chain : ScopeChain} {script : Script}
    (hscript : script ∈ chain.sortedFiles) {visit : Visit} (hvisit : visit ∈ script.visits) :
    script.ref visit.table ∈ (Script.tablesOf chain.sortedFiles).keys := by
  obtain ⟨rest, hrest, -⟩ := leads_lineage platform hscript hvisit
  have hmem : script.ref visit.table ∈ visit.lineage script := by
    rw [hrest]
    exact List.mem_cons_self
  have hlinked := mem_keys_of_mem_lineage platform hscript hvisit hmem
  rw [Keyed.mem_keys_iff, linkedTables, Registry.get?_link, Option.isSome_map,
    get?_addTables_ref] at hlinked
  exact Keyed.mem_keys_iff.mpr hlinked

/-- A name that is found in a smaller scope is found in a larger one. -/
theorem lookup_eq_none_of_larger {chain larger : ScopeChain} (platform : Platform)
    (hfiles : chain.sortedFiles ⊆ larger.sortedFiles) {script : Script}
    (hscript : script ∈ chain.sortedFiles) {visit : Visit} (hvisit : visit ∈ script.visits)
    {name : String}
    (hnone : Tables.lookup (linkedTables larger platform) (script.ref visit.table) name = none) :
    Tables.lookup (linkedTables chain platform) (script.ref visit.table) name = none := by
  rw [lookup_eq_none_iff platform (hfiles hscript)
    (table_mem_keys_tablesOf platform (hfiles hscript) hvisit)] at hnone
  rw [lookup_eq_none_iff platform hscript (table_mem_keys_tablesOf platform hscript hvisit)]
  exact fun hvisible => hnone (hvisible.mono (Registry.within_build hfiles))

/-! ## First names that lead nowhere -/

/-- Whether the first name of a chain of names in a script leads nowhere: the tables of the linked
scope do not bind it, and it is not that of a namespace or of an enum. -/
def ChainUse.leadsNowhere (use : ChainUse) (chain : ScopeChain) (platform : Platform)
    (script : Script) : Bool :=
  match use.parts.head? with
  | none => false
  | some root =>
    (Tables.lookup (linkedTables chain platform) (script.ref use.table) root.text).isNone &&
      ((Registry.build chain platform).namespace? root.text use.namespaceKey).isNone &&
      ((Registry.build chain platform).enum? root.text use.namespaceKey).isNone

/-- The finding that the first name of a chain of names is missing. -/
def ChainUse.rootFinding? (script : Script) (use : ChainUse) : Option Finding :=
  use.parts.head?.map fun root =>
    .of (.cannotFindName root.text none) script.path root.range

/-- The findings of first names in a script that lead nowhere, in the order of the script. -/
def unresolvedRoots (chain : ScopeChain) (platform : Platform) (script : Script) : List Finding :=
  ((Inventory.collect script).chains.filter fun use =>
    use.leadsNowhere chain platform script).filterMap (ChainUse.rootFinding? script)

/-- A first name leads nowhere if it is neither bound nor the name of a namespace or an enum. -/
theorem leadsNowhere_iff {chain : ScopeChain} {platform : Platform} {script : Script}
    {use : ChainUse} :
    use.leadsNowhere chain platform script = true ↔
      ∃ root rest, use.parts = root :: rest ∧
        Tables.lookup (linkedTables chain platform) (script.ref use.table) root.text = none ∧
        (Registry.build chain platform).namespace? root.text use.namespaceKey = none ∧
        (Registry.build chain platform).enum? root.text use.namespaceKey = none := by
  unfold ChainUse.leadsNowhere
  cases hparts : use.parts with
  | nil => simp
  | cons root rest => simp [and_assoc]

/-- A first name that leads nowhere in a larger scope leads nowhere in a smaller one. -/
theorem leadsNowhere_of_larger {chain larger : ScopeChain} {platform : Platform}
    (hfiles : chain.sortedFiles ⊆ larger.sortedFiles) {script : Script}
    (hscript : script ∈ chain.sortedFiles) {use : ChainUse}
    (huse : use ∈ (Inventory.collect script).chains)
    (hlarger : use.leadsNowhere larger platform script = true) :
    use.leadsNowhere chain platform script = true := by
  obtain ⟨visit, hvisit, hchain⟩ := List.mem_filterMap.mp huse
  obtain ⟨htable, -⟩ := Visit.table_of_chainUse? hchain
  rw [leadsNowhere_iff] at hlarger ⊢
  obtain ⟨root, rest, hparts, hlookup, hnamespace, henum⟩ := hlarger
  have hwithin : (Registry.build chain platform).Within (Registry.build larger platform) :=
    Registry.within_build hfiles
  rw [htable] at hlookup ⊢
  exact ⟨root, rest, hparts, lookup_eq_none_of_larger platform hfiles hscript hvisit hlookup,
    hwithin.namespace?_eq_none hnamespace, hwithin.enum?_eq_none henum⟩

/-- The first names that lead nowhere in a larger scope are among those of a smaller one, in the
same order. -/
theorem unresolvedRoots_sublist {chain larger : ScopeChain} {platform : Platform}
    (hfiles : chain.sortedFiles ⊆ larger.sortedFiles) {script : Script}
    (hscript : script ∈ chain.sortedFiles) :
    (unresolvedRoots larger platform script).Sublist (unresolvedRoots chain platform script) := by
  have hagain : ((Inventory.collect script).chains.filter fun use =>
      use.leadsNowhere larger platform script) =
        ((Inventory.collect script).chains.filter fun use =>
          use.leadsNowhere chain platform script).filter fun use =>
            use.leadsNowhere larger platform script := by
    rw [List.filter_filter]
    refine List.filter_congr fun use huse => ?_
    cases hlarger : use.leadsNowhere larger platform script with
    | false => rfl
    | true => rw [leadsNowhere_of_larger hfiles hscript huse hlarger, Bool.true_and]
  unfold unresolvedRoots
  rw [hagain]
  exact List.filter_sublist.filterMap _

/-- The reports of missing first names are those of the chains whose first names lead nowhere. -/
theorem mem_unresolvedRoots {chain : ScopeChain} {platform : Platform} {script : Script}
    {finding : Finding} :
    finding ∈ unresolvedRoots chain platform script ↔
      ∃ use ∈ (Inventory.collect script).chains, ∃ root rest, use.parts = root :: rest ∧
        use.leadsNowhere chain platform script = true ∧
        finding = .of (.cannotFindName root.text none) script.path root.range := by
  simp only [unresolvedRoots, List.mem_filterMap, List.mem_filter]
  constructor
  · rintro ⟨use, ⟨huse, hnowhere⟩, hfinding⟩
    obtain ⟨root, hroot, rfl⟩ := Option.map_eq_some_iff.mp hfinding
    obtain ⟨rest, hparts⟩ := List.head?_eq_some_iff.mp hroot
    exact ⟨use, huse, root, rest, hparts, hnowhere, rfl⟩
  · rintro ⟨use, huse, root, rest, hparts, hnowhere, rfl⟩
    refine ⟨use, ⟨huse, hnowhere⟩, ?_⟩
    rw [ChainUse.rootFinding?, hparts]
    rfl

/-- Such names are reported. -/
theorem mem_examine_of_mem_unresolvedRoots {chain : ScopeChain} {platform : Platform}
    {script : Script} (hscript : script ∈ chain.sortedFiles) {finding : Finding}
    (hmem : finding ∈ unresolvedRoots chain platform script) :
    finding ∈ (examine chain platform).findings := by
  obtain ⟨use, huse, root, rest, hparts, hnowhere, rfl⟩ := mem_unresolvedRoots.mp hmem
  obtain ⟨visit, hvisit, hchain⟩ := List.mem_filterMap.mp huse
  obtain ⟨root', rest', hparts', hlookup, hnamespace, henum⟩ := leadsNowhere_iff.mp hnowhere
  obtain ⟨rfl, rfl⟩ := List.cons.inj (hparts.symm.trans hparts')
  refine mem_examine_of_checkChain hscript hvisit hchain ?_
  simp only [checkChain, hparts, hlookup, checkUnbound, Registry.resolveRoot, hnamespace, henum]

/-- A missing name that is reported is such a name, or is missing in a namespace. -/
theorem missing_name_cases {chain : ScopeChain} {platform : Platform} {finding : Finding}
    (hmem : finding ∈ (examine chain platform).findings)
    (hcode : finding.diagnostic.code = 1001) :
    (∃ script ∈ chain.sortedFiles, finding.diagnostic.file = script.path ∧
        finding ∈ unresolvedRoots chain platform script) ∨
      ∃ name space file range, finding = .of (.cannotFindName name (some space)) file range := by
  have hserves := Workbench.serves_ofScripts chain.sortedFiles
  rcases mem_examineOn hmem with ⟨inventory, hinventory, use, huse, hcheck⟩ | helse
  · rw [(takeInventories_of_trueOf chain.nodup_key_sortedFiles hserves.inventories
      fun _ hfile => hfile).1] at hinventory
    obtain ⟨script, hscript, rfl⟩ := List.mem_map.mp hinventory
    rw [hserves.freshExamination_eq] at hcheck
    cases foundInChain_of_checkChain hcheck with
    | @root root rest hparts hlookup hnamespace henum =>
      have hnowhere : use.leadsNowhere chain platform script = true :=
        leadsNowhere_iff.mpr ⟨root, rest, hparts, hlookup, hnamespace, henum⟩
      exact Or.inl ⟨script, hscript, rfl,
        mem_unresolvedRoots.mpr ⟨use, huse, root, rest, hparts, hnowhere, rfl⟩⟩
    | inside _ fullName => exact Or.inr ⟨_, fullName, _, _, rfl⟩
    | other helse => exact absurd hcode helse.code_ne
  · exact absurd hcode helse.code_ne

/-! ## The larger scope -/

/-- The chain with other scripts of the scope itself. -/
def ScopeChain.withFiles (chain : ScopeChain) (files : List Script) : ScopeChain :=
  { chain with scope := { chain.scope with files } }

/-- The larger scope has the files of the smaller one and the script that was added. -/
theorem sortedFiles_withFiles_perm {chain : ScopeChain} {front back : List Script}
    (hfiles : chain.scope.files = front ++ back) {added : Script}
    (hnew : added.key ∉ chain.files.map Script.key) :
    (chain.withFiles (front ++ added :: back)).sortedFiles.Perm (added :: chain.sortedFiles) := by
  have hlisted : chain.files = front ++ (back ++ chain.ancestors.flatMap Scope.files) := by
    rw [ScopeChain.files, List.flatMap_cons, hfiles, List.append_assoc]
  have hlarger : (chain.withFiles (front ++ added :: back)).files =
      front ++ added :: (back ++ chain.ancestors.flatMap Scope.files) := by
    rw [ScopeChain.files, List.flatMap_cons]
    exact List.append_assoc _ _ _
  have hall : (chain.withFiles (front ++ added :: back)).allFiles.Perm
      (added :: chain.allFiles) := by
    rw [ScopeChain.allFiles_eq, ScopeChain.allFiles_eq]
    change (firstBy Script.key (chain.withFiles (front ++ added :: back)).files).Perm
      (added :: firstBy Script.key chain.files)
    rw [hlarger, hlisted]
    exact firstBy_middle_perm Script.key (hlisted ▸ hnew)
  exact (ScopeChain.perm_sortedFiles _).trans (hall.trans (chain.perm_sortedFiles.symm.cons added))

/-- After a script is added to a scope, the first names in another script that lead nowhere are
among those that led nowhere before, and both are reported. So a report of a missing name in a
script that was there either tells a namespace or was made before, with the same message at the same
place. -/
theorem added_script_loses_no_name (chain : ScopeChain) (platform : Platform)
    {front back : List Script} (hfiles : chain.scope.files = front ++ back) (added : Script)
    (hnew : added.key ∉ chain.files.map Script.key) :
    (∀ script ∈ chain.sortedFiles,
        (unresolvedRoots (chain.withFiles (front ++ added :: back)) platform script).Sublist
          (unresolvedRoots chain platform script) ∧
        unresolvedRoots (chain.withFiles (front ++ added :: back)) platform script ⊆
          (examine (chain.withFiles (front ++ added :: back)) platform).findings ∧
        unresolvedRoots chain platform script ⊆ (examine chain platform).findings) ∧
      ∀ script ∈ chain.files,
        ∀ finding ∈ (examine (chain.withFiles (front ++ added :: back)) platform).findings,
        finding.diagnostic.code = 1001 → finding.diagnostic.file = script.path →
        finding ∈ (examine chain platform).findings ∨
          ∃ part space range,
            finding = .of (.cannotFindName part (some space)) script.path range := by
  have hperm := sortedFiles_withFiles_perm hfiles hnew
  have hwithin : chain.sortedFiles ⊆ (chain.withFiles (front ++ added :: back)).sortedFiles :=
    fun file hfile => hperm.mem_iff.mpr (List.mem_cons_of_mem added hfile)
  constructor
  · intro script hscript
    refine ⟨unresolvedRoots_sublist hwithin hscript, fun finding hmem => ?_, fun finding hmem => ?_⟩
    · exact mem_examine_of_mem_unresolvedRoots (hwithin hscript) hmem
    · exact mem_examine_of_mem_unresolvedRoots hscript hmem
  · intro script hscript finding hmem hcode hfile
    rcases missing_name_cases hmem hcode with ⟨other, hother, hpath, hroot⟩ |
      ⟨part, space, file, range, rfl⟩
    · -- The script is known by its path, so it is not the one that was added.
      have hkey : other.key = script.key := congrArg pathKey (hpath.symm.trans hfile)
      have hold : other ∈ chain.sortedFiles := by
        refine (List.mem_cons.mp (hperm.mem_iff.mp hother)).resolve_left ?_
        rintro rfl
        rw [hkey] at hnew
        exact hnew (List.mem_map_of_mem hscript)
      exact Or.inl (mem_examine_of_mem_unresolvedRoots hold
        ((unresolvedRoots_sublist hwithin hold).subset hroot))
    · refine Or.inr ⟨part, space, range, ?_⟩
      rw [← hfile]
      rfl

/-- The message of a name without quotes does not read like one that tells a namespace. -/
theorem Problem.message_in_namespace_ne {name : String} (hplain : '\'' ∉ name.toList)
    (part space : String) :
    (cannotFindName part (some space)).message ≠ (cannotFindName name none).message := by
  have hspace : (cannotFindName part (some space)).message =
      "Cannot find name '" ++ part ++ "' in namespace '" ++ space ++ "'" := rfl
  have hroot : (cannotFindName name none).message = "Cannot find name '" ++ name ++ "'" := rfl
  rw [hspace, hroot]
  intro hmessage
  have hchars := congrArg String.toList hmessage
  simp only [String.toList_append] at hchars
  have hname := List.append_cancel_right hchars
  rw [List.append_assoc, List.append_assoc] at hname
  apply hplain
  rw [← List.append_cancel_left hname]
  exact List.mem_append_right _ (List.mem_append_left _ (by decide))

/-! ## A script that declares what another calls -/

/-- A sub that calls others. -/
def callingSub (name : String) (callees : List Ident) : Stmt :=
  .functionDecl ⟨⟨name, .zero⟩, ⟨.sub, [], none, callees.map fun callee =>
    .expression (.call (.name callee callee.range) [] callee.range) callee.range, .zero⟩⟩ .zero

/-- A script that calls two subs which it does not declare. -/
def band : Script :=
  ⟨"source/band.bs", none, [callingSub "play" [⟨"honk", .onLine 1 2 4⟩, ⟨"toot", .onLine 2 2 4⟩]]⟩

/-- A script that declares one of them. -/
def horn : Script := ⟨"source/horn.bs", none, [callingSub "honk" []]⟩

/-- The scope of the first script. -/
def bandChain : ScopeChain := ⟨.ofProgram [band], []⟩

/-- The scope of both. -/
def hornChain : ScopeChain := bandChain.withFiles ([band] ++ horn :: [])

/-- The walk over the calling script, with a bound on its depth that the kernel can count down. -/
theorem visits_band :
    band.visits = band.body.zipIdx.flatMap fun entry =>
      (Node.statement entry.1).visitsTo 5 [] [entry.2] :=
  Script.visits_eq_visitsTo 5 rfl

/-- The walk over the declaring script, likewise. -/
theorem visits_horn :
    horn.visits = horn.body.zipIdx.flatMap fun entry =>
      (Node.statement entry.1).visitsTo 5 [] [entry.2] :=
  Script.visits_eq_visitsTo 5 rfl

/-- The two calls in the calling script. -/
theorem chains_band : (Inventory.collect band).chains =
    [⟨[⟨"honk", .onLine 1 2 4⟩], .callee 0, none, [0, 0], .onLine 1 2 4⟩,
      ⟨[⟨"toot", .onLine 2 2 4⟩], .callee 0, none, [0, 0], .onLine 2 2 4⟩] := by
  simp only [Inventory.collect, visits_band]
  rfl

section Band

variable {chain : ScopeChain} (honly : ∀ file ∈ chain.sortedFiles, file = band ∨ file = horn)
include honly

/-- The scripts bind no name but those of their subs and the object of a component. -/
theorem boundAt_toot {file : Script} (hmem : file ∈ chain.sortedFiles) (owner : Path) :
    file.boundAt owner "toot" = [] := by
  have hkeys : ∀ entry ∈ file.bindings, entry.2.key ≠ "toot" := by
    rcases honly file hmem with rfl | rfl
    · simp only [Script.bindings, visits_band]
      decide +kernel
    · simp only [Script.bindings, visits_horn]
      decide +kernel
  refine List.filter_eq_nil_iff.mpr fun binding hbinding hkey => ?_
  obtain ⟨entry, hentry, rfl⟩ := List.mem_map.mp hbinding
  exact hkeys entry (List.mem_of_mem_filter hentry) (of_decide_eq_true hkey)

/-- The scripts have no blocks and no enums, and their subs are in no namespace. -/
theorem plain_of_mem_band {file : Script} (hmem : file ∈ chain.sortedFiles) :
    file.blocks = [] ∧ file.enums = [] ∧ ∀ decl ∈ file.functions, decl.isNamespaced = false := by
  rcases honly file hmem with rfl | rfl
  · simp only [Script.blocks, Script.enums, Script.functions, Script.topLevel, visits_band]
    refine ⟨rfl, rfl, ?_⟩
    decide +kernel
  · simp only [Script.blocks, Script.enums, Script.functions, Script.topLevel, visits_horn]
    refine ⟨rfl, rfl, ?_⟩
    decide +kernel

variable (hband : band ∈ chain.sortedFiles) (platform : Platform)
include hband

/-- Neither a script nor the platform brings the name into sight. -/
theorem not_visible_toot (path : Path) :
    ¬ (Registry.build chain platform).Visible band path "toot" := by
  have hplatform : ∀ function ∈ globalFunctions, Text.lower function.name ≠ "toot" := by
    decide +kernel
  intro hvisible
  cases hvisible with
  | around _ hbound => exact hbound (boundAt_toot honly hband _)
  | joined hhere =>
    obtain ⟨file, hfile, hmem⟩ := List.mem_flatMap.mp hhere
    rw [(plain_of_mem_band honly hfile).1] at hmem
    cases hmem
  | file hfile hbound => exact hbound (boundAt_toot honly hfile _)
  | platform hfunction hname => exact hplatform _ hfunction hname
  | runtime hdecl hnamespaced _ =>
    obtain ⟨file, hfile, hmem⟩ := List.mem_flatMap.mp hdecl
    rw [(plain_of_mem_band honly hfile).2.2 _ hmem] at hnamespaced
    cases hnamespaced

/-- The sub that neither script declares is missing in every chain that has the first script and no
others but the second. -/
theorem toot_reported :
    Finding.of (.cannotFindName "toot" none) band.path (.onLine 2 2 4) ∈
      (examine chain platform).findings := by
  have huse : ⟨[⟨"toot", .onLine 2 2 4⟩], .callee 0, none, [0, 0], .onLine 2 2 4⟩ ∈
      (Inventory.collect band).chains := by
    rw [chains_band]
    exact List.mem_cons_of_mem _ List.mem_cons_self
  obtain ⟨visit, hvisit, hchain⟩ := List.mem_filterMap.mp huse
  have htable := table_mem_keys_tablesOf platform hband hvisit
  rw [← (Visit.table_of_chainUse? hchain).1] at htable
  have hlower : Text.lower "toot" = "toot" := by decide +kernel
  -- nothing binds the name, and it is neither a namespace nor an enum
  have hlookup : Tables.lookup (linkedTables chain platform) (band.ref [0, 0]) "toot" = none := by
    rw [lookup_eq_none_iff platform hband htable, hlower]
    exact not_visible_toot honly hband platform [0, 0]
  have hnamespace : (Registry.build chain platform).namespace? "toot" none = none := by
    refine List.findSome?_eq_none_iff.mpr fun key _ => Keyed.get?_eq_none_iff.mpr fun hmem => ?_
    obtain ⟨block, hblock, -⟩ := Registry.mem_keys_namespaces_iff.mp hmem
    obtain ⟨file, hfile, hlisted⟩ := List.mem_flatMap.mp hblock
    rw [(plain_of_mem_band honly hfile).1] at hlisted
    cases hlisted
  have henum : (Registry.build chain platform).enum? "toot" none = none := by
    have hnone : (Registry.build chain platform).enums = [] :=
      List.flatMap_eq_nil_iff.mpr fun _ hfile => (plain_of_mem_band honly hfile).2.1
    rw [Registry.enum?, hnone]
    rfl
  exact mem_examine_of_mem_unresolvedRoots hband (mem_unresolvedRoots.mpr
    ⟨_, huse, _, [], rfl, leadsNowhere_iff.mpr ⟨_, [], rfl, hlookup, hnamespace, henum⟩, rfl⟩)

end Band

/-- The script is added after the one file of the smaller scope. -/
theorem files_bandChain : bandChain.scope.files = [band] ++ [] := rfl

/-- The smaller scope does not have the declaring script. -/
theorem horn_not_in_bandChain : horn.key ∉ bandChain.files.map Script.key := by decide +kernel

/-- The calling script is in the smaller scope. -/
theorem band_mem_bandChain : band ∈ bandChain.sortedFiles := by
  have hall : bandChain.allFiles = [band] := rfl
  exact bandChain.perm_sortedFiles.mem_iff.mpr (hall ▸ List.mem_singleton_self band)

/-- The calling script is in the larger scope. -/
theorem band_mem_hornChain : band ∈ hornChain.sortedFiles :=
  (sortedFiles_withFiles_perm files_bandChain horn_not_in_bandChain).mem_iff.mpr
    (List.mem_cons_of_mem horn band_mem_bandChain)

/-- The larger scope has no other files. -/
theorem eq_of_mem_hornChain (file : Script) (hmem : file ∈ hornChain.sortedFiles) :
    file = band ∨ file = horn := by
  have hlisted := ScopeChain.mem_files_of_mem_sortedFiles hmem
  simpa [hornChain, bandChain, ScopeChain.files, ScopeChain.withFiles, Scope.ofProgram] using
    hlisted

/-- The missing name that is reported after the second script was added was reported before. -/
theorem toot_reported_before_horn :
    horn.key ∉ bandChain.files.map Script.key ∧
      Finding.of (.cannotFindName "toot" none) band.path (.onLine 2 2 4) ∈
        (examine (bandChain.withFiles ([band] ++ horn :: [])) (.withNodes [])).findings ∧
      Finding.of (.cannotFindName "toot" none) band.path (.onLine 2 2 4) ∈
        (examine bandChain (.withNodes [])).findings := by
  have hband := ScopeChain.mem_files_of_mem_sortedFiles band_mem_bandChain
  have hafter := toot_reported eq_of_mem_hornChain band_mem_hornChain (.withNodes [])
  have hbefore := (added_script_loses_no_name bandChain (.withNodes []) files_bandChain horn
    horn_not_in_bandChain).2 band hband _ hafter rfl rfl
  refine ⟨horn_not_in_bandChain, hafter, hbefore.resolve_right ?_⟩
  rintro ⟨part, space, range, heq⟩
  have hmessage := congrArg (fun finding => finding.diagnostic.message) heq
  exact Problem.message_in_namespace_ne (by decide) part space hmessage.symm

end ScopeCheck
