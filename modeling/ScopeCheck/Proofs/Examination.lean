import ScopeCheck.Proofs.FirstBy
import ScopeCheck.Proofs.Linking
import ScopeCheck.Proofs.Lookup
import ScopeCheck.Proofs.RegistryMaps
import ScopeCheck.Proofs.ScriptTables

/-!
# Examinations on a shared workbench

A workbench serves some scripts if it holds their tables as they were made and only inventories that
are true of them. An examination on such a workbench finds what an examination of the scope by
itself finds, and leaves a workbench that serves the scripts still (`examineOn_of_serves`). So the
order in which scopes are examined does not matter.
-/

namespace ScopeCheck

/-! ## The scripts of a chain -/

/-- Keeping files whose keys have not been seen keeps the first of each key. -/
theorem distinctFiles_eq (seen : List String) (files : List Script) :
    distinctFiles seen files =
      (firstBy Script.key files).filter fun file => file.key ∉ seen := by
  induction files generalizing seen with
  | nil => rfl
  | cons file rest ih =>
    rw [distinctFiles, firstBy]
    by_cases hseen : file.key ∈ seen
    · rw [if_pos (List.contains_iff_mem.mpr hseen), List.filter_cons_of_neg (by simpa using hseen),
        ih, List.filter_filter]
      refine List.filter_congr fun other _ => ?_
      by_cases hother : other.key ∈ seen
      · simp [hother]
      · have hne : other.key ≠ file.key := by
          intro heq
          rw [heq] at hother
          exact hother hseen
        simp [hother, hne]
    · rw [if_neg (mt List.contains_iff_mem.mp hseen),
        List.filter_cons_of_pos (by simpa using hseen), ih, List.filter_filter]
      refine congrArg (file :: ·) (List.filter_congr fun other _ => ?_)
      by_cases hother : other.key ∈ seen <;> simp [hother]

/-- No two different scripts have one key. -/
def Script.DistinctKeys (scripts : List Script) : Prop :=
  ∀ script ∈ scripts, ∀ other ∈ scripts, script.key = other.key → script = other

/-- If no key is there twice, it tells scripts apart. -/
theorem Script.distinctKeys_of_nodup {scripts : List Script}
    (hnodup : (scripts.map Script.key).Nodup) : DistinctKeys scripts :=
  fun _ hscript _ hother => List.inj_on_of_nodup_map hnodup hscript hother

namespace ScopeChain

/-- The scripts of all scopes of a chain. -/
def files (chain : ScopeChain) : List Script :=
  (chain.scope :: chain.ancestors).flatMap Scope.files

/-- The files of a chain are the first of each key, from the scope outwards. -/
theorem allFiles_eq (chain : ScopeChain) :
    chain.allFiles = firstBy Script.key ((chain.scope :: chain.ancestors).flatMap Scope.files) := by
  rw [allFiles, distinctFiles_eq]
  simp

/-- Sorting neither loses nor adds a file. -/
theorem perm_sortedFiles (chain : ScopeChain) : chain.sortedFiles.Perm chain.allFiles :=
  List.mergeSort_perm _ _

/-- No two files of a chain have one key. -/
theorem nodup_key_allFiles (chain : ScopeChain) : (chain.allFiles.map Script.key).Nodup := by
  rw [allFiles_eq]
  exact nodup_map_firstBy Script.key _

/-- The scripts of a chain have different keys. -/
theorem nodup_key_sortedFiles (chain : ScopeChain) :
    (chain.sortedFiles.map Script.key).Nodup :=
  (chain.perm_sortedFiles.map Script.key).nodup_iff.mpr chain.nodup_key_allFiles

/-- A file of a chain is held by one of its scopes. -/
theorem mem_of_mem_sortedFiles {chain : ScopeChain} {file : Script}
    (hmem : file ∈ chain.sortedFiles) :
    ∃ scope ∈ chain.scope :: chain.ancestors, file ∈ scope.files := by
  have hall := chain.perm_sortedFiles.mem_iff.mp hmem
  rw [allFiles_eq] at hall
  exact List.mem_flatMap.mp ((firstBy_sublist Script.key _).subset hall)

/-- A file of a chain is one of those that its scopes hold. -/
theorem mem_files_of_mem_sortedFiles {chain : ScopeChain} {file : Script}
    (hmem : file ∈ chain.sortedFiles) : file ∈ chain.files :=
  List.mem_flatMap.mpr (mem_of_mem_sortedFiles hmem)

end ScopeChain

/-! ## Inventories -/

/-- The inventories that are known of some scripts are true of them. -/
def Memo.TrueOf (memo : Memo String Inventory) (scripts : List Script) : Prop :=
  ∀ script ∈ scripts, ∀ inventory, memo.get? script.key = some inventory →
    inventory = Inventory.collect script

/-- What is known is answered, and otherwise what is given is stored and answered. -/
theorem Memo.remember_eq (memo : Memo String Inventory) (key : String) (value : Inventory) :
    memo.remember key value =
      match memo.get? key with
      | some known => (known, memo)
      | none => (value, ⟨memo.stored.put key value⟩) := by
  unfold remember getOrAdd
  cases hknown : memo.get? key with
  | some known => rfl
  | none =>
    change memo.store key value = _
    rw [store, hknown]

/-- Inventories are taken file by file, and each may be known from the files before. -/
theorem takeInventories_cons (memo : Memo String Inventory) (file : Script) (rest : List Script) :
    takeInventories memo (file :: rest) =
      ((memo.remember file.key (.collect file)).1 ::
          (takeInventories (memo.remember file.key (.collect file)).2 rest).1,
        (takeInventories (memo.remember file.key (.collect file)).2 rest).2) :=
  rfl

section Inventories

variable {scripts : List Script} (hnodup : (scripts.map Script.key).Nodup)
include hnodup

/-- A memo that is true of scripts answers with the inventory of a script and stays true. -/
theorem remember_of_trueOf {memo : Memo String Inventory} (htrue : memo.TrueOf scripts)
    {script : Script} (hmem : script ∈ scripts) :
    (memo.remember script.key (.collect script)).1 = .collect script ∧
      (memo.remember script.key (.collect script)).2.TrueOf scripts := by
  rw [Memo.remember_eq]
  cases hknown : memo.get? script.key with
  | some known => exact ⟨htrue script hmem known hknown, htrue⟩
  | none =>
    refine ⟨rfl, fun other hother inventory hget => ?_⟩
    rw [Memo.get?, Keyed.get?_put] at hget
    split at hget
    · rename_i hkey
      obtain rfl : other = script := List.inj_on_of_nodup_map hnodup hother hmem hkey
      exact (Option.some.inj hget).symm
    · exact htrue other hother inventory hget

/-- A memo that is true of some scripts does not change their inventories. -/
theorem takeInventories_of_trueOf {memo : Memo String Inventory} (htrue : memo.TrueOf scripts)
    {files : List Script} (hfiles : ∀ file ∈ files, file ∈ scripts) :
    (takeInventories memo files).1 = files.map Inventory.collect ∧
      (takeInventories memo files).2.TrueOf scripts := by
  induction files generalizing memo with
  | nil => exact ⟨rfl, htrue⟩
  | cons file rest ih =>
    obtain ⟨hfirst, hlater⟩ := remember_of_trueOf hnodup htrue (hfiles file List.mem_cons_self)
    obtain ⟨hrest, hlast⟩ :=
      ih hlater fun other hmem => hfiles other (List.mem_cons_of_mem file hmem)
    refine ⟨?_, hlast⟩
    rw [takeInventories_cons, hfirst, hrest, List.map_cons]

end Inventories

/-! ## Served scripts -/

/-- A workbench holds the tables of some scripts, and inventories that are true of them. -/
structure Workbench.Serves (bench : Workbench) (scripts : List Script) : Prop where
  /-- The tables are as they were made. -/
  tables : ∀ ref, bench.tables.get? ref = (Script.tablesOf scripts).get? ref
  /-- The inventories are those of the scripts. -/
  inventories : bench.inventories.TrueOf scripts

/-- A fresh workbench serves the scripts it was made for. -/
theorem Workbench.serves_ofScripts (scripts : List Script) :
    (Workbench.ofScripts scripts).Serves scripts :=
  ⟨fun _ => rfl, fun _ _ _ hget => nomatch hget⟩

namespace Workbench.Serves

variable {bench : Workbench} {scripts : List Script}

/-- On a bench that serves scripts there are no tables of examinations. -/
theorem bound_of_mem_keys (h : bench.Serves scripts) {ref : TableRef}
    (hmem : ref ∈ bench.tables.keys) : ref.examinationBound = 0 := by
  rw [Keyed.mem_keys_iff, h.tables, Option.isSome_iff_exists] at hmem
  obtain ⟨table, hget⟩ := hmem
  obtain ⟨script, -, ⟨path, rfl⟩, -⟩ := Script.of_get?_tablesOf hget
  rfl

/-- The tables of the bench are older than any examination. -/
theorem before (h : bench.Serves scripts) : Registry.Before 0 bench.tables where
  keys ref hmem := (h.bound_of_mem_keys hmem).le
  siblings ref table hget sibling hsibling := by
    rw [h.tables] at hget
    obtain ⟨script, -, -, hnone, -⟩ := Script.of_get?_tablesOf hget
    rw [hnone] at hsibling
    cases hsibling

/-- The tables of the bench refer to no examination either. -/
theorem bound_of_mem_mentions (h : bench.Serves scripts) {table : SymbolTable TableRef}
    (htable : table ∈ bench.tables.values) {ref : TableRef} (hmem : ref ∈ table.mentions) :
    ref.examinationBound = 0 := by
  obtain ⟨key, hget⟩ := Keyed.mem_values_iff.mp htable
  rw [h.tables] at hget
  obtain ⟨script, -, -, hnone, hparents⟩ := Script.of_get?_tablesOf hget
  rw [SymbolTable.mentions, hnone, List.nil_append, List.mem_filterMap] at hmem
  obtain ⟨parent, hparent, rfl⟩ := hmem
  obtain ⟨path, rfl⟩ := hparents ref hparent
  rfl

/-- A running maximum of zeros is zero. -/
theorem foldl_max_eq_zero {bounds : List Nat} (hzero : ∀ bound ∈ bounds, bound = 0) :
    bounds.foldl max 0 = 0 := by
  induction bounds with
  | nil => rfl
  | cons bound rest ih =>
    rw [List.foldl_cons, hzero bound List.mem_cons_self, Nat.max_self]
    exact ih fun other hmem => hzero other (List.mem_cons_of_mem bound hmem)

/-- No examination has left a trace, so the next one has the first number. -/
theorem freshExamination_eq (h : bench.Serves scripts) : freshExamination bench.tables = 0 := by
  refine foldl_max_eq_zero fun bound hbound => ?_
  obtain ⟨ref, href, rfl⟩ := List.mem_map.mp hbound
  rcases List.mem_append.mp href with hkey | hmention
  · exact h.bound_of_mem_keys hkey
  · obtain ⟨table, htable, hmem⟩ := List.mem_flatMap.mp hmention
    exact h.bound_of_mem_mentions htable hmem

end Workbench.Serves

/-! ## Names -/

/-- The references that the lookups of a scope stay among: to the tables of its scripts and to the
tables of the first examination. -/
def Registry.Reaches (registry : Registry) : TableRef → Prop
  | .inFile key _ => key ∈ registry.files.map Script.key
  | .ofScope examination => examination = 0
  | .ofNamespace examination _ => examination = 0

section Names

variable (registry : Registry) {scripts others : List Script} {bench other : Workbench}

/-- Two benches have the same tables under all references that an examination reaches. -/
theorem Workbench.Serves.get?_eq {registry : Registry} (hserves : bench.Serves scripts)
    (hother : other.Serves others) (hnodup : (scripts.map Script.key).Nodup)
    (hnodup' : (others.map Script.key).Nodup)
    (hfiles : ∀ file ∈ registry.files, file ∈ scripts)
    (hfiles' : ∀ file ∈ registry.files, file ∈ others) {ref : TableRef}
    (href : registry.Reaches ref) : bench.tables.get? ref = other.tables.get? ref := by
  rw [hserves.tables, hother.tables]
  have hnone : ∀ (pool : List Script) (ref : TableRef), ref.examinationBound ≠ 0 →
      (Script.tablesOf pool).get? ref = none := by
    intro pool ref hbound
    rw [Option.eq_none_iff_forall_ne_some]
    intro table hget
    obtain ⟨script, -, ⟨path, rfl⟩, -⟩ := Script.of_get?_tablesOf hget
    exact hbound rfl
  cases ref with
  | inFile key path =>
    obtain ⟨file, hfile, rfl⟩ := List.mem_map.mp href
    exact (Script.get?_tablesOf hnodup (hfiles file hfile) path).trans
      (Script.get?_tablesOf hnodup' (hfiles' file hfile) path).symm
  | ofScope examination =>
    have hbound : (TableRef.ofScope examination).examinationBound ≠ 0 := Nat.succ_ne_zero _
    rw [hnone scripts _ hbound, hnone others _ hbound]
  | ofNamespace examination key =>
    have hbound : (TableRef.ofNamespace examination key).examinationBound ≠ 0 := Nat.succ_ne_zero _
    rw [hnone scripts _ hbound, hnone others _ hbound]

/-- Linked tables of one scope agree wherever its lookups lead. -/
theorem Workbench.Serves.agreeOn_link (hserves : bench.Serves scripts)
    (hother : other.Serves others) (hnodup : (scripts.map Script.key).Nodup)
    (hnodup' : (others.map Script.key).Nodup) (hfiles : ∀ file ∈ registry.files, file ∈ scripts)
    (hfiles' : ∀ file ∈ registry.files, file ∈ others) :
    Tables.AgreeOn registry.Reaches (registry.link 0 bench.tables)
      (registry.link 0 other.tables) where
  get? ref href := by
    rw [Registry.get?_link, Registry.get?_link, Registry.get?_addTables, Registry.get?_addTables,
      hserves.get?_eq hother hnodup hnodup' hfiles hfiles' href]
  closed ref table href hget mentioned hmem := by
    rw [Registry.get?_link, Option.map_eq_some_iff] at hget
    obtain ⟨bare, hbare, rfl⟩ := hget
    rcases Registry.mem_mentions_linkedTable _ _ hmem with hold | rfl | ⟨key, rfl⟩
    · rcases Registry.mentions_addTables _ _ hbare with hscript | hnone
      · rw [hserves.tables] at hscript
        obtain ⟨script, -, ⟨path, rfl⟩, hnone, hparents⟩ := Script.of_get?_tablesOf hscript
        rw [SymbolTable.mentions, hnone, List.nil_append, List.mem_filterMap] at hold
        obtain ⟨parent, hparent, rfl⟩ := hold
        obtain ⟨path', rfl⟩ := hparents mentioned hparent
        exact href
      · rw [hnone] at hold
        cases hold
    · rfl
    · rfl

/-- What an examination of the names of a scope finds and leaves on a workbench that serves its
scripts. -/
theorem examineNames_of_serves (hserves : bench.Serves scripts)
    (hnodup : (scripts.map Script.key).Nodup) (hfiles : ∀ file ∈ registry.files, file ∈ scripts) :
    (examineNames registry bench).1 =
        checkNames registry (registry.link 0 bench.tables) (registry.files.map Inventory.collect) ∧
      (examineNames registry bench).2.Serves scripts := by
  obtain ⟨hinventories, hmemo⟩ := takeInventories_of_trueOf hnodup hserves.inventories hfiles
  have hfresh := hserves.freshExamination_eq
  constructor
  · change checkNames registry (registry.link (freshExamination bench.tables) bench.tables)
      (takeInventories bench.inventories registry.files).1 = _
    rw [hinventories, hfresh]
  · refine ⟨fun ref => ?_, hmemo⟩
    change (registry.unlink (freshExamination bench.tables)
      (registry.link (freshExamination bench.tables) bench.tables)).get? ref = _
    rw [hfresh, Registry.get?_unlink_link hserves.before, hserves.tables]
    -- No table of a script has siblings, so none can be lost.
    cases hget : (Script.tablesOf scripts).get? ref with
    | none => rfl
    | some table =>
      obtain ⟨script, -, -, hnone, -⟩ := Script.of_get?_tablesOf hget
      rw [Option.map_some, SymbolTable.keepSiblings, hnone, List.filter_nil, ← hnone, ite_self]

end Names

/-- An examination on a workbench that serves the scripts of the chain finds what an examination by
itself finds, and the workbench serves the scripts afterwards. -/
theorem examineOn_of_serves {chain : ScopeChain} (platform : Platform) {bench : Workbench}
    {scripts : List Script} (hserves : bench.Serves scripts)
    (hnodup : (scripts.map Script.key).Nodup)
    (hfiles : ∀ file ∈ chain.sortedFiles, file ∈ scripts) :
    (examineOn chain platform bench).1 = examine chain platform ∧
      (examineOn chain platform bench).2.Serves scripts := by
  obtain ⟨hnames, hlater⟩ :=
    examineNames_of_serves (Registry.build chain platform) hserves hnodup hfiles
  have hown := Workbench.serves_ofScripts chain.sortedFiles
  have hownNodup := chain.nodup_key_sortedFiles
  obtain ⟨hownNames, -⟩ :=
    examineNames_of_serves (Registry.build chain platform) hown hownNodup fun _ h => h
  refine ⟨?_, hlater⟩
  have hagree := hserves.agreeOn_link (Registry.build chain platform) hown hnodup hownNodup hfiles
    fun _ h => h
  change ScopeFindings.mk chain.scope.label (checkClasses (Registry.build chain platform) ++
    (examineNames (Registry.build chain platform) bench).1) =
      ScopeFindings.mk chain.scope.label (checkClasses (Registry.build chain platform) ++
        (examineNames (Registry.build chain platform) (.ofScripts chain.sortedFiles)).1)
  rw [hnames, hownNames]
  -- The names of a scope are checked through lookups from the tables of its scripts only.
  refine congrArg (fun names => ScopeFindings.mk chain.scope.label
    (checkClasses (Registry.build chain platform) ++ names)) ?_
  apply (Registry.SameMaps.refl (Registry.build chain platform)).checkNames_eq
  intro inventory hinventory path name
  obtain ⟨file, hfile, rfl⟩ := List.mem_map.mp hinventory
  exact congrArg _ (hagree.lookup_eq (List.mem_map_of_mem hfile) name)

end ScopeCheck
