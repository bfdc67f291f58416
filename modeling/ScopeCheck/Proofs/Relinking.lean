import Mathlib.Logic.Equiv.Basic
import ScopeCheck.Proofs.LiveTables
import ScopeCheck.Proofs.Visibility

/-!
# Linking by another number and in another order

The tables that linking adds carry the number of the examination, and blocks are joined in the order
in which the registry keeps them. Neither can be told from what is found. Two registries that keep
the same under every key, linked over tables of which lookups tell the same, lead to tables that are
the same but for the exchange of the two numbers (`Registry.SameMaps.carries_link`). So the names of
a scope are checked alike (`Registry.SameMaps.examineNames_eq`).
-/

namespace ScopeCheck

/-! ## References -/

namespace TableRef

/-- The reference with its examination renumbered. -/
def renumber (number : Nat → Nat) : TableRef → TableRef
  | inFile key path => inFile key path
  | ofScope examination => ofScope (number examination)
  | ofNamespace examination key => ofNamespace (number examination) key

/-- References stay different if numbers do. -/
theorem renumber_injective {number : Nat → Nat} (hinj : Function.Injective number) :
    Function.Injective (renumber number) := by
  intro left right heq
  cases left <;> cases right <;> simp_all [renumber, hinj.eq_iff]

/-- References of other examinations keep their number when two are exchanged. -/
theorem renumber_swap_of_ne {ref : TableRef} {first second : Nat}
    (hfirst : ref.examinationBound ≠ first + 1) (hsecond : ref.examinationBound ≠ second + 1) :
    ref.renumber (Equiv.swap first second) = ref := by
  have hnumber : ∀ examination, examination + 1 ≠ first + 1 → examination + 1 ≠ second + 1 →
      Equiv.swap first second examination = examination := by
    intro examination hne hne'
    exact Equiv.swap_apply_of_ne_of_ne (by omega) (by omega)
  cases ref with
  | inFile key path => rfl
  | ofScope examination => exact congrArg ofScope (hnumber examination hfirst hsecond)
  | ofNamespace examination key =>
    exact congrArg (ofNamespace · key) (hnumber examination hfirst hsecond)

/-- Swapping the numbers of two examinations gives a table of the second the number of the first. -/
theorem examinationBound_renumber_swap {ref : TableRef} {first second : Nat}
    (hsecond : ref.examinationBound = second + 1) :
    (ref.renumber (Equiv.swap first second)).examinationBound = first + 1 := by
  cases ref with
  | inFile key path => cases hsecond
  | ofScope examination =>
    obtain rfl : examination = second := Nat.succ.inj hsecond
    simp [renumber, examinationBound]
  | ofNamespace examination key =>
    obtain rfl : examination = second := Nat.succ.inj hsecond
    simp [renumber, examinationBound]

end TableRef

/-! ## Tables older than an examination -/

/-- No table stands under, or mentions, a reference to a table of the examination or a later one. -/
structure Tables.OlderThan (tables : Tables TableRef) (examination : Nat) : Prop where
  /-- References to tables and siblings. -/
  before : Registry.Before examination tables
  /-- References to parents. -/
  parents : ∀ ref table, tables.get? ref = some table →
    ∀ parent, some parent ∈ table.parents → parent.examinationBound ≤ examination

/-- A running maximum is no less than any number it has met. -/
theorem le_foldl_max {bounds : List Nat} {bound : Nat} (hmem : bound ∈ bounds) (start : Nat) :
    bound ≤ bounds.foldl max start := by
  have hstart : ∀ (rest : List Nat) (start : Nat), start ≤ rest.foldl max start := by
    intro rest
    induction rest with
    | nil => exact fun start => Nat.le_refl start
    | cons first rest ih => exact fun start => (Nat.le_max_left start first).trans (ih _)
  induction bounds generalizing start with
  | nil => cases hmem
  | cons first rest ih =>
    rw [List.foldl_cons]
    rcases List.mem_cons.mp hmem with rfl | hrest
    · exact (Nat.le_max_right start bound).trans (hstart rest _)
    · exact ih hrest _

/-- A fresh number is larger than all that tables mention. -/
theorem olderThan_freshExamination (tables : Tables TableRef) :
    tables.OlderThan (freshExamination tables) := by
  have hbound : ∀ ref, ref ∈ tables.keys ∨
      (∃ key table, tables.get? key = some table ∧ ref ∈ table.mentions) →
        ref.examinationBound ≤ freshExamination tables := by
    intro ref hmem
    refine le_foldl_max (List.mem_map_of_mem (List.mem_append.mpr ?_)) 0
    refine hmem.imp_right ?_
    rintro ⟨key, table, hget, hmention⟩
    exact List.mem_flatMap.mpr ⟨table, Keyed.mem_values_iff.mpr ⟨key, hget⟩, hmention⟩
  refine ⟨⟨fun ref hmem => hbound ref (Or.inl hmem), ?_⟩, ?_⟩
  · intro ref table hget sibling hsibling
    exact hbound sibling (Or.inr ⟨ref, table, hget, List.mem_append_left _ hsibling⟩)
  · intro ref table hget parent hparent
    refine hbound parent (Or.inr ⟨ref, table, hget, List.mem_append_right _ ?_⟩)
    exact List.mem_filterMap.mpr ⟨some parent, hparent, rfl⟩

section OlderThan

variable {tables : Tables TableRef} {examination : Nat} (h : tables.OlderThan examination)
include h

/-- Nothing stands under a reference that is newer than the tables. -/
theorem Tables.OlderThan.live_eq_none {ref : TableRef}
    (hlate : examination < ref.examinationBound) : tables.live ref = none := by
  rw [live, Option.map_eq_none_iff, Keyed.get?_eq_none_iff]
  intro hmem
  have hbound := h.before.keys ref hmem
  omega

/-- Live tables mention nothing that is newer than all tables. -/
theorem Tables.OlderThan.bound_of_mentioned {ref other : TableRef} {table : SymbolTable TableRef}
    (hlive : tables.live ref = some table)
    (hmem : other ∈ table.siblings ∨ some other ∈ table.parents) :
    other.examinationBound ≤ examination := by
  obtain ⟨stored, hget, rfl⟩ := Option.map_eq_some_iff.mp hlive
  rcases hmem with hsibling | hparent
  · exact h.before.siblings ref stored hget other (List.mem_of_mem_filter hsibling)
  · exact h.parents ref stored hget other hparent

end OlderThan

/-! ## Tables under another name -/

namespace SymbolTable

variable {ρ : Type}

/-- References that a renaming fixes can be renamed or not. -/
theorem mapRefs_of_fixed {rename : ρ → ρ} {table : SymbolTable ρ}
    (hfixed : ∀ ref, ref ∈ table.siblings ∨ some ref ∈ table.parents → rename ref = ref) :
    table.mapRefs rename = table := by
  have hsiblings : table.siblings.map rename = table.siblings :=
    (List.map_congr_left fun ref hmem => hfixed ref (Or.inl hmem)).trans (List.map_id _)
  have hparents : table.parents.map (Option.map rename) = table.parents := by
    refine (List.map_congr_left fun parent hmem => ?_).trans (List.map_id _)
    cases parent with
    | none => rfl
    | some ref => exact congrArg some (hfixed ref (Or.inr hmem))
  rw [mapRefs, hsiblings, hparents]

variable [DecidableEq ρ]

/-- A sibling may be added before or after references are renamed. -/
theorem mapRefs_addSibling {rename : ρ → ρ} (hinj : Function.Injective rename)
    (table : SymbolTable ρ) (sibling : ρ) :
    (table.addSibling sibling).mapRefs rename =
      (table.mapRefs rename).addSibling (rename sibling) := by
  have hcontains : (table.siblings.map rename).contains (rename sibling) =
      table.siblings.contains sibling := by
    simp [hinj.eq_iff]
  unfold addSibling
  rw [mapRefs, mapRefs]
  simp only [hcontains]
  split <;> simp

/-- A sibling that is kept may be added before or after others are left out. -/
theorem keepSiblings_addSibling_of_kept (table : SymbolTable ρ) {sibling : ρ} {keep : ρ → Bool}
    (hkeep : keep sibling = true) :
    (table.addSibling sibling).keepSiblings keep =
      (table.keepSiblings keep).addSibling sibling := by
  have hcontains : (table.siblings.filter keep).contains sibling =
      table.siblings.contains sibling := by
    simp [List.mem_filter, hkeep]
  unfold addSibling
  rw [keepSiblings, keepSiblings]
  simp only [hcontains]
  split <;> simp [hkeep]

/-- The same for many siblings, all of which are kept. -/
theorem keepSiblings_foldl_addSibling_of_kept {ι : Type} {sibling : ι → ρ} {steps : List ι}
    {keep : ρ → Bool} (hkeep : ∀ step ∈ steps, keep (sibling step) = true)
    (table : SymbolTable ρ) :
    (steps.foldl (fun table step => table.addSibling (sibling step)) table).keepSiblings keep =
      steps.foldl (fun table step => table.addSibling (sibling step))
        (table.keepSiblings keep) := by
  induction steps generalizing table with
  | nil => rfl
  | cons step rest ih =>
    rw [List.foldl_cons, ih fun other hmem => hkeep other (List.mem_cons_of_mem step hmem),
      keepSiblings_addSibling_of_kept table (hkeep step List.mem_cons_self), List.foldl_cons]

end SymbolTable

namespace Registry

/-! ## Registries in order -/

/-- What linking takes for granted: a table is of one block, and a block has its namespace. -/
structure Orderly (registry : Registry) : Prop where
  /-- Blocks under one reference are of one namespace. -/
  oneKey : ∀ block ∈ registry.blocks, ∀ other ∈ registry.blocks,
    blockRef block = blockRef other → block.key = other.key
  /-- Every block has its namespace. -/
  entered : ∀ block ∈ registry.blocks, block.key ∈ registry.namespaces.keys

/-- In the registry of a scope no two scripts have one key, so blocks under one reference are one
block, and the namespace of every block is entered. -/
theorem orderly_build (chain : ScopeChain) (platform : Platform) :
    (build chain platform).Orderly := by
  refine ⟨fun block hblock other hother href => ?_, fun block hblock => mem_keys_namespaces hblock⟩
  obtain ⟨script, hscript, hmem⟩ := mem_blocks_build.mp hblock
  obtain ⟨rfl, visit, hvisit, hpath, hjoined⟩ := Script.mem_blocks hmem
  obtain ⟨visit', hvisit', hpath', hjoined'⟩ := mem_blocks_of_blockRef hscript hother href.symm
  obtain rfl := Script.eq_of_path_eq hvisit hvisit' (hpath.trans hpath'.symm)
  exact Option.some.inj (hjoined.symm.trans hjoined')

namespace SameMaps

variable {left right : Registry} (h : left.SameMaps right)
include h

/-- The same blocks stand in both registries. -/
theorem mem_blocks (block : NamespaceBlock) : block ∈ left.blocks ↔ block ∈ right.blocks := by
  have hmem : block ∈ left.blocksOf block.key ↔ block ∈ right.blocksOf block.key := by
    rw [h.blocksOf]
  simpa [Registry.blocksOf] using hmem

/-- In whatever order the blocks are kept, those under one reference come in the same. -/
theorem blocks_under_ref (hleft : left.Orderly) (ref : TableRef) :
    (left.blocks.filter fun block => blockRef block = ref) =
      right.blocks.filter fun block => blockRef block = ref := by
  by_cases hany : ∃ block ∈ left.blocks, blockRef block = ref
  · obtain ⟨block, hblock, rfl⟩ := hany
    have hwithin : ∀ blocks : List NamespaceBlock, (∀ other ∈ blocks, other ∈ left.blocks) →
        (blocks.filter fun other => blockRef other = blockRef block) =
          (blocks.filter fun other => other.key = block.key).filter fun other =>
            blockRef other = blockRef block := by
      intro blocks hblocks
      rw [List.filter_filter]
      refine List.filter_congr fun other hother => ?_
      have hkey := hleft.oneKey other (hblocks other hother) block hblock
      by_cases href : blockRef other = blockRef block <;> simp [href, hkey]
    rw [hwithin left.blocks fun _ hmem => hmem,
      hwithin right.blocks fun other hmem => (h.mem_blocks other).mpr hmem]
    exact congrArg _ (h.blocksOf block.key)
  · have hnone : ∀ blocks : List NamespaceBlock, (∀ other ∈ blocks, other ∈ left.blocks) →
        (blocks.filter fun other => blockRef other = ref) = [] := by
      intro blocks hblocks
      refine List.filter_eq_nil_iff.mpr fun other hother href => hany ?_
      exact ⟨other, hblocks other hother, of_decide_eq_true href⟩
    rw [hnone left.blocks fun _ hmem => hmem,
      hnone right.blocks fun other hmem => (h.mem_blocks other).mpr hmem]

/-- Under one reference both registries link the same: the files are the same, and the blocks there
are all of one namespace. -/
theorem linkedTable_eq (hleft : left.Orderly) (examination : Nat) (ref : TableRef) :
    left.linkedTable examination ref = right.linkedTable examination ref := by
  funext table
  rw [linkedTable, linkedTable, h.blocks_under_ref hleft, h.files]

/-- A registry with the same maps as an orderly one is orderly. -/
theorem orderly (hleft : left.Orderly) : right.Orderly := by
  refine ⟨fun block hblock other hother => ?_, fun block hblock => ?_⟩
  · rw [← h.mem_blocks] at hblock hother
    exact hleft.oneKey block hblock other hother
  · rw [← h.mem_blocks] at hblock
    have hkey := hleft.entered block hblock
    rwa [Keyed.mem_keys_iff, h.namespaces, ← Keyed.mem_keys_iff] at hkey

end SameMaps

/-! ## Linked tables, as lookups see them -/

section Live

variable {registry : Registry} {examination : Nat} {tables : Tables TableRef}

/-- The table of the scope is live once it is linked. -/
theorem live_link_scope :
    (registry.link examination tables).live (.ofScope examination) = some registry.scopeTable := by
  rw [Tables.live, get?_link_scope]
  rfl

variable (hold : tables.OlderThan examination)
include hold

/-- A namespace has a live table once it is linked, and no other stood there before. -/
theorem live_link_namespace (key : String) :
    (registry.link examination tables).live (.ofNamespace examination key) =
      (registry.namespaces.get? key).map (registry.namespaceTable key) := by
  have hnone : tables.get? (.ofNamespace examination key) = none := by
    rw [Keyed.get?_eq_none_iff]
    intro hmem
    exact absurd (hold.before.keys _ hmem) (Nat.not_succ_le_self examination)
  rw [Tables.live, get?_link_namespace, hnone, Option.or_none, Option.map_map]
  rfl

/-- The tables that were there before are linked as they were seen. -/
theorem live_link (horderly : registry.Orderly) {ref : TableRef}
    (hother : ref.examinationBound ≠ examination + 1) :
    (registry.link examination tables).live ref =
      (tables.live ref).map (registry.linkedTable examination ref) := by
  have hforeign : ∀ {ref : TableRef}, ref.examinationBound ≠ examination + 1 →
      (registry.link examination tables).get? ref =
        (tables.get? ref).map (registry.linkedTable examination ref) := by
    intro ref hne
    rw [get?_link, get?_addTables_of_not_mem _ _ _ (mt bound_of_mem_ownRefs hne)]
  -- The joint tables exist while the scope is linked, so they stay among the siblings that do.
  have hjoint : ∀ block ∈ registry.blocks, (registry.link examination tables).contains
      (.ofNamespace examination block.key) = true := by
    intro block hblock
    rw [← Tables.isSome_live, live_link_namespace hold, Option.isSome_map]
    exact Keyed.mem_keys_iff.mp (horderly.entered block hblock)
  rw [Tables.live, Tables.live, hforeign hother, Option.map_map, Option.map_map]
  cases hget : tables.get? ref with
  | none => rfl
  | some table =>
    have hsame : table.keepSiblings (registry.link examination tables).contains =
        table.keepSiblings tables.contains := by
      unfold SymbolTable.keepSiblings
      refine congrArg (fun siblings => { table with siblings })
        (List.filter_congr fun other hmem => ?_)
      have hbound := hold.before.siblings ref table hget other hmem
      rw [← Keyed.get?_isSome, ← Keyed.get?_isSome, hforeign (by omega), Option.isSome_map]
    refine congrArg some ?_
    simp only [Function.comp_apply, linkedTable, SymbolTable.foldl_pushParent]
    rw [SymbolTable.keepSiblings_foldl_addSibling_of_kept fun block hmem =>
      hjoint block (List.mem_of_mem_filter hmem), ← hsame]
    rfl

end Live

/-- Renumbering takes what linking makes of a table to what it makes of the renumbered table. -/
theorem mapRefs_linkedTable (registry : Registry) {number : Nat → Nat}
    (hinj : Function.Injective number) (examination : Nat) (ref : TableRef)
    (table : SymbolTable TableRef) :
    (registry.linkedTable examination ref table).mapRefs (.renumber number) =
      registry.linkedTable (number examination) ref (table.mapRefs (.renumber number)) := by
  have hjoined : ∀ (blocks : List NamespaceBlock) (table : SymbolTable TableRef),
      (blocks.foldl (fun table block => table.addSibling (.ofNamespace examination block.key))
          table).mapRefs (.renumber number) =
        blocks.foldl (fun table block => table.addSibling
          (.ofNamespace (number examination) block.key)) (table.mapRefs (.renumber number)) := by
    intro blocks table
    refine (List.foldl_hom (SymbolTable.mapRefs (TableRef.renumber number))
      fun table block => ?_).symm
    rw [SymbolTable.mapRefs_addSibling (TableRef.renumber_injective hinj)]
    rfl
  rw [linkedTable, linkedTable, hjoined, SymbolTable.foldl_pushParent, SymbolTable.foldl_pushParent]
  simp [SymbolTable.mapRefs, TableRef.renumber]

/-! ## Two links -/

/-- Lists that have the same under each key are the same in some order. -/
theorem perm_of_declaredAs_eq {α : Type} {left right : List (Declaration α)}
    (hsame : ∀ key, declaredAs left key = declaredAs right key) : left.Perm right := by
  classical
  rw [List.perm_iff_count]
  intro decl
  have hcount := congrArg (List.count decl) (hsame decl.key)
  rwa [declaredAs, declaredAs, List.count_filter (by simp), List.count_filter (by simp)] at hcount

namespace SameMaps

variable {left right : Registry} (h : left.SameMaps right)
include h

/-- The tables of the scope bind the same, perhaps in another order. -/
theorem scopeTable_bindings_perm : left.scopeTable.bindings.Perm right.scopeTable.bindings := by
  have hfunctions := perm_of_declaredAs_eq h.functions
  unfold scopeTable
  rw [h.files]
  exact ((hfunctions.filter _).map _).append_left _

/-- The tables of a namespace are the same. -/
theorem namespaceTable_eq (key : String) (entry : NamespaceEntry) :
    left.namespaceTable key entry = right.namespaceTable key entry := by
  rw [namespaceTable, namespaceTable, h.blocksOf]

variable (hleft : left.Orderly) {tables others : Tables TableRef} {first second : Nat}
  (hfirst : tables.OlderThan first) (hsecond : others.OlderThan second)
  (hlive : ∀ ref, others.live ref = tables.live ref)
include hleft hfirst hsecond hlive

/-- Linked under one number and under another, tables of which lookups tell the same are the same
but for the exchange of the numbers. -/
theorem carries_link :
    Tables.Carries Multiset.ofList (TableRef.renumber (Equiv.swap first second))
      (left.link first tables) (right.link second others) := by
  refine ⟨TableRef.renumber_injective (Equiv.swap first second).injective, fun ref => ?_⟩
  have hright := h.orderly hleft
  by_cases hown : ref.examinationBound = first + 1
  · -- The tables that the two examinations made.
    cases ref with
    | inFile key path => cases hown
    | ofScope examination =>
      obtain rfl : examination = first := Nat.succ.inj hown
      rw [TableRef.renumber, Equiv.swap_apply_left, live_link_scope, live_link_scope]
      refine congrArg some (Prod.ext (funext fun key => ?_) rfl)
      exact Multiset.coe_eq_coe.mpr (h.scopeTable_bindings_perm.filter _).symm
    | ofNamespace examination key =>
      obtain rfl : examination = first := Nat.succ.inj hown
      rw [TableRef.renumber, Equiv.swap_apply_left, live_link_namespace hfirst,
        live_link_namespace hsecond, h.namespaces, funext (h.namespaceTable_eq key), Option.map_map,
        Option.map_map]
      rfl
  · by_cases hexchanged : ref.examinationBound = second + 1
    · -- Neither examination met a table under the number of the other.
      have hbound : (ref.renumber (Equiv.swap first second)).examinationBound = first + 1 :=
        TableRef.examinationBound_renumber_swap hexchanged
      rw [live_link hfirst hleft hown, ← hlive, hsecond.live_eq_none (by omega),
        live_link hsecond hright (by omega), hlive, hfirst.live_eq_none (by omega)]
      rfl
    · rw [TableRef.renumber_swap_of_ne hown hexchanged, live_link hfirst hleft hown,
        live_link hsecond hright hexchanged, hlive]
      cases htable : tables.live ref with
      | none => rfl
      | some table =>
        have hfixed : table.mapRefs (.renumber (Equiv.swap first second)) = table := by
          refine SymbolTable.mapRefs_of_fixed fun other hmem => ?_
          have hbound := hfirst.bound_of_mentioned htable hmem
          have hbound' := hsecond.bound_of_mentioned ((hlive ref).trans htable) hmem
          exact TableRef.renumber_swap_of_ne (by omega) (by omega)
        rw [Option.map_some, Option.map_some, Option.map_some, Option.map_some,
          mapRefs_linkedTable _ (Equiv.swap first second).injective, hfixed,
          Equiv.swap_apply_left, h.linkedTable_eq hleft]

/-- The names in a script are bound alike, in any order. -/
theorem lookup_link (script : Script) (path : Path) (name : String) :
    (Tables.lookup (left.link first tables) (script.ref path) name).map Multiset.ofList =
      (Tables.lookup (right.link second others) (script.ref path) name).map Multiset.ofList :=
  ((h.carries_link hleft hfirst hsecond hlive).lookup_eq (fun _ => Multiset.coe_eq_zero _)
    (script.ref path) name).symm

end SameMaps

/-- The names of a scope are checked alike over tables of which lookups tell the same. -/
theorem SameMaps.examineNames_eq {left right : Registry} (h : left.SameMaps right)
    (hleft : left.Orderly) {bench other : Workbench}
    (hlive : ∀ ref, other.tables.live ref = bench.tables.live ref)
    (hinventories : (takeInventories other.inventories right.files).1 =
      (takeInventories bench.inventories left.files).1) :
    (examineNames left bench).1 = (examineNames right other).1 := by
  change checkNames left _ (takeInventories bench.inventories left.files).1 =
    checkNames right _ (takeInventories other.inventories right.files).1
  rw [hinventories]
  apply h.checkNames_eq
  intro inventory _ path name
  exact h.lookup_link hleft (olderThan_freshExamination bench.tables)
    (olderThan_freshExamination other.tables) hlive inventory.script path name

end Registry

/-- An examination reads of the chain which scope it is of and its scripts in order, and of the
platform which node types there are. -/
theorem examine_congr {chain other : ScopeChain} {platform platform' : Platform}
    (hlabel : chain.scope.label = other.scope.label)
    (hfiles : chain.sortedFiles = other.sortedFiles) (hnodes : platform.isNode = platform'.isNode) :
    examine chain platform = examine other platform' := by
  have hname : chain.scope.name = other.scope.name := by
    rw [← Scope.name_label, hlabel, Scope.name_label]
  have hsame : (Registry.build chain platform).SameMaps (Registry.build other platform') := by
    constructor <;> simp [Registry.build, Registry.blocksOf, hname, hfiles, hnodes]
  have hnames : (examineNames (Registry.build chain platform) (.ofScripts chain.sortedFiles)).1 =
      (examineNames (Registry.build other platform') (.ofScripts chain.sortedFiles)).1 := by
    apply hsame.examineNames_eq (Registry.orderly_build chain platform) fun _ => rfl
    rw [hsame.files]
  change ScopeFindings.mk _ (checkClasses _ ++ (examineNames _ (.ofScripts chain.sortedFiles)).1) =
    ScopeFindings.mk _ (checkClasses _ ++ (examineNames _ (.ofScripts other.sortedFiles)).1)
  rw [hlabel, hsame.checkClasses_eq, hnames, hfiles]

end ScopeCheck
