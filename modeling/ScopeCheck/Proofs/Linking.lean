import ScopeCheck.Proofs.FirstBy
import ScopeCheck.Proofs.Keyed
import ScopeCheck.Registry.Link

/-!
# What linking does under one reference

Linking adds tables of its own and changes the tables of scripts where they stand. What stands under
a reference afterwards is told by what stood there before (`get?_link`). Unlinking gives back every
table with its bindings and parents, and with those of its siblings that exist
(`get?_unlink_link`).
-/

namespace ScopeCheck

namespace SymbolTable

variable {ρ : Type}

/-- The table with only some of its siblings. -/
def keepSiblings (table : SymbolTable ρ) (keep : ρ → Bool) : SymbolTable ρ :=
  { table with siblings := table.siblings.filter keep }

/-- Pushing a parent again and again stacks it up. -/
theorem foldl_pushParent {ι : Type} (steps : List ι) (table : SymbolTable ρ) (parent : Option ρ) :
    steps.foldl (fun table _ => table.pushParent parent) table =
      { table with parents := List.replicate steps.length parent ++ table.parents } := by
  induction steps generalizing table with
  | nil => rfl
  | cons step rest ih =>
    rw [List.foldl_cons, ih, pushParent, List.length_cons, List.replicate_succ']
    simp only [List.append_assoc, List.singleton_append]

/-- Popping again and again takes as many parents off the stack. -/
theorem foldl_popParent {ι : Type} (steps : List ι) (table : SymbolTable ρ) :
    steps.foldl (fun table _ => table.popParent) table =
      { table with parents := table.parents.drop steps.length } := by
  induction steps generalizing table with
  | nil => rfl
  | cons step rest ih => rw [List.foldl_cons, ih, popParent, List.length_cons, List.drop_tail]

/-- Keeping siblings by one condition after the other keeps those that meet all. -/
theorem foldl_keepSiblings {ι : Type} (keep : ι → ρ → Bool) (steps : List ι)
    (table : SymbolTable ρ) :
    steps.foldl (fun table step => table.keepSiblings (keep step)) table =
      table.keepSiblings fun other => steps.all fun step => keep step other := by
  induction steps generalizing table with
  | nil => simp [keepSiblings]
  | cons step rest ih =>
    rw [List.foldl_cons, ih, keepSiblings, keepSiblings, keepSiblings, List.filter_filter]
    simp only [List.all_cons, Bool.and_comm]

variable [DecidableEq ρ]

/-- A sibling is added at the end, unless it is there. -/
theorem addSibling_eq (table : SymbolTable ρ) (sibling : ρ) :
    table.addSibling sibling = { table with siblings := (table.addSibling sibling).siblings } := by
  unfold addSibling
  split <;> rfl

/-- No siblings come in but the one that is added. -/
theorem mem_siblings_addSibling {table : SymbolTable ρ} {sibling other : ρ}
    (hmem : other ∈ (table.addSibling sibling).siblings) :
    other ∈ table.siblings ∨ other = sibling := by
  unfold addSibling at hmem
  split at hmem
  · exact Or.inl hmem
  · exact (List.mem_append.mp hmem).imp_right List.mem_singleton.mp

/-- A sibling is not added twice. -/
theorem addSibling_addSibling (table : SymbolTable ρ) (sibling : ρ) :
    (table.addSibling sibling).addSibling sibling = table.addSibling sibling := by
  have hmem : sibling ∈ (table.addSibling sibling).siblings := by
    unfold addSibling
    split
    · rename_i hmem
      exact List.contains_iff_mem.mp hmem
    · exact List.mem_append_right _ List.mem_cons_self
  exact if_pos (List.contains_iff_mem.mpr hmem)

/-- A sibling that joins many times is listed once. -/
theorem foldl_addSibling_const {ι : Type} {sibling : ι → ρ} {common : ρ} {steps : List ι}
    (hsame : ∀ step ∈ steps, sibling step = common) (table : SymbolTable ρ) :
    steps.foldl (fun table step => table.addSibling (sibling step)) table =
      if steps = [] then table else table.addSibling common := by
  induction steps generalizing table with
  | nil => rfl
  | cons step rest ih =>
    rw [List.foldl_cons, hsame step List.mem_cons_self,
      ih fun other hmem => hsame other (List.mem_cons_of_mem step hmem),
      if_neg (List.cons_ne_nil _ _)]
    split
    · rfl
    · exact table.addSibling_addSibling common

/-- A sibling that is not kept may as well not be added. -/
theorem keepSiblings_addSibling (table : SymbolTable ρ) {sibling : ρ} {keep : ρ → Bool}
    (hdrop : keep sibling = false) :
    (table.addSibling sibling).keepSiblings keep = table.keepSiblings keep := by
  unfold addSibling keepSiblings
  split
  · rfl
  · simp only [List.filter_append, List.filter_cons, hdrop, Bool.false_eq_true, if_false,
      List.filter_nil, List.append_nil]

/-- Siblings that joined and are not kept leave no trace. -/
theorem keepSiblings_foldl_addSibling {ι : Type} (sibling : ι → ρ) (steps : List ι)
    (table : SymbolTable ρ) (keep : ρ → Bool)
    (hdrop : ∀ step ∈ steps, keep (sibling step) = false) :
    (steps.foldl (fun table step => table.addSibling (sibling step)) table).keepSiblings keep =
      table.keepSiblings keep := by
  induction steps generalizing table with
  | nil => rfl
  | cons step rest ih =>
    rw [List.foldl_cons, ih _ fun other hmem => hdrop other (List.mem_cons_of_mem step hmem),
      keepSiblings_addSibling table (hdrop step List.mem_cons_self)]

/-- Adding siblings leaves the parents. -/
theorem parents_foldl_addSibling {ι : Type} (sibling : ι → ρ) (steps : List ι)
    (table : SymbolTable ρ) :
    (steps.foldl (fun table step => table.addSibling (sibling step)) table).parents =
      table.parents := by
  induction steps generalizing table with
  | nil => rfl
  | cons step rest ih => rw [List.foldl_cons, ih, addSibling_eq]

/-- Popping the parents that were pushed and dropping the siblings that joined gives back a table,
up to siblings that are not kept. -/
theorem restore {ι β : Type} (files : List ι) (blocks : List β) (parent : Option ρ)
    (sibling : β → ρ) (keep : β → ρ → Bool) (hdrop : ∀ block, keep block (sibling block) = false)
    (table : SymbolTable ρ) :
    blocks.foldl (fun table block => table.keepSiblings (keep block))
        (files.foldl (fun table _ => table.popParent)
          (blocks.foldl (fun table block => table.addSibling (sibling block))
            (files.foldl (fun table _ => table.pushParent parent) table))) =
      table.keepSiblings fun other => blocks.all fun block => keep block other := by
  have hdropped : ∀ step ∈ blocks, (blocks.all fun block => keep block (sibling step)) = false := by
    intro step hstep
    rw [List.all_eq_false]
    exact ⟨step, hstep, by simp [hdrop]⟩
  rw [foldl_keepSiblings, foldl_popParent, foldl_pushParent]
  have hjoined := keepSiblings_foldl_addSibling sibling blocks
    { table with parents := List.replicate files.length parent ++ table.parents }
    (fun other => blocks.all fun block => keep block other) hdropped
  simp only [keepSiblings, SymbolTable.mk.injEq] at hjoined ⊢
  refine ⟨hjoined.1, hjoined.2.1, hjoined.2.2.1, ?_⟩
  rw [parents_foldl_addSibling, List.drop_append_of_le_length (by simp), List.drop_replicate,
    Nat.sub_self]
  rfl

end SymbolTable

namespace Registry

variable (registry : Registry) (examination : Nat)

/-- The references to the tables that are made for an examination. -/
def ownRefs : List TableRef :=
  .ofScope examination :: registry.namespaces.keys.map (.ofNamespace examination)

/-- The references of some tables are older than an examination: none is to a table made for it. -/
structure Before (tables : Tables TableRef) : Prop where
  /-- The references under which tables stand. -/
  keys : ∀ ref ∈ tables.keys, ref.examinationBound ≤ examination
  /-- The references to siblings. -/
  siblings : ∀ ref table, tables.get? ref = some table →
    ∀ sibling ∈ table.siblings, sibling.examinationBound ≤ examination

variable {registry examination}

/-- The tables of an examination carry its number. -/
theorem bound_of_mem_ownRefs {ref : TableRef} (hmem : ref ∈ registry.ownRefs examination) :
    ref.examinationBound = examination + 1 := by
  rcases List.mem_cons.mp hmem with rfl | hnamespace
  · rfl
  · obtain ⟨key, -, rfl⟩ := List.mem_map.mp hnamespace
    rfl

/-- References from before an examination are not to its tables. -/
theorem not_mem_ownRefs {ref : TableRef} (hbound : ref.examinationBound ≤ examination) :
    ref ∉ registry.ownRefs examination := by
  intro hmem
  have hown := bound_of_mem_ownRefs hmem
  omega

/-! ## The steps -/

section Steps

variable (registry examination)

/-- The table under a reference after linking, by the table before it. -/
def linkedTable (ref : TableRef) (table : SymbolTable TableRef) : SymbolTable TableRef :=
  (registry.blocks.filter fun block => blockRef block = ref).foldl
    (fun table block => table.addSibling (.ofNamespace examination block.key))
    ((registry.files.filter fun file => fileRef file = ref).foldl
      (fun table _ => table.pushParent (some (.ofScope examination))) table)

/-- What stands under a reference once the tables of an examination are added: the last table that
was added there, or what stood there before. -/
theorem get?_addTables (tables : Tables TableRef) (ref : TableRef) :
    (registry.addTables examination tables).get? ref =
      ((registry.namespaces.entries.filter fun entry =>
        TableRef.ofNamespace examination entry.1 = ref).getLast?.map fun entry =>
          registry.namespaceTable entry.1 entry.2).or
        (if ref = .ofScope examination then some registry.scopeTable else tables.get? ref) := by
  rw [addTables, Keyed.get?_foldl_put, Keyed.get?_put]

/-- Tables that are not of the examination stay as they are. -/
theorem get?_addTables_of_not_mem (tables : Tables TableRef) {ref : TableRef}
    (hnot : ref ∉ registry.ownRefs examination) :
    (registry.addTables examination tables).get? ref = tables.get? ref := by
  rw [ownRefs, List.mem_cons, not_or, Keyed.keys, List.map_map] at hnot
  have hnone : (registry.namespaces.entries.filter fun entry =>
      TableRef.ofNamespace examination entry.1 = ref) = [] := by
    rw [List.filter_eq_nil_iff]
    intro entry hentry hkey
    exact hnot.2 (List.mem_map.mpr ⟨entry, hentry, of_decide_eq_true hkey⟩)
  rw [get?_addTables, hnone, if_neg hnot.1]
  rfl

/-- The tables that linking adds refer to no other. -/
theorem mentions_addTables {tables : Tables TableRef} {ref : TableRef}
    {table : SymbolTable TableRef}
    (hget : (registry.addTables examination tables).get? ref = some table) :
    tables.get? ref = some table ∨ table.mentions = [] := by
  rw [get?_addTables, Option.or_eq_some_iff] at hget
  rcases hget with hnamespace | ⟨-, hrest⟩
  · obtain ⟨entry, -, rfl⟩ := Option.map_eq_some_iff.mp hnamespace
    exact Or.inr rfl
  · split at hrest
    · cases hrest
      exact Or.inr rfl
    · exact Or.inl hrest

/-- Linking changes each table on its own, by the files and blocks with its reference. -/
theorem get?_link (tables : Tables TableRef) (ref : TableRef) :
    (registry.link examination tables).get? ref =
      ((registry.addTables examination tables).get? ref).map
        (registry.linkedTable examination ref) := by
  rw [link, joinBlocks, Keyed.get?_foldl_adjust, pushScope, Keyed.get?_foldl_adjust, Option.map_map]
  rfl

/-- Tables that are made for an examination are not changed by linking. -/
theorem linkedTable_of_ne_inFile {ref : TableRef} (hnot : ∀ key path, ref ≠ .inFile key path)
    (table : SymbolTable TableRef) : registry.linkedTable examination ref table = table := by
  have hblocks : (registry.blocks.filter fun block => blockRef block = ref) = [] :=
    List.filter_eq_nil_iff.mpr fun block _ h => hnot _ _ (of_decide_eq_true h).symm
  have hfiles : (registry.files.filter fun file => fileRef file = ref) = [] :=
    List.filter_eq_nil_iff.mpr fun file _ h => hnot _ _ (of_decide_eq_true h).symm
  rw [linkedTable, hblocks, hfiles]
  rfl

/-- No file or block has the reference of the scope, so its table stays as it was added. -/
theorem get?_link_scope (tables : Tables TableRef) :
    (registry.link examination tables).get? (.ofScope examination) = some registry.scopeTable := by
  have hnamespaces : (registry.namespaces.entries.filter fun entry =>
      TableRef.ofNamespace examination entry.1 = .ofScope examination) = [] :=
    List.filter_eq_nil_iff.mpr fun _ _ h => nomatch of_decide_eq_true h
  have hnot : ∀ key path, TableRef.ofScope examination ≠ .inFile key path := fun _ _ h => nomatch h
  rw [get?_link, get?_addTables, hnamespaces, if_pos rfl]
  exact congrArg some (registry.linkedTable_of_ne_inFile examination hnot _)

/-- No file or block has the reference of a namespace, so its table stays as it was added. -/
theorem get?_link_namespace (tables : Tables TableRef) (key : String) :
    (registry.link examination tables).get? (.ofNamespace examination key) =
      ((registry.namespaces.get? key).map (registry.namespaceTable key)).or
        (tables.get? (.ofNamespace examination key)) := by
  have hnot : ∀ path owner, TableRef.ofNamespace examination key ≠ .inFile path owner :=
    fun _ _ h => nomatch h
  have hunchanged : registry.linkedTable examination (.ofNamespace examination key) = id :=
    funext fun table => registry.linkedTable_of_ne_inFile examination hnot table
  have hentries : (registry.namespaces.entries.filter fun entry =>
      TableRef.ofNamespace examination entry.1 = .ofNamespace examination key) =
      (registry.namespaces.entries.find? fun entry => entry.1 = key).toList := by
    have hfirst := filter_firstBy Prod.fst registry.namespaces.entries key
    rw [firstBy_of_nodup Prod.fst registry.namespaces.nodup] at hfirst
    simpa only [TableRef.ofNamespace.injEq, true_and] using hfirst
  have hget : registry.namespaces.get? key =
      (registry.namespaces.entries.find? fun entry => entry.1 = key).map Prod.snd := rfl
  rw [get?_link, get?_addTables, hunchanged, Option.map_id, id_eq, hentries, if_neg (by simp), hget]
  cases hfind : registry.namespaces.entries.find? fun entry => entry.1 = key with
  | none => rfl
  | some entry =>
    have hkey : entry.1 = key := by simpa using List.find?_some hfind
    rw [← hkey]
    rfl

/-- Joining blocks with their namespaces makes a table mention nothing else that is new. -/
theorem mem_mentions_foldl_addSibling {other : TableRef} {blocks : List NamespaceBlock}
    {table : SymbolTable TableRef}
    (hmem : other ∈ (blocks.foldl (fun table block => table.addSibling
      (.ofNamespace examination block.key)) table).mentions) :
    other ∈ table.mentions ∨ ∃ key, other = .ofNamespace examination key := by
  induction blocks generalizing table with
  | nil => exact Or.inl hmem
  | cons block rest ih =>
    rw [List.foldl_cons] at hmem
    refine (ih hmem).elim (fun hstep => ?_) Or.inr
    rw [SymbolTable.addSibling_eq] at hstep
    rcases List.mem_append.mp hstep with hsibling | hparent
    · rcases SymbolTable.mem_siblings_addSibling hsibling with hold | hnew
      · exact Or.inl (List.mem_append_left _ hold)
      · exact Or.inr ⟨block.key, hnew⟩
    · exact Or.inl (List.mem_append_right _ hparent)

/-- A linked table mentions, beside what it mentioned before, only tables of the examination. -/
theorem mem_mentions_linkedTable {ref other : TableRef} {table : SymbolTable TableRef}
    (hmem : other ∈ (registry.linkedTable examination ref table).mentions) :
    other ∈ table.mentions ∨ other = .ofScope examination ∨
      ∃ key, other = .ofNamespace examination key := by
  rcases mem_mentions_foldl_addSibling examination hmem with hpushed | hnamespace
  · rw [SymbolTable.foldl_pushParent] at hpushed
    simp only [SymbolTable.mentions, List.mem_append, List.filterMap_append, List.mem_filterMap,
      List.mem_replicate, id_eq] at hpushed ⊢
    rcases hpushed with hsibling | ⟨parent, ⟨-, rfl⟩, hparent⟩ | hparent
    · exact Or.inl (Or.inl hsibling)
    · exact Or.inr (Or.inl (Option.some.inj hparent).symm)
    · exact Or.inl (Or.inr hparent)
  · exact Or.inr (Or.inr hnamespace)

/-- Unlinking pops as many parents off a table as there are files with its reference. -/
theorem get?_popScope (tables : Tables TableRef) (ref : TableRef) :
    (registry.popScope tables).get? ref = (tables.get? ref).map fun table =>
      (registry.files.filter fun file => fileRef file = ref).foldl
        (fun table _ => table.popParent) table :=
  Keyed.get?_foldl_adjust _ _ _ _ _

/-- Linking changes tables and adds none. -/
theorem keys_link (tables : Tables TableRef) :
    (registry.link examination tables).keys = (registry.addTables examination tables).keys := by
  rw [link, joinBlocks, Keyed.keys_foldl_adjust, pushScope, Keyed.keys_foldl_adjust]

/-- Dropping siblings does not change which tables exist, so all blocks drop the same ones. -/
theorem partBlocks_eq (tables : Tables TableRef) :
    registry.partBlocks examination tables =
      registry.blocks.foldl (fun later block => later.adjust (blockRef block) fun table =>
        table.keepSiblings fun other =>
          tables.contains other && other ≠ .ofNamespace examination block.key) tables := by
  have hfold : ∀ (blocks : List NamespaceBlock) (later : Tables TableRef),
      later.keys = tables.keys →
        blocks.foldl (fun tables block => Tables.removeSibling tables (blockRef block)
          (.ofNamespace examination block.key)) later =
        blocks.foldl (fun later block => later.adjust (blockRef block) fun table =>
          table.keepSiblings fun other =>
            tables.contains other && other ≠ .ofNamespace examination block.key) later := by
    intro blocks
    induction blocks with
    | nil => exact fun _ _ => rfl
    | cons block rest ih =>
      intro later hkeys
      have hcontains : ∀ other, later.contains other = tables.contains other := by
        intro other
        rw [Bool.eq_iff_iff, Keyed.contains_iff_mem_keys, Keyed.contains_iff_mem_keys, hkeys]
      have hstep : Tables.removeSibling later (blockRef block)
          (.ofNamespace examination block.key) =
          later.adjust (blockRef block) fun table => table.keepSiblings fun other =>
            tables.contains other && other ≠ .ofNamespace examination block.key := by
        simp only [Tables.removeSibling, SymbolTable.keepSiblings, hcontains]
      rw [List.foldl_cons, List.foldl_cons, hstep, ih _ (by rw [Keyed.keys_adjust, hkeys])]
  exact hfold _ _ rfl

/-- Dropping takes away the tables of the examination and no others. -/
theorem get?_dropTables (tables : Tables TableRef) (ref : TableRef) :
    (registry.dropTables examination tables).get? ref =
      if ref ∈ registry.ownRefs examination then none else tables.get? ref := by
  have hfold : ∀ (keys : List String) (start : Tables TableRef),
      (keys.foldl (fun tables key => tables.erase (.ofNamespace examination key)) start).get? ref =
        if ref ∈ keys.map (TableRef.ofNamespace examination) then none else start.get? ref := by
    intro keys
    induction keys with
    | nil => exact fun _ => rfl
    | cons key rest ih =>
      intro start
      rw [List.foldl_cons, ih, Keyed.get?_erase]
      by_cases hrest : ref ∈ rest.map (TableRef.ofNamespace examination)
      · simp [hrest]
      · by_cases hkey : ref = .ofNamespace examination key <;> simp [hrest, hkey]
  rw [dropTables, hfold, Keyed.get?_erase, ownRefs]
  by_cases hscope : ref = .ofScope examination <;> simp [hscope]

end Steps

/-! ## Unlinking -/

/-- Linking and popping neither add nor remove tables from before. -/
theorem contains_popScope_link (tables : Tables TableRef) {ref : TableRef}
    (hnot : ref ∉ registry.ownRefs examination) :
    (registry.popScope (registry.link examination tables)).contains ref = tables.contains ref := by
  rw [Bool.eq_iff_iff, Keyed.contains_iff_mem_keys, Keyed.contains_iff_mem_keys, popScope,
    Keyed.keys_foldl_adjust, keys_link, Keyed.mem_keys_iff, Keyed.mem_keys_iff,
    get?_addTables_of_not_mem _ _ _ hnot]

/-- Unlinking gives back every table; of the siblings of a block, those that exist. -/
theorem get?_unlink_link {tables : Tables TableRef} (hbefore : Before examination tables)
    (ref : TableRef) :
    (registry.unlink examination (registry.link examination tables)).get? ref =
      (tables.get? ref).map fun table =>
        if ref ∈ registry.blocks.map blockRef then table.keepSiblings tables.contains
        else table := by
  rw [unlink, get?_dropTables]
  -- tables of the examination itself are dropped, and none stood there before
  by_cases hown : ref ∈ registry.ownRefs examination
  · have hnone : tables.get? ref = none := Keyed.get?_eq_none_iff.mpr fun hmem =>
      not_mem_ownRefs (hbefore.keys ref hmem) hown
    rw [if_pos hown, hnone]
    rfl
  · rw [if_neg hown, partBlocks_eq, Keyed.get?_foldl_adjust]
    rw [get?_popScope, get?_link, get?_addTables_of_not_mem _ _ _ hown]
    cases htable : tables.get? ref with
    | none => rfl
    | some table =>
      rw [Option.map_some, Option.map_some, Option.map_some, Option.map_some, linkedTable,
        SymbolTable.restore _ _ _ _ _ (by simp)]
      refine congrArg some ?_
      -- a sibling from before is older than the examination, so only its being gone can part it
      have hkept : ∀ other ∈ table.siblings, ∀ block : NamespaceBlock,
          ((registry.popScope (registry.link examination tables)).contains other &&
            decide (other ≠ .ofNamespace examination block.key)) = tables.contains other := by
        intro other hmem block
        have hbound := hbefore.siblings ref table htable other hmem
        have hne : other ≠ .ofNamespace examination block.key := by
          rintro rfl
          exact absurd hbound (Nat.not_succ_le_self examination)
        rw [contains_popScope_link tables (not_mem_ownRefs hbound), decide_eq_true hne,
          Bool.and_true]
      by_cases hblock : ref ∈ registry.blocks.map blockRef
      · obtain ⟨block, hmem, hblock'⟩ := List.mem_map.mp hblock
        have hfiltered : block ∈ registry.blocks.filter fun block => blockRef block = ref :=
          List.mem_filter.mpr ⟨hmem, decide_eq_true hblock'⟩
        rw [if_pos hblock, SymbolTable.keepSiblings, SymbolTable.keepSiblings]
        congr 1
        refine List.filter_congr fun other hother => ?_
        rw [Bool.eq_iff_iff, List.all_eq_true]
        constructor
        · intro hall
          rw [← hkept other hother block]
          exact hall block hfiltered
        · intro hcontains later _
          rw [hkept other hother later, hcontains]
      · have hnone : (registry.blocks.filter fun block => blockRef block = ref) = [] := by
          rw [List.filter_eq_nil_iff]
          intro block hmem heq
          exact hblock (List.mem_map.mpr ⟨block, hmem, of_decide_eq_true heq⟩)
        rw [if_neg hblock, hnone, SymbolTable.keepSiblings]
        simp

end Registry

end ScopeCheck
