import ScopeCheck.Proofs.FileOrder
import ScopeCheck.Proofs.FoldedRegistry
import ScopeCheck.Proofs.InventoryEntries

/-!
# The sites of declarations

A statement declares something for its whole scope if it stands in the file itself or in the body of
a namespace block that stands so (`Script.Stands`). A site is a script with such a statement, and
sites are ordered by the keys of their scripts and then by their places. What a registry lists of a
kind, it lists site by site in this order, each site once (`DeclKind.listsBySite`,
`listsBySite_blocks`), and there is only one list of which that is true (`ListsBySite.iff_eq`).
-/

namespace ScopeCheck

/-! ## Where declarations stand -/

/-- Where a statement stands that declares for the whole scope: the namespace block right around it,
if there is one, and the way to the statement. -/
inductive Script.Stands (script : Script) : Option NamespaceDecl → Path → Stmt → Prop
  /-- A statement of the file. -/
  | atFile {i : Nat} {stmt : Stmt} (h : script.body[i]? = some stmt) : Stands script none [i] stmt
  /-- A statement of a block. -/
  | inBlock {around : Option NamespaceDecl} {path : Path} {block : NamespaceDecl} {range : Range}
    {i : Nat} {stmt : Stmt} (hblock : Stands script around path (.namespaceDecl block range))
    (h : block.body[i]? = some stmt) : Stands script (some block) (i :: path) stmt

namespace Script

variable {script : Script}

/-- A statement that stands at file level or in blocks is collected. -/
theorem exists_topLevel_of_stands {block : Option NamespaceDecl} {path : Path} {stmt : Stmt}
    (h : script.Stands block path stmt) :
    ∃ visit, (visit, stmt) ∈ script.topLevel ∧ visit.namespaceDecl? = block ∧
      visit.path = path := by
  induction h with
  | @atFile i stmt hstmt =>
    exact ⟨⟨⟨.statement stmt, [i]⟩, []⟩,
      mem_topLevel.mpr ⟨mem_visits_iff_occurs.mpr (.file hstmt), rfl, rfl⟩, rfl, rfl⟩
  | @inBlock _ _ decl range i stmt _ hstmt ih =>
    obtain ⟨outer, houter, -, rfl⟩ := ih
    obtain ⟨hvisit, htop, hnode⟩ := mem_topLevel.mp houter
    have hdecl : outer.toPlace.namespaceDecl? = some decl := by rw [Place.namespaceDecl?, hnode]
    have hpart : outer.node.HasPart i (.statement stmt) := by
      rw [hnode]
      exact .namespaceStatement range hstmt
    refine ⟨outer.child i (.statement stmt), mem_topLevel.mpr ⟨?_, ?_, rfl⟩, ?_, rfl⟩
    · exact mem_visits_iff_occurs.mpr (.part (mem_visits_iff_occurs.mp hvisit) hpart)
    · rw [Visit.isTopLevel, Visit.child, List.all_cons, hdecl]
      exact htop
    · rw [Visit.namespaceDecl?, Visit.child, List.findSome?_cons, hdecl]

/-- What is collected stands at file level or in blocks, by induction on the way down to it. -/
theorem stands_of_occurs {visit : Visit} (hoccurs : script.Occurs visit)
    (htop : visit.isTopLevel = true) {stmt : Stmt} (hnode : visit.node = .statement stmt) :
    script.Stands visit.namespaceDecl? visit.path stmt := by
  induction hoccurs generalizing stmt with
  | file hstmt =>
    obtain rfl := Node.statement.inj hnode
    exact .atFile hstmt
  | @part outer i node _ hpart ih =>
    rw [Visit.isTopLevel, Visit.child, List.all_cons, Bool.and_eq_true] at htop
    obtain ⟨decl, hdecl⟩ := Option.isSome_iff_exists.mp htop.1
    have haround : (outer.child i node).namespaceDecl? = some decl := by
      rw [Visit.namespaceDecl?, Visit.child, List.findSome?_cons, hdecl]
    have hchild : outer.node.HasPart i (.statement stmt) := by rwa [← hnode]
    rw [haround]
    unfold Place.namespaceDecl? at hdecl
    split at hdecl
    · rename_i found range houter
      obtain rfl := Option.some.inj hdecl
      rw [houter] at hchild
      cases hchild with
      | namespaceStatement _ hstmt => exact .inBlock (ih htop.2 houter) hstmt
    · cases hdecl

/-- The statements that declare for the whole scope are those that the walk finds at file level and
in blocks. -/
theorem stands_iff {block : Option NamespaceDecl} {path : Path} {stmt : Stmt} :
    script.Stands block path stmt ↔
      ∃ visit, (visit, stmt) ∈ script.topLevel ∧ visit.namespaceDecl? = block ∧
        visit.path = path := by
  refine ⟨exists_topLevel_of_stands, ?_⟩
  rintro ⟨visit, hvisit, rfl, rfl⟩
  obtain ⟨hmem, htop, hnode⟩ := mem_topLevel.mp hvisit
  exact stands_of_occurs (mem_visits_iff_occurs.mp hmem) htop hnode

end Script

/-- A script with a statement that stands in it. -/
structure Site where
  /-- The script. -/
  script : Script
  /-- The namespace block right around the statement. -/
  block : Option NamespaceDecl
  /-- The way to the statement. -/
  path : Path
  /-- The statement. -/
  stmt : Stmt

namespace Site

/-- The site is one of some scripts. -/
structure In (scripts : List Script) (site : Site) : Prop where
  /-- The script is one of them. -/
  script : site.script ∈ scripts
  /-- The statement stands in it as the site says. -/
  stands : site.script.Stands site.block site.path site.stmt

/-- A site comes before another: the key of its script is smaller, or the scripts have one key and
the place is written before the other. -/
def Precedes (left right : Site) : Prop :=
  left.script.key < right.script.key ∨
    left.script.key = right.script.key ∧ List.Lex (· < ·) left.path.reverse right.path.reverse

/-- No two sites precede each other. -/
theorem Precedes.asymm {left right : Site} (h : left.Precedes right) : ¬ right.Precedes left := by
  rintro (hback | ⟨hkey, hback⟩)
  · rcases h with hlt | ⟨hkey, -⟩
    · exact lt_asymm hlt hback
    · exact (ne_of_lt hback) hkey.symm
  · rcases h with hlt | ⟨-, hlex⟩
    · exact (ne_of_lt hlt) hkey.symm
    · exact asymm_of (List.Lex (· < ·)) hlex hback

/-- No site precedes itself. -/
theorem Precedes.ne {left right : Site} (h : left.Precedes right) : left ≠ right := by
  rintro rfl
  exact h.asymm h

/-- The site of a statement that the walk over a script finds. -/
def ofEntry (script : Script) (entry : Visit × Stmt) : Site :=
  ⟨script, entry.1.namespaceDecl?, entry.1.path, entry.2⟩

end Site

/-- The sites of a script, in the order of the walk. -/
def Script.sites (script : Script) : List Site := script.topLevel.map (Site.ofEntry script)

/-- The sites of the scripts of a chain, in the order of their keys. -/
def ScopeChain.sites (chain : ScopeChain) : List Site := chain.sortedFiles.flatMap Script.sites

/-- The sites of a script are where its statements stand. -/
theorem Script.mem_sites {script : Script} {site : Site} :
    site ∈ script.sites ↔
      site.script = script ∧ script.Stands site.block site.path site.stmt := by
  rw [sites, List.mem_map, stands_iff]
  constructor
  · rintro ⟨entry, hentry, rfl⟩
    exact ⟨rfl, entry.1, hentry, rfl, rfl⟩
  · obtain ⟨script, block, path, stmt⟩ := site
    rintro ⟨rfl, visit, hvisit, rfl, rfl⟩
    exact ⟨(visit, stmt), hvisit, rfl⟩

/-- The walk over a script meets its sites in order. -/
theorem Script.pairwise_precedes_sites (script : Script) :
    script.sites.Pairwise Site.Precedes := by
  rw [sites, topLevel]
  refine List.pairwise_map.mpr (List.pairwise_filterMap.mpr
    (script.pairwise_before_visits.imp ?_))
  intro left right hbefore first hfirst second hsecond
  have hleft : first.1 = left := by grind
  have hright : second.1 = right := by grind
  refine Or.inr ⟨rfl, ?_⟩
  change List.Lex (· < ·) first.1.path.reverse second.1.path.reverse
  rw [hleft, hright]
  exact hbefore

namespace ScopeChain

/-- The keys of the scripts of a chain ascend. -/
theorem pairwise_key_sortedFiles (chain : ScopeChain) :
    chain.sortedFiles.Pairwise fun left right => left.key < right.key := by
  have hnodup : chain.sortedFiles.Pairwise fun left right => left.key ≠ right.key :=
    List.pairwise_map.mp chain.nodup_key_sortedFiles
  refine ((pairwise_sort_by Script.key chain.allFiles).and hnodup).imp fun {left right} h => ?_
  exact lt_of_le_of_ne (textAtOrBefore_iff.mp h.1) h.2

/-- So does the walk over all scripts of a chain, as these are sorted by key. -/
theorem pairwise_precedes_sites (chain : ScopeChain) : chain.sites.Pairwise Site.Precedes := by
  refine List.pairwise_flatMap.mpr
    ⟨fun script _ => script.pairwise_precedes_sites, chain.pairwise_key_sortedFiles.imp ?_⟩
  intro left right hlt first hfirst second hsecond
  obtain ⟨rfl, -⟩ := Script.mem_sites.mp hfirst
  obtain ⟨rfl, -⟩ := Script.mem_sites.mp hsecond
  exact Or.inl hlt

/-- Of the scripts with one key, a chain takes the first. -/
theorem mem_sortedFiles_iff {chain : ScopeChain} {script : Script} :
    script ∈ chain.sortedFiles ↔ script ∈ firstBy Script.key chain.files := by
  rw [chain.perm_sortedFiles.mem_iff, allFiles_eq]
  rfl

/-- If keys tell scripts apart, none of those that the scopes hold is left out. -/
theorem mem_sortedFiles_of_distinctKeys {chain : ScopeChain}
    (hkeys : Script.DistinctKeys chain.files) {script : Script} :
    script ∈ chain.sortedFiles ↔ script ∈ chain.files := by
  rw [chain.perm_sortedFiles.mem_iff, mem_allFiles hkeys]

/-- The sites of a chain are those in its files. -/
theorem mem_sites_iff {chain : ScopeChain} {site : Site} :
    site ∈ chain.sites ↔ site.In chain.sortedFiles := by
  rw [sites, List.mem_flatMap]
  constructor
  · rintro ⟨script, hscript, hsite⟩
    obtain ⟨rfl, hstands⟩ := Script.mem_sites.mp hsite
    exact ⟨hscript, hstands⟩
  · rintro ⟨hscript, hstands⟩
    exact ⟨site.script, hscript, Script.mem_sites.mpr ⟨rfl, hstands⟩⟩

end ScopeChain

/-! ## Lists in the order of sites -/

/-- The entries are those of the sites of some scripts, in the order of the sites. -/
def ListsBySite {α : Type} (scripts : List Script) (entries : List α)
    (EntryAt : Site → α → Prop) : Prop :=
  ∃ placed : List (Site × α), placed.map Prod.snd = entries ∧
    (placed.Pairwise fun left right => left.1.Precedes right.1) ∧
    ∀ site entry, (site, entry) ∈ placed ↔ site.In scripts ∧ EntryAt site entry

namespace ListsBySite

variable {α β : Type} {scripts : List Script} {entries : List α} {EntryAt : Site → α → Prop}

/-- There is one such list. -/
theorem iff_eq (h : ListsBySite scripts entries EntryAt) {others : List α} :
    ListsBySite scripts others EntryAt ↔ others = entries := by
  refine ⟨fun hothers => ?_, fun heq => heq ▸ h⟩
  obtain ⟨placed, rfl, horder, hmem⟩ := h
  obtain ⟨placed', rfl, horder', hmem'⟩ := hothers
  have hplaced : placed' = placed :=
    eq_of_placed Site.Precedes (fun _ _ => Site.Precedes.asymm) horder' horder
      fun site entry => by rw [hmem', hmem]
  rw [hplaced]

/-- An entry is listed exactly if a site has it. -/
theorem mem_iff (h : ListsBySite scripts entries EntryAt) {entry : α} :
    entry ∈ entries ↔ ∃ site, site.In scripts ∧ EntryAt site entry := by
  obtain ⟨placed, rfl, -, hmem⟩ := h
  simp [hmem]

/-- Picking entries keeps them in the order of their sites. -/
theorem filter (h : ListsBySite scripts entries EntryAt) (wanted : α → Bool) :
    ListsBySite scripts (entries.filter wanted)
      fun site entry => EntryAt site entry ∧ wanted entry = true := by
  obtain ⟨placed, rfl, horder, hmem⟩ := h
  refine ⟨placed.filter fun place => wanted place.2, ?_, horder.filter _, fun site entry => ?_⟩
  · rw [List.filter_map]
    rfl
  · rw [List.mem_filter, hmem, and_assoc]

/-- Changing entries keeps them in the order of their sites. -/
theorem map (h : ListsBySite scripts entries EntryAt) (change : α → β) :
    ListsBySite scripts (entries.map change)
      fun site other => ∃ entry, EntryAt site entry ∧ other = change entry := by
  obtain ⟨placed, rfl, horder, hmem⟩ := h
  refine ⟨placed.map (Prod.map id change), ?_, List.pairwise_map.mpr horder,
    fun site other => ?_⟩
  · simp only [List.map_map]
    rfl
  · rw [List.mem_map]
    constructor
    · rintro ⟨place, hplace, heq⟩
      cases heq
      obtain ⟨hin, hentry⟩ := (hmem place.1 place.2).mp hplace
      exact ⟨hin, place.2, hentry, rfl⟩
    · rintro ⟨hin, entry, hentry, rfl⟩
      exact ⟨(site, entry), (hmem site entry).mpr ⟨hin, hentry⟩, rfl⟩

/-- The order of the scripts does not matter to what is listed, and entries may be described in
another way. -/
theorem congr (h : ListsBySite scripts entries EntryAt) {others : List Script}
    (hscripts : ∀ script, script ∈ scripts ↔ script ∈ others) {EntryAt' : Site → α → Prop}
    (hentry : ∀ site entry, EntryAt site entry ↔ EntryAt' site entry) :
    ListsBySite others entries EntryAt' := by
  obtain ⟨placed, hentries, horder, hmem⟩ := h
  refine ⟨placed, hentries, horder, fun site entry => ?_⟩
  rw [hmem, hentry]
  refine and_congr_left fun _ => ⟨fun hin => ?_, fun hin => ?_⟩
  · exact ⟨(hscripts _).mp hin.script, hin.stands⟩
  · exact ⟨(hscripts _).mpr hin.script, hin.stands⟩

end ListsBySite

/-- What a walk over the sites of a chain lists is in their order. -/
theorem ScopeChain.listsBySite_filterMap {α : Type} (chain : ScopeChain)
    (listed? : Site → Option α) :
    ListsBySite chain.sortedFiles (chain.sites.filterMap listed?)
      fun site entry => listed? site = some entry := by
  refine ⟨withPlaces listed? chain.sites, map_snd_withPlaces listed? chain.sites,
    pairwise_withPlaces chain.pairwise_precedes_sites listed?, fun site entry => ?_⟩
  rw [mem_withPlaces, ScopeChain.mem_sites_iff]

/-! ## Kinds of declarations -/

/-- The declaration of a thing by the statement of a site: its full name is its own name after that
of the block around. -/
def Site.declaration {α : Type} (site : Site) (name : Ident) (node : α) : Declaration α :=
  { file := site.script.path
    name
    namespaceKey := site.block.map fun block => block.name.lower
    fullName :=
      match site.block with
      | some block => s!"{block.name.text}.{name.text}"
      | none => name.text
    node }

/-- A kind of declaration: how it is written as a statement, how it is taken from one, and its
name. -/
structure DeclKind (α : Type) where
  /-- The statement that declares a thing. -/
  write : α → Range → Stmt
  /-- What a statement declares. -/
  node? : Stmt → Option α
  /-- The name of what is declared. -/
  nameOf : α → Ident
  /-- A thing is taken from the statements that declare it. -/
  node?_eq_some : ∀ stmt node, node? stmt = some node ↔ ∃ range, stmt = write node range

/-- The declaration that the statement of a site makes. -/
def Site.Declares {α : Type} (kind : DeclKind α) (site : Site) (decl : Declaration α) : Prop :=
  ∃ node range, site.stmt = kind.write node range ∧
    decl = site.declaration (kind.nameOf node) node

namespace DeclKind

/-- Classes. -/
def ofClass : DeclKind ClassDecl where
  write := .classDecl
  node? := Stmt.class?
  nameOf := ClassDecl.name
  node?_eq_some stmt node := by cases stmt <;> simp [Stmt.class?]

/-- Enums. -/
def ofEnum : DeclKind EnumDecl where
  write := .enumDecl
  node? := Stmt.enum?
  nameOf := EnumDecl.name
  node?_eq_some stmt node := by cases stmt <;> simp [Stmt.enum?]

/-- Constants. -/
def ofConst : DeclKind ConstDecl where
  write := .constDecl
  node? := Stmt.const?
  nameOf := ConstDecl.name
  node?_eq_some stmt node := by cases stmt <;> simp [Stmt.const?]

/-- Interfaces. -/
def ofInterface : DeclKind InterfaceDecl where
  write := .interfaceDecl
  node? := Stmt.interface?
  nameOf := InterfaceDecl.name
  node?_eq_some stmt node := by cases stmt <;> simp [Stmt.interface?]

/-- Functions. -/
def ofFunction : DeclKind FunctionDecl where
  write := .functionDecl
  node? := Stmt.function?
  nameOf := FunctionDecl.name
  node?_eq_some stmt node := by cases stmt <;> simp [Stmt.function?]

variable {α : Type} (kind : DeclKind α)

/-- A site declares what is read off its statement. -/
theorem declares_iff {site : Site} {decl : Declaration α} :
    site.Declares kind decl ↔
      ((kind.node? site.stmt).map fun node => site.declaration (kind.nameOf node) node) =
        some decl := by
  simp only [Option.map_eq_some_iff, kind.node?_eq_some]
  constructor
  · rintro ⟨node, range, hstmt, rfl⟩
    exact ⟨node, ⟨range, hstmt⟩, rfl⟩
  · rintro ⟨node, ⟨range, hstmt⟩, rfl⟩
    exact ⟨node, range, hstmt, rfl⟩

/-- What the scripts of a chain declare of a kind is listed site by site. -/
theorem listsBySite (chain : ScopeChain) {decls : Script → List (Declaration α)}
    (hdecls : ∀ script, decls script = script.declaredAs kind.node? kind.nameOf) :
    ListsBySite chain.sortedFiles (chain.sortedFiles.flatMap decls) (Site.Declares kind) := by
  have hsites : chain.sortedFiles.flatMap decls = chain.sites.filterMap fun site =>
      (kind.node? site.stmt).map fun node => site.declaration (kind.nameOf node) node := by
    rw [ScopeChain.sites, List.filterMap_flatMap]
    refine List.flatMap_congr fun script _ => ?_
    rw [hdecls, Script.declaredAs, Script.sites, List.filterMap_map]
    rfl
  rw [hsites]
  exact (chain.listsBySite_filterMap _).congr (fun _ => Iff.rfl)
    fun _ _ => kind.declares_iff.symm

end DeclKind

/-- The statement of a site is a namespace block. -/
def Site.IsBlock (site : Site) (block : NamespaceBlock) : Prop :=
  ∃ decl range, site.stmt = .namespaceDecl decl range ∧
    block = ⟨site.script, site.path, decl.name⟩

/-- The namespace blocks of a chain are listed site by site. -/
theorem listsBySite_blocks (chain : ScopeChain) :
    ListsBySite chain.sortedFiles (chain.sortedFiles.flatMap Script.blocks) Site.IsBlock := by
  have hsites : chain.sortedFiles.flatMap Script.blocks = chain.sites.filterMap fun site =>
      (Place.mk (.statement site.stmt) site.path).namespaceDecl?.map fun decl =>
        ⟨site.script, site.path, decl.name⟩ := by
    rw [ScopeChain.sites, List.filterMap_flatMap]
    refine List.flatMap_congr fun script _ => ?_
    rw [Script.blocks, Script.sites, List.filterMap_map]
    refine List.filterMap_congr fun entry _ => ?_
    obtain ⟨visit, stmt⟩ := entry
    cases stmt <;> rfl
  rw [hsites]
  refine (chain.listsBySite_filterMap _).congr (fun _ => Iff.rfl) fun site block => ?_
  obtain ⟨script, around, path, stmt⟩ := site
  cases stmt <;> simp [Site.IsBlock, Place.namespaceDecl?, eq_comm]

end ScopeCheck
