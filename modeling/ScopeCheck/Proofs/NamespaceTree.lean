import ScopeCheck.Proofs.QualifiedNames
import ScopeCheck.Proofs.SigmaContext
import ScopeCheck.Proofs.Sites

/-!
# The tree of namespaces

Blocks of a namespace are met in any order and in any spelling, and with each block the namespaces
around it are entered. Whatever the order, the namespaces form a tree: below each stand those whose
names are one part longer, each once (`Nested`). Entering one name after the name of a namespace
that is there keeps this true (`Nested.enterOne`), so it holds of every registry whose blocks have
names of identifiers. What is listed of a namespace, its blocks and what is declared in them, is
listed site by site (`Registry.build_holdsNamespaces`).

Nothing is said here of names with empty parts; a namespace without a name would stand inside
itself.
-/

namespace ScopeCheck

/-! ## Names that are one part longer -/

/-- A name is another with a part after it. -/
def OnePartLonger (outer inner : String) : Prop :=
  ∃ part : String, '.' ∉ part.toList ∧ inner = s!"{outer}.{part}"

namespace OnePartLonger

variable {outer other inner : String}

/-- The part that a name is longer by can be taken off in one way. -/
theorem outer_eq (h : OnePartLonger outer inner) (hother : OnePartLonger other inner) :
    outer = other := by
  obtain ⟨part, hpart, rfl⟩ := h
  obtain ⟨part', hpart', heq⟩ := hother
  have hsplit := congrArg (Text.splitAtLast? '.') heq
  rw [Text.splitAtLast?_qualified outer hpart, Text.splitAtLast?_qualified other hpart'] at hsplit
  exact congrArg Prod.fst (Option.some.inj hsplit)

/-- A name that is one part longer has one part more. -/
theorem length_split (h : OnePartLonger outer inner) :
    (Text.split '.' inner).length = (Text.split '.' outer).length + 1 := by
  obtain ⟨part, hpart, rfl⟩ := h
  rw [Text.split_qualified, Text.split_of_not_mem hpart, List.length_append, List.length_singleton]

/-- No name is one part longer than itself. -/
theorem ne (h : OnePartLonger outer inner) : outer ≠ inner := by
  rintro rfl
  have := h.length_split
  omega

/-- A name of one part is not longer than any. -/
theorem dotted (h : OnePartLonger outer inner) : '.' ∈ inner.toList := by
  obtain ⟨part, -, rfl⟩ := h
  change '.' ∈ (outer ++ "." ++ part).toList
  simp

end OnePartLonger

/-- Lowering makes no dot of an identifier. -/
theorem Text.IsIdentifier.undotted_lower {text : String} (h : IsIdentifier text) :
    '.' ∉ (lower text).toList := by
  rw [h.lower_eq, toList_asciiLower]
  intro hmem
  obtain ⟨c, hc, hdot⟩ := List.mem_map.mp hmem
  rw [(toLower_eq_iff (by decide) c).mp hdot] at hc
  exact h.undotted hc

/-! ## Entering a namespace -/

/-- The namespaces form a tree: right inside each are those whose names are one part longer. -/
structure Nested (entries : Keyed String NamespaceEntry) : Prop where
  /-- A namespace has a name. -/
  named : "" ∉ entries.keys
  /-- With a namespace the one around it is there. -/
  closed : ∀ outer inner, OnePartLonger outer inner → inner ∈ entries.keys → outer ∈ entries.keys
  /-- Nothing is listed twice inside a namespace. -/
  nodup : ∀ key entry, entries.get? key = some entry → entry.children.Nodup
  /-- Inside a namespace are listed those whose names are one part longer. -/
  children : ∀ key entry, entries.get? key = some entry →
    ∀ child, child ∈ entry.children ↔ child ∈ entries.keys ∧ OnePartLonger key child

/-- Without namespaces there is nothing out of place. -/
theorem nested_empty : Nested .empty where
  named := List.not_mem_nil
  closed _ _ _ hmem := absurd hmem List.not_mem_nil
  nodup key entry hget := by
    rw [Keyed.get?_empty] at hget
    cases hget
  children key entry hget := by
    rw [Keyed.get?_empty] at hget
    cases hget

/-- A name stands where the name before it says: it is longer by one part than that name and no
other, and only if that name is one of a namespace. -/
structure StandsAfter (entries : Keyed String NamespaceEntry) (outer key : String) : Prop where
  /-- It is a name. -/
  named : key ≠ ""
  /-- It is not the name before. -/
  ne : outer ≠ key
  /-- It is one part longer than the name before, if that is the name of a namespace. -/
  longer_iff : ∀ other, OnePartLonger other key ↔ other = outer ∧ outer ∈ entries.keys

section EnterOne

variable {entries : Keyed String NamespaceEntry} {outer fullName : String}

/-- What is under a key after a new name is entered: the new namespace, with nothing inside, or what
was there, with the new one inside if that is where it belongs. -/
theorem get?_enterOne_of_new (hnew : Text.lower fullName ∉ entries.keys)
    (hne : Text.lower outer ≠ Text.lower fullName) {key : String} {entry : NamespaceEntry}
    (hget : (enterOne entries outer fullName).get? key = some entry) :
    (key = Text.lower fullName ∧ entry.children = []) ∨
      ∃ before, entries.get? key = some before ∧
        entry.children = before.children ++
          if key = Text.lower outer then [Text.lower fullName] else [] := by
  have hcontains : ¬ entries.contains (Text.lower fullName) = true := by
    rwa [Keyed.contains_iff_mem_keys]
  rw [enterOne, if_neg hcontains, Keyed.get?_adjust, Keyed.get?_put, Keyed.get?_put,
    if_neg hne] at hget
  by_cases hkey : key = Text.lower fullName
  · subst hkey
    rw [if_neg hne.symm, if_pos rfl] at hget
    obtain rfl := Option.some.inj hget
    exact Or.inl ⟨rfl, rfl⟩
  · rw [if_neg hkey] at hget
    refine Or.inr ?_
    by_cases houter : key = Text.lower outer
    · subst houter
      rw [if_pos rfl] at hget
      obtain ⟨before, hbefore, rfl⟩ := Option.map_eq_some_iff.mp hget
      exact ⟨before, hbefore, by rw [if_pos rfl]⟩
    · rw [if_neg houter] at hget
      exact ⟨entry, hget, by rw [if_neg houter, List.append_nil]⟩

/-- Entering a name where it belongs leaves a tree. -/
theorem Nested.enterOne (h : Nested entries)
    (hplace : StandsAfter entries (Text.lower outer) (Text.lower fullName)) :
    Nested (enterOne entries outer fullName) := by
  by_cases hnew : Text.lower fullName ∈ entries.keys
  · rw [ScopeCheck.enterOne, if_pos (entries.contains_iff_mem_keys _ |>.mpr hnew)]
    exact h
  have hkeys : ∀ key, key ∈ (ScopeCheck.enterOne entries outer fullName).keys ↔
      key ∈ entries.keys ∨ key = Text.lower fullName := fun key => mem_keys_enterOne outer fullName
  refine ⟨?_, fun outer' inner hlonger hinner => ?_, fun key entry hget => ?_,
    fun key entry hget child => ?_⟩
  · rw [hkeys, not_or]
    exact ⟨h.named, hplace.named.symm⟩
  · rw [hkeys] at hinner ⊢
    rcases hinner with hknown | rfl
    · exact Or.inl (h.closed outer' inner hlonger hknown)
    · obtain ⟨rfl, hmem⟩ := (hplace.longer_iff outer').mp hlonger
      exact Or.inl hmem
  · rcases get?_enterOne_of_new hnew hplace.ne hget with ⟨-, hnone⟩ | ⟨before, hbefore, hchildren⟩
    · rw [hnone]
      exact List.nodup_nil
    · have hfresh : Text.lower fullName ∉ before.children :=
        fun hmem => hnew ((h.children key before hbefore _).mp hmem).1
      rw [hchildren]
      split
      · exact List.nodup_append_comm.mp
          (List.nodup_cons.mpr ⟨hfresh, h.nodup key before hbefore⟩)
      · rw [List.append_nil]
        exact h.nodup key before hbefore
  · rw [hkeys]
    rcases get?_enterOne_of_new hnew hplace.ne hget with
      ⟨rfl, hnone⟩ | ⟨before, hbefore, hchildren⟩
    · -- nothing is inside a new namespace, as whatever is inside one has it around
      rw [hnone]
      refine iff_of_false List.not_mem_nil ?_
      rintro ⟨hknown | rfl, hlonger⟩
      · exact hnew (h.closed _ child hlonger hknown)
      · exact hlonger.ne rfl
    · have hknown : key ∈ entries.keys := Keyed.mem_keys_iff.mpr (by rw [hbefore]; rfl)
      rw [hchildren, List.mem_append, h.children key before hbefore child, or_and_right]
      refine or_congr Iff.rfl ?_
      constructor
      · intro hmem
        split at hmem
        · rename_i houter
          obtain rfl := List.mem_singleton.mp hmem
          exact ⟨rfl, (hplace.longer_iff key).mpr ⟨houter, houter ▸ hknown⟩⟩
        · cases hmem
      · rintro ⟨rfl, hlonger⟩
        rw [if_pos ((hplace.longer_iff key).mp hlonger).1]
        exact List.mem_singleton_self _

/-- A part stands right inside the namespace before it, or outside of all. -/
theorem standsAfter_nameWithin (hnamed : "" ∉ entries.keys) (hfree : Text.SigmaFree outer)
    (hknown : outer ≠ "" → Text.lower outer ∈ entries.keys) {part : String}
    (hpart : Text.IsIdentifier part) :
    StandsAfter entries (Text.lower outer) (Text.lower (nameWithin outer part)) := by
  have hpartNamed : Text.lower part ≠ "" := mt (Text.lower_eq_empty_iff part).mp hpart.nonempty
  by_cases hempty : outer = ""
  -- a first part has no dot, so it is inside no other namespace
  · subst hempty
    have hname : nameWithin "" part = part := rfl
    have houter : Text.lower "" = "" := (Text.lower_eq_empty_iff "").mpr rfl
    rw [hname, houter]
    refine ⟨hpartNamed, hpartNamed.symm, fun other => iff_of_false ?_ ?_⟩
    · exact fun hlonger => hpart.undotted_lower hlonger.dotted
    · exact fun h => hnamed h.2
  · have hname : nameWithin outer part = s!"{outer}.{part}" := by
      rw [nameWithin, if_neg (by simpa using hempty)]
    have hlonger : OnePartLonger (Text.lower outer) (Text.lower (nameWithin outer part)) := by
      rw [hname, Text.lower_qualified hfree.capital_not_mem hpart.sigmaFree.capital_not_mem]
      exact ⟨Text.lower part, hpart.undotted_lower, rfl⟩
    refine ⟨?_, hlonger.ne, fun other => ⟨fun hother => ?_, ?_⟩⟩
    · intro hnone
      have hdotted := hlonger.dotted
      rw [hnone] at hdotted
      cases hdotted
    · exact ⟨hother.outer_eq hlonger, hknown hempty⟩
    · rintro ⟨rfl, -⟩
      exact hlonger

end EnterOne

/-- Entering the parts of a name one after the other leaves a tree. -/
theorem Nested.enterParts {entries : Keyed String NamespaceEntry} (h : Nested entries)
    {outer : String} (hfree : Text.SigmaFree outer)
    (hknown : outer ≠ "" → Text.lower outer ∈ entries.keys) {parts : List String}
    (hparts : ∀ part ∈ parts, Text.IsIdentifier part) :
    Nested (enterParts entries outer parts) := by
  induction parts generalizing entries outer with
  | nil => exact h
  | cons part rest ih =>
    obtain ⟨hpart, hrest⟩ := List.forall_mem_cons.mp hparts
    rw [enterParts_cons]
    refine ih (h.enterOne (standsAfter_nameWithin h.named hfree hknown hpart)) ?_
      (fun _ => ?_) hrest
    · unfold nameWithin
      split
      · exact hpart.sigmaFree
      · exact hfree.qualified hpart.sigmaFree
    · exact (mem_keys_enterOne outer _).mpr (Or.inr rfl)

/-- The namespaces that the parts of a name enter, one for each front of the parts. -/
theorem mem_keys_enterParts_iff {entries : Keyed String NamespaceEntry} {outer key : String}
    {parts : List String} :
    key ∈ (enterParts entries outer parts).keys ↔
      key ∈ entries.keys ∨
        ∃ front, front ≠ [] ∧ front <+: parts ∧
          key = Text.lower (front.foldl nameWithin outer) := by
  constructor
  · intro hmem
    induction parts generalizing entries outer with
    | nil => exact Or.inl hmem
    | cons part rest ih =>
      rw [enterParts_cons] at hmem
      rcases ih hmem with hone | ⟨front, -, hfront, hkey⟩
      · refine ((mem_keys_enterOne outer _).mp hone).imp_right fun hkey => ?_
        exact ⟨[part], List.cons_ne_nil part [], ⟨rest, rfl⟩, hkey⟩
      · exact Or.inr ⟨part :: front, List.cons_ne_nil part front,
          List.cons_prefix_cons.mpr ⟨rfl, hfront⟩, hkey⟩
  · rintro (hmem | ⟨front, hne, hfront, rfl⟩)
    · exact (mem_keys_enterParts outer parts).mpr (Or.inl hmem)
    · exact mem_keys_enterParts_of_prefix hfront hne

/-! ## Dotted names -/

/-- A name of at least one part, whose parts are identifiers. -/
structure DottedName.IsProper (name : DottedName) : Prop where
  /-- There is a part. -/
  parts_ne : name.parts ≠ []
  /-- The parts are identifiers. -/
  identifiers : ∀ part ∈ name.parts, Text.IsIdentifier part.text

section EnterNamespace

variable {entries : Keyed String NamespaceEntry} {name : DottedName} (hname : name.IsProper)
include hname

/-- A name of identifiers is entered part by part, and its own namespace with its last part. -/
theorem enterNamespace_text :
    enterNamespace entries name.text = enterParts entries "" (name.parts.map Ident.text) := by
  have hsplit : Text.split '.' name.text = name.parts.map Ident.text :=
    split_dottedText hname.identifiers hname.parts_ne
  have hown : Text.lower name.text ∈ (enterParts entries "" (name.parts.map Ident.text)).keys := by
    have htext : name.text = (name.parts.map Ident.text).foldl nameWithin "" :=
      (foldl_nameWithin hname.identifiers).symm
    rw [htext]
    exact mem_keys_enterParts_of_prefix List.prefix_rfl (mt List.map_eq_nil_iff.mp hname.parts_ne)
  rw [enterNamespace, hsplit, Keyed.putNew, if_pos ((Keyed.contains_iff_mem_keys _ _).mpr hown)]

/-- Entering a namespace keeps all of them in their places, by the steps along its parts. -/
theorem Nested.enterNamespace (h : Nested entries) : Nested (enterNamespace entries name.text) := by
  rw [enterNamespace_text hname]
  refine h.enterParts (fun c hc => absurd hc (by simp)) (fun hnot => absurd rfl hnot) ?_
  intro part hpart
  obtain ⟨ident, hident, rfl⟩ := List.mem_map.mp hpart
  exact hname.identifiers ident hident

/-- A block enters the namespaces of all fronts of its name. -/
theorem mem_keys_enterNamespace_iff {key : String} :
    key ∈ (enterNamespace entries name.text).keys ↔
      key ∈ entries.keys ∨
        ∃ front, front ≠ [] ∧ front <+: name.parts ∧ key = Text.lower (dottedText front) := by
  rw [enterNamespace_text hname, mem_keys_enterParts_iff]
  refine or_congr Iff.rfl ?_
  have hfold : ∀ front, front <+: name.parts →
      (front.map Ident.text).foldl nameWithin "" = dottedText front := fun front hfront =>
    foldl_nameWithin fun part hpart => hname.identifiers part (hfront.subset hpart)
  constructor
  · rintro ⟨texts, hne, hfront, rfl⟩
    have htake := List.prefix_iff_eq_take.mp hfront
    rw [← List.map_take] at htake
    have hprefix := List.take_prefix texts.length name.parts
    refine ⟨name.parts.take texts.length, ?_, hprefix, ?_⟩
    · intro hnone
      rw [hnone] at htake
      exact hne htake
    · rw [← hfold _ hprefix, ← htake]
  · rintro ⟨front, hne, hfront, rfl⟩
    exact ⟨front.map Ident.text, mt List.map_eq_nil_iff.mp hne, hfront.map Ident.text,
      by rw [hfold front hfront]⟩

end EnterNamespace

/-! ## The registry of a chain -/

/-- A site stands right in a block of a namespace. -/
def Site.IsWithin (key : String) (site : Site) : Prop :=
  ∃ block, site.block = some block ∧ block.name.lower = key

/-- What is listed of each namespace are the keys of the declarations of a kind that stand right in
its blocks, in the order of their sites. -/
def DeclKind.KeysListedIn {α : Type} (kind : DeclKind α) (scripts : List Script)
    (listed : String → List String) : Prop :=
  ∀ key keys, keys = listed key ↔ ListsBySite scripts keys fun site declared =>
    ∃ decl, (site.Declares kind decl ∧ site.IsWithin key) ∧ declared = decl.key

namespace Registry

/-- What a registry holds of the namespaces of some scripts. -/
structure HoldsNamespaces (registry : Registry) (scripts : List Script) : Prop where
  /-- There is a namespace for each front of the name of a block. -/
  keys : ∀ key, key ∈ registry.namespaces.keys ↔
    ∃ (site : Site) (block : NamespaceBlock) (front : List Ident), site.In scripts ∧
      site.IsBlock block ∧ front ≠ [] ∧ front <+: block.name.parts ∧
      key = Text.lower (dottedText front)
  /-- Right inside a namespace are those whose names are one part longer, each once. -/
  children : ∀ key entry, registry.namespaces.get? key = some entry → entry.children.Nodup ∧
    ∀ child, child ∈ entry.children ↔ child ∈ registry.namespaces.keys ∧ OnePartLonger key child
  /-- The blocks of a namespace are those of its name, in the order of their sites. -/
  blocks : ∀ key blocks, blocks = registry.blocksOf key ↔
    ListsBySite scripts blocks fun site block => site.IsBlock block ∧ block.name.lower = key
  /-- Its classes are those that stand right in its blocks. -/
  classes : DeclKind.ofClass.KeysListedIn scripts (keysWithin registry.classes)
  /-- So are its functions. -/
  functions : DeclKind.ofFunction.KeysListedIn scripts (keysWithin registry.functions)
  /-- So are its enums. -/
  enums : DeclKind.ofEnum.KeysListedIn scripts (keysWithin registry.enums)
  /-- So are its constants. -/
  consts : DeclKind.ofConst.KeysListedIn scripts (keysWithin registry.consts)
  /-- So are its interfaces. -/
  interfaces : DeclKind.ofInterface.KeysListedIn scripts (keysWithin registry.interfaces)

/-- The blocks that are entered leave a tree. -/
theorem nested_foldl {blocks : List NamespaceBlock}
    (hnames : ∀ block ∈ blocks, block.name.IsProper) {entries : Keyed String NamespaceEntry}
    (h : Nested entries) :
    Nested
      (blocks.foldl (fun entries block => enterNamespace entries block.name.text) entries) := by
  induction blocks generalizing entries with
  | nil => exact h
  | cons block rest ih =>
    obtain ⟨hblock, hrest⟩ := List.forall_mem_cons.mp hnames
    exact ih hrest (h.enterNamespace hblock)

variable {chain : ScopeChain} {platform : Platform}

/-- What stands right in the blocks of a namespace is listed site by site. -/
theorem keysWithin_listed {α : Type} (kind : DeclKind α) {decls : Script → List (Declaration α)}
    (hdecls : ∀ script, decls script = script.declaredAs kind.node? kind.nameOf) :
    kind.KeysListedIn (firstBy Script.key chain.files)
      (keysWithin (chain.sortedFiles.flatMap decls)) := by
  intro key keys
  have hwithin : ∀ (site : Site) (decl : Declaration α), site.Declares kind decl →
      (decide (decl.namespaceKey = some key) = true ↔ site.IsWithin key) := by
    rintro site _ ⟨node, range, -, rfl⟩
    rw [decide_eq_true_iff]
    exact Option.map_eq_some_iff
  have hfiltered := (kind.listsBySite chain hdecls).filter fun decl => decl.namespaceKey = some key
  have hlists := (hfiltered.map Declaration.key).congr
    (fun _ => ScopeChain.mem_sortedFiles_iff) fun site declared =>
      exists_congr fun decl => and_congr_left fun _ => and_congr_right (hwithin site decl)
  exact hlists.iff_eq.symm

/-- The namespaces of a registry are the fronts of the names of its blocks, in any letter case. They
form a tree, and what is listed of each are the blocks of its name and what stands right in them. -/
theorem build_holdsNamespaces (chain : ScopeChain) (platform : Platform)
    (hnames : ∀ (site : Site) (block : NamespaceBlock),
      site.In (firstBy Script.key chain.files) → site.IsBlock block → block.name.IsProper) :
    (build chain platform).HoldsNamespaces (firstBy Script.key chain.files) := by
  have hsites : ListsBySite (firstBy Script.key chain.files) (build chain platform).blocks
      Site.IsBlock :=
    (listsBySite_blocks chain).congr (fun _ => ScopeChain.mem_sortedFiles_iff) fun _ _ => Iff.rfl
  have hproper : ∀ block ∈ (build chain platform).blocks, block.name.IsProper := by
    intro block hblock
    obtain ⟨site, hsite, hisBlock⟩ := hsites.mem_iff.mp hblock
    exact hnames site block hsite hisBlock
  -- the blocks are entered one after the other, and each keeps the tree in order
  have htree : Nested (build chain platform).namespaces := nested_foldl hproper nested_empty
  refine ⟨fun key => ?_, fun key entry hget => ?_, fun key blocks => ?_,
    keysWithin_listed .ofClass Script.classes_eq, keysWithin_listed .ofFunction Script.functions_eq,
    keysWithin_listed .ofEnum Script.enums_eq, keysWithin_listed .ofConst Script.consts_eq,
    keysWithin_listed .ofInterface Script.interfaces_eq⟩
  · rw [mem_keys_namespaces_iff]
    constructor
    · rintro ⟨block, hblock, hkey⟩
      obtain ⟨site, hsite, hisBlock⟩ := hsites.mem_iff.mp hblock
      rw [mem_keys_enterNamespace_iff (hproper block hblock)] at hkey
      obtain ⟨front, hfront⟩ := hkey.resolve_left List.not_mem_nil
      exact ⟨site, block, front, hsite, hisBlock, hfront⟩
    · rintro ⟨site, block, front, hsite, hisBlock, hfront⟩
      have hblock := hsites.mem_iff.mpr ⟨site, hsite, hisBlock⟩
      exact ⟨block, hblock,
        (mem_keys_enterNamespace_iff (hproper block hblock)).mpr (Or.inr ⟨front, hfront⟩)⟩
  · exact ⟨htree.nodup key entry hget, htree.children key entry hget⟩
  · have hblocks := (hsites.filter fun block => block.key = key).congr (fun _ => Iff.rfl)
      fun site block => and_congr_right fun _ => decide_eq_true_iff
    exact hblocks.iff_eq.symm

end Registry

/-! ## Two blocks in different letter case -/

/-- The two blocks of the script. -/
theorem blocks_network :
    network.blocks.map NamespaceBlock.name = [⟨[⟨"app", .zero⟩], .zero⟩, netBlock.name] := by
  rw [Script.blocks, Script.topLevel, visits_network]
  rfl

/-- Both blocks have proper names. -/
theorem isProper_network (site : Site) (block : NamespaceBlock)
    (hsite : site.In (firstBy Script.key networkChain.files)) (hblock : site.IsBlock block) :
    block.name.IsProper := by
  have hin : site.In networkChain.sortedFiles :=
    ⟨ScopeChain.mem_sortedFiles_iff.mpr hsite.script, hsite.stands⟩
  have hmem := (listsBySite_blocks networkChain).mem_iff.mpr ⟨site, hin, hblock⟩
  rw [sortedFiles_networkChain, List.flatMap_singleton] at hmem
  have hname := List.mem_map_of_mem hmem (f := NamespaceBlock.name)
  rw [blocks_network] at hname
  rcases List.mem_cons.mp hname with heq | hrest
  · rw [heq]
    exact ⟨List.cons_ne_nil _ _, by decide⟩
  · rw [List.mem_singleton.mp hrest]
    exact ⟨List.cons_ne_nil _ _, by decide⟩

/-- The namespace of one block stands inside that of the other, which is spelled differently. -/
theorem network_namespaces_nested :
    (∀ (site : Site) (block : NamespaceBlock), site.In (firstBy Script.key networkChain.files) →
      site.IsBlock block → block.name.IsProper) ∧
    ∃ entry, (Registry.build networkChain (.withNodes [])).namespaces.get? "app" = some entry ∧
      "app.net" ∈ entry.children := by
  have hholds := Registry.build_holdsNamespaces networkChain (.withNodes []) isProper_network
  have houter : "app" ∈ (Registry.build networkChain (.withNodes [])).namespaces.keys := by
    rw [namespaces_networkChain]
    exact List.mem_cons_self
  have hinner : "app.net" ∈ (Registry.build networkChain (.withNodes [])).namespaces.keys := by
    rw [namespaces_networkChain]
    exact List.mem_cons_of_mem _ List.mem_cons_self
  obtain ⟨entry, hentry, -⟩ := Registry.exists_entry houter
  refine ⟨isProper_network, entry, hentry, ?_⟩
  exact ((hholds.children "app" entry hentry).2 "app.net").mpr ⟨hinner, "net", by decide, rfl⟩

end ScopeCheck
