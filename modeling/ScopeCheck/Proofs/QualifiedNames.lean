import ScopeCheck.Proofs.Declared
import ScopeCheck.Proofs.DottedText
import ScopeCheck.Proofs.Shadowing
import ScopeCheck.Proofs.VisibleNames

/-!
# Full names lead to what they name

A function, class, constant or enum that is declared in a block of a namespace can be named from
anywhere by its full name, part by part and in any letter case, as long as nothing nearer is meant
by the first part and no namespace has the full name itself. The walk along the parts finds a
namespace for each front of the name of the block, since with a namespace those around it are
entered (`Registry.mem_keys_of_front`), in the spelling of whichever block came first. It ends at
something that is declared under the full name, though perhaps not at this very declaration, and a
value of an enum is found in the enum that came first. Of such a chain nothing but the number of
arguments of a call can be reported (`Inhabitant.only_arity_reported`).
-/

namespace ScopeCheck

/-- The name of the function, class, constant or enum that a statement declares. -/
def Stmt.declaredName? : Stmt → Option Ident
  | .functionDecl decl _ => some decl.name
  | .classDecl decl _ => some decl.name
  | .constDecl decl _ => some decl.name
  | .enumDecl decl _ => some decl.name
  | _ => none

/-- Something that is declared directly in a block of a namespace, where the block stands at file
level or in blocks only. -/
structure Inhabitant (chain : ScopeChain) where
  /-- The script of the declaration. -/
  script : Script
  /-- The script belongs to the chain. -/
  inScope : script ∈ chain.sortedFiles
  /-- The visit of the declaration. -/
  visit : Visit
  /-- The declaration. -/
  stmt : Stmt
  /-- It is registered. -/
  listed : (visit, stmt) ∈ script.topLevel
  /-- The block. -/
  block : NamespaceDecl
  /-- The block is the innermost one around the declaration. -/
  around : visit.namespaceDecl? = some block
  /-- The namespace has a name. -/
  parts_ne : block.name.parts ≠ []
  /-- The name of what is declared. -/
  name : Ident
  /-- The declaration has this name. -/
  declares : stmt.declaredName? = some name
  /-- The names are identifiers. -/
  identifiers : ∀ part ∈ block.name.parts ++ [name], Text.IsIdentifier part.text

namespace Inhabitant

variable {chain : ScopeChain}

/-- The parts of the full name. -/
def parts (decl : Inhabitant chain) : List Ident := decl.block.name.parts ++ [decl.name]

/-- The full name. -/
def fullName (decl : Inhabitant chain) : String := dottedText decl.parts

/-- The parts that are to be named: those of the declaration or, if it is the first enum of its
name, those of one of its values. -/
inductive Target (decl : Inhabitant chain) (registry : Registry) : List Ident → Prop
  | itself : decl.Target registry decl.parts
  | value {enum : EnumDecl} {range : Range} {item : EnumItem}
      (hstmt : decl.stmt = .enumDecl enum range)
      (hfirst : registry.enum? decl.fullName none =
        some (decl.visit.declaration decl.script.path decl.name enum))
      (hitem : item ∈ enum.items) : decl.Target registry (decl.parts ++ [item.name])

end Inhabitant

/-! ## Spellings -/

/-- One more part, in any letter case, after a name in any letter case. -/
theorem lower_spelled {front : List Ident} (hfront : front ≠ [])
    (hidentifiers : ∀ part ∈ front, Text.IsIdentifier part.text) {part spelled : Ident}
    (hpart : Text.IsIdentifier part.text) (hspelled : spelled.lower = part.lower)
    {fullName : String} (hname : Text.lower fullName = Text.lower (dottedText front)) :
    Text.lower s!"{fullName}.{spelled.text}" = Text.lower (dottedText (front ++ [part])) := by
  have hfree := sigmaFree_dottedText fun other hother => (hidentifiers other hother).sigmaFree
  have hfirst : 'Σ' ∉ fullName.toList := by
    apply Text.SigmaFree.not_mem_of_lower
    rw [hname]
    exact hfree.lower
  have hlast : 'Σ' ∉ spelled.text.toList := by
    apply Text.SigmaFree.not_mem_of_lower
    change Text.SigmaFree spelled.lower
    rw [hspelled]
    exact hpart.sigmaFree.lower
  rw [lower_dottedText_concat hidentifiers hfront hpart, Text.lower_qualified hfirst hlast, hname,
    ← hspelled]
  rfl

/-! ## Namespaces on the way -/

/-- Going into namespaces part by part spells the dotted name. -/
theorem foldl_nameWithin {parts : List Ident}
    (hparts : ∀ part ∈ parts, Text.IsIdentifier part.text) :
    (parts.map Ident.text).foldl nameWithin "" = dottedText parts := by
  induction parts using List.reverseRecOn with
  | nil => rfl
  | append_singleton front part ih =>
    have hfront := fun other hother => hparts other (List.mem_append_left [part] hother)
    rw [List.map_append, List.foldl_append, ih hfront, List.map_cons, List.map_nil, List.foldl_cons,
      List.foldl_nil, nameWithin]
    by_cases hempty : front = []
    · subst hempty
      rw [List.nil_append, dottedText_singleton]
      rfl
    · have hfull := dottedText_ne_empty hfront hempty
      rw [if_neg (by simpa using hfull), dottedText_concat hempty]

namespace Registry

variable {chain : ScopeChain} {platform : Platform}

/-- Each front of the name of a block is the name of a namespace. -/
theorem mem_keys_of_front {block : NamespaceBlock} (hblock : block ∈ (build chain platform).blocks)
    (hparts : ∀ part ∈ block.name.parts, Text.IsIdentifier part.text) {front : List Ident}
    (hfront : front <+: block.name.parts) (hne : front ≠ []) :
    Text.lower (dottedText front) ∈ (build chain platform).namespaces.keys := by
  have hall : block.name.parts ≠ [] := by
    intro hnone
    rw [hnone] at hfront
    exact hne (List.prefix_nil.mp hfront)
  refine mem_keys_of_entered hblock fun entries => mem_keys_enterNamespace_of_parts ?_
  change _ ∈ (enterParts entries "" (Text.split '.' (dottedText block.name.parts))).keys
  rw [split_dottedText hparts hall,
    ← foldl_nameWithin fun part hpart => hparts part (hfront.subset hpart)]
  exact mem_keys_enterParts_of_prefix (hfront.map Ident.text)
    (mt List.map_eq_nil_iff.mp hne)

/-- Under the key of a namespace stands one with that name in lower case. -/
theorem exists_entry {key : String} (hkey : key ∈ (build chain platform).namespaces.keys) :
    ∃ entry, (build chain platform).namespaces.get? key = some entry ∧
      Text.lower entry.fullName = key := by
  obtain ⟨entry, hentry⟩ := Option.isSome_iff_exists.mp (Keyed.mem_keys_iff.mp hkey)
  exact ⟨entry, hentry, lower_fullName hentry⟩

/-- A first name leads to the namespace of its name, if the namespace around has none inside it that
is called so. -/
theorem resolveRoot_of_mem (file : String) {enclosing : Option String} {root : Ident}
    (hkey : root.lower ∈ (build chain platform).namespaces.keys)
    (houter : ∀ outer ∈ enclosing,
      s!"{Text.lower outer}.{root.lower}" ∉ (build chain platform).namespaces.keys) :
    ∃ fullName, Text.lower fullName = root.lower ∧
      (build chain platform).resolveRoot file enclosing root =
        .reached (.inNamespace fullName) := by
  obtain ⟨entry, hentry, hlower⟩ := exists_entry hkey
  refine ⟨entry.fullName, hlower, ?_⟩
  have hfound : (build chain platform).namespace? root.text enclosing = some entry := by
    change (build chain platform).namespaces.get? (Text.lower root.text) = some entry at hentry
    unfold namespace? lookupKeys
    split
    · rename_i outer
      split
      · simp [hentry]
      · have hnone := Keyed.get?_eq_none_iff.mpr (houter outer rfl)
        simp only [List.findSome?_cons, hentry]
        rw [show (build chain platform).namespaces.get?
          s!"{Text.lower outer}.{Text.lower root.text}" = none from hnone]
    · simp [hentry]
  rw [resolveRoot, hfound]

/-- The walk goes on through the namespaces inside a namespace. -/
theorem followChain_through (file : String) {front rest : List Ident} (hfront : front ≠ [])
    (hidentifiers : ∀ part ∈ front ++ rest, Text.IsIdentifier part.text)
    (hkeys : ∀ further, further <+: rest →
      Text.lower (dottedText (front ++ further)) ∈ (build chain platform).namespaces.keys)
    {fullName : String} (hname : Text.lower fullName = Text.lower (dottedText front))
    {spelled : List Ident} (hspelled : spelled.map Ident.lower = rest.map Ident.lower)
    (tail : List Ident) :
    ∃ reached, Text.lower reached = Text.lower (dottedText (front ++ rest)) ∧
      (build chain platform).followChain file (.inNamespace fullName) (spelled ++ tail) =
        (build chain platform).followChain file (.inNamespace reached) tail := by
  -- along the parts that are still to go, with the front longer by one each time
  induction rest generalizing front fullName spelled with
  | nil =>
    rw [List.map_nil, List.map_eq_nil_iff] at hspelled
    subst hspelled
    exact ⟨fullName, by rw [hname, List.append_nil], rfl⟩
  | cons part rest ih =>
    obtain ⟨first, further, rfl, hfirst, hfurther⟩ := List.map_eq_cons_iff.mp hspelled
    have hassoc : front ++ part :: rest = (front ++ [part]) ++ rest := by simp
    have hlower := lower_spelled hfront
      (fun other hother => hidentifiers other (List.mem_append_left _ hother))
      (hidentifiers part (List.mem_append_right _ List.mem_cons_self)) hfirst hname
    obtain ⟨entry, hentry, hinner⟩ := exists_entry
      (hkeys [part] (List.prefix_append [part] rest))
    have hstep : (build chain platform).stepNamespace file fullName first =
        .reached (.inNamespace entry.fullName) := by
      have hfound : (build chain platform).namespace? s!"{fullName}.{first.text}" none =
          some entry := by
        simp [namespace?, lookupKeys, hlower, hentry]
      simp only [stepNamespace, hfound]
    rw [hassoc] at hidentifiers ⊢
    obtain ⟨reached, hreached, hfollow⟩ := ih (by simp) hidentifiers
      (fun later hlater => by
        have hmem := hkeys (part :: later) (List.cons_prefix_cons.mpr ⟨rfl, hlater⟩)
        rwa [show front ++ part :: later = (front ++ [part]) ++ later by simp] at hmem)
      hinner hfurther
    refine ⟨reached, hreached, ?_⟩
    rw [List.cons_append, followChain, stepChain, hstep]
    exact hfollow

/-- The walk leaves the namespaces at a name that is declared and is not that of a namespace. -/
theorem stepNamespace_of_declares {registry : Registry} (file : String) {fullName : String}
    {part : Ident}
    (hfree : Text.lower s!"{fullName}.{part.text}" ∉ registry.namespaces.keys)
    (hdeclares : registry.Declares (Text.lower s!"{fullName}.{part.text}")) :
    ∃ target, registry.stepNamespace file fullName part = .reached target ∧
      (∀ space, target ≠ .inNamespace space) ∧
      ∀ enum, registry.enum? s!"{fullName}.{part.text}" none = some enum → target = .enum enum := by
  simp only [stepNamespace]
  generalize s!"{fullName}.{part.text}" = name at hfree hdeclares
  have hnamespace : registry.namespace? name none = none := by
    simp [namespace?, lookupKeys, Keyed.get?_eq_none_iff.mpr hfree]
  have hfound : ∀ {α : Type} {decls : List (Declaration α)},
      (∃ decl ∈ decls, decl.key = Text.lower name) →
        (firstDeclared decls name none).isSome = true := by
    rintro α decls ⟨decl, hdecl, hkey⟩
    exact isSome_firstDeclared.mpr ⟨decl, hdecl, hkey ▸ lower_mem_lookupKeys name none⟩
  rw [hnamespace]
  -- the step asks for enums first, then for functions, then for classes and constants
  cases henum : registry.enum? name none with
  | some enum =>
    refine ⟨_, rfl, fun space h => ?_, fun other hother => by rw [Option.some.inj hother]⟩
    cases h
  | none =>
    cases hcallable : registry.callable? name none with
    | some callable => refine ⟨_, rfl, fun _ h => ?_, fun _ h => ?_⟩ <;> cases h
    | none =>
      have hsome : ((registry.class? name none).isSome || (registry.const? name none).isSome) =
          true := by
        rw [Bool.or_eq_true]
        rcases hdeclares with hclass | hother | hconst | ⟨callable, hmem, hkey⟩
        · exact .inl (hfound hclass)
        · exact absurd (hfound hother) (by simpa [enum?] using henum)
        · exact .inr (hfound hconst)
        · have hsome := isSome_callable?.mpr
            ⟨callable, hmem, hkey ▸ lower_mem_lookupKeys name none⟩
          rw [hcallable] at hsome
          cases hsome
      simp only [if_pos hsome]
      refine ⟨_, rfl, fun _ h => ?_, fun _ h => ?_⟩ <;> cases h

/-- A value of the first enum of its name is found. -/
theorem stepEnum_of_mem {registry : Registry} (file : String) {enum : Declaration EnumDecl}
    (hfirst : registry.enum? enum.fullName none = some enum) {item : EnumItem}
    (hitem : item ∈ enum.node.items) (hname : Text.IsIdentifier item.name.text) {part : Ident}
    (hpart : Text.IsIdentifier part.text) (hspelled : part.lower = item.name.lower) :
    registry.stepEnum file enum part = .reached .declared := by
  have hsame : Text.sameIgnoringAsciiCase item.name.text part.text = true := by
    have hlower : Text.lower item.name.text = Text.lower part.text := hspelled.symm
    rw [hname.lower_eq, hpart.lower_eq] at hlower
    exact beq_iff_eq.mpr hlower
  have hfound : (enum.node.items.find? fun item =>
      Text.sameIgnoringAsciiCase item.name.text part.text).isSome = true :=
    List.find?_isSome.mpr ⟨item, hitem, hsame⟩
  obtain ⟨found, hfound⟩ := Option.isSome_iff_exists.mp hfound
  have hvalue : registry.enumItem? s!"{enum.fullName}.{part.text}" none =
      some (enum, some found) := by
    simp only [enumItem?, Text.splitAtLast?_qualified enum.fullName hpart.undotted, hfirst,
      Option.map_some, hfound]
  rw [stepEnum, hvalue]

/-- What a statement at file level or in blocks declares is registered under its full name. -/
theorem declares_of_declaredName? {script : Script} (hscript : script ∈ chain.sortedFiles)
    {visit : Visit} {stmt : Stmt} (hstmt : (visit, stmt) ∈ script.topLevel) {name : Ident}
    (hname : stmt.declaredName? = some name) :
    (build chain platform).Declares (Text.lower (visit.fullName name.text)) := by
  have hcases : (∃ binding ∈ Visit.declared stmt, binding.name = name.text) ∨
      ∃ enum range, stmt = .enumDecl enum range ∧ enum.name = name := by
    unfold Stmt.declaredName? at hname
    split at hname <;> cases hname
    · exact .inl ⟨_, List.mem_singleton_self _, rfl⟩
    · exact .inl ⟨_, List.mem_singleton_self _, rfl⟩
    · exact .inl ⟨_, List.mem_singleton_self _, rfl⟩
    · exact .inr ⟨_, _, rfl, rfl⟩
  rcases hcases with ⟨binding, hbinding, htext⟩ | ⟨enum, range, rfl, rfl⟩
  · rw [← htext]
    exact declares_of_declared hscript hstmt hbinding
  · have hmem : visit.declaration script.path enum.name enum ∈ script.enums :=
      List.mem_filterMap.mpr ⟨_, hstmt, rfl⟩
    exact .inr (.inl ⟨_, List.mem_flatMap.mpr ⟨script, hscript, hmem⟩, rfl⟩)

end Registry

namespace Inhabitant

variable {chain : ScopeChain} {platform : Platform} (decl : Inhabitant chain)

/-- The full name is that of the block and the own name. -/
theorem fullName_eq : decl.fullName = s!"{decl.block.name.text}.{decl.name.text}" :=
  dottedText_concat decl.parts_ne decl.name

/-- The block of a declaration is registered. -/
theorem exists_block : ∃ block ∈ (Registry.build chain platform).blocks,
    block.name = decl.block.name := by
  obtain ⟨hvisit, htop, -⟩ := Script.mem_topLevel.mp decl.listed
  rcases Script.block_of_isTopLevel hvisit htop with ⟨-, hnone⟩ | ⟨block, hblock, -, hname⟩
  · rw [decl.around] at hnone
    cases hnone
  · rw [decl.around] at hname
    exact ⟨block, Registry.mem_blocks_build.mpr ⟨decl.script, decl.inScope, hblock⟩,
      (Option.some.inj hname).symm⟩

/-- The declaration is registered under its full name. -/
theorem declared : (Registry.build chain platform).Declares (Text.lower decl.fullName) := by
  have hname : decl.visit.fullName decl.name.text = decl.fullName := by
    rw [Visit.fullName, decl.around, fullName_eq]
  rw [← hname]
  exact Registry.declares_of_declaredName? decl.inScope decl.listed decl.declares

/-- When the full name has been followed in any letter case, the walk stands at something that is
no namespace, and at the first enum of the name if there is one. -/
theorem checkUnbound_spelled {file : String} {use : ChainUse} {root : Ident} {rest : List Ident}
    {spelled : List Ident} (hspelled : spelled.map Ident.lower = decl.parts.map Ident.lower)
    {tail : List Ident} (hparts : root :: rest = spelled ++ tail)
    (houter : ∀ outer ∈ use.namespaceKey, s!"{Text.lower outer}.{root.lower}" ∉
      (Registry.build chain platform).namespaces.keys)
    (hfree : Text.lower decl.fullName ∉ (Registry.build chain platform).namespaces.keys) :
    ∃ target, (∀ space, target ≠ .inNamespace space) ∧
      (∀ enum, (Registry.build chain platform).enum? decl.fullName none = some enum →
        target = .enum enum) ∧
      checkUnbound (Registry.build chain platform) file use root rest =
        match (Registry.build chain platform).followChain file target tail with
        | .broken finding => some finding
        | .member => none
        | .reached reached => checkReached file use reached := by
  have hspaces : ∀ part ∈ decl.block.name.parts, Text.IsIdentifier part.text :=
    fun part hpart => decl.identifiers part (List.mem_append_left _ hpart)
  have hname : Text.IsIdentifier decl.name.text :=
    decl.identifiers decl.name (List.mem_append_right _ List.mem_cons_self)
  obtain ⟨block, hblock, hsame⟩ :
      ∃ block ∈ (Registry.build chain platform).blocks, block.name = decl.block.name :=
    decl.exists_block
  have hkeys : ∀ front, front <+: decl.block.name.parts → front ≠ [] →
      Text.lower (dottedText front) ∈ (Registry.build chain platform).namespaces.keys :=
    fun front hfront hne => Registry.mem_keys_of_front hblock (hsame ▸ hspaces) (hsame ▸ hfront) hne
  -- The parts of the chain, beside the parts that they spell.
  rw [parts, List.map_append] at hspelled
  obtain ⟨spaces, lasts, rfl, hspacesSpelled, hlasts⟩ := List.map_eq_append_iff.mp hspelled
  obtain ⟨last, _, rfl, hlast, hnone⟩ := List.map_eq_cons_iff.mp hlasts
  obtain rfl := List.map_eq_nil_iff.mp hnone
  obtain ⟨first, inner, hfirst⟩ := List.exists_cons_of_ne_nil decl.parts_ne
  rw [hfirst, List.map_cons] at hspacesSpelled
  obtain ⟨head, middle, rfl, hhead, hmiddle⟩ := List.map_eq_cons_iff.mp hspacesSpelled
  obtain ⟨rfl, rfl⟩ : root = head ∧ rest = middle ++ last :: tail := by simpa using hparts
  rw [hfirst] at hkeys hspaces
  -- The walk: the first namespace, the namespaces inside it, and then the declaration.
  have hrootKey : root.lower ∈ (Registry.build chain platform).namespaces.keys := by
    have hmem := hkeys [first] (List.prefix_append [first] inner) (List.cons_ne_nil _ _)
    rw [dottedText_singleton] at hmem
    rw [hhead]
    exact hmem
  obtain ⟨start, hstart, hroot⟩ := Registry.resolveRoot_of_mem file hrootKey houter
  have hbegin : Text.lower start = Text.lower (dottedText [first]) := by
    rw [hstart, hhead, dottedText_singleton]
    rfl
  obtain ⟨reached, hreached, hfollow⟩ :=
    Registry.followChain_through file (List.cons_ne_nil first [])
    hspaces (fun further hfurther => hkeys (first :: further)
      (List.cons_prefix_cons.mpr ⟨rfl, hfurther⟩) (List.cons_ne_nil _ _))
    hbegin hmiddle (last :: tail)
  have hfull : Text.lower s!"{reached}.{last.text}" = Text.lower decl.fullName := by
    rw [fullName, parts, hfirst]
    exact lower_spelled (List.cons_ne_nil _ _) hspaces hname hlast hreached
  obtain ⟨target, hstep, hspace, henum⟩ := Registry.stepNamespace_of_declares file
    (hfull ▸ hfree) (hfull ▸ decl.declared)
  refine ⟨target, hspace, ?_, ?_⟩
  · intro enum hfound
    refine henum enum ?_
    rw [← hfound]
    simp only [Registry.enum?, firstDeclared, lookupKeys, hfull]
  · cases hend : (Registry.build chain platform).followChain file target tail <;>
      simp only [checkUnbound, hroot, hfollow, Registry.followChain, Registry.stepChain, hstep,
        hend]

/-- Of what is reached nothing but the number of arguments is reported, if it is no namespace. -/
theorem checkReached_of_ne {file : String} {use : ChainUse} {target : Resolved}
    (hspace : ∀ space, target ≠ .inNamespace space) :
    checkReached file use target = none ∨ ∃ expected count,
      checkReached file use target = some (.of (.argumentCount expected count) file use.range) := by
  cases hchecked : checkReached file use target with
  | none => exact Or.inl rfl
  | some finding =>
    right
    unfold checkReached at hchecked
    split at hchecked
    · exact absurd rfl (hspace _)
    · split at hchecked
      · exact ⟨_, _, congrArg some (checkArity_eq_some_iff.mp hchecked).2⟩
      · cases hchecked
      · cases hchecked
    · cases hchecked
    · cases hchecked

/-- Of a chain that spells the full name of a declaration in a namespace, or of a value of an enum
there, nothing but the number of arguments is reported, if the tables do not bind its first part,
the namespace around it has no namespace inside that is called so, and no namespace has the full
name of the declaration. -/
theorem only_arity_reported (chain : ScopeChain) (platform : Platform) (decl : Inhabitant chain)
    {target : List Ident} (htarget : decl.Target (Registry.build chain platform) target)
    {use : ChainUse} (hspelled : use.parts.map Ident.lower = target.map Ident.lower)
    (hidentifiers : ∀ part ∈ target ++ use.parts, Text.IsIdentifier part.text)
    {tables : Tables TableRef} {user : Script} {root : Ident} (hroot : use.parts.head? = some root)
    (hunbound : Tables.lookup tables (user.ref use.table) root.text = none)
    (houter : ∀ outer ∈ use.namespaceKey, s!"{Text.lower outer}.{root.lower}" ∉
      (Registry.build chain platform).namespaces.keys)
    (hfree : Text.lower decl.fullName ∉ (Registry.build chain platform).namespaces.keys) :
    checkChain (Registry.build chain platform) tables user use = none ∨ ∃ expected count,
      checkChain (Registry.build chain platform) tables user use =
        some (.of (.argumentCount expected count) user.path use.range) := by
  obtain ⟨rest, hparts⟩ : ∃ rest, use.parts = root :: rest := List.head?_eq_some_iff.mp hroot
  have hchain : checkChain (Registry.build chain platform) tables user use =
      checkUnbound (Registry.build chain platform) user.path use root rest := by
    simp only [checkChain, hparts, hunbound]
  rw [hchain]
  cases htarget with
  | itself =>
    obtain ⟨target, hspace, -, hcheck⟩ := decl.checkUnbound_spelled hspelled
      (hparts.symm.trans (List.append_nil _).symm) houter hfree
    rw [hcheck]
    exact checkReached_of_ne hspace
  | @value enum range item hstmt hfirst hitem =>
    -- the last part spells the value, and the parts before it the full name of the enum
    rw [List.map_append] at hspelled
    obtain ⟨front, lasts, hsplit, hfront, hlasts⟩ := List.map_eq_append_iff.mp hspelled
    obtain ⟨last, _, rfl, hlast, hnone⟩ := List.map_eq_cons_iff.mp hlasts
    obtain rfl := List.map_eq_nil_iff.mp hnone
    obtain ⟨target, -, henum, hcheck⟩ := decl.checkUnbound_spelled hfront
      (hparts.symm.trans hsplit) houter hfree
    have hitemName := hidentifiers item.name
      (List.mem_append_left _ (List.mem_append_right _ List.mem_cons_self))
    have hlastName := hidentifiers last
      (List.mem_append_right _ (hsplit ▸ List.mem_append_right _ List.mem_cons_self))
    have hfound : (Registry.build chain platform).enum?
        (decl.visit.declaration decl.script.path decl.name enum).fullName none =
          some (decl.visit.declaration decl.script.path decl.name enum) := by
      have hname : (decl.visit.declaration decl.script.path decl.name enum).fullName =
          decl.fullName := by
        rw [fullName_eq]
        simp only [Visit.declaration, decl.around]
      rw [hname, hfirst]
    have hstep := Registry.stepEnum_of_mem user.path hfound hitem hitemName hlastName
      hlast
    rw [hcheck, henum _ hfirst]
    simp only [Registry.followChain, Registry.stepChain, hstep]
    exact Or.inl rfl

end Inhabitant

/-! ## A value of an enum -/

/-- A value of an enum. -/
def onItem : EnumItem := ⟨⟨"On", .zero⟩, none, .zero⟩

/-- An enum with one value. -/
def modeDecl : EnumDecl := ⟨⟨"Mode", .zero⟩, [onItem]⟩

/-- The block of the enum. -/
def netBlock : NamespaceDecl :=
  ⟨⟨[⟨"App", .zero⟩, ⟨"Net", .zero⟩], .zero⟩, [.enumDecl modeDecl .zero]⟩

/-- A block of a namespace, and the block of the enum, in a namespace inside it. -/
def network : Script :=
  ⟨"network.bs", none, [.namespaceDecl ⟨⟨[⟨"app", .zero⟩], .zero⟩, []⟩ .zero,
    .namespaceDecl netBlock .zero]⟩

/-- The scope of the script. -/
def networkChain : ScopeChain := ⟨.ofProgram [network], []⟩

/-- The visit of the enum. -/
def modeVisit : Visit :=
  (⟨⟨.statement (.namespaceDecl netBlock .zero), [1]⟩, []⟩ : Visit).child 0
    (.statement (.enumDecl modeDecl .zero))

/-- The scope has one file. -/
theorem sortedFiles_networkChain : networkChain.sortedFiles = [network] := by
  have hall : networkChain.allFiles = [network] := rfl
  simp [ScopeChain.sortedFiles, hall]

/-- The script is a file of the scope. -/
theorem network_mem_sortedFiles : network ∈ networkChain.sortedFiles := by
  rw [sortedFiles_networkChain]
  exact List.mem_singleton_self network

/-- The walk over the script, with a bound on its depth that the kernel can count down. -/
theorem visits_network :
    network.visits = network.body.zipIdx.flatMap fun entry =>
      (Node.statement entry.1).visitsTo 2 [] [entry.2] :=
  Script.visits_eq_visitsTo 2 rfl

/-- The script binds nothing, as enums are not bound. -/
theorem bindings_network : network.bindings = [] := by
  rw [Script.bindings, visits_network]
  rfl

/-- With the inner namespace the outer one is entered. -/
theorem namespaces_networkChain :
    (Registry.build networkChain (.withNodes [])).namespaces.keys = ["app", "app.net"] := by
  simp only [Registry.build, sortedFiles_networkChain, List.flatMap_cons, Script.blocks,
    Script.topLevel, visits_network]
  decide +kernel

/-- The enum in its block. -/
def modeEnum : Inhabitant networkChain where
  script := network
  inScope := network_mem_sortedFiles
  visit := modeVisit
  stmt := .enumDecl modeDecl .zero
  listed := by
    rw [Script.topLevel, visits_network]
    exact List.mem_cons_of_mem _ (List.mem_cons_of_mem _ List.mem_cons_self)
  block := netBlock
  around := rfl
  parts_ne := List.cons_ne_nil _ _
  name := modeDecl.name
  declares := rfl
  identifiers := by decide

/-- The tables bind nothing under the name of the outer namespace. -/
theorem lookup_network :
    Tables.lookup (linkedTables networkChain (.withNodes [])) (network.ref []) "APP" = none := by
  have hbound : ∀ owner, network.boundAt owner "app" = [] := by
    intro owner
    rw [Script.boundAt, bindings_network]
    rfl
  have hfunctions : network.functions = [] := by
    rw [Script.functions, Script.topLevel, visits_network]
    rfl
  have hplatform : ∀ function ∈ globalFunctions, Text.lower function.name ≠ "app" := by
    decide +kernel
  have hlower : Text.lower "APP" = "app" := by decide +kernel
  have htable : network.ref [] ∈ (Script.tablesOf networkChain.sortedFiles).keys := by
    rw [Keyed.mem_keys_iff, Script.get?_tablesOf_file networkChain.nodup_key_sortedFiles
      network_mem_sortedFiles]
    rfl
  rw [lookup_eq_none_iff (.withNodes []) network_mem_sortedFiles htable, hlower]
  intro hvisible
  cases hvisible with
  | around _ hbinds => exact hbinds (hbound _)
  | @joined here there _ _ _ hthere _ hbinds =>
    obtain ⟨file, hfile, hblock⟩ := Registry.mem_blocks_build.mp hthere
    obtain rfl : file = network := List.mem_singleton.mp (sortedFiles_networkChain ▸ hfile)
    rw [(Script.mem_blocks hblock).1] at hbinds
    exact hbinds (hbound _)
  | @file file hfile hbinds =>
    obtain rfl : file = network := List.mem_singleton.mp (sortedFiles_networkChain ▸ hfile)
    exact hbinds (hbound _)
  | platform hfunction hname => exact hplatform _ hfunction hname
  | @runtime decl hdecl _ _ =>
    have hmem : decl ∈ network.functions := by
      simpa [Registry.build, sortedFiles_networkChain] using hdecl
    rw [hfunctions] at hmem
    cases hmem

/-- The enum is the first of its name. -/
theorem enum?_networkChain :
    (Registry.build networkChain (.withNodes [])).enum? modeEnum.fullName none =
      some (modeVisit.declaration network.path modeDecl.name modeDecl) := by
  have henums : (Registry.build networkChain (.withNodes [])).enums =
      [modeVisit.declaration network.path modeDecl.name modeDecl] := by
    simp only [Registry.build, sortedFiles_networkChain, List.flatMap_cons, Script.enums,
      Script.topLevel, visits_network]
    rfl
  have hkey : (modeVisit.declaration network.path modeDecl.name modeDecl).key =
      Text.lower modeEnum.fullName := by
    rw [modeEnum.fullName_eq]
    rfl
  simp [Registry.enum?, firstDeclared, lookupKeys, henums, hkey]

/-- A chain that names the value and spells no part of its name as it is declared. -/
def modeUse : ChainUse :=
  ⟨[⟨"APP", .zero⟩, ⟨"net", .zero⟩, ⟨"MODE", .zero⟩, ⟨"on", .zero⟩], .value, none, [], .zero⟩

/-- The value of the enum is found under its full name. -/
theorem mode_on_resolves :
    checkChain (Registry.build networkChain (.withNodes []))
        (linkedTables networkChain (.withNodes [])) network modeUse = none ∨
      ∃ expected count, checkChain (Registry.build networkChain (.withNodes []))
          (linkedTables networkChain (.withNodes [])) network modeUse =
        some (.of (.argumentCount expected count) network.path modeUse.range) := by
  have htarget : modeEnum.Target (Registry.build networkChain (.withNodes []))
      (modeEnum.parts ++ [onItem.name]) :=
    .value rfl enum?_networkChain List.mem_cons_self
  have hspelled : modeUse.parts.map Ident.lower =
      (modeEnum.parts ++ [onItem.name]).map Ident.lower := by
    decide +kernel
  have hidentifiers : ∀ part ∈ (modeEnum.parts ++ [onItem.name]) ++ modeUse.parts,
      Text.IsIdentifier part.text := by
    decide
  have hfree : Text.lower modeEnum.fullName ∉
      (Registry.build networkChain (.withNodes [])).namespaces.keys := by
    rw [namespaces_networkChain]
    decide +kernel
  have houtside : ∀ outer, outer ∉ modeUse.namespaceKey := fun _ => nofun
  exact modeEnum.only_arity_reported networkChain (.withNodes []) htarget hspelled hidentifiers rfl
    lookup_network (fun outer houter => absurd houter (houtside outer)) hfree

end ScopeCheck
