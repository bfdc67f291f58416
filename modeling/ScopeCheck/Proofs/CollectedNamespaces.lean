import ScopeCheck.Proofs.Keyed
import ScopeCheck.Proofs.Sites

/-!
# Namespaces that collect their members

A registry finds the blocks of a namespace and the keys of what stands right in them by looking
through all blocks and declarations. The same lists come about when every namespace keeps its own
and each statement, as it is met, is pushed onto a list of the namespace it belongs to
(`collect_eq`): a block onto that of its name, any other declaration onto one of the block around
it. What one statement adds is said once for each list (`Adds`), and the lists after all statements
follow from that by `Adds.collect`.
-/

namespace ScopeCheck

/-- The lists that a namespace keeps of what it has. -/
structure Members where
  /-- Its blocks. -/
  blocks : List NamespaceBlock
  /-- The keys of its classes. -/
  classes : List String
  /-- The keys of its functions. -/
  functions : List String
  /-- The keys of its enums. -/
  enums : List String
  /-- The keys of its constants. -/
  consts : List String
  /-- The keys of its interfaces. -/
  interfaces : List String

namespace Members

/-- The lists of a namespace of which nothing has been met. -/
def empty : Members := ⟨[], [], [], [], [], []⟩

/-- The lists of a namespace after a statement right in one of its blocks. -/
def push (members : Members) (file : String) (visit : Visit) : Stmt → Members
  | .classDecl decl _ =>
    { members with classes := members.classes ++ [(visit.declaration file decl.name decl).key] }
  | .functionDecl decl _ =>
    { members with functions := members.functions ++ [(visit.declaration file decl.name decl).key] }
  | .enumDecl decl _ =>
    { members with enums := members.enums ++ [(visit.declaration file decl.name decl).key] }
  | .constDecl decl _ =>
    { members with consts := members.consts ++ [(visit.declaration file decl.name decl).key] }
  | .interfaceDecl decl _ =>
    { members with
      interfaces := members.interfaces ++ [(visit.declaration file decl.name decl).key] }
  | _ => members

/-- The lists that are kept for a key. -/
def under (kept : Keyed String Members) (key : String) : Members := (kept.get? key).getD empty

/-- The lists of all namespaces after a statement. -/
def meet (script : Script) (kept : Keyed String Members) (entry : Visit × Stmt) :
    Keyed String Members :=
  match entry.2 with
  | .namespaceDecl decl _ =>
    kept.put decl.name.lower
      { under kept decl.name.lower with
        blocks := (under kept decl.name.lower).blocks ++
          [⟨script, entry.1.path, decl.name⟩] }
  | stmt =>
    match entry.1.namespaceKey? with
    | some key => kept.put key ((under kept key).push script.path entry.1 stmt)
    | none => kept

/-- The lists of all namespaces after the statements of some scripts. -/
def collect (scripts : List Script) : Keyed String Members :=
  scripts.foldl (fun kept script => script.topLevel.foldl (meet script) kept) .empty

/-- Members that are put under a key are found there, and others stay. -/
theorem under_put (kept : Keyed String Members) (key other : String) (members : Members) :
    under (kept.put key members) other = if other = key then members else under kept other := by
  unfold under
  rw [Keyed.get?_put]
  split <;> rfl

/-- What each statement adds to a list of the namespace of a key. -/
def Adds {β : Type} (list : Members → List β) (key : String)
    (added : Script → Visit × Stmt → List β) : Prop :=
  ∀ script kept entry,
    list (under (meet script kept entry) key) = list (under kept key) ++ added script entry

/-- The statements of a script add to the list one after the other. -/
theorem Adds.foldl_meet {β : Type} {list : Members → List β} {key : String}
    {added : Script → Visit × Stmt → List β} (h : Adds list key added) (script : Script)
    (kept : Keyed String Members) (entries : List (Visit × Stmt)) :
    list (under (entries.foldl (meet script) kept) key) =
      list (under kept key) ++ entries.flatMap (added script) := by
  induction entries generalizing kept with
  | nil => simp
  | cons entry entries ih =>
    rw [List.foldl_cons, ih, h script kept entry, List.flatMap_cons, List.append_assoc]

/-- A list after all statements has what each of them adds. -/
theorem Adds.collect {β : Type} {list : Members → List β} {key : String}
    {added : Script → Visit × Stmt → List β} (h : Adds list key added)
    (hempty : list empty = []) (scripts : List Script) :
    list (under (collect scripts) key) =
      scripts.flatMap fun script => script.topLevel.flatMap (added script) := by
  have hscripts : ∀ kept,
      list (under (scripts.foldl (fun kept script =>
          script.topLevel.foldl (meet script) kept) kept) key) =
        list (under kept key) ++
          scripts.flatMap fun script => script.topLevel.flatMap (added script) := by
    induction scripts with
    | nil => simp
    | cons script scripts ih =>
      intro kept
      rw [List.foldl_cons, ih, h.foldl_meet, List.flatMap_cons, List.append_assoc]
  have hstart : list (under (.empty : Keyed String Members) key) = [] := hempty
  rw [Members.collect, hscripts, hstart, List.nil_append]

/-- What a statement adds to the blocks of a namespace. -/
def blockAdded (key : String) (script : Script) (entry : Visit × Stmt) : List NamespaceBlock :=
  ((Place.mk (.statement entry.2) entry.1.path).namespaceDecl?.toList.map fun decl =>
    NamespaceBlock.mk script entry.1.path decl.name).filter fun block => block.key = key

/-- What a statement adds to the keys of one kind that a namespace keeps. -/
def keyAdded {α : Type} (kind : DeclKind α) (key : String) (script : Script)
    (entry : Visit × Stmt) : List String :=
  (((kind.node? entry.2).toList.map fun node =>
    entry.1.declaration script.path (kind.nameOf node) node).filter fun decl =>
      decl.namespaceKey = some key).map Declaration.key

/-- A statement that is no block is pushed onto the lists of the namespace around it. -/
theorem under_meet_of_not_block (script : Script) (kept : Keyed String Members) {visit : Visit}
    {stmt : Stmt} (hstmt : ∀ decl range, stmt ≠ .namespaceDecl decl range) (key : String) :
    under (meet script kept (visit, stmt)) key =
      if visit.namespaceKey? = some key then (under kept key).push script.path visit stmt
      else under kept key := by
  have hmeet : meet script kept (visit, stmt) =
      match visit.namespaceKey? with
      | some around => kept.put around ((under kept around).push script.path visit stmt)
      | none => kept := by
    unfold meet
    split
    · rename_i decl range heq
      exact absurd heq (hstmt decl range)
    · rfl
  rw [hmeet]
  cases visit.namespaceKey? with
  | none => rw [if_neg (by simp)]
  | some around =>
    rw [under_put]
    by_cases hkey : key = around
    · rw [if_pos hkey, if_pos (congrArg some hkey.symm), hkey]
    · rw [if_neg hkey, if_neg fun h => hkey (Option.some.inj h).symm]

/-- A block is pushed onto the blocks of the namespace of its name. -/
theorem under_meet_block (script : Script) (kept : Keyed String Members) (visit : Visit)
    (decl : NamespaceDecl) (range : Range) (key : String) :
    under (meet script kept (visit, .namespaceDecl decl range)) key =
      if key = decl.name.lower then
        { under kept key with
          blocks := (under kept key).blocks ++ [⟨script, visit.path, decl.name⟩] }
      else under kept key := by
  unfold meet
  rw [under_put]
  split
  · rename_i hkey
    rw [hkey]
  · rfl

/-- Only a block adds to the blocks. -/
theorem adds_blocks (key : String) : Adds Members.blocks key (blockAdded key) := by
  intro script kept entry
  obtain ⟨visit, stmt⟩ := entry
  by_cases hblock : ∃ decl range, stmt = .namespaceDecl decl range
  · obtain ⟨decl, range, rfl⟩ := hblock
    have hadded : blockAdded key script (visit, .namespaceDecl decl range) =
        if key = decl.name.lower then [⟨script, visit.path, decl.name⟩] else [] := by
      simp [blockAdded, Place.namespaceDecl?, NamespaceBlock.key, List.filter_singleton, eq_comm]
    rw [under_meet_block, hadded]
    split
    · rfl
    · rw [List.append_nil]
  · have hstmt : ∀ decl range, stmt ≠ .namespaceDecl decl range :=
      fun decl range heq => hblock ⟨decl, range, heq⟩
    have hadded : blockAdded key script (visit, stmt) = [] := by
      rw [blockAdded, Place.namespaceDecl?_eq_none fun decl range heq =>
        hstmt decl range (Node.statement.inj heq)]
      rfl
    have hpush : ∀ members : Members, (members.push script.path visit stmt).blocks =
        members.blocks := by
      intro members
      cases stmt <;> rfl
    rw [under_meet_of_not_block script kept hstmt, hadded, List.append_nil]
    split
    · exact hpush _
    · rfl

/-- A list is that of the declarations of a kind. -/
structure ListOf {α : Type} (kind : DeclKind α) (list : Members → List String) : Prop where
  /-- At first there is nothing on it. -/
  empty : list empty = []
  /-- A block is no declaration of the kind. -/
  unlike : ∀ decl range, kind.node? (.namespaceDecl decl range) = none
  /-- Blocks are kept on another list. -/
  apart : ∀ (members : Members) blocks, list { members with blocks } = list members
  /-- A statement pushes what it declares of the kind. -/
  push : ∀ (members : Members) file visit stmt, list (members.push file visit stmt) =
    list members ++ (kind.node? stmt).toList.map fun node =>
      (visit.declaration file (kind.nameOf node) node).key

/-- Statements push classes on the list of classes, and nothing else on it. -/
theorem listOf_classes : ListOf .ofClass Members.classes where
  empty := rfl
  unlike _ _ := rfl
  apart _ _ := rfl
  push _ _ _ stmt := by cases stmt <;> simp [Members.push, DeclKind.ofClass, Stmt.class?]

/-- Statements push functions on the list of functions, and nothing else on it. -/
theorem listOf_functions : ListOf .ofFunction Members.functions where
  empty := rfl
  unlike _ _ := rfl
  apart _ _ := rfl
  push _ _ _ stmt := by cases stmt <;> simp [Members.push, DeclKind.ofFunction, Stmt.function?]

/-- Statements push enums on the list of enums, and nothing else on it. -/
theorem listOf_enums : ListOf .ofEnum Members.enums where
  empty := rfl
  unlike _ _ := rfl
  apart _ _ := rfl
  push _ _ _ stmt := by cases stmt <;> simp [Members.push, DeclKind.ofEnum, Stmt.enum?]

/-- Statements push constants on the list of constants, and nothing else on it. -/
theorem listOf_consts : ListOf .ofConst Members.consts where
  empty := rfl
  unlike _ _ := rfl
  apart _ _ := rfl
  push _ _ _ stmt := by cases stmt <;> simp [Members.push, DeclKind.ofConst, Stmt.const?]

/-- Statements push interfaces on the list of interfaces, and nothing else on it. -/
theorem listOf_interfaces : ListOf .ofInterface Members.interfaces where
  empty := rfl
  unlike _ _ := rfl
  apart _ _ := rfl
  push _ _ _ stmt := by cases stmt <;> simp [Members.push, DeclKind.ofInterface, Stmt.interface?]

/-- Only a declaration of its kind adds to a list of declarations. -/
theorem ListOf.adds {α : Type} {kind : DeclKind α} {list : Members → List String}
    (h : ListOf kind list) (key : String) : Adds list key (keyAdded kind key) := by
  intro script kept entry
  obtain ⟨visit, stmt⟩ := entry
  have hadded : keyAdded kind key script (visit, stmt) =
      if visit.namespaceKey? = some key then (kind.node? stmt).toList.map fun node =>
        (visit.declaration script.path (kind.nameOf node) node).key
      else [] := by
    unfold keyAdded
    cases hnode : kind.node? stmt with
    | none => simp
    | some node =>
      have hspace : (visit.declaration script.path (kind.nameOf node) node).namespaceKey =
          visit.namespaceKey? := rfl
      by_cases hkey : visit.namespaceKey? = some key <;> simp [hspace, hkey]
  -- a block changes the list of blocks only; any other statement is pushed under the namespace
  -- around it
  by_cases hblock : ∃ decl range, stmt = .namespaceDecl decl range
  · obtain ⟨decl, range, rfl⟩ := hblock
    rw [under_meet_block, hadded, h.unlike]
    simp only [Option.toList_none, List.map_nil, ite_self, List.append_nil]
    split
    · exact h.apart _ _
    · rfl
  · have hstmt : ∀ decl range, stmt ≠ .namespaceDecl decl range :=
      fun decl range heq => hblock ⟨decl, range, heq⟩
    rw [under_meet_of_not_block script kept hstmt, hadded]
    split
    · exact h.push _ _ _ _
    · rw [List.append_nil]

/-! ## The lists of a registry -/

/-- The collected keys of a kind are those that a registry finds in the blocks of a namespace. -/
theorem ListOf.collect_eq {α : Type} {kind : DeclKind α} {list : Members → List String}
    (h : ListOf kind list) {decls : Script → List (Declaration α)}
    (hdecls : ∀ script, decls script = script.declaredAs kind.node? kind.nameOf)
    (scripts : List Script) (key : String) :
    list (under (collect scripts) key) = Registry.keysWithin (scripts.flatMap decls) key := by
  rw [(h.adds key).collect h.empty, Registry.keysWithin, List.filter_flatMap, List.map_flatMap]
  refine List.flatMap_congr fun script _ => ?_
  rw [hdecls, Script.declaredAs, List.filterMap_eq_flatMap_toList, List.filter_flatMap,
    List.map_flatMap]
  refine List.flatMap_congr fun entry _ => ?_
  rw [keyAdded, Option.toList_map]

/-- The collected blocks are those of the name of the namespace. -/
theorem blocks_collect (scripts : List Script) (key : String) :
    (under (collect scripts) key).blocks =
      (scripts.flatMap Script.blocks).filter fun block => block.key = key := by
  rw [(adds_blocks key).collect rfl, List.filter_flatMap]
  refine List.flatMap_congr fun script _ => ?_
  rw [Script.blocks, List.filterMap_eq_flatMap_toList, List.filter_flatMap]
  refine List.flatMap_congr fun entry _ => ?_
  obtain ⟨visit, stmt⟩ := entry
  cases stmt <;> rfl

/-- The lists that every namespace collects, statement by statement, are those that a registry
finds by looking through its blocks and declarations. -/
theorem collect_eq (chain : ScopeChain) (platform : Platform) (key : String) :
    let registry := Registry.build chain platform
    under (collect chain.sortedFiles) key =
      { blocks := registry.blocksOf key
        classes := Registry.keysWithin registry.classes key
        functions := Registry.keysWithin registry.functions key
        enums := Registry.keysWithin registry.enums key
        consts := Registry.keysWithin registry.consts key
        interfaces := Registry.keysWithin registry.interfaces key } := by
  intro registry
  have hblocks := blocks_collect chain.sortedFiles key
  have hclasses := listOf_classes.collect_eq Script.classes_eq chain.sortedFiles key
  have hfunctions := listOf_functions.collect_eq Script.functions_eq chain.sortedFiles key
  have henums := listOf_enums.collect_eq Script.enums_eq chain.sortedFiles key
  have hconsts := listOf_consts.collect_eq Script.consts_eq chain.sortedFiles key
  have hinterfaces := listOf_interfaces.collect_eq Script.interfaces_eq chain.sortedFiles key
  cases hmembers : under (collect chain.sortedFiles) key with
  | mk blocks classes functions enums consts interfaces =>
    rw [hmembers] at hblocks hclasses hfunctions henums hconsts hinterfaces
    exact Members.mk.injEq .. ▸ ⟨hblocks, hclasses, hfunctions, henums, hconsts, hinterfaces⟩

end Members

end ScopeCheck
