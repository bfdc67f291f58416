import ScopeCheck.Proofs.FoldedClasses
import ScopeCheck.Proofs.Shadowing

/-!
# Letter case does not matter

Scripts are written without regard to case. If two scopes are the same when folded, that is if they
differ only in the case of letters A to Z of identifiers, dotted names and type annotations, each
written as it may be, then an examination finds the same in both: the same problems in the same
order, at the same places, with the same places to explain them
(`outline_findings_of_folded_eq`). Only the wording, which quotes names as they are written, may
differ.

A chain of names is followed name by name. Each step leads to the same, up to folding
(`Registry.stepChain_folded`), and so does the whole chain (`Registry.followChain_folded`).
-/

namespace ScopeCheck

/-! ## Chains of names -/

/-- What the front of a chain has led to, with its names folded. -/
def Resolved.folded : Resolved → Resolved
  | .inNamespace fullName => .inNamespace (Text.asciiLower fullName)
  | .enum decl => .enum (decl.folded EnumDecl.folded)
  | .callable target => .callable target.folded
  | .declared => .declared

/-- A chain comes to the same: to what is the same when folded, or to findings of one outline. -/
inductive Followed.FoldsTo : Followed → Followed → Prop where
  | reached (target : Resolved) : FoldsTo (.reached target) (.reached target.folded)
  | member : FoldsTo .member .member
  | broken {finding other : Finding} (houtline : other.outline = finding.outline) :
      FoldsTo (.broken finding) (.broken other)

namespace Registry

variable (registry : Registry) (file : String)

/-- A step inside a namespace leads to the same, folded. -/
theorem stepNamespace_folded (fullName : String) (part : Ident) :
    (registry.stepNamespace file fullName part).FoldsTo
      (registry.folded.stepNamespace file (Text.asciiLower fullName) part.folded) := by
  have hqualified : s!"{Text.asciiLower fullName}.{part.folded.text}" =
      Text.asciiLower s!"{fullName}.{part.text}" :=
    (Text.asciiLower_qualified fullName part.text).symm
  simp only [stepNamespace, hqualified, namespace?_folded, enum?_folded, callable?_folded,
    class?_folded, const?_folded, Option.isSome_map]
  cases registry.namespace? s!"{fullName}.{part.text}" none with
  | some entry => exact .reached (.inNamespace entry.fullName)
  | none =>
    cases registry.enum? s!"{fullName}.{part.text}" none with
    | some decl => exact .reached (.enum decl)
    | none =>
      cases registry.callable? s!"{fullName}.{part.text}" none with
      | some callable => exact .reached (.callable callable)
      | none =>
        simp only [Option.map_none]
        split
        · exact .reached .declared
        · exact .broken (by simp [Problem.code, Problem.severity])

/-- A step from an enum leads to the same, folded. -/
theorem stepEnum_folded (decl : Declaration EnumDecl) (part : Ident) :
    (registry.stepEnum file decl part).FoldsTo
      (registry.folded.stepEnum file (decl.folded EnumDecl.folded) part.folded) := by
  have hqualified : s!"{(decl.folded EnumDecl.folded).fullName}.{part.folded.text}" =
      Text.asciiLower s!"{decl.fullName}.{part.text}" :=
    (Text.asciiLower_qualified decl.fullName part.text).symm
  simp only [stepEnum, hqualified, enumItem?_folded]
  rcases registry.enumItem? s!"{decl.fullName}.{part.text}" none with _ | ⟨_, _ | _⟩
  · exact .broken (by simp [Problem.code, Problem.severity])
  · exact .broken (by simp [Problem.code, Problem.severity])
  · exact .reached .declared

/-- One more name of a folded chain leads to the same. -/
theorem stepChain_folded (current : Resolved) (part : Ident) :
    (registry.stepChain file current part).FoldsTo
      (registry.folded.stepChain file current.folded part.folded) := by
  cases current with
  | inNamespace fullName => exact registry.stepNamespace_folded file fullName part
  | enum decl => exact registry.stepEnum_folded file decl part
  | callable callable => exact .member
  | declared => exact .member

/-- The rest of a folded chain leads to the same. -/
theorem followChain_folded (current : Resolved) (rest : List Ident) :
    (registry.followChain file current rest).FoldsTo
      (registry.folded.followChain file current.folded (rest.map Ident.folded)) := by
  induction rest generalizing current with
  | nil => exact .reached current
  | cons part rest ih =>
    have hstep := registry.stepChain_folded file current part
    -- Past this step only the relation between the two results counts.
    rw [List.map_cons, followChain, followChain]
    generalize registry.stepChain file current part = next at hstep
    generalize registry.folded.stepChain file current.folded part.folded = next' at hstep
    cases hstep with
    | reached target => exact ih target
    | member => exact .member
    | broken houtline => exact .broken houtline

/-- A chain starts at the same, folded. -/
theorem resolveRoot_folded (enclosing : Option String) (root : Ident) :
    (registry.resolveRoot file enclosing root).FoldsTo
      (registry.folded.resolveRoot file enclosing root.folded) := by
  simp only [resolveRoot, Ident.text_folded, namespace?_folded, enum?_folded]
  cases registry.namespace? root.text enclosing with
  | some entry => exact .reached (.inNamespace entry.fullName)
  | none =>
    cases registry.enum? root.text enclosing with
    | some decl => exact .reached (.enum decl)
    | none => exact .broken (by simp [Problem.code, Problem.severity])

end Registry

/-- The number of arguments is checked alike, and even the wording is the same, as it shows no name.
-/
theorem checkArity_folded (file : String) (range : Range) (callable : Callable) (count : Nat) :
    checkArity file range callable.folded count = checkArity file range callable count := by
  simp only [checkArity, Callable.arity_folded]

/-- What a chain has reached is checked alike. -/
theorem checkReached_folded (file : String) (chain : ChainUse) (target : Resolved) :
    (checkReached file chain.folded target.folded).map Finding.outline =
      (checkReached file chain target).map Finding.outline := by
  cases target with
  | callable callable =>
    simp only [Resolved.folded, checkReached, checkArity_folded]
    rfl
  | _ => rfl

/-- A chain whose first name is not bound is checked alike. -/
theorem checkUnbound_folded (registry : Registry) (file : String) (chain : ChainUse) (root : Ident)
    (rest : List Ident) :
    (checkUnbound registry.folded file chain.folded root.folded
        (rest.map Ident.folded)).map Finding.outline =
      (checkUnbound registry file chain root rest).map Finding.outline := by
  have hroot := registry.resolveRoot_folded file chain.namespaceKey root
  have hkey : chain.folded.namespaceKey = chain.namespaceKey := rfl
  rw [checkUnbound, checkUnbound, hkey]
  generalize registry.resolveRoot file chain.namespaceKey root = start at hroot
  generalize registry.folded.resolveRoot file chain.namespaceKey root.folded = start' at hroot
  cases hroot with
  | member => rfl
  | broken houtline => exact congrArg some houtline
  | reached current =>
    have hrest := registry.followChain_folded file current rest
    simp only
    generalize registry.followChain file current rest = followed at hrest
    generalize registry.folded.followChain file current.folded (rest.map Ident.folded) =
      followed' at hrest
    cases hrest with
    | member => rfl
    | broken houtline => exact congrArg some houtline
    | reached target => exact checkReached_folded file chain target

/-- A chain whose first name is bound is checked by the ranges of the bindings only. -/
theorem checkBound_folded (registry : Registry) (file : String) (chain : ChainUse) (root : Ident)
    (rest : List Ident) {bindings bindings' : List Binding}
    (hranges : bindings'.map Binding.range = bindings.map Binding.range) :
    checkBound registry.folded file chain.folded root.folded (rest.map Ident.folded) bindings' =
      checkBound registry file chain root rest bindings := by
  -- bindings are compared with a function by their ranges alone
  have hany : ∀ (found : List Binding) (callable : Callable), bindsCallable found callable =
      (found.map Binding.range).any fun range => range = callable.bindingRange := by
    intro found callable
    rw [bindsCallable, List.any_map]
    rfl
  have hbinds : ∀ callable : Callable,
      bindsCallable bindings' callable.folded = bindsCallable bindings callable := by
    intro callable
    rw [hany, hany, hranges, Callable.bindingRange_folded]
  have husage : chain.folded.usage = chain.usage := rfl
  have hcallable : registry.folded.callable? root.folded.text chain.folded.namespaceKey =
      (registry.callable? root.text chain.namespaceKey).map Callable.folded :=
    registry.callable?_folded root.text chain.namespaceKey
  unfold checkBound
  rw [husage, hcallable]
  cases chain.usage with
  | value => rfl
  | parentClass => rfl
  | callee count =>
    cases rest with
    | cons _ _ => rfl
    | nil =>
      cases registry.callable? root.text chain.namespaceKey with
      | none => rfl
      | some callable =>
        simp only [List.map_nil, Option.map_some, hbinds, checkArity_folded]
        rfl

/-! ## Objects and types -/

/-- The making of an object is checked alike. -/
theorem checkNew_folded (registry : Registry) (file : String) (use : NewUse) :
    (checkNew registry.folded file use.folded).map Finding.outline =
      (checkNew registry file use).map Finding.outline := by
  have hkey : use.folded.namespaceKey = use.namespaceKey := rfl
  have htext : use.folded.className.text = Text.asciiLower use.className.text :=
    use.className.text_folded
  simp only [checkNew, hkey, htext, Registry.class?_folded, Registry.namespace?_folded,
    Registry.enum?_folded, Registry.callable?_folded, Registry.const?_folded, Option.isSome_map]
  split
  · rfl
  · have hrange : use.folded.className.range = use.className.range := rfl
    split <;> simp [hrange, Problem.code, Problem.severity]

/-- The same types are valid. -/
theorem isValidType_folded (registry : Registry) (type : ValueType) (enclosing : Option String) :
    isValidType registry.folded type.folded enclosing = isValidType registry type enclosing := by
  cases type with
  | custom name => exact registry.isKnownType_folded name enclosing
  | _ => rfl

/-- Signatures are checked alike. -/
theorem checkSignature_folded (registry : Registry) (file : String) (use : FuncUse) :
    (checkSignature registry.folded file use.folded).map Finding.outline =
      (checkSignature registry file use).map Finding.outline := by
  have hkey : use.folded.namespaceKey = use.namespaceKey := rfl
  have hfunc : use.folded.func = use.func.folded := rfl
  have hresult : (use.func.returnType.map TypeNote.folded).toList =
      use.func.returnType.toList.map TypeNote.folded := by
    cases use.func.returnType <;> rfl
  simp only [checkSignature, hkey, hfunc, Func.folded_eq, hresult, List.map_append,
    List.filterMap_map, List.map_filterMap]
  refine congrArg₂ (· ++ ·) (List.filterMap_congr fun note _ => ?_)
    (List.filterMap_congr fun param _ => ?_)
  · simp only [Function.comp_apply, TypeNote.type_folded, isValidType_folded]
    split <;> simp [TypeNote.folded, Problem.code, Problem.severity]
  · simp only [Function.comp_apply, Param.folded_eq]
    cases param.note with
    | none => rfl
    | some note =>
      simp only [Option.map_some, TypeNote.type_folded, isValidType_folded]
      split <;> simp [TypeNote.folded, Problem.code, Problem.severity]

/-- Node types are given by strings, which are not folded. -/
theorem checkNodeType_folded (platform : Platform) (file : String) (args : List Expr) :
    checkNodeType platform file (args.map Expr.folded) = checkNodeType platform file args := by
  cases args with
  | nil => rfl
  | cons node rest =>
    simp only [List.map_cons, checkNodeType, Expr.stringLiteral?_folded, Expr.range_folded]

/-- Objects of the platform are given by strings, which are not folded. -/
theorem checkObject_folded (platform : Platform) (file : String) (object : PlatformObject)
    (call first : Expr) (rest : List Expr) :
    checkObject platform file object call.folded first.folded (rest.map Expr.folded) =
      checkObject platform file object call first rest := by
  simp only [checkObject, List.length_map, Expr.range_folded, checkNodeType_folded]

/-- Calls of `CreateObject` are checked alike, with the same wording. -/
theorem checkCreateObject_folded (platform : Platform) (file : String) (call : Expr) :
    checkCreateObject platform file call.folded = checkCreateObject platform file call := by
  cases call with
  | call callee args range =>
    cases args with
    | nil => simp [Expr.folded, checkCreateObject]
    | cons first rest =>
      have hcall : (Expr.call callee (first :: rest) range).folded =
          .call callee.folded (first.folded :: rest.map Expr.folded) range := by
        rw [Expr.folded, List.map_cons]
      simp only [hcall, checkCreateObject, Expr.stringLiteral?_folded, Expr.range_folded]
      cases first.stringLiteral? with
      | none => rfl
      | some name =>
        simp only [← hcall, checkObject_folded]
  | _ => simp [Expr.folded, checkCreateObject]

/-! ## Enums -/

/-- The same enums are found to be declared twice. -/
theorem checkDuplicateEnums_folded (registry : Registry) :
    (checkDuplicateEnums registry.folded).map Finding.outline =
      (checkDuplicateEnums registry).map Finding.outline := by
  simp only [checkDuplicateEnums, Registry.folded, sortedKeys_folded, declaredAs_folded,
    List.map_flatMap]
  refine List.flatMap_congr fun key _ => ?_
  cases declaredAs registry.enums key with
  | nil => rfl
  | cons first others => simp [Problem.code, Problem.severity]

/-- An enum has the same type of values. -/
theorem enumType_folded (decl : EnumDecl) : enumType decl.folded = enumType decl := by
  simp only [enumType, EnumDecl.folded_eq, List.findSome?_map, Function.comp_def,
    EnumItem.folded_eq, Option.bind_map, Expr.literalType_folded]

/-- Values of enums are checked alike. -/
theorem checkEnumItem_folded (file : String) (type : ValueType) (item : EnumItem) :
    (checkEnumItem file type item.folded).map Finding.outline =
      (checkEnumItem file type item).map Finding.outline := by
  rw [EnumItem.folded_eq, checkEnumItem, checkEnumItem]
  cases item.value with
  | none => rfl
  | some value => simp only [Option.map_some, Expr.literalType_folded, Expr.range_folded]

/-- The values of all enums are checked alike. -/
theorem checkEnumValues_folded (registry : Registry) :
    (checkEnumValues registry.folded).map Finding.outline =
      (checkEnumValues registry).map Finding.outline := by
  simp only [checkEnumValues, Registry.folded, sortedKeys_folded, declaredAs_folded,
    List.map_flatMap, List.flatMap_map, List.map_filterMap]
  refine List.flatMap_congr fun key _ => List.flatMap_congr fun decl _ => ?_
  have hitems : (decl.folded EnumDecl.folded).node.items =
      decl.node.items.map EnumItem.folded := by
    simp only [Declaration.folded, EnumDecl.folded_eq]
  have htype : enumType (decl.folded EnumDecl.folded).node = enumType decl.node :=
    enumType_folded decl.node
  rw [hitems, htype, List.filterMap_map]
  exact List.filterMap_congr fun item _ => checkEnumItem_folded decl.file _ item

/-! ## The findings of a scope -/

section Names

variable {chain : ScopeChain} (platform : Platform) {script : Script}
  (hscript : script ∈ chain.sortedFiles)
include hscript

/-- A chain of names of a folded scope is checked as that of the scope. -/
theorem checkChain_folded {visit : Visit} (hvisit : visit ∈ script.visits) {use : ChainUse}
    (huse : visit.chainUse? = some use) :
    (checkChain (Registry.build chain platform).folded (linkedTables chain.folded platform)
        script.folded use.folded).map Finding.outline =
      (checkChain (Registry.build chain platform) (linkedTables chain platform) script
        use).map Finding.outline := by
  have htable : use.table = visit.table := (Visit.table_of_chainUse? huse).1
  have htable' : use.folded.table = visit.table := htable
  have hpath : script.folded.path = script.path := rfl
  have hparts : use.folded.parts = use.parts.map Ident.folded := rfl
  unfold checkChain
  rw [htable, htable', hpath, hparts]
  cases use.parts with
  | nil => rfl
  | cons root rest =>
    have hlookup := map_range_lookup_folded platform hscript hvisit root.text
    simp only [List.map_cons, Ident.text_folded]
    -- The ranges agree, so the two lookups find something both or neither.
    generalize Tables.lookup (linkedTables chain.folded platform) (script.folded.ref visit.table)
      (Text.asciiLower root.text) = found' at hlookup ⊢
    generalize Tables.lookup (linkedTables chain platform) (script.ref visit.table) root.text =
      found at hlookup ⊢
    cases found with
    | none =>
      cases found' with
      | none => exact checkUnbound_folded _ script.path use root rest
      | some _ => cases hlookup
    | some bindings =>
      cases found' with
      | none => cases hlookup
      | some bindings' =>
        exact congrArg (Option.map Finding.outline)
          (checkBound_folded _ script.path use root rest (Option.some.inj hlookup))

/-- The inventory of a script of a folded scope gives the same findings. -/
theorem checkInventory_folded :
    (checkInventory (Registry.build chain platform).folded (linkedTables chain.folded platform)
        (.collect script.folded)).map Finding.outline =
      (checkInventory (Registry.build chain platform) (linkedTables chain platform)
        (.collect script)).map Finding.outline := by
  have hchains : ((script.visits.map Visit.folded).filterMap Visit.chainUse?).filterMap
      (fun use => (checkChain (Registry.build chain platform).folded
        (linkedTables chain.folded platform) script.folded use).map Finding.outline) =
      (script.visits.filterMap Visit.chainUse?).filterMap fun use =>
        (checkChain (Registry.build chain platform) (linkedTables chain platform) script use).map
          Finding.outline := by
    rw [List.filterMap_map, List.filterMap_filterMap, List.filterMap_filterMap]
    refine List.filterMap_congr fun visit hvisit => ?_
    rw [Function.comp_apply, Visit.chainUse?_folded]
    cases huse : visit.chainUse? with
    | none => rfl
    | some use => exact checkChain_folded platform hscript hvisit huse
  have hfile : script.folded.path = script.path := rfl
  have hplatform : (Registry.build chain platform).folded.platform =
      (Registry.build chain platform).platform := rfl
  simp only [checkInventory, Inventory.collect, script.visits_folded, List.map_append,
    List.map_filterMap, List.map_flatMap, hchains, hfile, hplatform]
  simp only [List.filterMap_map, Function.comp_def, Visit.newUse?_folded, Visit.funcUse?_folded,
    Visit.createObject?_folded, ← List.map_filterMap, List.flatMap_map, checkNew_folded,
    checkSignature_folded, checkCreateObject_folded]

end Names

/-- An examination finds what is found in the classes, and then what is found in the names. -/
theorem findings_examine (chain : ScopeChain) (platform : Platform) :
    (examine chain platform).findings =
      checkClasses (Registry.build chain platform) ++
        checkNames (Registry.build chain platform) (linkedTables chain platform)
          (chain.sortedFiles.map Inventory.collect) := by
  rw [← examineNames_ofScripts]
  rfl

/-- An examination finds the same in a folded scope, but for the wording. -/
theorem outline_examine_folded (chain : ScopeChain) (platform : Platform) :
    (examine chain.folded platform).findings.map Finding.outline =
      (examine chain platform).findings.map Finding.outline := by
  have hinventories : ((chain.sortedFiles.map Script.folded).map Inventory.collect).flatMap
      (fun inventory => (checkInventory (Registry.build chain platform).folded
        (linkedTables chain.folded platform) inventory).map Finding.outline) =
      (chain.sortedFiles.map Inventory.collect).flatMap fun inventory =>
        (checkInventory (Registry.build chain platform) (linkedTables chain platform)
          inventory).map Finding.outline := by
    simp only [List.flatMap_map]
    exact List.flatMap_congr fun script hscript => checkInventory_folded platform hscript
  rw [findings_examine, findings_examine, chain.sortedFiles_folded, Registry.build_folded]
  simp only [checkNames, List.map_append, List.map_flatMap, checkClasses_folded, hinventories,
    checkDuplicateEnums_folded, checkEnumValues_folded]

/-- Scopes that differ only in the case of letters A to Z of names and annotations give findings
that agree one by one in everything but their wording. -/
theorem outline_findings_of_folded_eq {chain recased : ScopeChain}
    (hfolded : recased.folded = chain.folded) (platform : Platform) :
    (examine recased platform).findings.map Finding.outline =
      (examine chain platform).findings.map Finding.outline := by
  rw [← outline_examine_folded recased, hfolded, outline_examine_folded]

/-! ## A scope in two spellings -/

/-- A script with two classes, one below the other, the second of which extends a class. -/
def panels (first second parent : String) : Script :=
  ⟨"panels.bs", none,
    [.classDecl ⟨⟨first, .zero⟩, none, []⟩ .zero,
      .classDecl ⟨⟨second, .onLine 1 0 5⟩, some ⟨[⟨parent, .onLine 1 6 5⟩], .onLine 1 6 5⟩, []⟩
        (.onLine 1 0 5)]⟩

/-- The scope of the script. -/
def panelsChain (first second parent : String) : ScopeChain :=
  ⟨.ofProgram [panels first second parent], []⟩

/-- Folding the scope folds the three names. -/
theorem folded_panelsChain (first second parent : String) :
    (panelsChain first second parent).folded =
      panelsChain (Text.asciiLower first) (Text.asciiLower second) (Text.asciiLower parent) := by
  simp [panelsChain, ScopeChain.folded, Scope.folded, Scope.ofProgram, Script.folded, panels,
    Stmt.folded, ClassDecl.folded, Ident.folded, DottedName.folded]

/-- The scope has one file. -/
theorem sortedFiles_panelsChain (first second parent : String) :
    (panelsChain first second parent).sortedFiles = [panels first second parent] := by
  have hall : (panelsChain first second parent).allFiles = [panels first second parent] := rfl
  simp [ScopeChain.sortedFiles, hall]

/-- The first of two classes of one name. -/
def firstPanel : Declaration ClassDecl :=
  ⟨"panels.bs", ⟨"PANEL", .zero⟩, none, "PANEL", ⟨⟨"PANEL", .zero⟩, none, []⟩⟩

/-- The second of two classes of one name. -/
def secondPanel : Declaration ClassDecl :=
  ⟨"panels.bs", ⟨"panel", .onLine 1 0 5⟩, none, "panel",
    ⟨⟨"panel", .onLine 1 0 5⟩, some ⟨[⟨"Panel", .onLine 1 6 5⟩], .onLine 1 6 5⟩, []⟩⟩

/-- The two classes of the script. -/
theorem classes_panelsChain :
    (Registry.build (panelsChain "PANEL" "panel" "Panel") (.withNodes [])).classes =
      [firstPanel, secondPanel] := by
  have hclasses : (panels "PANEL" "panel" "Panel").classes = [firstPanel, secondPanel] := by
    rw [Script.classes, Script.topLevel, Script.visits_eq_visitsTo 2 rfl]
    rfl
  simp [Registry.build, sortedFiles_panelsChain, hclasses]

/-- The classes differ in letter case only, so the second is a duplicate. -/
theorem checkDuplicateClasses_panelsChain :
    (checkDuplicateClasses (Registry.build (panelsChain "PANEL" "panel" "Panel")
      (.withNodes []))).map Finding.outline =
        [⟨1010, "panels.bs", .onLine 1 0 5, .error, .perFile, [⟨"panels.bs", .zero⟩]⟩] := by
  have hkeys : sortedKeys [firstPanel, secondPanel] = ["panel"] := by
    have hdistinct : ([firstPanel, secondPanel].map Declaration.key).eraseDups = ["panel"] := by
      decide +kernel
    rw [sortedKeys, hdistinct, List.mergeSort_singleton]
  have hfound : declaredAs [firstPanel, secondPanel] "panel" = [firstPanel, secondPanel] := by
    have hkey : firstPanel.key = "panel" ∧ secondPanel.key = "panel" := by decide +kernel
    simp [declaredAs, hkey]
  rw [checkDuplicateClasses, classes_panelsChain, hkeys, List.flatMap_singleton, hfound]
  simp [Problem.code, Problem.severity, firstPanel, secondPanel]

/-- Two spellings of one scope, in which a class is declared twice, give the same findings. -/
theorem panels_in_any_case :
    (panelsChain "PANEL" "panel" "Panel").folded = (panelsChain "Panel" "pAnEl" "panel").folded ∧
      (examine (panelsChain "PANEL" "panel" "Panel") (.withNodes [])).findings.map
          Finding.outline =
        (examine (panelsChain "Panel" "pAnEl" "panel") (.withNodes [])).findings.map
          Finding.outline ∧
      (⟨1010, "panels.bs", .onLine 1 0 5, .error, .perFile, [⟨"panels.bs", .zero⟩]⟩ : Outline) ∈
        (examine (panelsChain "Panel" "pAnEl" "panel") (.withNodes [])).findings.map
          Finding.outline := by
  have hlower : Text.asciiLower "PANEL" = "panel" ∧ Text.asciiLower "Panel" = "panel" ∧
      Text.asciiLower "panel" = "panel" ∧ Text.asciiLower "pAnEl" = "panel" := by decide
  have hfolded : (panelsChain "PANEL" "panel" "Panel").folded =
      (panelsChain "Panel" "pAnEl" "panel").folded := by
    simp only [folded_panelsChain, hlower]
  have hsame := outline_findings_of_folded_eq hfolded (.withNodes [])
  refine ⟨hfolded, hsame, ?_⟩
  have hrepeated := checkDuplicateClasses_panelsChain
  rw [← hsame, findings_examine, checkClasses]
  simp [hrepeated]

end ScopeCheck
