import ScopeCheck.Proofs.Declared
import ScopeCheck.Proofs.SigmaContext

/-!
# Names inside their own namespace

What a block of a namespace declares is registered under the lower case of its full name. Inside the
namespace it is looked up under another text: the lower case of the name of the namespace, a dot and
the lower case of its own name. The two agree unless a capital sigma stands at the dot whose form is
decided across it, and then the declaration is not found by its own name in its own namespace; nor
is it in a namespace without a name, inside which nothing is looked up
(`found_in_own_namespace_iff`). There is no third way to miss: the other place that is looked at,
outside of all namespaces, never has the key of something inside one.
-/

namespace ScopeCheck

/-- The name of the class, enum, constant, interface or function that a statement declares. -/
def Stmt.registeredName? : Stmt → Option Ident
  | .classDecl decl _ => some decl.name
  | .enumDecl decl _ => some decl.name
  | .constDecl decl _ => some decl.name
  | .interfaceDecl decl _ => some decl.name
  | .functionDecl decl _ => some decl.name
  | _ => none

/-- The key of what a name means, among the things of the kind that a statement declares. -/
def Registry.meantKey? (registry : Registry) (stmt : Stmt) (name : String)
    (enclosing : Option String) : Option String :=
  match stmt with
  | .classDecl .. => (registry.class? name enclosing).map Declaration.key
  | .enumDecl .. => (registry.enum? name enclosing).map Declaration.key
  | .constDecl .. => (registry.const? name enclosing).map Declaration.key
  | .interfaceDecl .. => (registry.interface? name enclosing).map Declaration.key
  | .functionDecl .. => (registry.callable? name enclosing).map Callable.key
  | _ => none

/-! ## Under which key something is found -/

section FirstKey

variable {α : Type} {things : List α} {keyOf : α → String} {name : String}
  {enclosing : Option String}

/-- The first thing under the first key that has one. -/
theorem key_mem_of_findSome? {keys : List String} {found : α}
    (hfound : (keys.findSome? fun key => things.find? fun other => keyOf other = key) =
      some found) : keyOf found ∈ keys := by
  obtain ⟨key, hkey, hfind⟩ := List.exists_of_findSome?_eq_some hfound
  have hsame : keyOf found = key := by simpa using List.find?_some hfind
  exact hsame ▸ hkey

/-- Something whose key is not the bare name is found exactly if its key is the first one that is
tried. -/
theorem findSome?_lookupKeys_iff {thing : α} (hthing : thing ∈ things) {key : String}
    (hkey : keyOf thing = key) (hbare : key ≠ Text.lower name) :
    ((lookupKeys name enclosing).findSome? fun key =>
        things.find? fun other => keyOf other = key).map keyOf = some key ↔
      (lookupKeys name enclosing).head? = some key := by
  subst hkey
  -- the only later key is the name by itself
  have hlater : ∀ key ∈ (lookupKeys name enclosing).tail, key = Text.lower name := by
    unfold lookupKeys
    split
    · split <;> simp
    · simp
  cases hkeys : lookupKeys name enclosing with
  | nil => simp
  | cons first rest =>
    rw [List.head?_cons, Option.some.injEq]
    rw [hkeys, List.tail_cons] at hlater
    constructor
    · intro hfound
      obtain ⟨found, hfind, hkey⟩ := Option.map_eq_some_iff.mp hfound
      rcases List.mem_cons.mp (key_mem_of_findSome? hfind) with hfirst | hrest
      · exact hfirst.symm.trans hkey
      · exact absurd (hkey.symm.trans (hlater _ hrest)) hbare
    · rintro rfl
      have hsome : (things.find? fun other => keyOf other = keyOf thing).isSome = true :=
        List.find?_isSome.mpr ⟨thing, hthing, decide_eq_true rfl⟩
      obtain ⟨found, hfind⟩ := Option.isSome_iff_exists.mp hsome
      have hkey : keyOf found = keyOf thing := by simpa using List.find?_some hfind
      rw [List.findSome?_cons, hfind, Option.map_some, hkey]

end FirstKey

/-- Inside a namespace with a name, what is tried first is the name behind that of the namespace. -/
theorem head?_lookupKeys_lower (name outer : String) :
    (lookupKeys name (some (Text.lower outer))).head? =
      if outer = "" then some (Text.lower name)
      else some s!"{Text.lower outer}.{Text.lower name}" := by
  by_cases houter : outer = ""
  · subst houter
    rfl
  · have hfull : ¬ (Text.lower outer).isEmpty = true := by
      simpa using mt (Text.lower_eq_empty_iff outer).mp houter
    rw [lookupKeys, if_neg hfull, if_neg houter, List.head?_cons, Text.lower_idem]

namespace Registry

variable {chain : ScopeChain} {platform : Platform} {script : Script}

/-- What a statement declares is found exactly if its key is the first one that is tried. -/
theorem meantKey?_eq_iff (hscript : script ∈ chain.sortedFiles) {visit : Visit} {stmt : Stmt}
    (hlisted : (visit, stmt) ∈ script.topLevel) {name : Ident}
    (hname : stmt.registeredName? = some name)
    (hbare : Text.lower (visit.fullName name.text) ≠ Text.lower name.text)
    (enclosing : Option String) :
    (build chain platform).meantKey? stmt name.text enclosing =
        some (Text.lower (visit.fullName name.text)) ↔
      (lookupKeys name.text enclosing).head? = some (Text.lower (visit.fullName name.text)) := by
  have hmem : ∀ {α : Type} (listed : Script → List (Declaration α))
      {pick : Visit × Stmt → Option (Declaration α)} {decl : Declaration α},
      listed script = script.topLevel.filterMap pick → pick (visit, stmt) = some decl →
        decl ∈ chain.sortedFiles.flatMap listed := by
    intro α listed pick decl hpick hdecl
    refine List.mem_flatMap.mpr ⟨script, hscript, ?_⟩
    rw [hpick]
    exact List.mem_filterMap.mpr ⟨_, hlisted, hdecl⟩
  unfold Stmt.registeredName? at hname
  split at hname <;> cases hname
  · exact findSome?_lookupKeys_iff (hmem Script.classes rfl rfl) rfl hbare
  · exact findSome?_lookupKeys_iff (hmem Script.enums rfl rfl) rfl hbare
  · exact findSome?_lookupKeys_iff (hmem Script.consts rfl rfl) rfl hbare
  · exact findSome?_lookupKeys_iff (hmem Script.interfaces rfl rfl) rfl hbare
  · have hcallable := List.mem_append_left (globalFunctions.map Callable.ofPlatform)
      (List.mem_map_of_mem (f := Callable.declared) (hmem Script.functions rfl rfl))
    exact findSome?_lookupKeys_iff hcallable rfl hbare

end Registry

/-- A class, enum, constant, interface or function that is declared directly in a block of a
namespace, and with it a declaration of its key, is found by its name in the namespace exactly if
the namespace has a name and no capital sigma at the dot of the full name depends on the other
side. -/
theorem found_in_own_namespace_iff (chain : ScopeChain) (platform : Platform) {script : Script}
    (hscript : script ∈ chain.sortedFiles) {visit : Visit} {stmt : Stmt}
    (hlisted : (visit, stmt) ∈ script.topLevel) {block : NamespaceDecl} {range : Range}
    (hblock : visit.parent? = some (.statement (.namespaceDecl block range))) {name : Ident}
    (hname : stmt.registeredName? = some name) :
    (Registry.build chain platform).meantKey? stmt name.text (some block.name.lower) =
        some (visit.declaration script.path name stmt).key ↔
      block.name.text ≠ "" ∧ Text.sigmaAtDot block.name.text name.text = false := by
  have hfull : visit.fullName name.text = s!"{block.name.text}.{name.text}" := by
    obtain ⟨place, habove, hplace⟩ := Option.map_eq_some_iff.mp hblock
    obtain ⟨outer, houter⟩ := List.head?_eq_some_iff.mp habove
    have hdecl : place.namespaceDecl? = some block := by rw [Place.namespaceDecl?, hplace]
    rw [Visit.fullName, Visit.namespaceDecl?, houter, List.findSome?_cons, hdecl]
  have hkey : (visit.declaration script.path name stmt).key =
      Text.lower (visit.fullName name.text) := rfl
  have hbare := Text.lower_qualified_ne block.name.text name.text
  rw [hkey, Registry.meantKey?_eq_iff hscript hlisted hname (hfull ▸ hbare), hfull,
    DottedName.lower, head?_lookupKeys_lower]
  split
  · rename_i hempty
    exact iff_of_false (fun h => hbare (Option.some.inj h).symm) fun h => h.1 hempty
  · rename_i hnonempty
    rw [and_iff_right hnonempty, ← Text.lower_qualified_iff, Option.some.injEq]
    exact eq_comm

/-! ## Sigmas at the end of a name -/

/-- A function whose name ends in a sigma. -/
def roadFunction : FunctionDecl := ⟨⟨"ΟΔΟΣ", .zero⟩, ⟨.function, [], none, [], .zero⟩⟩

/-- The block of the function. -/
def roadBlock : NamespaceDecl := ⟨⟨[⟨"Net", .zero⟩], .zero⟩, [.functionDecl roadFunction .zero]⟩

/-- A class in a namespace whose name ends in a sigma. -/
def stopClass : ClassDecl := ⟨⟨"Stop", .zero⟩, none, []⟩

/-- The block of the class. -/
def stopBlock : NamespaceDecl := ⟨⟨[⟨"ΟΔΟΣ", .zero⟩], .zero⟩, [.classDecl stopClass .zero]⟩

/-- Both blocks in one script. -/
def greek : Script :=
  ⟨"greek.bs", none, [.namespaceDecl roadBlock .zero, .namespaceDecl stopBlock .zero]⟩

/-- The scope of the script. -/
def greekChain : ScopeChain := ⟨.ofProgram [greek], []⟩

/-- The visit of the function. -/
def roadVisit : Visit :=
  (⟨⟨.statement (.namespaceDecl roadBlock .zero), [0]⟩, []⟩ : Visit).child 0
    (.statement (.functionDecl roadFunction .zero))

/-- The visit of the class. -/
def stopVisit : Visit :=
  (⟨⟨.statement (.namespaceDecl stopBlock .zero), [1]⟩, []⟩ : Visit).child 0
    (.statement (.classDecl stopClass .zero))

/-- The scope has one file. -/
theorem sortedFiles_greekChain : greekChain.sortedFiles = [greek] := by
  have hall : greekChain.allFiles = [greek] := rfl
  simp [ScopeChain.sortedFiles, hall]

/-- The walk over the script, with a bound on its depth that the kernel can count down. -/
theorem visits_greek :
    greek.visits = greek.body.zipIdx.flatMap fun entry =>
      (Node.statement entry.1).visitsTo 3 [] [entry.2] :=
  Script.visits_eq_visitsTo 3 rfl

/-- A sigma at the end of a full name is the same in the name alone, so the function is found. -/
theorem road_found_in_net :
    roadVisit.parent? = some (.statement (.namespaceDecl roadBlock .zero)) ∧
      Text.sigmaAtDot "Net" "ΟΔΟΣ" = false ∧
      ((Registry.build greekChain (.withNodes [])).callable? "ΟΔΟΣ" (some "net")).map Callable.key =
        some "net.οδος" := by
  have hscript : greek ∈ greekChain.sortedFiles := by
    rw [sortedFiles_greekChain]
    exact List.mem_singleton_self greek
  have hlisted : (roadVisit, .functionDecl roadFunction .zero) ∈ greek.topLevel := by
    rw [Script.topLevel, visits_greek]
    exact List.mem_cons_of_mem _ List.mem_cons_self
  have hblock : roadVisit.parent? = some (.statement (.namespaceDecl roadBlock .zero)) := rfl
  have htext : roadBlock.name.text = "Net" := String.intercalate_singleton
  have hplain : Text.sigmaAtDot "Net" "ΟΔΟΣ" = false := by decide +kernel
  have hspace : roadBlock.name.lower = "net" := by
    rw [DottedName.lower, htext]
    decide +kernel
  have hkey : (roadVisit.declaration greek.path roadFunction.name
      (Stmt.functionDecl roadFunction .zero)).key = "net.οδος" := by
    decide +kernel
  have hfound := (found_in_own_namespace_iff greekChain (.withNodes []) hscript hlisted hblock
    rfl).mpr (by rw [htext]; exact ⟨by decide, hplain⟩)
  rw [hspace, hkey] at hfound
  exact ⟨hblock, hplain, hfound⟩

/-- A sigma at the end of the name of a namespace is another in the full name of what is inside, so
the class is not found by its name in its own namespace. -/
theorem stop_not_found_in_own_namespace :
    stopVisit.declaration "greek.bs" stopClass.name stopClass ∈
        (Registry.build greekChain (.withNodes [])).classes ∧
      stopVisit.namespaceKey? = some "οδος" ∧
      (Registry.build greekChain (.withNodes [])).class? "Stop" stopVisit.namespaceKey? = none := by
  have hclasses : (Registry.build greekChain (.withNodes [])).classes =
      [stopVisit.declaration "greek.bs" stopClass.name stopClass] := by
    simp only [Registry.build, sortedFiles_greekChain, List.flatMap_cons, Script.classes,
      Script.topLevel, visits_greek]
    rfl
  have hspace : stopVisit.namespaceKey? = some "οδος" := by decide +kernel
  refine ⟨by rw [hclasses]; exact List.mem_singleton_self _, hspace, ?_⟩
  have hkeys : lookupKeys "Stop" (some "οδος") = ["οδος.stop", "stop"] := by decide +kernel
  have hkey : (stopVisit.declaration "greek.bs" stopClass.name stopClass).key = "οδοσ.stop" := by
    decide +kernel
  rw [hspace, Registry.class?, firstDeclared, hclasses, hkeys]
  simp [hkey]

end ScopeCheck
