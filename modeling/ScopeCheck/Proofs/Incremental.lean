import ScopeCheck.Proofs.Relinking
import ScopeCheck.Proofs.UpToDate

/-!
# Incremental validation equals validation from scratch

Two programs with the same settings, scripts and components have the same scopes, up to the order of
scripts in the program scope. Once validated, they know the same of each scope and file the same
diagnostics. A program that went through any operations is compared in this way with a new one that
is given its scripts and components (`validate_eq_from_scratch`).
-/

namespace ScopeCheck

namespace Program

/-- Two programs have the same settings, scripts and components, in whatever order. -/
structure SameInput (left right : Program) : Prop where
  /-- The settings are the same. -/
  config : left.config = right.config
  /-- The scripts are the same. -/
  files : ∀ key, left.files.get? key = right.files.get? key
  /-- The components are the same. -/
  components : ∀ key, left.components.byName.get? key = right.components.byName.get? key

namespace SameInput

variable {left right : Program}

section

variable (h : left.SameInput right)
include h

/-- The components are the same, in whatever order they came. -/
theorem mem_list {component : Component} :
    component ∈ left.components.list ↔ component ∈ right.components.list := by
  rw [Components.mem_list, Components.mem_list]
  simp only [h.components]

/-- The scopes are the same up to the files they hold. -/
theorem mem_bareScopes {bare : Scope} : bare ∈ left.bareScopes ↔ bare ∈ right.bareScopes := by
  rw [Program.mem_bareScopes, Program.mem_bareScopes]
  simp only [h.mem_list]

/-- The node types of the components are known to both programs. -/
theorem isNode : left.platform.isNode = right.platform.isNode := by
  funext name
  have hcustom : left.platform.customNodes.contains (Text.lower name) =
      right.platform.customNodes.contains (Text.lower name) := by
    rw [Bool.eq_iff_iff, List.contains_iff_mem, List.contains_iff_mem]
    simp only [platform, Platform.withNodes, Components.names, List.mem_map, h.mem_list]
  rw [Platform.isNode, Platform.isNode, hcustom]

/-- The components above a component are the same. -/
theorem componentAncestors (name : String) :
    left.components.ancestors name = right.components.ancestors name := by
  have hparent : left.components.parentKey = right.components.parentKey := by
    funext key
    rw [Components.parentKey, Components.parentKey, h.components]
  have htrail : left.components.trail name = right.components.trail name := by
    refine Trail.follow_congr (fun key _ => congrFun hparent key) (fun _ _ _ _ => True.intro)
      (fun key _ => ?_) _ _ True.intro
    rw [Keyed.mem_keys_iff, Keyed.mem_keys_iff, h.components]
  have hget : left.components.byName.get? = right.components.byName.get? := funext h.components
  rw [Components.ancestors, Components.ancestors, htrail, hget]

/-- The program scope holds the same files, perhaps in another order. -/
theorem filesOf_source_perm :
    (left.filesOf sourceScope).Perm (right.filesOf sourceScope) := by
  unfold filesOf
  rw [if_pos rfl, if_pos rfl]
  exact ((Keyed.perm_entries h.files).filter _).map _

variable (hleft : left.Consistent) (hright : right.Consistent)
include hleft hright

/-- The scope of a component is the same in both programs. -/
theorem fill_component {component : Component} (hmem : component ∈ left.components.list) :
    left.fill (componentScope component) = right.fill (componentScope component) := by
  have hfiles : left.filesOf component.xmlPath = right.filesOf component.xmlPath := by
    have hname : component.xmlPath ≠ sourceScope := by
      intro hname
      refine hleft.offSource component hmem ?_
      rw [Component.xmlKey, hname, pathKey_sourceScope]
    unfold filesOf
    rw [if_neg hname, if_neg hname, hleft.apart.declaredIn?_of_mem hmem,
      hright.apart.declaredIn?_of_mem (h.mem_list.mp hmem)]
    exact List.filterMap_congr fun script _ => h.files (pathKey script)
  change { componentScope component with files := left.filesOf component.xmlPath } =
    { componentScope component with files := right.filesOf component.xmlPath }
  rw [hfiles]

/-- A component has the same chain in both programs, files and ancestors in the same order. -/
theorem chain_component {component : Component} (hmem : component ∈ left.components.list) :
    left.chain (left.fill (componentScope component)) =
      right.chain (right.fill (componentScope component)) := by
  have hleftDeclared : left.components.declaredIn?
      (left.fill (componentScope component)).name = some component :=
    hleft.apart.declaredIn?_of_mem hmem
  have hrightDeclared : right.components.declaredIn?
      (right.fill (componentScope component)).name = some component :=
    hright.apart.declaredIn?_of_mem (h.mem_list.mp hmem)
  have hancestors : left.ancestors (left.fill (componentScope component)) =
      right.ancestors (right.fill (componentScope component)) := by
    rw [ancestors_of_some hleftDeclared, ancestors_of_some hrightDeclared, h.componentAncestors]
    refine List.filterMap_congr fun parent hparent => ?_
    obtain ⟨key, -, hget⟩ := List.mem_filterMap.mp hparent
    have hright' : parent ∈ right.components.list := Components.mem_list.mpr ⟨key, hget⟩
    have hleft' := h.mem_list.mpr hright'
    rw [hleft.get?_component hleft', hright.get?_component hright',
      h.fill_component hleft hright hleft']
  rw [chain, chain, hancestors, h.fill_component hleft hright hmem]

end

end SameInput

/-! ## The program scope -/

section Source

/-- The program scope has nothing above it. -/
theorem Consistent.ancestors_source {program : Program} (h : program.Consistent) :
    program.ancestors (program.fill (.ofProgram [])) = [] := by
  have hnone : program.components.declaredIn? sourceScope = none := by
    rw [Option.eq_none_iff_forall_ne_some]
    intro component hdeclared
    obtain ⟨hmem, hkey⟩ := Components.of_declaredIn? hdeclared
    exact h.offSource component hmem (hkey.trans pathKey_sourceScope)
  exact ancestors_of_none hnone

/-- No file is held twice by the program scope. -/
theorem Sound.nodup_key_source {program : Program} (h : program.Sound) :
    ((program.filesOf sourceScope).map Script.key).Nodup := by
  have hsub : (program.filesOf sourceScope).Sublist program.files.values := by
    unfold filesOf
    rw [if_pos rfl]
    exact List.filter_sublist.map _
  exact h.nodup_key_values.sublist (hsub.map _)

/-- The chain of the program scope has just the files of that scope. -/
theorem Consistent.allFiles_source {program : Program} (h : program.Consistent) :
    (program.chain (program.fill (.ofProgram []))).allFiles = program.filesOf sourceScope := by
  have hfiles : (program.fill (.ofProgram [])).files = program.filesOf sourceScope := rfl
  rw [ScopeChain.allFiles_eq, chain, h.ancestors_source, List.flatMap_cons, List.flatMap_nil,
    List.append_nil, hfiles, firstBy_of_nodup _ h.sound.nodup_key_source]

end Source

namespace SameInput

variable {left right : Program} (h : left.SameInput right) (hleft : left.Consistent)
  (hright : right.Consistent)
include h hleft hright

/-- Once sorted, the files of the program scope are in the same order in both programs. -/
theorem sortedFiles_source :
    (left.chain (left.fill (.ofProgram []))).sortedFiles =
      (right.chain (right.fill (.ofProgram []))).sortedFiles := by
  unfold ScopeChain.sortedFiles
  rw [hleft.allFiles_source, hright.allFiles_source]
  exact sort_by_congr Script.key h.filesOf_source_perm hleft.sound.nodup_key_source

/-- A scope is examined alike in both programs. -/
theorem examine_eq {bare : Scope} (hbare : bare ∈ left.bareScopes) :
    examine (left.chain (left.fill bare)) left.platform =
      examine (right.chain (right.fill bare)) right.platform := by
  rcases Program.mem_bareScopes.mp hbare with rfl | ⟨component, hmem, rfl⟩
  · exact examine_congr rfl (h.sortedFiles_source hleft hright) h.isNode
  · rw [h.chain_component hleft hright hmem]
    exact examine_congr rfl rfl h.isNode

end SameInput

/-! ## Validated programs -/

/-- A program all of whose scopes are validated, with findings that are up to date. -/
structure Settled (program : Program) : Prop where
  /-- The scopes follow scripts and components. -/
  consistent : program.Consistent
  /-- What is known of the scopes is true of them. -/
  upToDate : program.UpToDate
  /-- No scope is left to examine. -/
  clean : program.dirty = []

namespace Settled

variable {program : Program}

/-- Every scope of a settled program is up to date. -/
theorem mem_validated (h : program.Settled) {key : String} {scope : Scope}
    (hget : program.scopes.get? key = some scope) : key ∈ program.validated := by
  refine dirty_eq_nil.mp h.clean key ?_
  rw [Keyed.mem_keys_iff, hget]
  rfl

/-- A settled program holds for each scope what an examination of it finds. -/
theorem get?_findings (h : program.Settled) {bare : Scope} (hbare : bare ∈ program.bareScopes) :
    program.findings.get? bare.name =
      some (examine (program.chain (program.fill bare)) program.platform) := by
  have hget := (h.consistent.scopes bare.key _).mpr ⟨bare, hbare, rfl, rfl⟩
  exact h.upToDate.examined bare.key (h.mem_validated hget) _ hget

/-- Every scope of a settled program answers that it is up to date. -/
theorem isValidated (h : program.Settled) {scope : Scope} (hmem : scope ∈ program.scopes.values) :
    program.isValidated scope.name = .ok true := by
  obtain ⟨key, hget⟩ := Keyed.mem_values_iff.mp hmem
  obtain rfl := h.consistent.sound.scopes key scope hget
  have hscope : program.scope scope.name = .ok scope := by
    unfold Program.scope
    rw [show Text.lower scope.name = scope.key from rfl, hget]
  have hvalidated : program.validated.contains scope.key = true :=
    List.contains_iff_mem.mpr (h.mem_validated hget)
  rw [Program.isValidated, hscope, ← hvalidated]
  rfl

/-- A validation settles a program. -/
theorem validate (hconsistent : program.Consistent) (hnow : program.UpToDate) :
    program.validate.Settled := by
  have hallowed : program.Allows .validate := trivial
  refine ⟨hconsistent.perform hallowed, hnow.perform hconsistent hallowed,
    dirty_eq_nil.mpr fun key hkey => ?_⟩
  have hscopes : program.validate.scopes = program.scopes := scopes_validateIn program _
  rw [hscopes] at hkey
  exact (hconsistent.sound.mem_validated_validateIn (schedule_perm program)).mpr (Or.inr hkey)

end Settled

/-- What is listed for a scope is what was filed under the name of the scope that the key finds. -/
theorem scopeDiagnostics_eq (program : Program) (name : String) :
    program.scopeDiagnostics name =
      match (program.scopes.get? (Text.lower name)).map Scope.name with
      | some known => .ok ((program.filed.get? known).getD [])
      | none => .error (.unknownScope name) := by
  unfold scopeDiagnostics scope
  cases program.scopes.get? (Text.lower name) <;> rfl

namespace SameInput

variable {left right : Program} (h : left.SameInput right)
include h

/-- Both programs know a scope of a name in the same way. -/
theorem scopeName (hleft : left.Consistent) (hright : right.Consistent) (key : String) :
    (left.scopes.get? key).map Scope.name = (right.scopes.get? key).map Scope.name := by
  refine Option.ext fun found => ?_
  simp only [Option.map_eq_some_iff, hleft.scopes, hright.scopes, h.mem_bareScopes]
  constructor
  · rintro ⟨_, ⟨bare, hbare, hkey, rfl⟩, rfl⟩
    exact ⟨_, ⟨bare, hbare, hkey, rfl⟩, rfl⟩
  · rintro ⟨_, ⟨bare, hbare, hkey, rfl⟩, rfl⟩
    exact ⟨_, ⟨bare, hbare, hkey, rfl⟩, rfl⟩

variable (hleft : left.Settled) (hright : right.Settled)
include hleft hright

/-- Validated programs with the same input know the same of every scope. -/
theorem get?_findings (name : String) : left.findings.get? name = right.findings.get? name := by
  by_cases hscope : ∃ bare ∈ left.bareScopes, bare.name = name
  · obtain ⟨bare, hbare, rfl⟩ := hscope
    rw [hleft.get?_findings hbare, hright.get?_findings (h.mem_bareScopes.mp hbare),
      h.examine_eq hleft.consistent hright.consistent hbare]
  · have hleftNone : left.findings.get? name = none := by
      rw [Option.eq_none_iff_forall_ne_some]
      exact fun found hget => hscope (hleft.upToDate.known name found hget)
    have hrightNone : right.findings.get? name = none := by
      rw [Option.eq_none_iff_forall_ne_some]
      intro found hget
      obtain ⟨bare, hbare, hname⟩ := hright.upToDate.known name found hget
      exact hscope ⟨bare, h.mem_bareScopes.mpr hbare, hname⟩
    rw [hleftNone, hrightNone]

/-- Validated programs with the same input file the same diagnostics. -/
theorem filed_eq : left.filed = right.filed := by
  rw [hleft.upToDate.filed hleft.clean, hright.upToDate.filed hright.clean, h.config,
    Cycle.aggregate_congr Cycle.empty (h.get?_findings hleft hright)]

end SameInput

/-! ## Scripts and components as operations -/

/-- The operations that give a new program the scripts and components of this one. -/
def survivors (program : Program) : List Op :=
  program.files.values.map .setFile ++ program.components.list.map .addComponent

/-- The script that an operation gives. -/
def Op.file? : Op → Option Script
  | .setFile file => some file
  | .removeFile _ | .addComponent _ | .removeComponent _ | .validate => none

/-- The component that an operation gives. -/
def Op.component? : Op → Option Component
  | .addComponent component => some component
  | .setFile _ | .removeFile _ | .removeComponent _ | .validate => none

/-- Whether an operation gives a script or a component. -/
def Op.Gives (op : Op) : Prop := op.file?.isSome ∨ op.component?.isSome

/-- What a program consists of is given to it by operations that give scripts or components. -/
theorem gives_of_mem_survivors {program : Program} {op : Op} (hmem : op ∈ program.survivors) :
    op.Gives := by
  rcases List.mem_append.mp hmem with hfile | hcomponent
  · obtain ⟨file, -, rfl⟩ := List.mem_map.mp hfile
    exact Or.inl rfl
  · obtain ⟨component, -, rfl⟩ := List.mem_map.mp hcomponent
    exact Or.inr rfl

/-- The scripts among the operations are those of the program. -/
theorem filterMap_file?_survivors (program : Program) :
    program.survivors.filterMap Op.file? = program.files.values := by
  rw [survivors, List.filterMap_append, List.filterMap_map, List.filterMap_map]
  have hfiles : (Op.file? ∘ Op.setFile) = some := rfl
  have hcomponents : (Op.file? ∘ Op.addComponent) = fun _ => none := rfl
  rw [hfiles, hcomponents, List.filterMap_some]
  simp

/-- The components among the operations are those of the program. -/
theorem filterMap_component?_survivors (program : Program) :
    program.survivors.filterMap Op.component? = program.components.list := by
  rw [survivors, List.filterMap_append, List.filterMap_map, List.filterMap_map]
  have hfiles : (Op.component? ∘ Op.setFile) = fun _ => none := rfl
  have hcomponents : (Op.component? ∘ Op.addComponent) = some := rfl
  rw [hfiles, hcomponents, List.filterMap_some]
  simp

/-- Making room for a component takes no script away. -/
theorem files_clearedFor (program : Program) (component : Component) :
    (program.clearedFor component).files = program.files := by
  unfold clearedFor
  split
  · exact files_dropScope _ _
  · rfl

/-- An operation that gives a script puts it under its key, and one that gives a component changes
no script. -/
theorem files_perform (program : Program) {op : Op} (hop : op.Gives) :
    (program.perform op).files =
      op.file?.elim program.files fun file => program.files.put file.key file := by
  cases op with
  | setFile file => rfl
  | addComponent component => exact files_clearedFor program component
  | removeFile | removeComponent | validate => simp [Op.Gives, Op.file?, Op.component?] at hop

/-- An operation that gives a component enters it under its key, and one that gives a script enters
none. -/
theorem components_perform (program : Program) {op : Op} (hop : op.Gives) :
    (program.perform op).components.byName =
      op.component?.elim program.components.byName fun component =>
        program.components.byName.put component.key component := by
  cases op with
  | setFile file => rfl
  | addComponent component => rfl
  | removeFile | removeComponent | validate => simp [Op.Gives, Op.file?, Op.component?] at hop

/-- What each operation puts into a part of a program, the operations together put there in
turn. -/
theorem foldl_of_perform {β γ : Type} (part : Program → β) (given : Op → Option γ)
    (put : β → γ → β)
    (hstep : ∀ (program : Program) {op : Op}, op.Gives →
      part (program.perform op) = (given op).elim (part program) (put (part program)))
    (program : Program) {ops : List Op} (hops : ∀ op ∈ ops, op.Gives) :
    part (program.performAll ops) = (ops.filterMap given).foldl put (part program) := by
  induction ops generalizing program with
  | nil => rfl
  | cons op rest ih =>
    have hrest := ih (program.perform op) fun other hmem =>
      hops other (List.mem_cons_of_mem op hmem)
    rw [performAll, List.foldl_cons, ← performAll, hrest,
      hstep program (hops op List.mem_cons_self), List.filterMap_cons]
    cases given op <;> rfl

/-- Dropping a scope leaves the settings. -/
theorem config_dropScope (program : Program) (key : String) :
    (program.dropScope key).config = program.config := by
  unfold dropScope
  split <;> rfl

/-- No operation changes the settings. -/
theorem config_perform (program : Program) (op : Op) :
    (program.perform op).config = program.config := by
  cases op with
  | setFile file => rfl
  | removeFile path =>
    rw [perform_removeFile]
    split <;> rfl
  | addComponent component =>
    rw [perform_addComponent]
    change (program.clearedFor component).config = _
    unfold clearedFor
    split
    · exact config_dropScope _ _
    · rfl
  | removeComponent xmlPath =>
    rw [perform_removeComponent]
    split
    · exact config_dropScope _ _
    · rfl
  | validate => exact config_validateIn _ _

/-- No history changes the settings. -/
theorem config_performAll (program : Program) (ops : List Op) :
    (program.performAll ops).config = program.config := by
  induction ops generalizing program with
  | nil => rfl
  | cons op rest ih => exact (ih (program.perform op)).trans (config_perform program op)

/-- Components that can stand together may be added in any order. -/
theorem allowsAll_of_pool {pool : List Component}
    (hoff : ∀ component ∈ pool, component.xmlKey ≠ sourceScope)
    (hapart : ∀ left ∈ pool, ∀ right ∈ pool, left.xmlKey = right.xmlKey → left = right)
    {program : Program} (hconsistent : program.Consistent)
    (hlist : ∀ component ∈ program.components.list, component ∈ pool) {ops : List Op}
    (hops : ∀ op ∈ ops, op.Gives)
    (hadded : ∀ component ∈ ops.filterMap Op.component?, component ∈ pool) :
    program.AllowsAll ops := by
  -- every component that is there or comes is of the pool, where files are told apart
  induction ops generalizing program with
  | nil => trivial
  | cons op rest ih =>
    have hrest : ∀ other ∈ rest, other.Gives := fun other hmem =>
      hops other (List.mem_cons_of_mem op hmem)
    cases op with
    | setFile file =>
      exact ⟨trivial, ih (hconsistent.perform trivial) hlist hrest hadded⟩
    | addComponent component =>
      have hpool : component ∈ pool := hadded component List.mem_cons_self
      have hadmits : program.components.Admits component := fun other hother hkey =>
        congrArg Component.key (hapart other (hlist other hother) component hpool hkey)
      have hallowed : program.Allows (.addComponent component) := ⟨hoff component hpool, hadmits⟩
      refine ⟨hallowed, ih (hconsistent.perform hallowed) (fun other hother => ?_) hrest
        fun other hother => hadded other (List.mem_cons_of_mem component hother)⟩
      rcases (Components.mem_list_add hconsistent.apart).mp hother with rfl | ⟨hold, -⟩
      · exact hpool
      · exact hlist other hold
    | removeFile | removeComponent | validate =>
      simpa [Op.Gives, Op.file?, Op.component?] using hops _ List.mem_cons_self

section Rebuild

variable {program : Program} (h : program.Consistent) {rebuild : List Op}
  (hrebuild : rebuild.Perm program.survivors)
include h hrebuild

/-- A new program may be given the scripts and components of a consistent one. -/
theorem Consistent.allowsAll_rebuild : (Program.new program.config).AllowsAll rebuild := by
  refine allowsAll_of_pool h.offSource h.apart.declared (.new _) (fun _ hmem => (nomatch hmem))
    (fun op hop => gives_of_mem_survivors (hrebuild.mem_iff.mp hop)) fun component hmem => ?_
  rw [← filterMap_component?_survivors]
  exact (hrebuild.filterMap Op.component?).mem_iff.mp hmem

/-- A new program that is given the scripts and components of a consistent one has its input. -/
theorem Consistent.sameInput_rebuild :
    SameInput program ((Program.new program.config).performAll rebuild) := by
  have hgives : ∀ op ∈ rebuild, op.Gives := fun op hop =>
    gives_of_mem_survivors (hrebuild.mem_iff.mp hop)
  have hfiles := hrebuild.filterMap Op.file?
  have hcomponents := hrebuild.filterMap Op.component?
  rw [filterMap_file?_survivors] at hfiles
  rw [filterMap_component?_survivors] at hcomponents
  refine ⟨(config_performAll (Program.new program.config) rebuild).symm, fun key => ?_,
    fun key => ?_⟩
  · rw [foldl_of_perform files Op.file? (fun files file => files.put file.key file)
      files_perform _ hgives]
    exact (Keyed.get?_foldl_put_values h.sound.files hfiles key).symm
  · rw [foldl_of_perform (fun program => program.components.byName) Op.component?
      (fun byName component => byName.put component.key component) components_perform _ hgives]
    exact (Keyed.get?_foldl_put_values h.apart.named hcomponents key).symm

end Rebuild

/-! ## Validation from scratch -/

/-- Validation changes nothing that it starts from. -/
theorem SameInput.validate {left right : Program} (h : SameInput left right) :
    SameInput left.validate right.validate := by
  have hvalidate : ∀ program : Program, program.validate = program.validateIn program.schedule :=
    fun _ => rfl
  rw [hvalidate left, hvalidate right]
  refine ⟨?_, fun key => ?_, fun key => ?_⟩
  · rw [config_validateIn, config_validateIn, h.config]
  · rw [files_validateIn, files_validateIn, h.files]
  · rw [components_validateIn, components_validateIn, h.components]

/-- After any operations that keep components apart, a validation leaves every scope validated, and
diagnostics are those of a new program that is given the scripts and components that are left, in
any order, and validated once. -/
theorem validate_eq_from_scratch (config : Config) (ops : List Op)
    (hallowed : (new config).AllowsAll ops) (rebuild : List Op)
    (hrebuild : rebuild.Perm ((new config).performAll ops).survivors) :
    (∀ scope ∈ ((new config).performAll ops).validate.scopes.values,
        ((new config).performAll ops).validate.isValidated scope.name = .ok true) ∧
      ((new config).performAll ops).validate.diagnostics =
        ((new config).performAll rebuild).validate.diagnostics ∧
      (∀ name, ((new config).performAll ops).validate.scopeDiagnostics name =
        ((new config).performAll rebuild).validate.scopeDiagnostics name) ∧
      ((new config).performAll ops).validate.hasErrors =
        ((new config).performAll rebuild).validate.hasErrors := by
  obtain ⟨hconsistent, hnow⟩ :=
    upToDate_performAll (.new config) (UpToDate.new config) hallowed
  have hagain := hconsistent.allowsAll_rebuild hrebuild
  have hinput := (hconsistent.sameInput_rebuild hrebuild).validate
  rw [config_performAll, show (new config).config = config from rfl] at hagain hinput
  -- both programs end settled on the same input, and that decides what is filed
  obtain ⟨hscratch, hscratchNow⟩ :=
    upToDate_performAll (.new config) (UpToDate.new config) hagain
  have hsettled := Settled.validate hconsistent hnow
  have hscratchSettled := Settled.validate hscratch hscratchNow
  have hfiled := hinput.filed_eq hsettled hscratchSettled
  refine ⟨fun scope hmem => hsettled.isValidated hmem, ?_, fun name => ?_, ?_⟩
  · rw [diagnostics, hfiled]
    rfl
  · rw [scopeDiagnostics_eq, scopeDiagnostics_eq, hfiled,
      hinput.scopeName hsettled.consistent hscratchSettled.consistent]
  · rw [hasErrors, hfiled]
    rfl

/-- In a settled program without filters, a problem of a file that some scope has is listed. -/
theorem Settled.exists_listed {program : Program} (h : program.Settled)
    (hfilters : program.config.filters = []) {bare : Scope} (hbare : bare ∈ program.bareScopes)
    {finding : Finding}
    (hfinding : finding ∈ (examine (program.chain (program.fill bare)) program.platform).findings)
    (hroute : finding.route = .perFile) :
    ∃ diagnostic ∈ program.diagnostics,
      diagnostic.perFileId = finding.diagnostic.perFileId := by
  have hnames : ∀ name found, program.findings.get? name = some found →
      found.scope.name = name := by
    intro name found hget
    obtain ⟨other, hother, rfl⟩ := h.upToDate.known name found hget
    rw [h.get?_findings hother] at hget
    rw [← Option.some.inj hget]
    exact (program.fill other).name_label
  obtain ⟨diagnostic, hlisted, hid, -⟩ := Program.exists_listed (h.upToDate.filed h.clean) hnames
    hfilters (h.get?_findings hbare) hfinding hroute
  exact ⟨diagnostic, hlisted, hid⟩

/-- A component that moves to another file after a validation. Its script, which the program has
too, calls missing subs. -/
def menuMoves : List Op :=
  [.setFile band, .addComponent ⟨"Menu", "menu.xml", .zero, none, [band.path]⟩, .validate,
    .addComponent ⟨"Menu", "m.xml", .zero, none, [band.path]⟩]

/-- The moves are allowed: no two components claim one file at a time. -/
theorem allowsAll_menuMoves : (new .usual).AllowsAll menuMoves := by
  refine ⟨trivial, ⟨by decide, fun other hmem => (nomatch hmem)⟩, trivial,
    ⟨by decide, fun other hmem _ => ?_⟩, trivial⟩
  rw [perform_validate, components_validateIn] at hmem
  rcases (Components.mem_list_add (Consistent.new .usual).apart).mp hmem with rfl | ⟨hold, -⟩
  · rfl
  · exact nomatch hold

/-- After the moves and a validation, the missing sub is listed. -/
theorem toot_listed_after_menuMoves :
    ∃ diagnostic ∈ ((new .usual).performAll menuMoves).validate.diagnostics,
      diagnostic.message = "Cannot find name 'toot'" ∧ diagnostic.range = .onLine 2 2 4 := by
  obtain ⟨hconsistent, hnow⟩ :=
    upToDate_performAll (.new .usual) (UpToDate.new .usual) allowsAll_menuMoves
  have hsettled := Settled.validate hconsistent hnow
  have hfiles : ((new .usual).performAll menuMoves).validate.files = withMenu.files :=
    (files_validateIn _ _).trans ((files_clearedFor _ _).trans (files_validateIn _ _))
  have hfilters : ((new .usual).performAll menuMoves).validate.config.filters = [] :=
    congrArg Config.filters ((config_validateIn _ _).trans (config_performAll _ _))
  generalize ((new .usual).performAll menuMoves).validate = program at *
  have hbare : Scope.ofProgram [] ∈ program.bareScopes := List.mem_cons_self
  have hband : band ∈ (program.fill (.ofProgram [])).files := by
    change band ∈ program.filesOf sourceScope
    rw [filesOf, if_pos rfl, hfiles]
    exact List.mem_cons_self
  obtain ⟨-, hfinding⟩ := hsettled.consistent.sound.tootFinding_mem
    (congrArg Keyed.values hfiles) hsettled.consistent.get?_source hband
  obtain ⟨diagnostic, hlisted, hid⟩ := hsettled.exists_listed hfilters hbare hfinding rfl
  exact ⟨diagnostic, hlisted, congrArg ProblemId.message hid, congrArg ProblemId.range hid⟩

/-- A component that was validated and then moved to another file is listed as if it had been there
from the start, with the missing name of the script that it shares with the program scope. -/
theorem menuMoves_from_scratch :
    (new .usual).AllowsAll menuMoves ∧
      ((new .usual).performAll menuMoves).validate.diagnostics =
        ((new .usual).performAll
          ((new .usual).performAll menuMoves).survivors.reverse).validate.diagnostics ∧
      ∃ diagnostic ∈ ((new .usual).performAll menuMoves).validate.diagnostics,
        diagnostic.message = "Cannot find name 'toot'" ∧ diagnostic.range = .onLine 2 2 4 :=
  ⟨allowsAll_menuMoves, (validate_eq_from_scratch .usual menuMoves allowsAll_menuMoves _
    (List.reverse_perm _)).2.1, toot_listed_after_menuMoves⟩

end Program

end ScopeCheck
