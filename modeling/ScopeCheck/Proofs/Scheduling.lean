import ScopeCheck.Proofs.AddedScript
import ScopeCheck.Proofs.Aggregation
import ScopeCheck.Proofs.Batches
import ScopeCheck.Proofs.Examination
import ScopeCheck.Proofs.Operations

/-!
# Scopes can be examined in any order

The examinations of a validation share tables and inventories, and each finds what it would find by
itself. So a validation notes the same findings whatever order its tasks are run in, and files the
same diagnostics (`validate_in_any_order`). Batches are one such order.
-/

namespace ScopeCheck

/-! ## Runs of tasks -/

/-- A run of tasks finds what each of them finds by itself. -/
theorem runTasks_of_serves {platform : Platform} {bench : Workbench} {scripts : List Script}
    {tasks : List Task} (hserves : bench.Serves scripts) (hnodup : (scripts.map Script.key).Nodup)
    (hfiles : ∀ task ∈ tasks, ∀ file ∈ task.chain.sortedFiles, file ∈ scripts) :
    runTasks platform bench tasks =
      tasks.map fun task => (task.key, examine task.chain platform) := by
  induction tasks generalizing bench with
  | nil => rfl
  | cons task rest ih =>
    obtain ⟨hfound, hlater⟩ :=
      examineOn_of_serves platform hserves hnodup (hfiles task List.mem_cons_self)
    have hrest := ih hlater fun other hmem => hfiles other (List.mem_cons_of_mem task hmem)
    rw [List.map_cons, ← hrest, ← hfound]
    rfl

namespace Program

section Tasks

variable {program : Program}

/-- The scopes to be validated are those that are not up to date. -/
theorem mem_dirty {key : String} :
    key ∈ program.dirty ↔ key ∈ program.scopes.keys ∧ key ∉ program.validated := by
  rw [dirty, (List.mergeSort_perm _ _).mem_iff, List.mem_filter]
  simp

/-- There is a task for each scope that is not up to date, with the chain of that scope. -/
theorem mem_tasks {task : Task} :
    task ∈ program.tasks ↔ ∃ scope, program.scopes.get? task.key = some scope ∧
      task.key ∉ program.validated ∧ task.chain = program.chain scope := by
  rw [tasks, List.mem_filterMap]
  constructor
  · rintro ⟨key, hkey, htask⟩
    obtain ⟨scope, hscope, rfl⟩ := Option.map_eq_some_iff.mp htask
    exact ⟨scope, hscope, (mem_dirty.mp hkey).2, rfl⟩
  · rintro ⟨scope, hscope, hdirty, hchain⟩
    refine ⟨task.key, mem_dirty.mpr ⟨?_, hdirty⟩, ?_⟩
    · rw [Keyed.mem_keys_iff, hscope]
      rfl
    · rw [hscope, Option.map_some, ← hchain]

/-- Tasks are keyed by their scopes, in the same order. -/
theorem map_key_tasks (program : Program) : program.tasks.map Task.key = program.dirty := by
  have hall : ∀ keys : List String, (∀ key ∈ keys, key ∈ program.scopes.keys) →
      (keys.filterMap fun key => (program.scopes.get? key).map fun scope =>
        (⟨key, program.chain scope⟩ : Task)).map Task.key = keys := by
    intro keys
    induction keys with
    | nil => exact fun _ => rfl
    | cons key rest ih =>
      intro hkeys
      obtain ⟨scope, hscope⟩ := Option.isSome_iff_exists.mp
        (Keyed.mem_keys_iff.mp (hkeys key List.mem_cons_self))
      rw [List.filterMap_cons, hscope]
      exact congrArg (key :: ·) (ih fun other hmem => hkeys other (List.mem_cons_of_mem key hmem))
  exact hall _ fun key hmem => (mem_dirty.mp hmem).1

/-- No scope has two tasks. -/
theorem nodup_key_tasks (program : Program) : (program.tasks.map Task.key).Nodup := by
  rw [map_key_tasks, dirty, (List.mergeSort_perm _ _).nodup_iff]
  exact program.scopes.nodup.filter _

/-- The schedule runs every task once, in parallel or not. -/
theorem schedule_perm (program : Program) : program.schedule.Perm program.tasks := by
  unfold schedule
  split
  · exact flatten_disjointBatches_perm program.tasks
  · exact List.Perm.refl _

end Tasks

/-! ## What a validation leaves -/

/-- Keys that are noted one after the other, each unless it is there, are all noted. -/
theorem mem_foldl_validated (key : String) (keys validated : List String) :
    key ∈ keys.foldl (fun validated key =>
        if validated.contains key then validated else validated ++ [key]) validated ↔
      key ∈ validated ∨ key ∈ keys := by
  induction keys generalizing validated with
  | nil => simp
  | cons other rest ih =>
    rw [List.foldl_cons, ih]
    split
    · rename_i hknown
      rw [List.contains_iff_mem] at hknown
      rw [List.mem_cons]
      constructor
      · exact fun hor => hor.imp_right Or.inr
      · rintro (hold | rfl | hrest)
        · exact Or.inl hold
        · exact Or.inl hknown
        · exact Or.inr hrest
    · rw [List.mem_append, List.mem_singleton, List.mem_cons, or_assoc]

namespace Sound

variable {program : Program} (h : program.Sound)
include h

/-- No two scripts of the program have one key. -/
theorem nodup_key_values : (program.files.values.map Script.key).Nodup := by
  rw [Keyed.map_values_eq_keys h.files]
  exact program.files.nodup

/-- A chain has scripts of the program only. -/
theorem mem_values_of_mem_chain {key : String} {scope : Scope}
    (hscope : program.scopes.get? key = some scope) {file : Script}
    (hmem : file ∈ (program.chain scope).sortedFiles) : file ∈ program.files.values := by
  obtain ⟨other, hother, hfile⟩ := ScopeChain.mem_of_mem_sortedFiles hmem
  rcases List.mem_cons.mp hother with rfl | habove
  · exact h.owned key _ hscope file hfile
  · unfold chain ancestors at habove
    split at habove
    · cases habove
    · obtain ⟨parent, -, hparent⟩ := List.mem_filterMap.mp habove
      exact h.owned _ other hparent file hfile

/-- Run in any order on the shared workbench, each task finds what an examination on its own does.
-/
theorem runTasks_eq {order : List Task} (hperm : order.Perm program.tasks) :
    runTasks program.platform (.ofScripts program.files.values) order =
      order.map fun task => (task.key, examine task.chain program.platform) := by
  refine runTasks_of_serves (Workbench.serves_ofScripts _) h.nodup_key_values ?_
  intro task htask file hfile
  obtain ⟨scope, hscope, -, hchain⟩ := mem_tasks.mp (hperm.mem_iff.mp htask)
  rw [hchain] at hfile
  exact h.mem_values_of_mem_chain hscope hfile

/-- A task is keyed by the lower case of the name of its scope. -/
theorem lower_name_of_mem_tasks {task : Task} (htask : task ∈ program.tasks) :
    Text.lower task.chain.scope.name = task.key := by
  obtain ⟨scope, hscope, -, hchain⟩ := mem_tasks.mp htask
  rw [hchain]
  exact h.scopes task.key scope hscope

/-- The tasks of a validation are of scopes with different names. -/
theorem nodup_name_tasks : (program.tasks.map fun task => task.chain.scope.name).Nodup := by
  refine List.Nodup.of_map Text.lower ?_
  have hkeys : (program.tasks.map fun task => task.chain.scope.name).map Text.lower =
      program.tasks.map Task.key := by
    rw [List.map_map]
    exact List.map_congr_left fun task htask => h.lower_name_of_mem_tasks htask
  rw [hkeys]
  exact nodup_key_tasks program

/-- The findings after a validation, in whatever order the tasks are run. -/
theorem get?_findings_validateIn {order : List Task} (hperm : order.Perm program.tasks)
    (name : String) :
    (program.validateIn order).findings.get? name =
      (program.tasks.foldl (fun findings task => findings.put task.chain.scope.name
        (examine task.chain program.platform)) program.findings).get? name := by
  rw [validateIn_eq]
  split
  · rename_i hclean
    have hnone : program.tasks = [] := by
      rw [← List.map_eq_nil_iff, map_key_tasks]
      exact List.isEmpty_iff.mp hclean
    rw [hnone]
    rfl
  · have hnames : (order.map fun task => task.chain.scope.name).Nodup :=
      (hperm.map _).nodup_iff.mpr h.nodup_name_tasks
    rw [← Keyed.get?_foldl_put_perm _ _ hperm hnames]
    have hscope : ∀ task : Task,
        (examine task.chain program.platform).scope.name = task.chain.scope.name :=
      fun task => task.chain.scope.name_label
    simp only [aggregate, h.runTasks_eq hperm, List.foldl_map, hscope]

section Findings

variable {order : List Task} (hperm : order.Perm program.tasks)
include hperm

/-- What is known of a scope after it has been examined. -/
theorem get?_findings_of_mem_tasks {task : Task} (htask : task ∈ program.tasks) :
    (program.validateIn order).findings.get? task.chain.scope.name =
      some (examine task.chain program.platform) := by
  rw [h.get?_findings_validateIn hperm, Keyed.get?_foldl_put]
  have hmem : task ∈ program.tasks.filter fun other =>
      other.chain.scope.name = task.chain.scope.name :=
    List.mem_filter.mpr ⟨htask, decide_eq_true rfl⟩
  obtain ⟨last, hlast⟩ := Option.isSome_iff_exists.mp
    (List.getLast?_isSome.mpr (List.ne_nil_of_mem hmem))
  obtain ⟨hlastMem, hname⟩ := List.mem_filter.mp (List.mem_of_getLast? hlast)
  have hsame : last = task :=
    List.inj_on_of_nodup_map h.nodup_name_tasks hlastMem htask (of_decide_eq_true hname)
  rw [hlast, hsame]
  rfl

/-- What is known of other scopes does not change. -/
theorem get?_findings_of_forall_ne {name : String}
    (hnames : ∀ task ∈ program.tasks, task.chain.scope.name ≠ name) :
    (program.validateIn order).findings.get? name = program.findings.get? name := by
  have hnone : (program.tasks.filter fun task => task.chain.scope.name = name) = [] := by
    rw [List.filter_eq_nil_iff]
    exact fun task htask heq => hnames task htask (of_decide_eq_true heq)
  rw [h.get?_findings_validateIn hperm, Keyed.get?_foldl_put, hnone]
  rfl

/-- If what was known stands under the names of its scopes, so does what is known after a
validation. -/
theorem name_of_get?_findings
    (hnames : ∀ name found, program.findings.get? name = some found → found.scope.name = name)
    {name : String} {found : ScopeFindings}
    (hget : (program.validateIn order).findings.get? name = some found) :
    found.scope.name = name := by
  by_cases hnew : ∃ task ∈ program.tasks, task.chain.scope.name = name
  · obtain ⟨task, htask, rfl⟩ := hnew
    rw [h.get?_findings_of_mem_tasks hperm htask] at hget
    rw [← Option.some.inj hget]
    exact task.chain.scope.name_label
  · rw [h.get?_findings_of_forall_ne hperm fun task htask heq => hnew ⟨task, htask, heq⟩] at hget
    exact hnames name found hget

end Findings

/-- After a validation all scopes are validated. -/
theorem mem_validated_validateIn {order : List Task} (hperm : order.Perm program.tasks)
    {key : String} :
    key ∈ (program.validateIn order).validated ↔
      key ∈ program.validated ∨ key ∈ program.scopes.keys := by
  have hdirty : key ∈ program.validated ∨ key ∈ program.dirty ↔
      key ∈ program.validated ∨ key ∈ program.scopes.keys := by
    rw [mem_dirty]
    tauto
  rw [validateIn_eq, ← hdirty]
  split
  · rename_i hclean
    rw [List.isEmpty_iff.mp hclean]
    simp
  · have hkeys : (runTasks program.platform (.ofScripts program.files.values) order).map Prod.fst =
        order.map Task.key := by
      rw [h.runTasks_eq hperm, List.map_map]
      rfl
    have hmem := mem_foldl_validated key (order.map Task.key) program.validated
    rw [← hkeys, List.foldl_map, hkeys, (hperm.map Task.key).mem_iff, map_key_tasks] at hmem
    exact hmem

end Sound

/-- Validation leaves the settings. -/
theorem config_validateIn (program : Program) (order : List Task) :
    (program.validateIn order).config = program.config := by
  rw [validateIn_eq]
  split <;> rfl

/-- What is filed is the aggregation of all findings, once anything has been validated. -/
theorem filed_validateIn (program : Program) (order : List Task) :
    (program.validateIn order).filed =
      if program.dirty.isEmpty then program.filed
      else (Cycle.empty.aggregate (program.validateIn order).findings).1.mapValues
        program.config.apply := by
  rw [validateIn_eq]
  split <;> rfl

/-- Two programs have the same scopes, of which the same are validated, and the same has been found
in them and is filed for them. -/
structure SameOutcome (left right : Program) : Prop where
  /-- The scopes are the same. -/
  scopes : left.scopes = right.scopes
  /-- Under each scope name the same has been found. -/
  findings : ∀ name, left.findings.get? name = right.findings.get? name
  /-- The same scopes are validated. -/
  validated : ∀ key, key ∈ left.validated ↔ key ∈ right.validated
  /-- The same diagnostics are filed under each scope name. -/
  filed : left.filed = right.filed
  /-- The same diagnostics are listed. -/
  diagnostics : left.diagnostics = right.diagnostics

/-- All orders in which the tasks of a validation are run lead to the same. -/
theorem Sound.sameOutcome {program : Program} (h : program.Sound) {left right : List Task}
    (hleft : left.Perm program.tasks) (hright : right.Perm program.tasks) :
    (program.validateIn left).SameOutcome (program.validateIn right) := by
  have hfindings : ∀ name, (program.validateIn left).findings.get? name =
      (program.validateIn right).findings.get? name := by
    intro name
    rw [h.get?_findings_validateIn hleft, h.get?_findings_validateIn hright]
  have hfiled : (program.validateIn left).filed = (program.validateIn right).filed := by
    rw [filed_validateIn, filed_validateIn, Cycle.aggregate_congr Cycle.empty hfindings]
  refine ⟨?_, hfindings, fun key => ?_, hfiled, ?_⟩
  · rw [scopes_validateIn, scopes_validateIn]
  · rw [h.mem_validated_validateIn hleft, h.mem_validated_validateIn hright]
  · rw [diagnostics, diagnostics, hfiled]

/-- The program with scopes examined in batches or not. -/
def withParallel (program : Program) (parallel : Bool) : Program :=
  { program with config := { program.config with parallel } }

/-- The setting for parallel runs changes the order of the tasks and nothing else. -/
theorem validate_withParallel (program : Program) (parallel : Bool) :
    (program.withParallel parallel).validate =
      (program.validateIn (program.withParallel parallel).schedule).withParallel parallel := by
  have hdirty : (program.withParallel parallel).dirty = program.dirty := rfl
  change (program.withParallel parallel).validateIn _ = _
  rw [validateIn_eq, validateIn_eq, hdirty]
  split <;> rfl

/-- Whatever operations a program has been through, its validation leads to the same in every order
in which the scopes that are not validated may be examined, and in batches as without them. -/
theorem validate_in_any_order (config : Config) (ops : List Op) :
    (∀ order, order.Perm ((new config).performAll ops).tasks →
        (((new config).performAll ops).validateIn order).SameOutcome
          ((new config).performAll ops).validate) ∧
      (((new config).performAll ops).withParallel true).validate.SameOutcome
        (((new config).performAll ops).withParallel false).validate := by
  have hsound := (Sound.new config).performAll ops
  generalize (new config).performAll ops = program at hsound
  refine ⟨fun order hperm => hsound.sameOutcome hperm (schedule_perm program), ?_⟩
  have hbatched : (program.withParallel true).schedule.Perm program.tasks :=
    schedule_perm (program.withParallel true)
  have hplain : (program.withParallel false).schedule.Perm program.tasks :=
    schedule_perm (program.withParallel false)
  have hsame := hsound.sameOutcome hbatched hplain
  rw [validate_withParallel, validate_withParallel]
  exact ⟨hsame.scopes, hsame.findings, hsame.validated, hsame.filed, hsame.diagnostics⟩

/-! ## A script of two scopes -/

/-- What a scope has found of a file is listed, with an entry for each scope that has found it, if
the findings of the program are filed under the names of their scopes and no filter is set. -/
theorem exists_listed {program : Program}
    (hfiled : program.filed =
      (Cycle.empty.aggregate program.findings).1.mapValues program.config.apply)
    (hnames : ∀ name found, program.findings.get? name = some found → found.scope.name = name)
    (hfilters : program.config.filters = []) {name : String} {found : ScopeFindings}
    (hget : program.findings.get? name = some found) {finding : Finding}
    (hfinding : finding ∈ found.findings) (hroute : finding.route = .perFile) :
    ∃ diagnostic ∈ program.diagnostics,
      diagnostic.perFileId = finding.diagnostic.perFileId ∧
      ∀ other again, program.findings.get? other = some again →
        (∃ report ∈ again.findings, report.id = finding.id) →
        ∃ entry ∈ diagnostic.related, entry.message = "Not defined in scope '" ++ other ++ "'" := by
  obtain ⟨diagnostic, hshown, hid, hentries⟩ := Cycle.exists_shown hnames hget hfinding hroute
  obtain ⟨list, hlist, hmem⟩ := List.mem_flatten.mp hshown
  have hkept : program.config.regrade diagnostic ∈ program.config.apply list := by
    refine List.mem_map_of_mem (List.mem_filter.mpr ⟨hmem, ?_⟩)
    rw [Config.drops, hfilters]
    rfl
  have hlisted : program.config.regrade diagnostic ∈ program.diagnostics := by
    rw [diagnostics, Diagnostic.sort, List.mem_mergeSort, hfiled, Keyed.values_mapValues]
    exact List.mem_flatten.mpr ⟨_, List.mem_map_of_mem hlist, hkept⟩
  have hregrade : (program.config.regrade diagnostic).perFileId = diagnostic.perFileId ∧
      (program.config.regrade diagnostic).related = diagnostic.related := by
    unfold Config.regrade
    split <;> exact ⟨rfl, rfl⟩
  refine ⟨_, hlisted, hregrade.1.trans hid, ?_⟩
  rw [hregrade.2]
  exact hentries

/-- The finding that a sub is missing which a script calls. -/
def tootFinding : Finding := .of (.cannotFindName "toot" none) band.path (.onLine 2 2 4)

/-- Every scope with the script misses the sub, if the program has no other script. -/
theorem Sound.tootFinding_mem {program : Program} (h : program.Sound)
    (hvalues : program.files.values = [band]) {key : String} {scope : Scope}
    (hscope : program.scopes.get? key = some scope) (hband : band ∈ scope.files) :
    band ∈ (program.chain scope).sortedFiles ∧
      tootFinding ∈ (examine (program.chain scope) program.platform).findings := by
  have honly : ∀ file ∈ (program.chain scope).sortedFiles, file = band := by
    intro file hfile
    have hmem := h.mem_values_of_mem_chain hscope hfile
    rw [hvalues] at hmem
    exact List.mem_singleton.mp hmem
  have hsorted : band ∈ (program.chain scope).sortedFiles := by
    have hkey : band.key ∈ (program.chain scope).allFiles.map Script.key := by
      rw [ScopeChain.allFiles_eq, mem_map_firstBy]
      exact List.mem_map_of_mem (List.mem_append_left _ hband)
    obtain ⟨file, hfile, -⟩ := List.mem_map.mp hkey
    have hlisted := (program.chain scope).perm_sortedFiles.mem_iff.mpr hfile
    exact honly file hlisted ▸ hlisted
  exact ⟨hsorted, toot_reported (fun file hfile => Or.inl (honly file hfile)) hsorted _⟩

/-- A program whose scope and that of a component have one script, which calls missing subs. -/
def withMenu : Program :=
  (new .usual).performAll
    [.setFile band, .addComponent ⟨"Menu", "menu.xml", .zero, none, [band.path]⟩]

/-- The names of the scopes. -/
def menuNames : List String := ["menu.xml", "source"]

/-- Scripts and scopes of the program stand under their keys. -/
theorem sound_withMenu : withMenu.Sound := (Sound.new .usual).performAll _

/-- Both scopes are to be examined, have the script and miss the sub. -/
theorem tasks_withMenu {name : String} (hname : name ∈ menuNames) :
    ∃ task ∈ withMenu.tasks, task.chain.scope.name = name ∧ band ∈ task.chain.sortedFiles ∧
      tootFinding ∈ (examine task.chain withMenu.platform).findings := by
  have hscopes : ∃ scope, withMenu.scopes.get? name = some scope ∧ scope.name = name ∧
      band ∈ scope.files := by
    simp only [menuNames, List.mem_cons, List.not_mem_nil, or_false] at hname
    rcases hname with rfl | rfl
    · exact ⟨.ofComponent "Menu" "menu.xml" .zero [band] none, rfl, rfl, List.mem_cons_self⟩
    · exact ⟨.ofProgram [band], rfl, rfl, List.mem_cons_self⟩
  obtain ⟨scope, hscope, hlabel, hband⟩ := hscopes
  exact ⟨⟨name, withMenu.chain scope⟩, mem_tasks.mpr ⟨scope, hscope, List.not_mem_nil, rfl⟩,
    hlabel, sound_withMenu.tootFinding_mem rfl hscope hband⟩

/-- There is something to validate. -/
theorem dirty_withMenu : ¬ withMenu.dirty.isEmpty := by
  intro hempty
  obtain ⟨task, htask, -⟩ := tasks_withMenu (show "source" ∈ menuNames by decide)
  have hkey := List.mem_map_of_mem (f := Task.key) htask
  rw [map_key_tasks, List.isEmpty_iff.mp hempty] at hkey
  cases hkey

/-- Examined one after the other in either order, both scopes miss the sub, which is listed once,
with an entry for each of them. -/
theorem withMenu_validated_backwards :
    withMenu.tasks.reverse.Perm withMenu.tasks ∧
      (withMenu.validateIn withMenu.tasks.reverse).SameOutcome withMenu.validate ∧
      (∀ name ∈ menuNames, ∃ task ∈ withMenu.tasks, task.chain.scope.name = name ∧
        band ∈ task.chain.sortedFiles ∧
        tootFinding ∈ (examine task.chain withMenu.platform).findings) ∧
      ∃ diagnostic ∈ withMenu.validate.diagnostics,
        diagnostic ∈ (withMenu.validateIn withMenu.tasks.reverse).diagnostics ∧
        diagnostic.message = "Cannot find name 'toot'" ∧ diagnostic.range = .onLine 2 2 4 ∧
        ∀ name ∈ menuNames,
          ∃ entry ∈ diagnostic.related,
            entry.message = "Not defined in scope '" ++ name ++ "'" := by
  have hperm := List.reverse_perm withMenu.tasks
  have hsame := (validate_in_any_order .usual _).1 _ hperm
  have hfindings : ∀ name ∈ menuNames, ∃ found,
      (withMenu.validateIn withMenu.tasks.reverse).findings.get? name = some found ∧
        tootFinding ∈ found.findings := by
    intro name hname
    obtain ⟨task, htask, rfl, -, hfound⟩ := tasks_withMenu hname
    exact ⟨_, sound_withMenu.get?_findings_of_mem_tasks hperm htask, hfound⟩
  have hnames : ∀ name found, withMenu.findings.get? name = some found →
      found.scope.name = name := by
    intro name found hknown
    rw [show withMenu.findings = .empty from rfl, Keyed.get?_empty] at hknown
    cases hknown
  have hfiled := filed_validateIn withMenu withMenu.tasks.reverse
  rw [if_neg dirty_withMenu, ← config_validateIn withMenu withMenu.tasks.reverse] at hfiled
  obtain ⟨found, hget, hfinding⟩ := hfindings "source" (by decide)
  obtain ⟨diagnostic, hlisted, hid, hentries⟩ := exists_listed hfiled
    (fun _ _ => sound_withMenu.name_of_get?_findings hperm hnames)
    (by rw [config_validateIn]; rfl) hget hfinding rfl
  refine ⟨hperm, hsame, fun _ => tasks_withMenu, diagnostic, hsame.diagnostics ▸ hlisted, hlisted,
    congrArg ProblemId.message hid, congrArg ProblemId.range hid, fun name hname => ?_⟩
  obtain ⟨other, hother, hagain⟩ := hfindings name hname
  exact hentries name other hother ⟨tootFinding, hagain, rfl⟩

end Program

end ScopeCheck
