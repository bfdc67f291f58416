import ScopeCheck.Proofs.Consistency
import ScopeCheck.Proofs.Scheduling

/-!
# What a program knows of its scopes is up to date

Every operation marks as unvalidated all scopes of which an examination could now find something
else. `UpToDate` says what is left: of a scope that is validated, the program has the findings that
an examination would make now, and if all scopes are validated, the diagnostics of these findings
are filed. Every operation keeps it (`UpToDate.perform`).

The delicate case is a change of a script. A scope stays validated if its chain has no script of
that key before and after the change; then its chain is the same before and after
(`Consistent.chain_withFiles`).
-/

namespace ScopeCheck

namespace Program

/-- What is known of scopes and of no others is what an examination would find now. -/
structure UpToDate (program : Program) : Prop where
  /-- Findings are kept for scopes of the program only. -/
  known : ∀ name found, program.findings.get? name = some found →
    ∃ bare ∈ program.bareScopes, bare.name = name
  /-- The findings of validated scopes are those of an examination now. -/
  examined : ∀ key ∈ program.validated, ∀ scope, program.scopes.get? key = some scope →
    program.findings.get? scope.name = some (examine (program.chain scope) program.platform)
  /-- If all scopes are validated, the diagnostics are those of the findings. -/
  filed : program.dirty = [] → program.filed =
    (Cycle.empty.aggregate program.findings).1.mapValues program.config.apply

/-! ## Scripts that a scope does not have -/

section Absent

variable {program : Program} {files : Keyed String Script} {gone : String}

/-- Scripts of other keys decide what belongs to a scope that has no script of a key. -/
theorem filter_entries_of_absent {map : Keyed String Script} (chosen : String → Bool)
    (hkeyed : ∀ key file, map.get? key = some file → file.key = key)
    (habsent : ∀ file ∈ (map.entries.filter fun entry => chosen entry.1).map Prod.snd,
      file.key ≠ gone) :
    (map.entries.filter fun entry => chosen entry.1) =
      (map.erase gone).entries.filter fun entry => chosen entry.1 := by
  rw [Keyed.erase, List.filter_filter]
  refine List.filter_congr fun entry hentry => ?_
  by_cases hchosen : chosen entry.1 = true
  · have hkey : entry.1 ≠ gone := by
      have hfile := habsent entry.2
        (List.mem_map_of_mem (List.mem_filter.mpr ⟨hentry, hchosen⟩))
      rwa [hkeyed entry.1 entry.2 (Keyed.get?_eq_some_iff.mpr hentry)] at hfile
    simp [hkey]
  · simp [hchosen]

/-- A scope that does not have the changed script before or after has the same files. -/
theorem filesOf_withFiles (hsound : program.Sound)
    (hfiles : ∀ key file, files.get? key = some file → file.key = key)
    (herase : files.erase gone = program.files.erase gone) {name : String}
    (hbefore : ∀ file ∈ program.filesOf name, file.key ≠ gone)
    (hafter : ∀ file ∈ (program.withFiles files).filesOf name, file.key ≠ gone) :
    (program.withFiles files).filesOf name = program.filesOf name := by
  have hother : ∀ key, key ≠ gone → files.get? key = program.files.get? key := by
    intro key hne
    have hget := congrArg (·.get? key) herase
    simpa only [Keyed.get?_erase, if_neg hne] using hget
  change ({ program with files } : Program).filesOf name = program.filesOf name
  change ∀ file ∈ ({ program with files } : Program).filesOf name, file.key ≠ gone at hafter
  unfold filesOf at hbefore hafter ⊢
  split
  -- the program scope takes the scripts of a folder in the order of the map
  · rename_i hsource
    rw [if_pos hsource] at hbefore hafter
    have hleft := filter_entries_of_absent (fun key => sourceFolder.toList.isPrefixOf key.toList)
      hfiles hafter
    have hright := filter_entries_of_absent (fun key => sourceFolder.toList.isPrefixOf key.toList)
      hsound.files hbefore
    rw [herase] at hleft
    exact congrArg (List.map Prod.snd) (hleft.trans hright.symm)
  · rename_i hsource
    rw [if_neg hsource] at hbefore hafter
    cases hdeclared : program.components.declaredIn? name with
    | none => rfl
    | some component =>
      simp only [hdeclared] at hbefore hafter ⊢
      refine List.filterMap_congr fun script hscript => ?_
      -- a listed script with the changed path would be among the files, before or after
      by_cases hkey : pathKey script = gone
      · have hnone : ∀ map : Keyed String Script,
            (∀ key file, map.get? key = some file → file.key = key) →
            (∀ file ∈ component.scripts.filterMap fun script => map.get? (pathKey script),
              file.key ≠ gone) → map.get? (pathKey script) = none := by
          intro map hkeyed habsent
          rw [Option.eq_none_iff_forall_ne_some]
          intro file hget
          exact habsent file (List.mem_filterMap.mpr ⟨script, hscript, hget⟩)
            ((hkeyed _ file hget).trans hkey)
        rw [hnone files hfiles hafter, hnone program.files hsound.files hbefore]
      · exact hother _ hkey

/-- A change of scripts refills the scopes above a scope and leaves which they are. -/
theorem ancestors_withFiles (program : Program) (files : Keyed String Script) (scope : Scope) :
    (program.withFiles files).ancestors ((program.withFiles files).fill scope) =
      (program.ancestors scope).map (program.withFiles files).fill := by
  have hsame : (program.withFiles files).components.declaredIn?
      ((program.withFiles files).fill scope).name =
        program.components.declaredIn? scope.name := rfl
  cases hdeclared : program.components.declaredIn? scope.name with
  | none =>
    rw [ancestors_of_none (hsame.trans hdeclared), ancestors_of_none hdeclared, List.map_nil]
  | some component =>
    rw [ancestors_of_some (hsame.trans hdeclared), ancestors_of_some hdeclared,
      List.map_filterMap]
    refine List.filterMap_congr fun parent _ => ?_
    exact get?_scopes_refresh { program with files } _

/-- A key that no script of a chain has is that of no script of its scopes. -/
theorem absent_of_absent_chain {chain : ScopeChain}
    (habsent : ∀ file ∈ chain.allFiles, file.key ≠ gone) {scope : Scope}
    (hscope : scope ∈ chain.scope :: chain.ancestors) :
    ∀ file ∈ scope.files, file.key ≠ gone := by
  intro file hfile hkey
  have hmem : gone ∈ ((chain.scope :: chain.ancestors).flatMap Scope.files).map Script.key :=
    List.mem_map.mpr ⟨file, List.mem_flatMap.mpr ⟨scope, hscope, hfile⟩, hkey⟩
  rw [← mem_map_firstBy Script.key, ← ScopeChain.allFiles_eq] at hmem
  obtain ⟨kept, hkept, hkeptKey⟩ := List.mem_map.mp hmem
  exact habsent kept hkept hkeptKey

/-- The scopes of a chain have the scripts that belong to them. -/
theorem Consistent.files_of_mem_chain (h : program.Consistent) {key : String} {scope : Scope}
    (hscope : program.scopes.get? key = some scope) {other : Scope}
    (hother : other ∈ scope :: program.ancestors scope) :
    other.files = program.filesOf other.name := by
  have hget : ∃ key, program.scopes.get? key = some other := by
    rcases List.mem_cons.mp hother with rfl | habove
    · exact ⟨key, hscope⟩
    · unfold ancestors at habove
      split at habove
      · cases habove
      · obtain ⟨parent, -, hparent⟩ := List.mem_filterMap.mp habove
        exact ⟨_, hparent⟩
  obtain ⟨key, hget⟩ := hget
  obtain ⟨bare, -, -, rfl⟩ := (h.scopes key other).mp hget
  rfl

/-- A chain that has no script of a key, before and after a change of the script of this key, does
not change. -/
theorem Consistent.chain_withFiles (h : program.Consistent)
    (hfiles : ∀ key file, files.get? key = some file → file.key = key)
    (herase : files.erase gone = program.files.erase gone) {key : String} {scope : Scope}
    (hscope : program.scopes.get? key = some scope)
    (hbefore : ∀ file ∈ (program.chain scope).allFiles, file.key ≠ gone)
    (hafter : ∀ file ∈ ((program.withFiles files).chain
      ((program.withFiles files).fill scope)).allFiles, file.key ≠ gone) :
    (program.withFiles files).chain ((program.withFiles files).fill scope) =
      program.chain scope := by
  have hfill : ∀ other ∈ scope :: program.ancestors scope,
      (program.withFiles files).fill other = other := by
    intro other hother
    have hown := h.files_of_mem_chain hscope hother
    have hchanged : (program.withFiles files).fill other ∈
        ((program.withFiles files).chain ((program.withFiles files).fill scope)).scope ::
          ((program.withFiles files).chain ((program.withFiles files).fill scope)).ancestors := by
      change _ ∈ (program.withFiles files).fill scope ::
        (program.withFiles files).ancestors ((program.withFiles files).fill scope)
      rw [ancestors_withFiles, ← List.map_cons]
      exact List.mem_map_of_mem hother
    have hbeforeHere : ∀ file ∈ program.filesOf other.name, file.key ≠ gone := by
      rw [← hown]
      exact absent_of_absent_chain hbefore hother
    have hafterHere : ∀ file ∈ (program.withFiles files).filesOf other.name, file.key ≠ gone :=
      absent_of_absent_chain hafter hchanged
    rw [fill, filesOf_withFiles h.sound hfiles herase hbeforeHere hafterHere, ← hown]
  have hancestors : (program.ancestors scope).map (program.withFiles files).fill =
      program.ancestors scope := by
    rw [List.map_congr_left fun other hother => hfill other (List.mem_cons_of_mem scope hother),
      List.map_id']
  rw [chain, ancestors_withFiles, hancestors, hfill scope List.mem_cons_self, chain]

end Absent

/-! ## Scripts -/

/-- The scopes that a script concerns are those whose chain has one of its key. -/
theorem Sound.mem_scopesWith {program : Program} (h : program.Sound) {fileKey key : String} :
    key ∈ program.scopesWith fileKey ↔ ∃ scope, program.scopes.get? key = some scope ∧
      ∃ file ∈ (program.chain scope).allFiles, file.key = fileKey := by
  rw [scopesWith, List.mem_map]
  simp only [List.mem_filter, List.any_eq_true, decide_eq_true_eq]
  constructor
  · rintro ⟨scope, ⟨hscope, hfile⟩, rfl⟩
    obtain ⟨key, hget⟩ := Keyed.mem_values_iff.mp hscope
    rw [h.scopes key scope hget]
    exact ⟨scope, hget, hfile⟩
  · rintro ⟨scope, hget, hfile⟩
    exact ⟨scope, ⟨Keyed.mem_values_iff.mpr ⟨key, hget⟩, hfile⟩, h.scopes key scope hget⟩

/-- A scope that is not listed with a script does not have it, nor has any scope above it. -/
theorem Sound.absent_of_not_mem {program : Program} (h : program.Sound) {fileKey key : String}
    (hnot : key ∉ program.scopesWith fileKey) {scope : Scope}
    (hscope : program.scopes.get? key = some scope) :
    ∀ file ∈ (program.chain scope).allFiles, file.key ≠ fileKey := by
  rw [h.mem_scopesWith] at hnot
  exact fun file hfile hkey => hnot ⟨scope, hscope, file, hfile, hkey⟩

/-- Nothing is to be validated exactly if all scopes are up to date. -/
theorem dirty_eq_nil {program : Program} :
    program.dirty = [] ↔ ∀ key ∈ program.scopes.keys, key ∈ program.validated := by
  rw [List.eq_nil_iff_forall_not_mem]
  simp only [mem_dirty, not_and, not_not]

namespace UpToDate

variable {program : Program}

/-- A change of the script of one key keeps the program up to date if it marks the scopes that the
script concerns, before and after. -/
theorem withFiles (h : program.UpToDate) (hconsistent : program.Consistent)
    {files : Keyed String Script}
    (hfiles : ∀ key file, files.get? key = some file → file.key = key) {gone : String}
    (herase : files.erase gone = program.files.erase gone) {keys : List String}
    (hbefore : ∀ key ∉ keys, key ∉ program.scopesWith gone)
    (hafter : ∀ key ∉ keys, key ∉ (program.withFiles files).scopesWith gone) :
    ((program.withFiles files).invalidate keys).UpToDate where
  known := h.known
  examined key hkey scope hscope := by
    have hlater := hconsistent.withFiles hfiles
    obtain ⟨hvalidated, hnot⟩ := List.mem_filter.mp hkey
    rw [Bool.not_eq_true', ← Bool.not_eq_true, List.contains_iff_mem] at hnot
    have hget : ({ program with files } : Program).refresh.scopes.get? key = some scope := hscope
    rw [get?_scopes_refresh, Option.map_eq_some_iff] at hget
    obtain ⟨before, hold, rfl⟩ := hget
    -- a scope that stays up to date had no such script before and has none now, so its chain is the
    -- same
    have hchain := hconsistent.chain_withFiles hfiles herase hold
      (hconsistent.sound.absent_of_not_mem (hbefore key hnot) hold)
      (hlater.sound.absent_of_not_mem (hafter key hnot) hscope)
    change program.findings.get? before.name = some (examine
      ((program.withFiles files).chain ((program.withFiles files).fill before)) program.platform)
    rw [hchain]
    exact h.examined key hvalidated before hold
  filed hdirty := by
    refine h.filed (dirty_eq_nil.mpr fun key hkey => ?_)
    have hmem : key ∈ (program.withFiles files).scopes.keys := by
      have hget : ({ program with files } : Program).refresh.scopes.get? key = _ :=
        get?_scopes_refresh _ key
      rw [Keyed.mem_keys_iff] at hkey ⊢
      rw [Program.withFiles, hget, Option.isSome_map]
      exact hkey
    exact (List.mem_filter.mp (dirty_eq_nil.mp hdirty key hmem)).1

/-- Setting a script leaves up to date only scopes that did not and do not have it. -/
theorem setFile (h : program.UpToDate) (hconsistent : program.Consistent) (file : Script) :
    (program.perform (.setFile file)).UpToDate := by
  have herase : (program.files.put file.key file).erase file.key =
      program.files.erase file.key := by
    refine Keyed.ext_get? ?_ fun key => ?_
    · rw [Keyed.keys_erase, Keyed.keys_erase, Keyed.keys_put]
      split <;> simp
    · rw [Keyed.get?_erase, Keyed.get?_erase, Keyed.get?_put]
      split <;> rfl
  rw [perform_setFile]
  refine h.withFiles hconsistent (hconsistent.sound.get?_put_file file) herase ?_ ?_
  · exact fun key hnot hmem => hnot (List.mem_append_left _ hmem)
  · exact fun key hnot hmem => hnot (List.mem_append_right _ hmem)

/-- Removing a script leaves up to date only scopes that did not have it. -/
theorem removeFile (h : program.UpToDate) (hconsistent : program.Consistent) (path : String) :
    (program.perform (.removeFile path)).UpToDate := by
  have hfiles := hconsistent.sound.get?_erase_file (pathKey path)
  have herase : (program.files.erase (pathKey path)).erase (pathKey path) =
      program.files.erase (pathKey path) := by
    refine Keyed.ext_get? ?_ fun key => ?_
    · simp [Keyed.keys_erase]
    · rw [Keyed.get?_erase, Keyed.get?_erase]
      split <;> rfl
  rw [perform_removeFile]
  split
  · refine h.withFiles hconsistent hfiles herase (fun key hnot => hnot) fun key _ hmem => ?_
    -- No scope can have the script any more.
    have hlater := (hconsistent.withFiles hfiles).sound
    obtain ⟨scope, hscope, file, hfile, hkey⟩ := hlater.mem_scopesWith.mp hmem
    have hsorted := (ScopeChain.perm_sortedFiles _).mem_iff.mpr hfile
    obtain ⟨key', hget⟩ := Keyed.mem_values_iff.mp
      (hlater.mem_values_of_mem_chain hscope hsorted)
    have hown := hlater.files key' file hget
    rw [← hown, hkey] at hget
    have herased : (program.files.erase (pathKey path)).get? (pathKey path) = some file := hget
    rw [Keyed.get?_erase, if_pos rfl] at herased
    cases herased
  · exact h

/-! ## Components -/

/-- With a scope its findings are dropped, and no others. -/
theorem findings_dropScope {key : String} {scope : Scope}
    (hscope : program.scopes.get? key = some scope) :
    (program.dropScope key).findings = program.findings.erase scope.name := by
  simp only [dropScope, hscope]

/-- Without validated scopes, findings of scopes of the program are all there is to keep. -/
theorem of_known (hconsistent : program.Consistent)
    (hknown : ∀ name found, program.findings.get? name = some found →
      ∃ bare ∈ program.bareScopes, bare.name = name) : program.invalidateAll.UpToDate where
  known := hknown
  examined _ hkey := nomatch hkey
  filed hdirty := by
    have hsource : sourceScope ∈ program.invalidateAll.scopes.keys := by
      rw [Keyed.mem_keys_iff]
      exact Option.isSome_iff_exists.mpr ⟨_, hconsistent.get?_source⟩
    exact nomatch dirty_eq_nil.mp hdirty sourceScope hsource

/-- Clearing the way for a component removes the findings of the component of the same name. -/
theorem get?_findings_clearedFor (hconsistent : program.Consistent) {component : Component}
    {name : String} {found : ScopeFindings}
    (hget : (program.clearedFor component).findings.get? name = some found) :
    program.findings.get? name = some found ∧ ∀ previous ∈ program.components.list,
      previous.key = component.key → name ≠ previous.xmlPath := by
  unfold clearedFor at hget
  split at hget
  · rename_i previous hprevious
    have hmem : previous ∈ program.components.list := Components.mem_list.mpr ⟨_, hprevious⟩
    rw [findings_dropScope (hconsistent.get?_component hmem), Keyed.get?_erase] at hget
    split at hget
    · cases hget
    · rename_i hne
      refine ⟨hget, fun other hother hsame => ?_⟩
      have hother := hconsistent.apart.get?_of_mem hother
      have hprevious : program.components.byName.get? component.key = some previous := hprevious
      rw [hsame, hprevious] at hother
      rw [← Option.some.inj hother]
      exact hne
  · rename_i hnone
    refine ⟨hget, fun previous hmem hkey => ?_⟩
    have hnone : program.components.byName.get? component.key = none := hnone
    rw [← hkey, hconsistent.apart.get?_of_mem hmem] at hnone
    cases hnone

/-- Adding a component drops the findings of the scope it replaces, and all scopes are to be
validated again. -/
theorem addComponent (h : program.UpToDate) (hconsistent : program.Consistent)
    {component : Component} (hoff : component.xmlKey ≠ sourceScope)
    (hadmits : program.components.Admits component) :
    (program.perform (.addComponent component)).UpToDate := by
  rw [perform_addComponent]
  refine of_known (hconsistent.refresh_withComponent hoff hadmits) fun name found hget => ?_
  obtain ⟨hold, hfree⟩ := get?_findings_clearedFor hconsistent hget
  obtain ⟨bare, hbare, rfl⟩ := h.known name found hold
  refine ⟨bare, mem_bareScopes.mpr ?_, rfl⟩
  rcases mem_bareScopes.mp hbare with rfl | ⟨other, hother, rfl⟩
  · exact Or.inl rfl
  · refine Or.inr ⟨other, (Components.mem_list_add hconsistent.apart).mpr ?_, rfl⟩
    exact Or.inr ⟨hother, fun hsame => hfree other hother hsame rfl⟩

/-- Removing a component drops the findings of its scope, and all scopes are to be validated again.
-/
theorem removeComponent (h : program.UpToDate) (hconsistent : program.Consistent)
    (xmlPath : String) : (program.perform (.removeComponent xmlPath)).UpToDate := by
  rw [perform_removeComponent]
  split
  · rename_i component hdeclared
    have hmem := (Components.of_declaredIn? hdeclared).1
    have hscope : (program.withoutComponent xmlPath).scopes.get? (Text.lower component.xmlPath) =
        some (program.fill (componentScope component)) := hconsistent.get?_component hmem
    refine of_known (hconsistent.removeComponent hdeclared) fun name found hget => ?_
    rw [findings_dropScope hscope, Keyed.get?_erase] at hget
    split at hget
    · cases hget
    · rename_i hne
      obtain ⟨bare, hbare, rfl⟩ := h.known name found hget
      refine ⟨bare, mem_bareScopes.mpr ?_, rfl⟩
      rw [components_dropScope]
      rcases mem_bareScopes.mp hbare with rfl | ⟨other, hother, rfl⟩
      · exact Or.inl rfl
      · refine Or.inr ⟨other, ?_, rfl⟩
        refine (Components.mem_list_removeDeclaredIn hconsistent.apart hdeclared).mpr ⟨hother, ?_⟩
        rintro rfl
        exact hne rfl
  · exact h

end UpToDate

/-! ## Validation -/

/-- Validation leaves the chains of scopes. -/
theorem chain_validateIn (program : Program) (order : List Task) (scope : Scope) :
    (program.validateIn order).chain scope = program.chain scope := by
  unfold chain ancestors
  rw [components_validateIn, scopes_validateIn]

/-- Validation leaves the platform, as it leaves the components. -/
theorem platform_validateIn (program : Program) (order : List Task) :
    (program.validateIn order).platform = program.platform := by
  unfold platform
  rw [components_validateIn]

namespace UpToDate

variable {program : Program}

/-- After a validation, all scopes are known as an examination now would find them. -/
theorem validateIn (h : program.UpToDate) (hconsistent : program.Consistent) {order : List Task}
    (hperm : order.Perm program.tasks) : (program.validateIn order).UpToDate := by
  have hsound := hconsistent.sound
  by_cases hdirty : program.dirty = []
  · rw [validateIn_eq, if_pos (List.isEmpty_iff.mpr hdirty)]
    exact h
  refine ⟨fun name found hget => ?_, fun key hkey scope hscope => ?_, fun _ => ?_⟩
  · rw [bareScopes, components_validateIn]
    by_cases hnew : ∃ task ∈ program.tasks, task.chain.scope.name = name
    · obtain ⟨task, htask, rfl⟩ := hnew
      obtain ⟨scope, hscope, -, hchain⟩ := mem_tasks.mp htask
      obtain ⟨bare, hbare, -, rfl⟩ := (hconsistent.scopes task.key scope).mp hscope
      refine ⟨bare, hbare, ?_⟩
      rw [hchain]
      rfl
    · rw [hsound.get?_findings_of_forall_ne hperm fun task htask heq =>
        hnew ⟨task, htask, heq⟩] at hget
      exact h.known name found hget
  -- a scope that was up to date has no task, so its findings are kept; any other gets them from its
  -- task
  · rw [scopes_validateIn] at hscope
    rw [chain_validateIn, platform_validateIn]
    by_cases hvalidated : key ∈ program.validated
    · have hnames : ∀ task ∈ program.tasks, task.chain.scope.name ≠ scope.name := by
        intro task htask hname
        obtain ⟨-, -, hnot, -⟩ := mem_tasks.mp htask
        have htaskKey := hsound.lower_name_of_mem_tasks htask
        have hscopeKey : Text.lower scope.name = key := hsound.scopes key scope hscope
        rw [hname, hscopeKey] at htaskKey
        exact hnot (htaskKey ▸ hvalidated)
      rw [hsound.get?_findings_of_forall_ne hperm hnames]
      exact h.examined key hvalidated scope hscope
    · have htask : (⟨key, program.chain scope⟩ : Task) ∈ program.tasks :=
        mem_tasks.mpr ⟨scope, hscope, hvalidated, rfl⟩
      exact hsound.get?_findings_of_mem_tasks hperm htask
  · rw [filed_validateIn, if_neg (mt List.isEmpty_iff.mp hdirty), config_validateIn]

/-- Every operation that is allowed leaves what is known true. -/
theorem perform (h : program.UpToDate) (hconsistent : program.Consistent) {op : Op}
    (hallowed : program.Allows op) : (program.perform op).UpToDate := by
  cases op with
  | setFile file => exact h.setFile hconsistent file
  | removeFile path => exact h.removeFile hconsistent path
  | addComponent component => exact h.addComponent hconsistent hallowed.1 hallowed.2
  | removeComponent xmlPath => exact h.removeComponent hconsistent xmlPath
  | validate => exact h.validateIn hconsistent (schedule_perm program)

/-- A new program knows nothing. -/
theorem new (config : Config) : (Program.new config).UpToDate :=
  of_known (Consistent.new config) fun _ _ hget => (nomatch hget)

end UpToDate

/-- A program that only went through allowed operations is consistent and up to date. -/
theorem upToDate_performAll {program : Program} (hconsistent : program.Consistent)
    (h : program.UpToDate) {ops : List Op} (hallowed : program.AllowsAll ops) :
    (program.performAll ops).Consistent ∧ (program.performAll ops).UpToDate := by
  induction ops generalizing program with
  | nil => exact ⟨hconsistent, h⟩
  | cons op rest ih =>
    exact ih (hconsistent.perform hallowed.1) (h.perform hconsistent hallowed.1) hallowed.2

end Program

end ScopeCheck
