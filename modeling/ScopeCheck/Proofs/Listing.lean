import Mathlib.Data.List.Flatten
import Mathlib.Data.List.Nodup
import ScopeCheck.Proofs.Aggregation
import ScopeCheck.Proofs.Operations
import ScopeCheck.Proofs.Routes
import ScopeCheck.Proofs.TextOrder

/-!
# The listing of a program ascends strictly

Diagnostics are listed by file, place, number and wording. Two of them compare equal exactly if they
are the same problem of the same file (`Diagnostic.listingOrder_eq_iff`). What is filed for the
scopes of a program has each problem of a file once: two findings of one route are told apart by the
cycle, and two of different routes by their numbers (`Cycle.nodup_aggregate`). So, whatever
operations a program has been through, its listing ascends strictly, and no other order of the
scopes would change it (`Program.diagnostics_ascend`).
-/

namespace ScopeCheck

/-! ## The order of listing -/

namespace Diagnostic

instance : Std.TransCmp listingOrder :=
  inferInstanceAs (Std.TransCmp (compareLex (compareOn fileKey)
    (compareLex (compareOn range) (compareLex (compareOn code) (compareOn message)))))

/-- Two diagnostics compare equal exactly if they are the same problem of the same file. -/
theorem listingOrder_eq_iff {left right : Diagnostic} :
    left.listingOrder right = .eq ↔ left.fileProblem = right.fileProblem := by
  simp only [listingOrder, compareLex_eq_eq, compareOn, Std.LawfulEqCmp.compare_eq_iff_eq,
    fileProblem, FileProblem.mk.injEq, key_eq_iff]
  constructor
  · rintro ⟨hfile, hrange, hcode, hmessage⟩
    exact ⟨hfile, hcode, hmessage, hrange⟩
  · rintro ⟨hfile, hcode, hmessage, hrange⟩
    exact ⟨hfile, hrange, hcode, hmessage⟩

/-- The order of listing is transitive. -/
theorem listedBefore_trans (a b c : Diagnostic) (hab : a.listedBefore b) (hbc : b.listedBefore c) :
    a.listedBefore c :=
  Std.TransCmp.isLE_trans hab hbc

/-- Any two diagnostics can be listed in one order or the other. -/
theorem listedBefore_total (a b : Diagnostic) : (a.listedBefore b || b.listedBefore a) = true := by
  have hswap : listingOrder b a = (listingOrder a b).swap := Std.OrientedCmp.eq_swap
  unfold listedBefore
  rw [hswap]
  cases listingOrder a b <;> rfl

/-- Different problems ascend strictly once they are sorted. -/
theorem pairwise_sort {list : List Diagnostic} (hnodup : (list.map fileProblem).Nodup) :
    (sort list).Pairwise fun left right => left.listingOrder right = .lt := by
  have hsorted := List.pairwise_mergeSort listedBefore_trans listedBefore_total list
  have hdiffer : (sort list).Pairwise fun left right => left.fileProblem ≠ right.fileProblem := by
    have hperm := (List.mergeSort_perm list listedBefore).map fileProblem
    exact List.pairwise_map.mp (hperm.nodup_iff.mpr hnodup)
  refine (hsorted.and hdiffer).imp fun {left right} h => ?_
  obtain ⟨hle, hne⟩ := h
  unfold listedBefore at hle
  cases horder : listingOrder left right with
  | lt => rfl
  | eq => exact absurd (listingOrder_eq_iff.mp horder) hne
  | gt => rw [horder] at hle; cases hle

/-- Of different problems, the listing does not depend on the order they are given in. -/
theorem sort_eq_of_perm {left right : List Diagnostic} (hnodup : (right.map fileProblem).Nodup)
    (hperm : left.Perm right) : sort left = sort right := by
  have hleft := pairwise_sort ((hperm.map fileProblem).nodup_iff.mpr hnodup)
  have hsorted : (sort left).Perm (sort right) :=
    (List.mergeSort_perm left _).trans (hperm.trans (List.mergeSort_perm right _).symm)
  refine hsorted.eq_of_pairwise (fun a b _ _ hab hba => ?_) hleft (pairwise_sort hnodup)
  have hswap : listingOrder b a = (listingOrder a b).swap := Std.OrientedCmp.eq_swap
  rw [hswap, hab] at hba
  cases hba

end Diagnostic

/-! ## What is filed -/

/-- Settings change neither the place of a problem nor its number or wording. -/
theorem Config.fileProblem_regrade (config : Config) (diagnostic : Diagnostic) :
    (config.regrade diagnostic).fileProblem = diagnostic.fileProblem := by
  unfold regrade
  split <;> rfl

/-- Settings leave some of the problems that are filed. -/
theorem Config.map_fileProblem_apply (config : Config) (diagnostics : List Diagnostic) :
    ((config.apply diagnostics).map Diagnostic.fileProblem).Sublist
      (diagnostics.map Diagnostic.fileProblem) := by
  have hproblem : Diagnostic.fileProblem ∘ config.regrade = Diagnostic.fileProblem :=
    funext config.fileProblem_regrade
  rw [apply, List.map_map, hproblem]
  exact List.filter_sublist.map _

namespace Cycle

/-- Two catalogued findings that show the same problem of a file are about one problem: their common
number tells that they are listed in one way. -/
theorem id_eq_of_fileProblem_eq {left right : Finding} (hleft : left.Catalogued)
    (hright : right.Catalogued)
    (hproblem : left.diagnostic.fileProblem = right.diagnostic.fileProblem) :
    left.id = right.id := by
  have hkey : left.diagnostic.key = right.diagnostic.key := congrArg FileProblem.problem hproblem
  have hroute := hleft.route_eq hright (Diagnostic.key_eq_iff.mp hkey).1
  unfold Finding.id
  rw [hroute]
  cases right.route with
  | once => exact Diagnostic.onceId_eq_iff.mpr hkey
  | perFile => exact Diagnostic.perFileId_eq_iff.mpr hproblem

/-- Filings of catalogued findings are about different problems of files. -/
theorem nodup_filingsOf {reports : List ScopeReport}
    (hall : ∀ report ∈ reports, report.finding.Catalogued) :
    ((filingsOf reports).map fun filing => filing.finding.diagnostic.fileProblem).Nodup := by
  have hids : (filingsOf reports).Pairwise fun left right => left.id ≠ right.id :=
    List.pairwise_map.mp (nodup_map_firstBy ScopeReport.id reports)
  have hmem : ∀ filing ∈ filingsOf reports, filing.finding.Catalogued :=
    fun filing hfiling => hall filing ((firstBy_sublist ScopeReport.id reports).subset hfiling)
  refine List.pairwise_map.mpr (hids.imp_of_mem fun {left right} hleft hright hne => ?_)
  exact fun hproblem => hne (id_eq_of_fileProblem_eq (hmem left hleft) (hmem right hright) hproblem)

/-- What a fresh cycle files for scopes with catalogued findings has each problem of a file once. -/
theorem nodup_aggregate {perScope : Keyed String ScopeFindings}
    (hall : ∀ found ∈ perScope.values, AllCatalogued found.findings) :
    ((empty.aggregate perScope).1.values.flatten.map Diagnostic.fileProblem).Nodup := by
  have hreports : ∀ report ∈ reportsIn perScope, report.finding.Catalogued := by
    intro report hreport
    obtain ⟨found, hfound, hown⟩ := List.mem_flatMap.mp hreport
    obtain ⟨finding, hfinding, rfl⟩ := List.mem_map.mp hown
    refine hall found ?_ finding hfinding
    exact ((List.mergeSort_perm _ _).map Prod.snd).mem_iff.mp hfound
  have hvalues : (empty.aggregate perScope).1.values =
      (empty.aggregate perScope).1.keys.map fun name =>
        ((filingsOf (reportsIn perScope)).filter fun filing => filing.name = name).map
          (ScopeReport.shown (marksOf (reportsIn perScope))) := by
    refine Keyed.values_eq_map_keys fun name list hlist => ?_
    rw [show (empty : Cycle) = run [] from rfl, get?_aggregate_run, Option.map_eq_some_iff] at hlist
    obtain ⟨-, -, rfl⟩ := hlist
    rfl
  have hshown : (empty.aggregate perScope).1.values.flatten.map Diagnostic.fileProblem =
      ((empty.aggregate perScope).1.keys.flatMap fun name =>
        (filingsOf (reportsIn perScope)).filter fun filing => filing.name = name).map fun filing =>
          filing.finding.diagnostic.fileProblem := by
    rw [hvalues, List.flatMap_def, List.map_flatten, List.map_flatten, List.map_map, List.map_map]
    simp only [Function.comp_def, List.map_map]
    rfl
  -- filings differ by problem, and each stands under one name
  have hdiffer := nodup_filingsOf hreports
  have hfilings : ((empty.aggregate perScope).1.keys.flatMap fun name =>
      (filingsOf (reportsIn perScope)).filter fun filing => filing.name = name).Nodup := by
    refine List.nodup_flatMap.mpr ⟨fun name _ => (List.Nodup.of_map _ hdiffer).filter _, ?_⟩
    refine (empty.aggregate perScope).1.nodup.imp fun {left right} hne filing hleft hright => ?_
    have hname := of_decide_eq_true (List.mem_filter.mp hleft).2
    exact hne (hname.symm.trans (of_decide_eq_true (List.mem_filter.mp hright).2))
  rw [hshown]
  refine List.Nodup.map_on (fun left hleft right hright hproblem => ?_) hfilings
  obtain ⟨_, _, hleft⟩ := List.mem_flatMap.mp hleft
  obtain ⟨_, _, hright⟩ := List.mem_flatMap.mp hright
  exact List.inj_on_of_nodup_map hdiffer (List.mem_filter.mp hleft).1 (List.mem_filter.mp hright).1
    hproblem

end Cycle

/-! ## Programs -/

/-- Whatever tasks are run, their findings are in the catalogue. -/
theorem runTasks_catalogued (platform : Platform) (bench : Workbench) (tasks : List Task) :
    ∀ result ∈ runTasks platform bench tasks, AllCatalogued result.2.findings := by
  induction tasks generalizing bench with
  | nil => exact fun _ hmem => nomatch hmem
  | cons task rest ih =>
    exact List.forall_mem_cons.mpr ⟨examineOn_catalogued task.chain platform bench, ih _⟩

namespace Program

/-- What is known of the scopes of a program is catalogued, and no problem of a file is filed
twice. -/
structure Unrepeated (program : Program) : Prop where
  /-- What has been found is listed in the way of its number. -/
  findings : ∀ found ∈ program.findings.values, AllCatalogued found.findings
  /-- The problems that are filed, whatever scope they are filed for, are different. -/
  filed : (program.filed.values.flatten.map Diagnostic.fileProblem).Nodup

namespace Unrepeated

variable {program : Program}

/-- A new program has found and filed nothing. -/
theorem new (config : Config) : (Program.new config).Unrepeated where
  findings _ hmem := nomatch hmem
  filed := List.nodup_nil

/-- Dropping a scope files nothing. -/
theorem dropScope (h : program.Unrepeated) (key : String) : (program.dropScope key).Unrepeated := by
  unfold Program.dropScope
  split
  · exact h
  · rename_i scope _
    have hfound : (program.findings.erase scope.name).values.Sublist program.findings.values :=
      List.filter_sublist.map Prod.snd
    have hfiled : (program.filed.erase scope.name).values.Sublist program.filed.values :=
      List.filter_sublist.map Prod.snd
    exact ⟨fun found hmem => h.findings found (hfound.subset hmem),
      h.filed.sublist (hfiled.flatten.map _)⟩

/-- Filing anew files no problem twice. -/
theorem aggregate
    (hfindings : ∀ found ∈ program.findings.values, AllCatalogued found.findings) :
    program.aggregate.Unrepeated := by
  refine ⟨hfindings, (Cycle.nodup_aggregate hfindings).sublist ?_⟩
  have hvalues : program.aggregate.filed.values =
      (Cycle.empty.aggregate program.findings).1.values.map program.config.apply := by
    simp only [Program.aggregate, Keyed.mapValues, Keyed.values, List.map_map]
    rfl
  rw [hvalues]
  induction (Cycle.empty.aggregate program.findings).1.values with
  | nil => exact List.Sublist.refl _
  | cons list rest ih =>
    simp only [List.map_cons, List.flatten_cons, List.map_append]
    exact (program.config.map_fileProblem_apply list).append ih

/-- A validation files each problem of a file once. -/
theorem validateIn (h : program.Unrepeated) (order : List Task) :
    (program.validateIn order).Unrepeated := by
  rw [validateIn_eq]
  split
  · exact h
  · refine aggregate fun found hmem => ?_
    obtain ⟨name, hget⟩ := Keyed.mem_values_iff.mp hmem
    have hput := Keyed.get?_foldl_put (fun result : String × ScopeFindings => result.2.scope.name)
      Prod.snd (runTasks program.platform (.ofScripts program.files.values) order) program.findings
      name
    rcases Option.or_eq_some_iff.mp (hput.symm.trans hget) with hnew | ⟨-, hold⟩
    · obtain ⟨result, hlast, rfl⟩ := Option.map_eq_some_iff.mp hnew
      have hresult := (List.mem_filter.mp (List.mem_of_getLast? hlast)).1
      exact runTasks_catalogued _ _ order result hresult
    · exact h.findings found (Keyed.mem_values_iff.mpr ⟨name, hold⟩)

/-- Every operation keeps the diagnostics of a program different. -/
theorem perform (h : program.Unrepeated) (op : Op) : (program.perform op).Unrepeated := by
  cases op with
  | setFile file => exact ⟨h.findings, h.filed⟩
  | removeFile path =>
    rw [perform_removeFile]
    split
    · exact ⟨h.findings, h.filed⟩
    · exact h
  | addComponent component =>
    have hcleared : (program.clearedFor component).Unrepeated := by
      unfold clearedFor
      split
      · exact h.dropScope _
      · exact h
    exact ⟨hcleared.findings, hcleared.filed⟩
  | removeComponent xmlPath =>
    rw [perform_removeComponent]
    split
    · rename_i component _
      have hwithout : (program.withoutComponent xmlPath).Unrepeated := ⟨h.findings, h.filed⟩
      have hdropped := hwithout.dropScope (Text.lower component.xmlPath)
      exact ⟨hdropped.findings, hdropped.filed⟩
    · exact h
  | validate => exact h.validateIn program.schedule

/-- After any history no problem is filed twice for a file. -/
theorem performAll (h : program.Unrepeated) (ops : List Op) :
    (program.performAll ops).Unrepeated := by
  induction ops generalizing program with
  | nil => exact h
  | cons op rest ih => exact ih (h.perform op)

end Unrepeated

/-- Whatever operations a program has been through and whatever its settings are, the diagnostics
that it lists are those that are filed for its scopes; they ascend strictly by file, place, number
and wording; no two of them are the same problem of the same file; and they are listed alike in
whatever order the scopes give them. -/
theorem diagnostics_ascend (config : Config) (ops : List Op) :
    let program := (Program.new config).performAll ops
    program.diagnostics.Perm program.filed.values.flatten ∧
      (program.diagnostics.Pairwise fun left right => left.listingOrder right = .lt) ∧
      (program.diagnostics.map Diagnostic.fileProblem).Nodup ∧
      ∀ list, list.Perm program.filed.values.flatten →
        Diagnostic.sort list = program.diagnostics := by
  intro program
  have hfiled : (program.filed.values.flatten.map Diagnostic.fileProblem).Nodup :=
    ((Unrepeated.new config).performAll ops).filed
  have hperm : program.diagnostics.Perm program.filed.values.flatten := List.mergeSort_perm _ _
  exact ⟨hperm, Diagnostic.pairwise_sort hfiled,
    (hperm.map Diagnostic.fileProblem).nodup_iff.mpr hfiled,
    fun list hlist => Diagnostic.sort_eq_of_perm hfiled hlist⟩

end Program

end ScopeCheck
