import ScopeCheck.Proofs.Filing
import ScopeCheck.Proofs.TextOrder

/-!
# What an aggregation shows

An aggregation takes in the findings of scopes in the order of their names, so what it shows depends
on the findings of each scope alone (`aggregate_files_under_least_reporter`): a problem is filed
with the least name that reports it, and marked by all that report it in ascending order. Taking in
the same findings once more changes nothing, since everything has been reported by everyone.
-/

namespace ScopeCheck

/-- The findings of a scope as it reports them. -/
def ScopeFindings.reports (found : ScopeFindings) : List ScopeReport :=
  found.findings.map fun finding => ⟨found.scope, finding⟩

/-- The first report that a scope makes of a problem. -/
def ScopeFindings.firstReport? (found : ScopeFindings) (id : ProblemId) : Option ScopeReport :=
  found.reports.find? fun report => report.id = id

namespace Cycle

/-- The findings of scopes in the order of their names. -/
def inOrder (perScope : Keyed String ScopeFindings) : List ScopeFindings :=
  (perScope.sorted textAtOrBefore).values

/-- The reports of scopes in the order of their names. -/
def reportsIn (perScope : Keyed String ScopeFindings) : List ScopeReport :=
  (inOrder perScope).flatMap ScopeFindings.reports

/-- The first report of a problem by each scope that reports it, in the order of their names. -/
def reportersIn (perScope : Keyed String ScopeFindings) (id : ProblemId) : List ScopeReport :=
  (inOrder perScope).filterMap fun found => found.firstReport? id

/-- What is filed under a name. -/
def filedUnder (perScope : Keyed String ScopeFindings) (name : String) : List ScopeReport :=
  (filingsOf (reportsIn perScope)).filter fun filing => filing.name = name

/-- What is shown of a filing: what is listed once as it was reported, what is listed once for each
file with the marks of all scopes that report it. -/
def shownIn (perScope : Keyed String ScopeFindings) (filing : ScopeReport) : Diagnostic :=
  match filing.finding.route with
  | .once => filing.finding.diagnostic
  | .perFile =>
    { filing.finding.diagnostic with
      related := filing.finding.diagnostic.related ++
        (reportersIn perScope filing.id).map ScopeReport.mark }

/-- What is shown of a filing, with the entries that are added to it written out. -/
theorem shownIn_eq (perScope : Keyed String ScopeFindings) (filing : ScopeReport) :
    shownIn perScope filing =
      { filing.finding.diagnostic with
        related := filing.finding.diagnostic.related ++
          if filing.finding.route = .once then []
          else (reportersIn perScope filing.id).map fun reporter =>
            ⟨"Not defined in scope '" ++ reporter.scope.name ++ "'",
              reporter.scope.declaration.getD
                ⟨reporter.finding.diagnostic.file, reporter.finding.diagnostic.range⟩⟩ } := by
  unfold shownIn
  cases hroute : filing.finding.route with
  | once => rw [if_pos rfl, List.append_nil]
  | perFile => rfl

/-! ## An aggregation as calls -/

/-- The calls that an aggregation makes. -/
def aggregateCalls (perScope : Keyed String ScopeFindings) : List Call :=
  ((inOrder perScope).map fun found => .register found.scope) ++
    (inOrder perScope).flatMap fun found => found.findings.map (.add found.scope)

/-- The reports of calls in a row are those of the first and those of the others. -/
theorem reportsOf_append (calls more : List Call) :
    reportsOf (calls ++ more) = reportsOf calls ++ reportsOf more :=
  List.filterMap_append

/-- Registering reports nothing, so the reports of an aggregation are those of its scopes in order.
-/
theorem reportsOf_aggregateCalls (perScope : Keyed String ScopeFindings) :
    reportsOf (aggregateCalls perScope) = reportsIn perScope := by
  have hregister : reportsOf ((inOrder perScope).map fun found => .register found.scope) = [] := by
    rw [reportsOf, List.filterMap_eq_nil_iff]
    intro call hmem
    obtain ⟨found, -, rfl⟩ := List.mem_map.mp hmem
    rfl
  rw [aggregateCalls, reportsOf_append, hregister, List.nil_append, reportsOf,
    List.filterMap_flatMap, reportsIn]
  refine List.flatMap_congr fun found _ => ?_
  rw [List.filterMap_map, ScopeFindings.reports, ← List.filterMap_eq_map]
  rfl

/-- An aggregation leaves the cycle as its calls leave it. -/
theorem aggregate_snd (calls : List Call) (perScope : Keyed String ScopeFindings) :
    ((run calls).aggregate perScope).2 = run (calls ++ aggregateCalls perScope) := by
  simp only [aggregate, run, aggregateCalls, List.foldl_append, List.foldl_map, List.foldl_flatMap]
  rfl

/-- An aggregation has a list for each scope, in the order of their names. -/
theorem keys_aggregate (cycle : Cycle) (perScope : Keyed String ScopeFindings) :
    (cycle.aggregate perScope).1.keys = (perScope.sorted textAtOrBefore).keys :=
  Keyed.keys_mapEntries _ _

/-- The list of a scope is what the cycle has filed under its name. -/
theorem get?_aggregate (cycle : Cycle) (perScope : Keyed String ScopeFindings) (name : String) :
    (cycle.aggregate perScope).1.get? name =
      (perScope.get? name).map fun _ => (cycle.aggregate perScope).2.listOf name := by
  rw [← Keyed.get?_sorted perScope textAtOrBefore]
  exact Keyed.get?_mapEntries _ _ _

/-- The scopes with a list are those with findings, even if they have found nothing. -/
theorem mem_keys_aggregate {cycle : Cycle} {perScope : Keyed String ScopeFindings} {name : String} :
    name ∈ (cycle.aggregate perScope).1.keys ↔ name ∈ perScope.keys := by
  rw [keys_aggregate, Keyed.mem_keys_iff, Keyed.get?_sorted, Keyed.mem_keys_iff]

/-- The findings of the same scopes, put in any order, are shown alike. -/
theorem aggregate_congr (cycle : Cycle) {left right : Keyed String ScopeFindings}
    (hget : ∀ name, left.get? name = right.get? name) :
    cycle.aggregate left = cycle.aggregate right := by
  unfold aggregate
  rw [Keyed.sorted_text_congr hget]

/-! ## Reporters -/

/-- The reports of a scope carry its name. -/
theorem name_of_mem_reports {found : ScopeFindings} {report : ScopeReport}
    (hmem : report ∈ found.reports) : report.name = found.scope.name := by
  obtain ⟨finding, -, rfl⟩ := List.mem_map.mp hmem
  rfl

/-- So does the first one of a problem. -/
theorem name_of_firstReport? {found : ScopeFindings} {id : ProblemId} {report : ScopeReport}
    (hfirst : found.firstReport? id = some report) : report.name = found.scope.name :=
  name_of_mem_reports (List.mem_of_find?_eq_some hfirst)

/-- Of scopes with different names, the first reports by name are the first report of each. -/
theorem firstBy_name_reports {founds : List ScopeFindings}
    (hnodup : (founds.map fun found => found.scope.name).Nodup) (id : ProblemId) :
    firstBy ScopeReport.name
      ((founds.flatMap ScopeFindings.reports).filter fun report => report.id = id) =
        founds.filterMap fun found => found.firstReport? id := by
  induction founds with
  | nil => rfl
  | cons found rest ih =>
    rw [List.map_cons, List.nodup_cons] at hnodup
    have hown : firstBy ScopeReport.name (found.reports.filter fun report => report.id = id) =
        (found.firstReport? id).toList := by
      have hname : ∀ report ∈ found.reports.filter fun report => report.id = id,
          report.name = found.scope.name :=
        fun report hmem => name_of_mem_reports (List.mem_filter.mp hmem).1
      rw [firstBy_of_const ScopeReport.name hname, List.head?_filter, ScopeFindings.firstReport?]
    -- no other scope has the name, so the reports of this one take none away
    have hothers : ((rest.filterMap fun other => other.firstReport? id).filter fun report =>
        report.name ∉ (found.reports.filter fun report => report.id = id).map ScopeReport.name) =
        rest.filterMap fun other => other.firstReport? id := by
      rw [List.filter_eq_self]
      intro report hmem
      obtain ⟨other, hother, hfirst⟩ := List.mem_filterMap.mp hmem
      rw [decide_eq_true_iff, List.mem_map]
      rintro ⟨own, hfiltered, hname⟩
      rw [name_of_mem_reports (List.mem_filter.mp hfiltered).1,
        name_of_firstReport? hfirst] at hname
      exact hnodup.1 (hname ▸ List.mem_map_of_mem hother)
    rw [List.flatMap_cons, List.filter_append, firstBy_append, ih hnodup.2, hown, hothers,
      List.filterMap_cons]
    cases found.firstReport? id <;> rfl

section Names

variable {perScope : Keyed String ScopeFindings}
  (hnames : ∀ name found, perScope.get? name = some found → found.scope.name = name)

include hnames in
/-- The scopes in order have their names in order. -/
theorem map_name_inOrder :
    ((inOrder perScope).map fun found => found.scope.name) =
      (perScope.sorted textAtOrBefore).keys := by
  rw [inOrder, Keyed.values, Keyed.keys, List.map_map]
  refine List.map_congr_left fun entry hentry => hnames entry.1 entry.2 ?_
  rw [← Keyed.get?_sorted perScope textAtOrBefore]
  exact Keyed.get?_eq_some_iff.mpr hentry

include hnames in
/-- No scope comes twice. -/
theorem nodup_name_inOrder : ((inOrder perScope).map fun found => found.scope.name).Nodup := by
  rw [map_name_inOrder hnames]
  exact (perScope.sorted textAtOrBefore).nodup

include hnames in
/-- A filed report is shown with the marks of all scopes that report its problem. -/
theorem shown_reportsIn (filing : ScopeReport) :
    filing.shown (marksOf (reportsIn perScope)) = shownIn perScope filing := by
  rw [shown_marksOf, shownIn, reportersIn, ← firstBy_name_reports (nodup_name_inOrder hnames)]
  rfl

include hnames in
/-- The names that report a problem ascend. -/
theorem pairwise_name_reportersIn (id : ProblemId) :
    ((reportersIn perScope id).map ScopeReport.name).Pairwise (· < ·) := by
  have hsub : ((reportersIn perScope id).map ScopeReport.name).Sublist
      ((inOrder perScope).map fun found => found.scope.name) := by
    rw [reportersIn]
    induction inOrder perScope with
    | nil => exact List.Sublist.refl _
    | cons found rest ih =>
      rw [List.filterMap_cons]
      split
      · exact ih.cons _
      · rename_i report hfirst
        rw [List.map_cons, List.map_cons, name_of_firstReport? hfirst]
        exact ih.cons_cons _
  rw [map_name_inOrder hnames] at hsub
  exact (Keyed.keys_sorted_text perScope).sublist hsub

include hnames in
/-- The scopes in order are those that are given, each under its own name. -/
theorem mem_inOrder {found : ScopeFindings} :
    found ∈ inOrder perScope ↔ perScope.get? found.scope.name = some found := by
  rw [inOrder, Keyed.mem_values_iff]
  simp only [Keyed.get?_sorted]
  constructor
  · rintro ⟨key, hkey⟩
    rw [hnames key found hkey]
    exact hkey
  · exact fun h => ⟨_, h⟩

include hnames in
/-- The names that report a problem are those of the scopes that have found it. -/
theorem mem_name_reportersIn {id : ProblemId} {name : String} :
    name ∈ (reportersIn perScope id).map ScopeReport.name ↔
      ∃ found, perScope.get? name = some found ∧ ∃ finding ∈ found.findings, finding.id = id := by
  rw [List.mem_map]
  constructor
  · rintro ⟨report, hmem, rfl⟩
    obtain ⟨found, hmem, hfirst⟩ := List.mem_filterMap.mp hmem
    refine ⟨found, name_of_firstReport? hfirst ▸ (mem_inOrder hnames).mp hmem, ?_⟩
    obtain ⟨finding, hfinding, hreport⟩ := List.mem_map.mp (List.mem_of_find?_eq_some hfirst)
    have hid : report.id = id := by simpa using List.find?_some hfirst
    exact ⟨finding, hfinding, by rw [← hid, ← hreport]; rfl⟩
  · rintro ⟨found, hget, finding, hfinding, hid⟩
    have hscope := hnames name found hget
    obtain ⟨report, hfirst⟩ : ∃ report, found.firstReport? id = some report :=
      Option.isSome_iff_exists.mp (List.find?_isSome.mpr
        ⟨⟨found.scope, finding⟩, List.mem_map_of_mem hfinding, decide_eq_true hid⟩)
    exact ⟨report, List.mem_filterMap.mpr ⟨found, (mem_inOrder hnames).mpr (hscope ▸ hget), hfirst⟩,
      (name_of_firstReport? hfirst).trans hscope⟩

end Names

/-- A name has, of each problem, the report of the least name that reports it, if it is this
name. -/
theorem filter_filedUnder (perScope : Keyed String ScopeFindings) (name : String) (id : ProblemId) :
    ((filedUnder perScope name).filter fun filing => filing.id = id) =
      ((reportersIn perScope id).head?.filter fun least => least.name = name).toList := by
  have hfirst : ((filingsOf (reportsIn perScope)).filter fun filing => filing.id = id) =
      (reportersIn perScope id).head?.toList := by
    rw [filingsOf, filter_firstBy, reportsIn, List.find?_flatMap, reportersIn, List.head?_filterMap]
    rfl
  rw [filedUnder, List.filter_comm, hfirst]
  cases (reportersIn perScope id).head? with
  | none => rfl
  | some least => by_cases hname : least.name = name <;> simp [Option.filter_some, hname]

/-- The least name that reports a problem is where it is filed. -/
theorem mem_filedUnder_of_head? {perScope : Keyed String ScopeFindings} {id : ProblemId}
    {least : ScopeReport} (hleast : (reportersIn perScope id).head? = some least) :
    least ∈ filedUnder perScope least.name ∧ least.id = id := by
  have hfiled : least ∈ (filedUnder perScope least.name).filter fun filing => filing.id = id := by
    rw [filter_filedUnder, hleast]
    simp
  obtain ⟨hunder, hid⟩ := List.mem_filter.mp hfiled
  exact ⟨hunder, of_decide_eq_true hid⟩

/-! ## What is shown -/

/-- What an aggregation shows after some calls. -/
theorem get?_aggregate_run (calls : List Call) (perScope : Keyed String ScopeFindings)
    (name : String) :
    ((run calls).aggregate perScope).1.get? name = (perScope.get? name).map fun _ =>
      ((filingsOf (reportsOf calls ++ reportsIn perScope)).filter fun filing =>
        filing.name = name).map
          (ScopeReport.shown (marksOf (reportsOf calls ++ reportsIn perScope))) := by
  have hlists := (follows_run (calls ++ aggregateCalls perScope)).layout.lists name
  rw [reportsOf_append, reportsOf_aggregateCalls] at hlists
  rw [get?_aggregate, aggregate_snd, hlists]

/-- Reports that are made a second time file nothing. -/
theorem filingsOf_append_self (reports : List ScopeReport) :
    filingsOf (reports ++ reports) = filingsOf reports :=
  firstBy_append_of_mem ScopeReport.id fun _ hmem => List.mem_map_of_mem hmem

/-- Reports that are made a second time leave no mark. -/
theorem marksOf_append_same (reports : List ScopeReport) :
    marksOf (reports ++ reports) = marksOf reports := by
  funext id
  unfold marksOf
  rw [List.filter_append,
    firstBy_append_of_mem ScopeReport.name fun _ hmem => List.mem_map_of_mem hmem]

/-- An aggregation shows again what it has shown. -/
theorem aggregate_again (perScope : Keyed String ScopeFindings) :
    ((empty.aggregate perScope).2.aggregate perScope).1 = (empty.aggregate perScope).1 := by
  have hfresh : empty.aggregate perScope = (run []).aggregate perScope := rfl
  refine Keyed.ext_get? (by rw [keys_aggregate, keys_aggregate]) fun name => ?_
  rw [hfresh, aggregate_snd, List.nil_append, get?_aggregate_run, get?_aggregate_run,
    reportsOf_aggregateCalls, filingsOf_append_self, marksOf_append_same]
  rfl

section Shown

variable {perScope : Keyed String ScopeFindings}
  (hnames : ∀ name found, perScope.get? name = some found → found.scope.name = name)
include hnames

/-- A fresh cycle shows for a scope what is filed under its name. -/
theorem get?_aggregate_empty {name : String} {found : ScopeFindings}
    (hget : perScope.get? name = some found) :
    (empty.aggregate perScope).1.get? name =
      some ((filedUnder perScope name).map (shownIn perScope)) := by
  have hshown := get?_aggregate_run [] perScope name
  rw [hget, Option.map_some] at hshown
  refine hshown.trans (congrArg some ?_)
  exact List.map_congr_left fun filing _ => shown_reportsIn hnames filing

/-- What a scope has found of a file is shown under some name, with an entry for each scope that has
found it. -/
theorem exists_shown {name : String} {found : ScopeFindings}
    (hget : perScope.get? name = some found) {finding : Finding}
    (hfinding : finding ∈ found.findings) (hroute : finding.route = .perFile) :
    ∃ diagnostic ∈ (empty.aggregate perScope).1.values.flatten,
      diagnostic.perFileId = finding.diagnostic.perFileId ∧
      ∀ other again, perScope.get? other = some again →
        (∃ report ∈ again.findings, report.id = finding.id) →
        ∃ entry ∈ diagnostic.related, entry.message = "Not defined in scope '" ++ other ++ "'" := by
  have hreporter : name ∈ (reportersIn perScope finding.id).map ScopeReport.name :=
    (mem_name_reportersIn hnames).mpr ⟨found, hget, finding, hfinding, rfl⟩
  obtain ⟨least, hhead⟩ : ∃ least, (reportersIn perScope finding.id).head? = some least := by
    cases hreporters : reportersIn perScope finding.id with
    | nil =>
      rw [hreporters] at hreporter
      cases hreporter
    | cons least rest => exact ⟨least, rfl⟩
  obtain ⟨hunder, hid⟩ := mem_filedUnder_of_head? hhead
  obtain ⟨first, hfirst, -⟩ := (mem_name_reportersIn hnames).mp
    (List.mem_map_of_mem (List.mem_of_mem_head? hhead))
  have hshown : (shownIn perScope least) ∈ (empty.aggregate perScope).1.values.flatten :=
    List.mem_flatten.mpr ⟨_, Keyed.mem_values_iff.mpr ⟨_, get?_aggregate_empty hnames hfirst⟩,
      List.mem_map_of_mem hunder⟩
  have hleast : least.finding.route = .perFile := (Finding.route_eq_of_id_eq hid).trans hroute
  have hsame : least.finding.diagnostic.perFileId = finding.diagnostic.perFileId := by
    rw [ScopeReport.id, Finding.id, Finding.id, hleast, hroute] at hid
    exact hid
  refine ⟨_, hshown, ?_, fun other again hother hagain => ?_⟩
  · rw [← hsame, shownIn, hleast]
    rfl
  · obtain ⟨report, hreport, rfl⟩ := List.mem_map.mp
      ((mem_name_reportersIn hnames).mpr ⟨again, hother, hagain⟩)
    refine ⟨report.mark, ?_, rfl⟩
    rw [shownIn, hleast, hid]
    exact List.mem_append_right _ (List.mem_map_of_mem hreport)

end Shown

/-- The findings of scopes, each under its own name, are shown by a fresh cycle as follows. The
names ascend. A problem is filed once, under the least name that reports it, and shown there with
an entry for each name that reports it, in ascending order, unless it is one that is listed once;
an entry names its scope, and stands where the scope is declared or else where the scope has found
the problem. The order of the scopes does not matter, and aggregating once more without a reset
shows the same. -/
theorem aggregate_files_under_least_reporter (perScope : Keyed String ScopeFindings)
    (hnames : ∀ name found, perScope.get? name = some found → found.scope.name = name) :
    ((empty.aggregate perScope).1.keys.Pairwise (· < ·) ∧
        ∀ name, name ∈ (empty.aggregate perScope).1.keys ↔ name ∈ perScope.keys) ∧
      (∀ name ∈ perScope.keys, (empty.aggregate perScope).1.get? name =
        some ((filedUnder perScope name).map (shownIn perScope))) ∧
      (∀ filing, shownIn perScope filing =
        { filing.finding.diagnostic with
          related := filing.finding.diagnostic.related ++
            if filing.finding.route = .once then []
            else (reportersIn perScope filing.id).map fun reporter =>
              ⟨"Not defined in scope '" ++ reporter.scope.name ++ "'",
                reporter.scope.declaration.getD
                  ⟨reporter.finding.diagnostic.file, reporter.finding.diagnostic.range⟩⟩ }) ∧
      (∀ id name, ((filedUnder perScope name).filter fun filing => filing.id = id) =
        ((reportersIn perScope id).head?.filter fun least => least.name = name).toList) ∧
      (∀ id, ((reportersIn perScope id).map ScopeReport.name).Pairwise (· < ·) ∧
        ∀ name, name ∈ (reportersIn perScope id).map ScopeReport.name ↔
          ∃ found, perScope.get? name = some found ∧ ∃ finding ∈ found.findings, finding.id = id) ∧
      (∀ other : Keyed String ScopeFindings, other.entries.Perm perScope.entries →
        (empty.aggregate other).1 = (empty.aggregate perScope).1) ∧
      ((empty.aggregate perScope).2.aggregate perScope).1 = (empty.aggregate perScope).1 := by
  refine ⟨⟨?_, fun name => mem_keys_aggregate⟩, ?_, shownIn_eq perScope,
    fun id name => filter_filedUnder perScope name id,
    fun id => ⟨pairwise_name_reportersIn hnames id, fun name => mem_name_reportersIn hnames⟩, ?_,
    aggregate_again perScope⟩
  · rw [keys_aggregate]
    exact Keyed.keys_sorted_text perScope
  · intro name hmem
    obtain ⟨found, hget⟩ := Option.isSome_iff_exists.mp (Keyed.mem_keys_iff.mp hmem)
    exact get?_aggregate_empty hnames hget
  · intro other hperm
    rw [aggregate_congr empty (Keyed.get?_of_perm hperm)]

/-- A call of a function that is missing in the scope of a file. -/
def missingFunction : Finding :=
  ⟨⟨1001, "Cannot find function 'go'", ⟨⟨0, 0⟩, ⟨0, 2⟩⟩, "go.brs", .error, []⟩, .perFile⟩

/-- The scope of a component, declared in the file of the component. -/
def formScope : ScopeLabel := ⟨"form", some ⟨"form.xml", ⟨⟨0, 17⟩, ⟨0, 21⟩⟩⟩⟩

/-- A scope that is declared nowhere. -/
def baseScope : ScopeLabel := ⟨"base", none⟩

/-- Two scopes that miss one function, the later name first. -/
def twoReporters : Keyed String ScopeFindings :=
  .ofList [("form", ⟨formScope, [missingFunction]⟩), ("base", ⟨baseScope, [missingFunction]⟩)]

/-- The missing function is shown once, under the lesser name, with an entry for each of the two
scopes: one where the call stands and one where the component is declared. -/
theorem twoReporters_files_under_first :
    (∀ name found, twoReporters.get? name = some found → found.scope.name = name) ∧
      (empty.aggregate twoReporters).1.get? "base" =
        some [{ missingFunction.diagnostic with
          related :=
            [⟨"Not defined in scope 'base'", ⟨"go.brs", ⟨⟨0, 0⟩, ⟨0, 2⟩⟩⟩⟩,
              ⟨"Not defined in scope 'form'", ⟨"form.xml", ⟨⟨0, 17⟩, ⟨0, 21⟩⟩⟩⟩] }] ∧
      (empty.aggregate twoReporters).1.get? "form" = some [] ∧
      ((empty.aggregate twoReporters).2.aggregate twoReporters).1 =
        (empty.aggregate twoReporters).1 := by
  have hnames : ∀ name found, twoReporters.get? name = some found → found.scope.name = name := by
    intro name found hget
    have hmem := Keyed.mem_of_get?_ofList hget
    simp only [List.mem_cons, Prod.mk.injEq, List.not_mem_nil, or_false] at hmem
    obtain ⟨rfl, rfl⟩ | ⟨rfl, rfl⟩ := hmem <;> rfl
  have hentries : twoReporters.entries =
      [("form", ⟨formScope, [missingFunction]⟩), ("base", ⟨baseScope, [missingFunction]⟩)] := rfl
  have hbefore : textAtOrBefore "form" "base" = false := by decide
  have horder : inOrder twoReporters =
      [⟨baseScope, [missingFunction]⟩, ⟨formScope, [missingFunction]⟩] := by
    simp [inOrder, Keyed.sorted, Keyed.values, hentries, List.mergeSort,
      List.MergeSort.Internal.splitInTwo, List.splitAt, List.splitAt.go, hbefore]
  have hreporters : reportersIn twoReporters (ScopeReport.mk baseScope missingFunction).id =
      [⟨baseScope, missingFunction⟩, ⟨formScope, missingFunction⟩] := by
    simp [reportersIn, horder, ScopeFindings.firstReport?, ScopeFindings.reports, ScopeReport.id]
  have hbase : filedUnder twoReporters "base" = [⟨baseScope, missingFunction⟩] := by
    rw [filedUnder, reportsIn, horder]
    decide
  have hform : filedUnder twoReporters "form" = [] := by
    rw [filedUnder, reportsIn, horder]
    decide
  obtain ⟨-, hshown, hentry, -, -, -, hagain⟩ :=
    aggregate_files_under_least_reporter twoReporters hnames
  refine ⟨hnames, ?_, ?_, hagain⟩
  · rw [hshown "base" (by decide), hbase, List.map_singleton, hentry, hreporters]
    rfl
  · rw [hshown "form" (by decide), hform]
    rfl

end Cycle

end ScopeCheck
