import Mathlib.Logic.Function.Basic
import ScopeCheck.Aggregation
import ScopeCheck.Proofs.DiagnosticKey
import ScopeCheck.Proofs.FirstBy
import ScopeCheck.Proofs.Keyed

/-!
# What a cycle files

A cycle is called with scopes to register and with findings of scopes. What it has filed after any
calls is told by the reports alone (`run_files_first_reports`): every problem is filed where it was
first reported, in the order of first reports, and a problem that is listed once for each file
carries one mark for each scope that has reported it, in the order of their first reports.

A cycle edits what it has filed through remembered slots. `Layout` says what the lists and the slots
hold, for any list of filings and any marks; filing and marking each keep it, and each changes one
of the two. `Follows` adds which filings and which marks they are after given reports.
-/

namespace ScopeCheck

/-! ## Problems and reports -/

/-- What counts as one problem. -/
structure ProblemId where
  /-- The key of the file, if the problem is listed once for each file. -/
  file : Option String
  /-- The number of the kind of problem. -/
  code : Nat
  /-- The wording. -/
  message : String
  /-- Where the problem is. -/
  range : Range
deriving DecidableEq, Repr

namespace Diagnostic

/-- The problem of a diagnostic that is listed once. -/
def onceId (diagnostic : Diagnostic) : ProblemId :=
  ⟨none, diagnostic.code, diagnostic.message, diagnostic.range⟩

/-- The problem of a diagnostic that is listed once for each file. -/
def perFileId (diagnostic : Diagnostic) : ProblemId :=
  ⟨some diagnostic.fileKey, diagnostic.code, diagnostic.message, diagnostic.range⟩

/-- Findings that are listed once are one problem exactly if their keys agree. -/
theorem onceId_eq_iff {left right : Diagnostic} :
    left.onceId = right.onceId ↔ left.key = right.key := by
  simp only [onceId, ProblemId.mk.injEq, key_eq_iff, true_and]

/-- Findings that go by file are one problem exactly if what is remembered of them per file agrees.
-/
theorem perFileId_eq_iff {left right : Diagnostic} :
    left.perFileId = right.perFileId ↔ left.fileProblem = right.fileProblem := by
  simp only [perFileId, fileProblem, ProblemId.mk.injEq, FileProblem.mk.injEq, key_eq_iff,
    Option.some.injEq]

/-- The two ways of being listed never make one problem: only one of them names a file. -/
theorem onceId_ne_perFileId (left right : Diagnostic) : left.onceId ≠ right.perFileId := by
  simp [onceId, perFileId]

end Diagnostic

/-- The problem that a finding is about. -/
def Finding.id (finding : Finding) : ProblemId :=
  match finding.route with
  | .once => finding.diagnostic.onceId
  | .perFile => finding.diagnostic.perFileId

/-- Findings about one problem are listed in the same way. -/
theorem Finding.route_eq_of_id_eq {left right : Finding} (hid : left.id = right.id) :
    left.route = right.route := by
  cases hleft : left.route with
  | once =>
    cases hright : right.route with
    | once => rfl
    | perFile =>
      rw [Finding.id, Finding.id, hleft, hright] at hid
      exact absurd hid (Diagnostic.onceId_ne_perFileId _ _)
  | perFile =>
    cases hright : right.route with
    | once =>
      rw [Finding.id, Finding.id, hleft, hright] at hid
      exact absurd hid.symm (Diagnostic.onceId_ne_perFileId _ _)
    | perFile => rfl

/-- A finding as one scope reports it. -/
structure ScopeReport where
  /-- The scope. -/
  scope : ScopeLabel
  /-- What it has found. -/
  finding : Finding
deriving DecidableEq, Repr

namespace ScopeReport

/-- The problem that is reported. -/
def id (report : ScopeReport) : ProblemId := report.finding.id

/-- The name of the scope that reports. -/
def name (report : ScopeReport) : String := report.scope.name

/-- The mark that a report leaves: it names the scope, and stands where the scope is declared or
else where the reported diagnostic is. -/
def mark (report : ScopeReport) : Related where
  message := "Not defined in scope '" ++ report.scope.name ++ "'"
  location :=
    report.scope.declaration.getD ⟨report.finding.diagnostic.file, report.finding.diagnostic.range⟩

/-- A scope marks what it reports with the mark of the report. -/
theorem scope_mark (report : ScopeReport) :
    report.scope.mark report.finding.diagnostic = report.mark := rfl

/-- The reported diagnostic with the marks of its problem after its own related places. -/
def shown (marks : ProblemId → List Related) (report : ScopeReport) : Diagnostic :=
  { report.finding.diagnostic with
    related := report.finding.diagnostic.related ++ marks report.id }

end ScopeReport

/-- The marks of a problem after some reports: none for what is listed once, else one for each scope
name, that of its first report. -/
def marksOf (reports : List ScopeReport) (id : ProblemId) : List Related :=
  match id.file with
  | none => []
  | some _ =>
    (firstBy ScopeReport.name (reports.filter fun report => report.id = id)).map ScopeReport.mark

namespace Cycle

/-! ## Calls -/

/-- A call on a cycle. -/
inductive Call where
  /-- A scope is given a list. -/
  | register (scope : ScopeLabel)
  /-- A scope reports a finding. -/
  | add (scope : ScopeLabel) (finding : Finding)
deriving DecidableEq, Repr

/-- The report of a call, if it makes one. -/
def Call.report? : Call → Option ScopeReport
  | .register _ => none
  | .add scope finding => some ⟨scope, finding⟩

/-- The cycle after a call. -/
def after (cycle : Cycle) : Call → Cycle
  | .register scope => cycle.register scope
  | .add scope finding => (cycle.add scope finding).2

/-- A fresh cycle after some calls. -/
def run (calls : List Call) : Cycle := calls.foldl after empty

/-- The reports of some calls, in order. -/
def reportsOf (calls : List Call) : List ScopeReport := calls.filterMap Call.report?

/-- What is filed for a scope name. -/
def listOf (cycle : Cycle) (name : String) : List Diagnostic :=
  (cycle.diagnostics.get? name).getD []

/-! ## What filing and marking do to the lists -/

/-- Giving a scope a list adds nothing to any list. -/
theorem listOf_register (cycle : Cycle) (scope : ScopeLabel) (name : String) :
    (cycle.register scope).listOf name = cycle.listOf name := by
  simp only [listOf, diagnostics, register, Keyed.get?_putNew]
  split
  · rename_i h
    rw [h]
    rfl
  · rfl

/-- A scope that has been given a list has one. -/
theorem mem_keys_register (cycle : Cycle) (scope : ScopeLabel) :
    scope.name ∈ (cycle.register scope).filed.keys := by
  rw [Keyed.mem_keys_iff, register, Keyed.get?_putNew, if_pos rfl]
  rfl

/-- No list is taken away by giving out another. -/
theorem keys_subset_register (cycle : Cycle) (scope : ScopeLabel) :
    cycle.filed.keys ⊆ (cycle.register scope).filed.keys := by
  intro name hmem
  rw [register, Keyed.keys_putNew]
  split
  · exact hmem
  · exact List.mem_append_left _ hmem

/-- Filing gives out the list that registering would. -/
theorem keys_file (cycle : Cycle) (scope : ScopeLabel) (diagnostic : Diagnostic) :
    (cycle.file scope diagnostic).filed.keys = (cycle.register scope).filed.keys :=
  Keyed.keys_adjustAt _ _ _

/-- A scope keeps its place when a diagnostic is filed. -/
theorem placeOf_file {cycle : Cycle} (scope : ScopeLabel) (diagnostic : Diagnostic) {name : String}
    (hmem : name ∈ cycle.filed.keys) :
    (cycle.file scope diagnostic).filed.placeOf name = cycle.filed.placeOf name := by
  rw [file, Keyed.placeOf_adjustAt, register, Keyed.placeOf_putNew _ hmem]

/-- A diagnostic is filed at the end of the list of its scope, and nowhere else. -/
theorem listOf_file (cycle : Cycle) (scope : ScopeLabel) (diagnostic : Diagnostic)
    (name : String) :
    (cycle.file scope diagnostic).listOf name =
      if name = scope.name then cycle.listOf name ++ [diagnostic] else cycle.listOf name := by
  rw [← listOf_register cycle scope name]
  simp only [listOf, diagnostics, file, nextSlot, Keyed.get?_adjustAt,
    Keyed.placeOf_inj (mem_keys_register cycle scope)]
  split
  · rename_i h
    obtain ⟨filed, hfiled⟩ := Option.isSome_iff_exists.mp
      (Keyed.mem_keys_iff.mp (mem_keys_register cycle scope))
    rw [h, hfiled]
    rfl
  · rfl

/-- A mark is added to the one diagnostic in the slot, so all lists keep their lengths. -/
theorem listOf_markAt (cycle : Cycle) (slot : Slot) (mark : Related) (name : String) :
    (cycle.markAt slot mark).listOf name =
      if cycle.filed.placeOf name = slot.scope then
        (cycle.listOf name).modify slot.position (Diagnostic.withRelated · mark)
      else cycle.listOf name := by
  simp only [listOf, diagnostics, markAt, Keyed.get?_adjustAt]
  split
  · cases cycle.filed.get? name with
    | none => simp
    | some filed => rfl
  · rfl

/-! ## The layout of what is filed -/

/-- What the lists and the slots of a cycle hold: the filings of each scope in their order, each
shown with its marks, and for each filing that can be marked the slot in which it stands. -/
structure Layout (cycle : Cycle) (filings : List ScopeReport) (marks : ProblemId → List Related) :
    Prop where
  /-- Nothing is filed twice. -/
  nodup : (filings.map ScopeReport.id).Nodup
  /-- The list of a scope shows its filings. -/
  lists : ∀ name, cycle.listOf name =
    (filings.filter fun filing => filing.name = name).map (ScopeReport.shown marks)
  /-- What is listed once is known by its key. -/
  once : ∀ diagnostic : Diagnostic,
    diagnostic.key ∈ cycle.once ↔ diagnostic.onceId ∈ filings.map ScopeReport.id
  /-- What is not filed has no slot. -/
  unplaced : ∀ diagnostic : Diagnostic, diagnostic.perFileId ∉ filings.map ScopeReport.id →
    cycle.slots.get? diagnostic.fileProblem = none
  /-- What is filed stands in its slot. -/
  placed : ∀ filing ∈ filings, ∀ diagnostic : Diagnostic, filing.id = diagnostic.perFileId →
    ∃ slot, cycle.slots.get? diagnostic.fileProblem = some slot ∧
      filing.name ∈ cycle.filed.keys ∧ slot.scope = cycle.filed.placeOf filing.name ∧
      (filings.filter fun other => other.name = filing.name)[slot.position]? = some filing

/-- At first nothing is filed. -/
theorem layout_empty : empty.Layout [] (marksOf []) where
  nodup := List.nodup_nil
  lists _ := rfl
  once _ := by simp [empty]
  unplaced _ _ := rfl
  placed _ hmem := absurd hmem List.not_mem_nil

section Layout

variable {cycle : Cycle} {filings : List ScopeReport} {marks : ProblemId → List Related}

/-- A new list changes nothing that is filed: it comes last, so that all slots stay valid. -/
theorem Layout.register (h : cycle.Layout filings marks) (scope : ScopeLabel) :
    (cycle.register scope).Layout filings marks where
  nodup := h.nodup
  lists name := by rw [listOf_register, h.lists]
  once := h.once
  unplaced := h.unplaced
  placed filing hmem diagnostic hid := by
    obtain ⟨slot, hslot, hkey, hplace, hposition⟩ := h.placed filing hmem diagnostic hid
    refine ⟨slot, hslot, keys_subset_register cycle scope hkey, ?_, hposition⟩
    rw [hplace, Cycle.register, Keyed.placeOf_putNew _ hkey]

/-- The lists after one more filing that has no marks yet. -/
theorem Layout.lists_file (h : cycle.Layout filings marks) (filing : ScopeReport)
    (hmarks : marks filing.id = []) (name : String) :
    (cycle.file filing.scope filing.finding.diagnostic).listOf name =
      ((filings ++ [filing]).filter fun other => other.name = name).map
        (ScopeReport.shown marks) := by
  have hshown : filing.shown marks = filing.finding.diagnostic := by
    rw [ScopeReport.shown, hmarks, List.append_nil]
  rw [listOf_file, h.lists, List.filter_append, List.map_append]
  by_cases hname : filing.name = name
  · have hscope : name = filing.scope.name := hname.symm
    rw [if_pos hscope, List.filter_cons_of_pos (by simpa using hname), List.filter_nil,
      List.map_cons, List.map_nil, hshown]
  · have hscope : name ≠ filing.scope.name := Ne.symm hname
    rw [if_neg hscope, List.filter_cons_of_neg (by simpa using hname), List.filter_nil,
      List.map_nil, List.append_nil]

/-- A filing that stands in its slot stays there when another one is filed. -/
theorem Layout.placed_file (h : cycle.Layout filings marks) (new : ScopeReport)
    {filing : ScopeReport} (hmem : filing ∈ filings) {diagnostic : Diagnostic}
    (hid : filing.id = diagnostic.perFileId) :
    ∃ slot, cycle.slots.get? diagnostic.fileProblem = some slot ∧
      filing.name ∈ (cycle.file new.scope new.finding.diagnostic).filed.keys ∧
      slot.scope = (cycle.file new.scope new.finding.diagnostic).filed.placeOf filing.name ∧
      ((filings ++ [new]).filter fun other => other.name = filing.name)[slot.position]? =
        some filing := by
  obtain ⟨slot, hslot, hkey, hplace, hposition⟩ := h.placed filing hmem diagnostic hid
  refine ⟨slot, hslot, ?_, ?_, ?_⟩
  · rw [keys_file]
    exact keys_subset_register cycle new.scope hkey
  · rw [placeOf_file _ _ hkey, hplace]
  · rw [List.filter_append, List.getElem?_append_left (List.getElem?_eq_some_iff.mp hposition).1,
      hposition]

/-- A problem that is new may be filed after the others. -/
theorem nodup_append_new {new : ScopeReport} (hnodup : (filings.map ScopeReport.id).Nodup)
    (hnew : new.id ∉ filings.map ScopeReport.id) :
    ((filings ++ [new]).map ScopeReport.id).Nodup := by
  rw [List.map_append, List.nodup_append]
  refine ⟨hnodup, by simp, ?_⟩
  intro id hid other hother heq
  rw [List.map_singleton, List.mem_singleton] at hother
  exact hnew (hother ▸ heq ▸ hid)

/-- Filing a problem that is listed once. -/
theorem Layout.file_once (h : cycle.Layout filings marks) {new : ScopeReport}
    (hroute : new.id = new.finding.diagnostic.onceId) (hnew : new.id ∉ filings.map ScopeReport.id)
    (hmarks : marks new.id = []) :
    Layout { cycle.file new.scope new.finding.diagnostic with
      once := new.finding.diagnostic.key :: cycle.once } (filings ++ [new]) marks where
  nodup := nodup_append_new h.nodup hnew
  lists := h.lists_file new hmarks
  once diagnostic := by
    rw [List.mem_cons, h.once, List.map_append, List.mem_append, List.map_singleton,
      List.mem_singleton, hroute, Diagnostic.onceId_eq_iff, or_comm]
  unplaced diagnostic hnot := by
    refine h.unplaced diagnostic fun hmem => hnot ?_
    rw [List.map_append]
    exact List.mem_append_left _ hmem
  placed filing hmem diagnostic hid := by
    rcases List.mem_append.mp hmem with hold | hnew
    · exact h.placed_file new hold hid
    · rw [List.mem_singleton.mp hnew, hroute] at hid
      exact absurd hid (Diagnostic.onceId_ne_perFileId _ _)

/-- Filing a problem that is listed once for each file, with its slot. -/
theorem Layout.file_perFile (h : cycle.Layout filings marks) {new : ScopeReport}
    (hroute : new.id = new.finding.diagnostic.perFileId)
    (hnew : new.id ∉ filings.map ScopeReport.id) (hmarks : marks new.id = []) :
    Layout { cycle.file new.scope new.finding.diagnostic with
      slots := cycle.slots.put new.finding.diagnostic.fileProblem
        ((cycle.register new.scope).nextSlot new.scope) } (filings ++ [new]) marks where
  nodup := nodup_append_new h.nodup hnew
  lists := h.lists_file new hmarks
  once diagnostic := by
    rw [List.map_append, List.mem_append, List.map_singleton, List.mem_singleton, hroute]
    exact (h.once diagnostic).trans
      ⟨Or.inl, fun hor => hor.resolve_right (Diagnostic.onceId_ne_perFileId _ _)⟩
  unplaced diagnostic hnot := by
    rw [List.map_append, List.mem_append, List.map_singleton, List.mem_singleton, not_or, hroute,
      Diagnostic.perFileId_eq_iff] at hnot
    rw [Keyed.get?_put, if_neg hnot.2]
    exact h.unplaced diagnostic hnot.1
  placed filing hmem diagnostic hid := by
    rcases List.mem_append.mp hmem with hold | hlast
    · obtain ⟨slot, hslot, hrest⟩ := h.placed_file new hold hid
      refine ⟨slot, ?_, hrest⟩
      -- an old slot is not overwritten, as the new problem is another one
      have hne : diagnostic.fileProblem ≠ new.finding.diagnostic.fileProblem := by
        intro heq
        rw [← Diagnostic.perFileId_eq_iff, ← hid, ← hroute] at heq
        exact hnew (heq ▸ List.mem_map_of_mem hold)
      rw [Keyed.get?_put, if_neg hne]
      exact hslot
    · rw [List.mem_singleton.mp hlast] at hid ⊢
      rw [hroute, Diagnostic.perFileId_eq_iff] at hid
      -- the slot points behind all that is filed under the name, which is where the report comes
      have hlength : ((cycle.register new.scope).listOf new.name).length =
          (filings.filter fun other => other.name = new.name).length := by
        rw [listOf_register, h.lists, List.length_map]
      refine ⟨_, by rw [Keyed.get?_put, if_pos hid.symm], ?_, ?_, ?_⟩
      · rw [keys_file]
        exact mem_keys_register cycle new.scope
      · simp only [file, Keyed.placeOf_adjustAt]
        rfl
      · rw [List.filter_append, List.filter_cons_of_pos (by simp), List.filter_nil]
        change (_ ++ [new])[((cycle.register new.scope).listOf new.name).length]? = some new
        rw [hlength, List.getElem?_concat_length]

/-- A change at the one place of a member changes what is shown of this member and of no other. -/
theorem modify_map_eq {list : List ScopeReport} (hnodup : (list.map ScopeReport.id).Nodup)
    {place : Nat} {member : ScopeReport} (hplace : list[place]? = some member)
    {show₁ show₂ : ScopeReport → Diagnostic} {change : Diagnostic → Diagnostic}
    (hmember : show₂ member = change (show₁ member))
    (hothers : ∀ other, other.id ≠ member.id → show₂ other = show₁ other) :
    (list.map show₁).modify place change = list.map show₂ := by
  refine List.ext_getElem (by simp) fun index hleft hright => ?_
  rw [List.length_map] at hright
  obtain ⟨hlt, hget⟩ := List.getElem?_eq_some_iff.mp hplace
  rw [List.getElem_modify, List.getElem_map, List.getElem_map]
  by_cases hindex : place = index
  · subst hindex
    rw [if_pos rfl, hget, hmember]
  · rw [if_neg hindex, hothers]
    intro hid
    have hsame : (list.map ScopeReport.id)[place]? = (list.map ScopeReport.id)[index]? := by
      rw [List.getElem?_map, List.getElem?_map, hplace, List.getElem?_eq_getElem hright,
        Option.map_some, Option.map_some, hid]
    exact hindex ((List.getElem?_inj (by simpa using hlt) hnodup).mp hsame)

/-- Marking a filing in its slot adds the mark to the marks of its problem. -/
theorem Layout.markAt (h : cycle.Layout filings marks) {filing : ScopeReport}
    (hmem : filing ∈ filings) {diagnostic : Diagnostic} (hid : filing.id = diagnostic.perFileId)
    {slot : Slot} (hslot : cycle.slots.get? diagnostic.fileProblem = some slot) (mark : Related) :
    (cycle.markAt slot mark).Layout filings
      (Function.update marks filing.id (marks filing.id ++ [mark])) where
  nodup := h.nodup
  lists name := by
    obtain ⟨slot', hslot', hkey, hplace, hposition⟩ := h.placed filing hmem diagnostic hid
    obtain rfl : slot = slot' := Option.some.inj (hslot.symm.trans hslot')
    have hself : filing.shown (Function.update marks filing.id (marks filing.id ++ [mark])) =
        (filing.shown marks).withRelated mark := by
      simp [ScopeReport.shown, Diagnostic.withRelated]
    have hothers : ∀ other : ScopeReport, other.id ≠ filing.id →
        other.shown (Function.update marks filing.id (marks filing.id ++ [mark])) =
          other.shown marks := by
      intro other hne
      rw [ScopeReport.shown, Function.update_of_ne hne, ScopeReport.shown]
    rw [listOf_markAt, h.lists, hplace]
    simp only [Keyed.placeOf_inj hkey]
    -- only in the list of the filing does the mark change anything, and there only the one entry
    by_cases hname : name = filing.name
    · subst hname
      rw [if_pos rfl]
      exact modify_map_eq (h.nodup.sublist (List.filter_sublist.map _)) hposition hself hothers
    · rw [if_neg hname]
      refine List.map_congr_left fun other hother => (hothers other fun heq => hname ?_).symm
      obtain ⟨hfiled, hother⟩ := List.mem_filter.mp hother
      rw [← List.inj_on_of_nodup_map h.nodup hfiled hmem heq]
      exact (of_decide_eq_true hother).symm
  once := h.once
  unplaced := h.unplaced
  placed other hother diagnostic hid := by
    obtain ⟨slot', hslot', hkey, hplace, hposition⟩ := h.placed other hother diagnostic hid
    refine ⟨slot', hslot', ?_, ?_, hposition⟩
    · rw [Cycle.markAt, Keyed.keys_adjustAt]
      exact hkey
    · rw [hplace, Cycle.markAt, Keyed.placeOf_adjustAt]

end Layout

/-! ## What the reports decide -/

/-- The names of the scopes that have reported a problem, in the order of their first reports. -/
def reportersOf (reports : List ScopeReport) (id : ProblemId) : List String :=
  (firstBy ScopeReport.name (reports.filter fun report => report.id = id)).map ScopeReport.name

/-- The reporters of a problem are the scopes with a report of it. -/
theorem mem_reportersOf {reports : List ScopeReport} {id : ProblemId} {name : String} :
    name ∈ reportersOf reports id ↔
      name ∈ (reports.filter fun report => report.id = id).map ScopeReport.name :=
  mem_map_firstBy ScopeReport.name

section Append

variable {reports : List ScopeReport} {new : ScopeReport}

/-- A further report adds nothing to those of another problem. -/
theorem filter_append_of_ne {id : ProblemId} (hne : id ≠ new.id) :
    ((reports ++ [new]).filter fun report => report.id = id) =
      reports.filter fun report => report.id = id := by
  rw [List.filter_append, List.filter_cons_of_neg (by simpa using Ne.symm hne), List.filter_nil,
    List.append_nil]

/-- A further report is the last of those of its own problem. -/
theorem filter_append_self :
    ((reports ++ [new]).filter fun report => report.id = new.id) =
      (reports.filter fun report => report.id = new.id) ++ [new] := by
  rw [List.filter_append, List.filter_cons_of_pos (by simp), List.filter_nil]

/-- A further report adds no reporter of another problem. -/
theorem reportersOf_append_of_ne {id : ProblemId} (hne : id ≠ new.id) :
    reportersOf (reports ++ [new]) id = reportersOf reports id := by
  rw [reportersOf, filter_append_of_ne hne, reportersOf]

/-- A further report adds its scope to the reporters of its problem, unless it is one. -/
theorem reportersOf_append_self :
    reportersOf (reports ++ [new]) new.id =
      if new.name ∈ reportersOf reports new.id then reportersOf reports new.id
      else reportersOf reports new.id ++ [new.name] := by
  rw [reportersOf, filter_append_self, firstBy_append_singleton]
  simp only [mem_reportersOf]
  split
  · rfl
  · rw [List.map_append]
    rfl

/-- A further report adds no mark to another problem. -/
theorem marksOf_append_of_ne {id : ProblemId} (hne : id ≠ new.id) :
    marksOf (reports ++ [new]) id = marksOf reports id := by
  unfold marksOf
  rw [filter_append_of_ne hne]

/-- A report of what is listed once leaves no mark. -/
theorem marksOf_append_of_once (honce : new.id.file = none) :
    marksOf (reports ++ [new]) = marksOf reports := by
  funext id
  by_cases hid : id = new.id
  · rw [marksOf, marksOf, hid, honce]
  · exact marksOf_append_of_ne hid

/-- A further report of one scope leaves no further mark. -/
theorem marksOf_append_of_known (hknown : new.name ∈ reportersOf reports new.id) :
    marksOf (reports ++ [new]) = marksOf reports := by
  funext id
  by_cases hid : id = new.id
  · rw [hid]
    unfold marksOf
    rw [filter_append_self, firstBy_append_singleton, if_pos (mem_reportersOf.mp hknown)]
  · exact marksOf_append_of_ne hid

/-- The first report of a scope leaves its mark at the end. -/
theorem marksOf_append_of_new (hfile : new.id.file.isSome)
    (hnew : new.name ∉ reportersOf reports new.id) :
    marksOf (reports ++ [new]) =
      Function.update (marksOf reports) new.id (marksOf reports new.id ++ [new.mark]) := by
  funext id
  by_cases hid : id = new.id
  · obtain ⟨file, hfile⟩ := Option.isSome_iff_exists.mp hfile
    rw [hid, Function.update_self]
    simp only [marksOf, hfile]
    rw [filter_append_self, firstBy_append_singleton, if_neg fun h => hnew (mem_reportersOf.mpr h),
      List.map_append]
    rfl
  · rw [Function.update_of_ne hid]
    exact marksOf_append_of_ne hid

/-- A problem that has not been reported has no reporters. -/
theorem reportersOf_eq_nil (hnew : new.id ∉ reports.map ScopeReport.id) :
    reportersOf reports new.id = [] := by
  have hnone : (reports.filter fun report => report.id = new.id) = [] := by
    rw [List.filter_eq_nil_iff]
    intro report hmem heq
    exact hnew (List.mem_map.mpr ⟨report, hmem, of_decide_eq_true heq⟩)
  rw [reportersOf, hnone]
  rfl

/-- A problem that has not been reported has no marks. -/
theorem marksOf_eq_nil (hnew : new.id ∉ reports.map ScopeReport.id) :
    marksOf reports new.id = [] := by
  have hreporters := reportersOf_eq_nil hnew
  rw [reportersOf, List.map_eq_nil_iff] at hreporters
  unfold marksOf
  rw [hreporters]
  cases new.id.file <;> rfl

end Append

/-- What is filed after some reports: the first report of each problem. -/
def filingsOf (reports : List ScopeReport) : List ScopeReport := firstBy ScopeReport.id reports

/-- A problem is filed exactly if it has been reported. -/
theorem mem_map_filingsOf {reports : List ScopeReport} {id : ProblemId} :
    id ∈ (filingsOf reports).map ScopeReport.id ↔ id ∈ reports.map ScopeReport.id :=
  mem_map_firstBy ScopeReport.id

/-- A further report of a problem is not filed. -/
theorem filingsOf_append_of_mem {reports : List ScopeReport} {new : ScopeReport}
    (hmem : new.id ∈ reports.map ScopeReport.id) :
    filingsOf (reports ++ [new]) = filingsOf reports := by
  rw [filingsOf, firstBy_append_singleton, if_pos hmem, filingsOf]

/-- The first report of a problem is filed last. -/
theorem filingsOf_append_of_not_mem {reports : List ScopeReport} {new : ScopeReport}
    (hmem : new.id ∉ reports.map ScopeReport.id) :
    filingsOf (reports ++ [new]) = filingsOf reports ++ [new] := by
  rw [filingsOf, firstBy_append_singleton, if_neg hmem, filingsOf]

/-- The state of a cycle after the given reports. -/
structure Follows (cycle : Cycle) (reports : List ScopeReport) : Prop where
  /-- The first report of each problem is filed. -/
  layout : cycle.Layout (filingsOf reports) (marksOf reports)
  /-- The scopes that have reported a problem are remembered. -/
  reporters : ∀ diagnostic : Diagnostic,
    (cycle.reporters.get? diagnostic.fileProblem).getD [] =
      reportersOf reports diagnostic.perFileId

/-- An empty cycle follows no reports. -/
theorem follows_empty : empty.Follows [] := ⟨layout_empty, fun _ => rfl⟩

section Follows

variable {cycle : Cycle} {reports : List ScopeReport}

/-- Giving a scope a list reports nothing. -/
theorem Follows.register (h : cycle.Follows reports) (scope : ScopeLabel) :
    (cycle.register scope).Follows reports :=
  ⟨h.layout.register scope, h.reporters⟩

/-- A cycle remembers exactly the scopes that have reported a problem of a file. -/
theorem Follows.hasReported_iff (h : cycle.Follows reports) {new : ScopeReport}
    (hroute : new.id = new.finding.diagnostic.perFileId) :
    cycle.hasReported new.finding.diagnostic.fileProblem new.scope = true ↔
      new.name ∈ reportersOf reports new.id := by
  rw [hasReported, h.reporters, List.contains_iff_mem, hroute]
  rfl

/-- Noting a reporter touches neither lists nor slots. -/
theorem Layout.noteReporter {filings : List ScopeReport} {marks : ProblemId → List Related}
    (h : cycle.Layout filings marks) (problem : FileProblem) (scope : ScopeLabel) :
    (cycle.noteReporter problem scope).Layout filings marks := by
  unfold Cycle.noteReporter
  split
  · exact h
  · exact ⟨h.nodup, h.lists, h.once, h.unplaced, h.placed⟩

/-- Remembering a reporter moves nothing that is filed. -/
theorem slots_noteReporter (problem : FileProblem) (scope : ScopeLabel) :
    (cycle.noteReporter problem scope).slots = cycle.slots := by
  unfold Cycle.noteReporter
  split <;> rfl

/-- With the scope of a report remembered, the reporters of every problem are those after the
report. -/
theorem Follows.reporters_noteReporter (h : cycle.Follows reports) {new : ScopeReport}
    (hroute : new.id = new.finding.diagnostic.perFileId) (diagnostic : Diagnostic) :
    ((cycle.noteReporter new.finding.diagnostic.fileProblem new.scope).reporters.get?
      diagnostic.fileProblem).getD [] =
        reportersOf (reports ++ [new]) diagnostic.perFileId := by
  have hreported := h.hasReported_iff hroute
  by_cases hid : diagnostic.perFileId = new.id
  · have hproblem : diagnostic.fileProblem = new.finding.diagnostic.fileProblem := by
      rw [← Diagnostic.perFileId_eq_iff, hid, hroute]
    rw [hid, reportersOf_append_self, hproblem]
    unfold noteReporter
    split
    · rename_i hknown
      rw [h.reporters, ← hroute, if_pos (hreported.mp hknown)]
    · rename_i hknown
      rw [Keyed.get?_put, if_pos rfl, Option.getD_some, h.reporters, ← hroute,
        if_neg fun hmem => hknown (hreported.mpr hmem)]
      rfl
  · have hproblem : diagnostic.fileProblem ≠ new.finding.diagnostic.fileProblem := by
      rw [Ne, ← Diagnostic.perFileId_eq_iff, ← hroute]
      exact hid
    rw [reportersOf_append_of_ne hid, ← h.reporters]
    unfold noteReporter
    split
    · rfl
    · rw [Keyed.get?_put, if_neg hproblem]

/-- A report of a problem with a slot files nothing. It marks the slot, if its scope has not
reported the problem. -/
theorem addPerFile_of_some {scope : ScopeLabel} {diagnostic : Diagnostic} {slot : Slot}
    (hslot : cycle.slots.get? diagnostic.fileProblem = some slot) :
    cycle.addPerFile scope diagnostic =
      (false,
        if cycle.hasReported diagnostic.fileProblem scope then
          cycle.noteReporter diagnostic.fileProblem scope
        else (cycle.noteReporter diagnostic.fileProblem scope).markAt slot
          (scope.mark diagnostic)) := by
  simp only [addPerFile, hslot]

/-- A report of a problem without a slot is filed and marked, and its slot is remembered. -/
theorem addPerFile_of_none {scope : ScopeLabel} {diagnostic : Diagnostic}
    (hslot : cycle.slots.get? diagnostic.fileProblem = none)
    (hreported : cycle.hasReported diagnostic.fileProblem scope = false) :
    cycle.addPerFile scope diagnostic =
      let noted := cycle.noteReporter diagnostic.fileProblem scope
      let slot := (noted.register scope).nextSlot scope
      (true,
        { noted.file scope diagnostic with
          slots := noted.slots.put diagnostic.fileProblem slot }.markAt slot
            (scope.mark diagnostic)) := by
  simp only [addPerFile, hslot, hreported, Bool.false_eq_true, if_false]

/-- A report that is listed once is filed exactly if it is the first, and the cycle follows it. -/
theorem Follows.add_once (h : cycle.Follows reports) {new : ScopeReport}
    (hroute : new.id = new.finding.diagnostic.onceId) :
    (cycle.addOnce new.scope new.finding.diagnostic).1 =
        decide (new.id ∉ reports.map ScopeReport.id) ∧
      (cycle.addOnce new.scope new.finding.diagnostic).2.Follows (reports ++ [new]) := by
  have hone : new.id.file = none := by rw [hroute]; rfl
  have hknown : cycle.once.contains new.finding.diagnostic.key = true ↔
      new.id ∈ reports.map ScopeReport.id := by
    rw [List.contains_iff_mem, h.layout.once, ← hroute, mem_map_filingsOf]
  have hreporters : ∀ diagnostic : Diagnostic, reportersOf (reports ++ [new])
      diagnostic.perFileId = reportersOf reports diagnostic.perFileId := fun diagnostic =>
    reportersOf_append_of_ne (by rw [hroute]; exact (Diagnostic.onceId_ne_perFileId _ _).symm)
  unfold addOnce
  split
  · rename_i hfiled
    have hmem := hknown.mp hfiled
    refine ⟨by simpa using hmem, ?_, fun diagnostic => ?_⟩
    · rw [filingsOf_append_of_mem hmem, marksOf_append_of_once hone]
      exact h.layout
    · rw [hreporters, h.reporters]
  · rename_i hfiled
    have hmem : new.id ∉ reports.map ScopeReport.id := fun hmem => hfiled (hknown.mpr hmem)
    refine ⟨by simpa using hmem, ?_, fun diagnostic => ?_⟩
    · rw [filingsOf_append_of_not_mem hmem, marksOf_append_of_once hone]
      exact h.layout.file_once hroute (by rwa [mem_map_filingsOf]) (marksOf_eq_nil hmem)
    · rw [hreporters]
      exact h.reporters diagnostic

/-- A report that goes by file is filed exactly if it is the first, and the cycle follows it: a
later one from a new scope marks what was filed, and one from a known scope does nothing. -/
theorem Follows.add_perFile (h : cycle.Follows reports) {new : ScopeReport}
    (hroute : new.id = new.finding.diagnostic.perFileId) :
    (cycle.addPerFile new.scope new.finding.diagnostic).1 =
        decide (new.id ∉ reports.map ScopeReport.id) ∧
      (cycle.addPerFile new.scope new.finding.diagnostic).2.Follows (reports ++ [new]) := by
  have hfile : new.id.file.isSome := by rw [hroute]; rfl
  have hnoted := h.layout.noteReporter new.finding.diagnostic.fileProblem new.scope
  have hreporters := h.reporters_noteReporter hroute
  by_cases hmem : new.id ∈ reports.map ScopeReport.id
  -- the problem has a slot: it is marked there, unless the scope has reported it
  · obtain ⟨first, hfirst, hid⟩ := List.mem_map.mp (mem_map_filingsOf.mpr hmem)
    obtain ⟨slot, hslot, -⟩ := h.layout.placed first hfirst _ (hid.trans hroute)
    rw [addPerFile_of_some hslot, ScopeReport.scope_mark]
    refine ⟨by simpa using hmem, ?_⟩
    split
    · rename_i hknown
      refine ⟨?_, hreporters⟩
      rw [filingsOf_append_of_mem hmem,
        marksOf_append_of_known ((h.hasReported_iff hroute).mp hknown)]
      exact hnoted
    · rename_i hunknown
      refine ⟨?_, hreporters⟩
      rw [filingsOf_append_of_mem hmem, marksOf_append_of_new hfile
        fun hknown => hunknown ((h.hasReported_iff hroute).mpr hknown), ← hid]
      exact hnoted.markAt hfirst (hid.trans hroute) (by rwa [slots_noteReporter]) new.mark
  -- the problem is new, so no scope has reported it and it is filed and marked at once
  · have hfiled : new.id ∉ (filingsOf reports).map ScopeReport.id := by
      rwa [mem_map_filingsOf]
    have hunknown : new.name ∉ reportersOf reports new.id := by
      rw [reportersOf_eq_nil hmem]
      exact List.not_mem_nil
    have hslot := h.layout.unplaced new.finding.diagnostic (by rwa [← hroute])
    have hreported : cycle.hasReported new.finding.diagnostic.fileProblem new.scope = false := by
      rw [← Bool.not_eq_true]
      exact fun hknown => hunknown ((h.hasReported_iff hroute).mp hknown)
    rw [addPerFile_of_none hslot hreported, ScopeReport.scope_mark]
    refine ⟨by simpa using hmem, ?_, hreporters⟩
    rw [filingsOf_append_of_not_mem hmem, marksOf_append_of_new hfile hunknown]
    exact (hnoted.file_perFile hroute hfiled (marksOf_eq_nil hmem)).markAt
      (List.mem_append_right _ List.mem_cons_self) hroute (by rw [Keyed.get?_put, if_pos rfl])
      new.mark

/-- A report is filed anew exactly if its problem has not been reported, and the state follows. -/
theorem Follows.add (h : cycle.Follows reports) (new : ScopeReport) :
    (cycle.add new.scope new.finding).1 = decide (new.id ∉ reports.map ScopeReport.id) ∧
      (cycle.add new.scope new.finding).2.Follows (reports ++ [new]) := by
  unfold Cycle.add
  split
  · rename_i hroute
    exact h.add_once (by rw [ScopeReport.id, Finding.id, hroute])
  · rename_i hroute
    exact h.add_perFile (by rw [ScopeReport.id, Finding.id, hroute])

end Follows

/-- After any calls, the state follows the reports that they made. -/
theorem follows_run (calls : List Call) : (run calls).Follows (reportsOf calls) := by
  induction calls using List.reverseRecOn with
  | nil => exact follows_empty
  | append_singleton calls call ih =>
    rw [run, List.foldl_append, List.foldl_cons, List.foldl_nil, reportsOf, List.filterMap_append]
    cases call with
    | register scope =>
      rw [List.filterMap_cons_none rfl, List.filterMap_nil, List.append_nil]
      exact ih.register scope
    | add scope finding => exact (ih.add ⟨scope, finding⟩).2

/-- What is shown of a filing: what is listed once as it was reported, what is listed once for each
file with one mark for each scope that has reported it. -/
theorem shown_marksOf (reports : List ScopeReport) (filing : ScopeReport) :
    filing.shown (marksOf reports) =
      match filing.finding.route with
      | .once => filing.finding.diagnostic
      | .perFile =>
        { filing.finding.diagnostic with
          related := filing.finding.diagnostic.related ++
            (firstBy ScopeReport.name (reports.filter fun report => report.id = filing.id)).map
              ScopeReport.mark } := by
  cases hroute : filing.finding.route with
  | once =>
    have hfile : filing.id.file = none := by rw [ScopeReport.id, Finding.id, hroute]; rfl
    simp only [ScopeReport.shown, marksOf, hfile, List.append_nil]
  | perFile =>
    have hfile : filing.id.file = some filing.finding.diagnostic.fileKey := by
      rw [ScopeReport.id, Finding.id, hroute]
      rfl
    simp only [ScopeReport.shown, marksOf, hfile]

/-- A call makes a list longer exactly if it is the first report of its problem and the list is that
of its scope. -/
theorem length_listOf_append (calls : List Call) (new : ScopeReport) (name : String) :
    ((run (calls ++ [.add new.scope new.finding])).listOf name).length =
      ((run calls).listOf name).length +
        if new.id ∉ (reportsOf calls).map ScopeReport.id ∧ name = new.name then 1 else 0 := by
  have hreports : reportsOf (calls ++ [.add new.scope new.finding]) = reportsOf calls ++ [new] := by
    rw [reportsOf, List.filterMap_append]
    rfl
  rw [(follows_run _).layout.lists, (follows_run _).layout.lists, List.length_map, List.length_map,
    hreports]
  by_cases hknown : new.id ∈ (reportsOf calls).map ScopeReport.id
  · rw [filingsOf_append_of_mem hknown, if_neg fun h => h.1 hknown, Nat.add_zero]
  · rw [filingsOf_append_of_not_mem hknown, List.filter_append, List.length_append]
    by_cases hname : name = new.name
    · rw [if_pos ⟨hknown, hname⟩, List.filter_cons_of_pos (by simpa using hname.symm),
        List.filter_nil, List.length_singleton]
    · rw [if_neg fun h => hname h.2, List.filter_cons_of_neg (by simpa using Ne.symm hname),
        List.filter_nil, List.length_nil]

/-- **What is filed after any calls.** The list of each scope shows its filings in order, where the
filings are the first reports of all reported problems and nothing else: for every reported problem
exactly one, that of its first report. What is listed once is shown unmodified; what is listed once
for each file is shown with its own related places and then one entry for each scope name that has
reported it, in the order of first reports: the entry names the scope, and stands where the scope
is declared or else where the diagnostic of that report is. A further call returns `true` exactly
if its problem has not been reported, and exactly then its diagnostic is added to the list of its
scope. -/
theorem run_files_first_reports (calls : List Call) :
    (∀ name, (run calls).listOf name =
      ((filingsOf (reportsOf calls)).filter fun filing => filing.name = name).map
        (ScopeReport.shown (marksOf (reportsOf calls)))) ∧
    (filingsOf (reportsOf calls)).Sublist (reportsOf calls) ∧
    (∀ report ∈ reportsOf calls, ∃ first,
      (reportsOf calls).find? (fun other => other.id = report.id) = some first ∧
      ((filingsOf (reportsOf calls)).filter fun filing => filing.id = report.id) = [first] ∧
      first.shown (marksOf (reportsOf calls)) =
        match first.finding.route with
        | .once => first.finding.diagnostic
        | .perFile =>
          { first.finding.diagnostic with
            related := first.finding.diagnostic.related ++
              (firstBy ScopeReport.name
                ((reportsOf calls).filter fun other => other.id = first.id)).map fun reporter =>
                  ⟨"Not defined in scope '" ++ reporter.scope.name ++ "'",
                    reporter.scope.declaration.getD
                      ⟨reporter.finding.diagnostic.file, reporter.finding.diagnostic.range⟩⟩ }) ∧
    ∀ scope finding,
      (((run calls).add scope finding).1 = true ↔
        ∀ report ∈ reportsOf calls, report.id ≠ finding.id) ∧
      ∀ name, (((run calls).add scope finding).2.listOf name).length =
        ((run calls).listOf name).length +
          if ((run calls).add scope finding).1 = true ∧ name = scope.name then 1 else 0 := by
  refine ⟨(follows_run calls).layout.lists, firstBy_sublist _ _, ?_, ?_⟩
  · intro report hmem
    obtain ⟨first, hfirst⟩ := Option.isSome_iff_exists.mp
      (List.find?_isSome (p := fun other => decide (other.id = report.id)).mpr
        ⟨report, hmem, by simp⟩)
    refine ⟨first, hfirst, ?_, shown_marksOf _ first⟩
    rw [filingsOf, filter_firstBy, hfirst]
    rfl
  · intro scope finding
    -- a call returns what following it decides: whether its problem is new
    have hadd := ((follows_run calls).add ⟨scope, finding⟩).1
    have hiff : ((run calls).add scope finding).1 = true ↔
        finding.id ∉ (reportsOf calls).map ScopeReport.id := by
      rw [hadd, decide_eq_true_iff]
      rfl
    refine ⟨?_, fun name => ?_⟩
    · rw [hiff, List.mem_map]
      exact ⟨fun h report hmem hid => h ⟨report, hmem, hid⟩,
        fun h ⟨report, hmem, hid⟩ => h report hmem hid⟩
    · have hrun : ((run calls).add scope finding).2 = run (calls ++ [.add scope finding]) := by
        rw [run, run, List.foldl_append]
        rfl
      simp only [hiff]
      rw [hrun]
      exact length_listOf_append calls ⟨scope, finding⟩ name

end Cycle

end ScopeCheck
