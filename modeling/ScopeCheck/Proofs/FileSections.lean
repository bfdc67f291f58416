import Mathlib.Data.List.Dedup
import ScopeCheck.Diagnostic.Report
import ScopeCheck.Proofs.Listing
import ScopeCheck.Proofs.Offsets
import ScopeCheck.Proofs.ReportHandlers
import ScopeCheck.Proofs.TableContents

/-!
# The sections of a rendered listing

`render` goes through the sorted diagnostics and writes a header wherever the file is not that of
the diagnostic before. Diagnostics are sorted by the key of their file first, so those of one file
stand together, however the file is spelled in them, and there is one header for each file.
Rendering is read off a list that is cut into files (`renderFrom_sections`), and a list that is
sorted by a key is cut into the groups of its keys (`flatMap_filter_of_sorted`). What stands in a
section is told by `ListedOf`: each diagnostic of the file once, by place, number and wording, with
ties in the order in which they were given.

Under its header a diagnostic is drawn with its text exactly if the text has both lines of its range
(`renderOne_eq_indented_iff`). Whatever faithful handler draws it, the listing holds its code and
its message (`within_renderOne`), so that nothing that is given is left out.
-/

namespace ScopeCheck

/-! ## Groups of a sorted list -/

section Groups

variable {α : Type} {keyOf : α → String}

/-- In a sorted list, the members of the least key come first. -/
theorem filter_append_filter_of_sorted {least : String} {list : List α}
    (hsorted : list.Pairwise fun a b => keyOf a ≤ keyOf b) (hleast : ∀ a ∈ list, least ≤ keyOf a) :
    list.filter (keyOf · = least) ++ list.filter (keyOf · ≠ least) = list := by
  induction list with
  | nil => rfl
  | cons first rest ih =>
    obtain ⟨hfirst, hrest⟩ := List.pairwise_cons.mp hsorted
    by_cases hkey : keyOf first = least
    · rw [List.filter_cons_of_pos (by simpa using hkey),
        List.filter_cons_of_neg (by simpa using hkey), List.cons_append,
        ih hrest fun a ha => hleast a (List.mem_cons_of_mem first ha)]
    · -- the first key is above the least one, and so are all others
      have habove : ∀ a ∈ first :: rest, keyOf a ≠ least := by
        have hlt := lt_of_le_of_ne (hleast first List.mem_cons_self) (Ne.symm hkey)
        intro a ha
        rcases List.mem_cons.mp ha with rfl | ha
        · exact hkey
        · exact (hlt.trans_le (hfirst a ha)).ne'
      rw [List.filter_eq_nil_iff.mpr (by simpa using habove),
        List.filter_eq_self.mpr (by simpa using habove), List.nil_append]

/-- A sorted list is made of the groups of its keys, in the order of the keys. -/
theorem flatMap_filter_of_sorted {keys : List String} {list : List α}
    (hkeys : keys.Pairwise (· < ·)) (hsorted : list.Pairwise fun a b => keyOf a ≤ keyOf b)
    (hall : ∀ a ∈ list, keyOf a ∈ keys) :
    (keys.flatMap fun key => list.filter (keyOf · = key)) = list := by
  -- along the keys: what has the least one stands in front, and the rest is sorted by the others
  induction keys generalizing list with
  | nil => exact (List.eq_nil_iff_forall_not_mem.mpr fun a ha => List.not_mem_nil (hall a ha)).symm
  | cons least keys ih =>
    obtain ⟨hleast, hkeys⟩ := List.pairwise_cons.mp hkeys
    have hge : ∀ a ∈ list, least ≤ keyOf a := by
      intro a ha
      rcases List.mem_cons.mp (hall a ha) with heq | hmem
      · exact heq.ge
      · exact (hleast _ hmem).le
    have hothers : ∀ a ∈ list.filter (keyOf · ≠ least), keyOf a ∈ keys := by
      intro a ha
      obtain ⟨hmem, hne⟩ := List.mem_filter.mp ha
      exact (List.mem_cons.mp (hall a hmem)).resolve_left (of_decide_eq_true hne)
    have hgroups : (keys.flatMap fun key => list.filter (keyOf · = key)) =
        keys.flatMap fun key => (list.filter (keyOf · ≠ least)).filter (keyOf · = key) := by
      refine List.flatMap_congr fun key hkey => ?_
      rw [List.filter_filter]
      refine List.filter_congr fun a _ => ?_
      by_cases heq : keyOf a = key
      · simp [heq, (hleast key hkey).ne']
      · simp [heq]
    rw [List.flatMap_cons, hgroups, ih hkeys (hsorted.filter _) hothers]
    exact filter_append_filter_of_sorted hsorted hge

end Groups

namespace Diagnostic

/-! ## The order inside a file -/

/-- What a diagnostic is sorted by among those of its file: place, number and wording. -/
def spot (diagnostic : Diagnostic) : Range × Nat × String :=
  (diagnostic.range, diagnostic.code, diagnostic.message)

/-- The order of listing among the diagnostics of a file. -/
def spotOrder : Diagnostic → Diagnostic → Ordering :=
  compareLex (compareOn range) (compareLex (compareOn code) (compareOn message))

/-- Diagnostics are listed by file, and inside a file by place, number and wording. -/
theorem listedBefore_iff {left right : Diagnostic} :
    left.listedBefore right = true ↔
      left.fileKey < right.fileKey ∨
        left.fileKey = right.fileKey ∧ (left.spotOrder right).isLE = true := by
  have hless : ∀ first second : String, compare first second = .lt ↔ first < second := by
    intro first second
    exact compareOfLessAndEq_eq_lt
  have hparts : left.listingOrder right =
      (compare left.fileKey right.fileKey).then (left.spotOrder right) := rfl
  rw [listedBefore, hparts, Ordering.isLE_then_iff_or, Std.LawfulEqCmp.compare_eq_iff_eq, hless]

/-- Diagnostics of one place, number and wording tie. -/
theorem spotOrder_of_spot_eq {left right : Diagnostic} (hspot : left.spot = right.spot) :
    left.spotOrder right = .eq := by
  obtain ⟨hrange, hrest⟩ := Prod.mk.inj hspot
  obtain ⟨hcode, hmessage⟩ := Prod.mk.inj hrest
  simp only [spotOrder, compareLex_eq_eq, compareOn, Std.LawfulEqCmp.compare_eq_iff_eq]
  exact ⟨hrange, hcode, hmessage⟩

/-- Sorted diagnostics are in the order of listing. -/
theorem pairwise_listedBefore_sort (given : List Diagnostic) :
    (sort given).Pairwise fun left right => left.listedBefore right = true :=
  List.pairwise_mergeSort listedBefore_trans listedBefore_total given

/-- How the diagnostics of a file are listed, if diagnostics are given. -/
structure ListedOf (file : String) (given listed : List Diagnostic) : Prop where
  /-- Each diagnostic of the file is listed as often as it is given. -/
  perm : listed.Perm (given.filter (·.fileKey = file))
  /-- They are listed by place, then by number, then by wording. -/
  sorted : listed.Pairwise fun left right => (left.spotOrder right).isLE = true
  /-- Those of one place, number and wording are listed in the order in which they are given. -/
  ties : ∀ spot, listed.filter (·.spot = spot) =
    (given.filter (·.fileKey = file)).filter (·.spot = spot)

/-- The part of the sorted diagnostics that belongs to a file is how they are listed. -/
theorem listedOf_filter_sort (file : String) (given : List Diagnostic) :
    ListedOf file given ((sort given).filter (·.fileKey = file)) where
  perm := (List.mergeSort_perm given listedBefore).filter _
  sorted := by
    refine ((pairwise_listedBefore_sort given).filter _).imp_of_mem ?_
    intro left right hleft hright hbefore
    have hsame : left.fileKey = right.fileKey :=
      (of_decide_eq_true (List.mem_filter.mp hleft).2).trans
        (of_decide_eq_true (List.mem_filter.mp hright).2).symm
    rcases listedBefore_iff.mp hbefore with hlt | ⟨-, hspot⟩
    · exact absurd hsame hlt.ne
    · exact hspot
  ties spot := by
    have htied : ∀ left right : Diagnostic,
        (decide (left.spot = spot) && decide (left.fileKey = file)) = true →
        (decide (right.spot = spot) && decide (right.fileKey = file)) = true →
        left.listedBefore right = true := by
      intro left right hleft hright
      simp only [Bool.and_eq_true, decide_eq_true_eq] at hleft hright
      refine listedBefore_iff.mpr (Or.inr ⟨hleft.2.trans hright.2.symm, ?_⟩)
      rw [spotOrder_of_spot_eq (hleft.1.trans hright.1.symm)]
      rfl
    rw [List.filter_filter, List.filter_filter, sort]
    exact filter_mergeSort_of_tied listedBefore_trans listedBefore_total htied given

/-! ## Headers -/

section Headers

variable (handler : ReportHandler) (sources : Keyed String SourceText)

/-- A file with a header: its name as the first diagnostic spells it, then each diagnostic. -/
def renderSection : List Diagnostic → String
  | [] => ""
  | first :: rest =>
    s!"{first.file}:\n" ++ String.join ((first :: rest).map (renderOne handler sources))

/-- There is no further header while the file stays the same. -/
theorem renderFrom_append_of_same {file : String} {listed : List Diagnostic}
    (hfile : ∀ diagnostic ∈ listed, diagnostic.fileKey = file) (rest : List Diagnostic) :
    renderFrom handler sources (some file) (listed ++ rest) =
      String.join (listed.map (renderOne handler sources)) ++
        renderFrom handler sources (some file) rest := by
  induction listed with
  | nil => rw [List.nil_append, List.map_nil, String.join_nil, String.empty_append]
  | cons first listed ih =>
    obtain ⟨hfirst, hlisted⟩ := List.forall_mem_cons.mp hfile
    rw [List.cons_append, renderFrom, hfirst, if_pos rfl, String.empty_append, ih hlisted,
      List.map_cons, String.join_cons, String.append_assoc]

/-- A file that is not the last one gets a header and a section. -/
theorem renderFrom_append_of_ne {file : String} {last : Option String} {listed : List Diagnostic}
    (hlast : last ≠ some file) (hlisted : listed ≠ [])
    (hfile : ∀ diagnostic ∈ listed, diagnostic.fileKey = file) (rest : List Diagnostic) :
    renderFrom handler sources last (listed ++ rest) =
      renderSection handler sources listed ++ renderFrom handler sources (some file) rest := by
  cases listed with
  | nil => exact absurd rfl hlisted
  | cons first listed =>
    obtain ⟨hfirst, hrest⟩ := List.forall_mem_cons.mp hfile
    rw [List.cons_append, renderFrom, hfirst, if_neg hlast,
      renderFrom_append_of_same handler sources hrest, renderSection, List.map_cons,
      String.join_cons]
    simp only [String.append_assoc]

/-- Files that follow each other are rendered as one section each. -/
theorem renderFrom_sections {files : List String} {listed : String → List Diagnostic}
    (hlisted : ∀ file ∈ files, listed file ≠ [])
    (hfile : ∀ file ∈ files, ∀ diagnostic ∈ listed file, diagnostic.fileKey = file)
    {last : Option String} (hlast : ∀ file ∈ files, last ≠ some file) (hnodup : files.Nodup) :
    renderFrom handler sources last (files.flatMap listed) =
      String.join (files.map fun file => renderSection handler sources (listed file)) := by
  induction files generalizing last with
  | nil => rfl
  | cons file files ih =>
    obtain ⟨hnew, hnodup⟩ := List.nodup_cons.mp hnodup
    have hnext : ∀ other ∈ files, some file ≠ some other :=
      fun other hother heq => hnew (Option.some.inj heq ▸ hother)
    rw [List.flatMap_cons,
      renderFrom_append_of_ne handler sources (hlast file List.mem_cons_self)
        (hlisted file List.mem_cons_self) (hfile file List.mem_cons_self),
      ih (fun other hother => hlisted other (List.mem_cons_of_mem file hother))
        (fun other hother => hfile other (List.mem_cons_of_mem file hother)) hnext hnodup,
      List.map_cons, String.join_cons]

end Headers

/-! ## Files in order -/

/-- The keys of the files of diagnostics, each once, in the order in which they are listed. -/
def filesOf (given : List Diagnostic) : List String := ((sort given).map fileKey).dedup

/-- Sorted diagnostics are in the order of their files. -/
theorem pairwise_fileKey_sort (given : List Diagnostic) :
    (sort given).Pairwise fun left right => left.fileKey ≤ right.fileKey := by
  refine (pairwise_listedBefore_sort given).imp fun {left right} hbefore => ?_
  rcases listedBefore_iff.mp hbefore with hlt | ⟨heq, -⟩
  · exact hlt.le
  · exact heq.le

/-- The files of a listing ascend, and no file comes twice. -/
theorem pairwise_filesOf (given : List Diagnostic) : (filesOf given).Pairwise (· < ·) := by
  have hle : (filesOf given).Pairwise (· ≤ ·) :=
    (List.pairwise_map.mpr (pairwise_fileKey_sort given)).sublist (List.dedup_sublist _)
  exact (hle.and (List.nodup_dedup _)).imp fun h => lt_of_le_of_ne h.1 h.2

/-- The files of a listing are those with a diagnostic. -/
theorem mem_filesOf_iff {given : List Diagnostic} {file : String} :
    file ∈ filesOf given ↔ ∃ diagnostic ∈ given, diagnostic.fileKey = file := by
  simp only [filesOf, List.mem_dedup, List.mem_map, sort, List.mem_mergeSort]

/-- A rendered listing has a section for each file. -/
theorem render_eq_join (handler : ReportHandler) (sources : Keyed String SourceText)
    (given : List Diagnostic) :
    render handler sources given = String.join ((filesOf given).map fun file =>
      renderSection handler sources ((sort given).filter (·.fileKey = file))) := by
  have hmem : ∀ diagnostic ∈ sort given, diagnostic.fileKey ∈ filesOf given :=
    fun diagnostic hmem => List.mem_dedup.mpr (List.mem_map_of_mem hmem)
  have hgroups := flatMap_filter_of_sorted (pairwise_filesOf given) (pairwise_fileKey_sort given)
    hmem
  rw [render]
  conv_lhs => rw [← hgroups]
  refine renderFrom_sections handler sources (fun file hfile => ?_)
    (fun file _ diagnostic hmem => ?_)
    (fun _ _ heq => by cases heq) (List.nodup_dedup _)
  · obtain ⟨diagnostic, hdiagnostic, hkey⟩ := List.mem_map.mp (List.mem_dedup.mp hfile)
    exact List.ne_nil_of_mem (List.mem_filter.mpr ⟨hdiagnostic, decide_eq_true hkey⟩)
  · exact of_decide_eq_true (List.mem_filter.mp hmem).2

/-! ## Source context -/

/-- The text of the file of a diagnostic is known, and it has both lines of the range. -/
structure HasContext (sources : Keyed String SourceText) (diagnostic : Diagnostic)
    (source : SourceText) (text : String) : Prop where
  /-- The file is among the sources. -/
  found : sources.get? diagnostic.fileKey = some source
  /-- Its text is known. -/
  contents : source.contents = some text
  /-- The text has the line in which the range starts. -/
  start : diagnostic.range.start.line < (linesOf text).length
  /-- The text has the line in which the range ends. -/
  stop : diagnostic.range.stop.line < (linesOf text).length

/-- A range has a span exactly if both its lines exist. -/
theorem exists_spanOf_iff {source : SourceText} {text : String}
    (hcontents : source.contents = some text) {range : Range} :
    (∃ place, source.spanOf range = .ok place) ↔
      range.start.line < (linesOf text).length ∧ range.stop.line < (linesOf text).length := by
  obtain ⟨path, contents⟩ := source
  obtain rfl : contents = some text := hcontents
  have hlines : (linesOf text).length = text.toList.count '\n' + 1 := by
    rw [linesOf, Text.split, List.length_map, Text.length_splitChars]
  rw [hlines, Nat.lt_succ_iff, Nat.lt_succ_iff,
    ← @SourceText.exists_offsetOf_iff path text range.start,
    ← @SourceText.exists_offsetOf_iff path text range.stop]
  simp only [SourceText.spanOf_eq_ok_iff]
  constructor
  · rintro ⟨_, start, stop, hstart, hstop, -⟩
    exact ⟨⟨start, hstart⟩, ⟨stop, hstop⟩⟩
  · rintro ⟨⟨start, hstart⟩, ⟨stop, hstop⟩⟩
    exact ⟨_, start, stop, hstart, hstop, rfl⟩

variable {handler : ReportHandler} {sources : Keyed String SourceText} {diagnostic : Diagnostic}

/-- Where there is context, the diagnostic is handed to the handler with its text and its place. -/
theorem HasContext.drawn?_eq (handler : ReportHandler) {source : SourceText} {text : String}
    (h : HasContext sources diagnostic source text) :
    ∃ place, source.spanOf diagnostic.range = .ok place ∧
      drawn? handler sources diagnostic = handler.draw? ⟨diagnostic, text, some place⟩ := by
  obtain ⟨place, hspan⟩ := (exists_spanOf_iff h.contents).mpr ⟨h.start, h.stop⟩
  have hplace : (source.spanOf diagnostic.range).toOption = some place := by
    rw [hspan]
    rfl
  refine ⟨place, hspan, ?_⟩
  simp only [drawn?, h.found, Report.of, h.contents, hplace, Option.isSome_some, Bool.and_self,
    if_true, Option.getD_some]

/-- Where there is no context, there is no drawing. -/
theorem drawn?_eq_none (hnone : ¬ ∃ source text, HasContext sources diagnostic source text) :
    drawn? handler sources diagnostic = none := by
  unfold drawn?
  split
  · rfl
  · rename_i source hfound
    refine if_neg fun hboth => hnone ?_
    obtain ⟨hcontents, hspan⟩ := Bool.and_eq_true _ _ |>.mp hboth
    obtain ⟨text, hcontents⟩ := Option.isSome_iff_exists.mp hcontents
    have hplace : ∃ place, source.spanOf diagnostic.range = .ok place := by
      cases hplace : source.spanOf diagnostic.range with
      | error e =>
        rw [hplace] at hspan
        cases hspan
      | ok place => exact ⟨place, rfl⟩
    obtain ⟨hstart, hstop⟩ := (exists_spanOf_iff hcontents).mp hplace
    exact ⟨source, text, hfound, hcontents, hstart, hstop⟩

/-- The indented line of a diagnostic, with all that it tells. -/
def indentedLine (diagnostic : Diagnostic) : String :=
  let line := ordinal diagnostic.range.start.line
  let character := ordinal diagnostic.range.start.character
  let severity := diagnostic.severity.word
  s!"  {diagnostic.file}:{line}:{character} - {severity} " ++ s!"BS{diagnostic.code}" ++
    s!": {diagnostic.message}\n"

/-- The line that is printed without context is the specified one. -/
theorem indented_text (diagnostic : Diagnostic) :
    s!"  {diagnostic.text}\n" = diagnostic.indentedLine := by
  have hcode : " BS" = " " ++ "BS" := by decide
  simp only [text, indentedLine, toString, hcode, String.append_assoc]

/-- A diagnostic without context is an indented line. -/
theorem renderOne_of_no_context
    (hnone : ¬ ∃ source text, HasContext sources diagnostic source text) :
    renderOne handler sources diagnostic = diagnostic.indentedLine := by
  rw [renderOne, drawn?_eq_none hnone, Option.getD_none, indented_text]

section Faithful

variable (hfaithful : handler.Faithful)
include hfaithful

/-- A diagnostic with context is what the handler draws for it. -/
theorem HasContext.draw?_eq {source : SourceText} {text : String}
    (h : HasContext sources diagnostic source text) :
    ∃ place, source.spanOf diagnostic.range = .ok place ∧
      handler.draw? ⟨diagnostic, text, some place⟩ =
        some (renderOne handler sources diagnostic) := by
  obtain ⟨place, hspan, hdrawn⟩ := h.drawn?_eq handler
  obtain ⟨drawing, hdrawing⟩ := hfaithful.draws ⟨diagnostic, text, some place⟩
  refine ⟨place, hspan, ?_⟩
  rw [renderOne, hdrawn, hdrawing, Option.getD_some]

/-- A diagnostic is an indented line exactly if it has no context. -/
theorem renderOne_eq_indented_iff :
    renderOne handler sources diagnostic = diagnostic.indentedLine ↔
      ¬ ∃ source text, HasContext sources diagnostic source text := by
  refine ⟨?_, renderOne_of_no_context⟩
  rintro hindented ⟨source, text, hcontext⟩
  -- a drawing starts with the code, so it is not an indented line
  obtain ⟨place, -, hdraw⟩ := hcontext.draw?_eq hfaithful
  obtain ⟨rest, hrest⟩ := hfaithful.code _ _ hdraw
  have hcode : (toString "BS").toList = ['B', 'S'] := rfl
  have hblanks : (toString "  ").toList = [' ', ' '] := rfl
  have hchars := congrArg String.toList (hrest.symm.trans hindented)
  simp only [indentedLine, String.append_assoc, String.toList_append, hcode, hblanks,
    List.cons_append] at hchars
  exact absurd (List.cons.inj hchars).1 (by decide)

/-- What is listed of a diagnostic holds its code, and its message if that is plain. -/
theorem within_renderOne (diagnostic : Diagnostic) :
    Text.Within s!"BS{diagnostic.code}" (renderOne handler sources diagnostic) ∧
      (Text.IsPlain diagnostic.message →
        Text.Within diagnostic.message (renderOne handler sources diagnostic)) := by
  by_cases hcontext : ∃ source text, HasContext sources diagnostic source text
  · obtain ⟨source, text, hcontext⟩ := hcontext
    obtain ⟨place, -, hdraw⟩ := hcontext.draw?_eq hfaithful
    obtain ⟨rest, hrest⟩ := hfaithful.code _ _ hdraw
    refine ⟨?_, hfaithful.message _ _ hdraw⟩
    rw [hrest]
    exact ((Text.within_refl _).append_right _).append_right _
  · rw [renderOne_of_no_context hcontext]
    refine ⟨((Text.within_refl _).append_left _).append_right _, fun _ => ?_⟩
    exact (((Text.within_refl _).append_left _).append_right _).append_left _

end Faithful

/-- Each diagnostic that is given is listed. -/
theorem renderOne_within_render (handler : ReportHandler) (sources : Keyed String SourceText)
    {given : List Diagnostic} (hmem : diagnostic ∈ given) :
    Text.Within (renderOne handler sources diagnostic) (render handler sources given) := by
  rw [render_eq_join]
  have hfile : diagnostic.fileKey ∈ filesOf given := mem_filesOf_iff.mpr ⟨diagnostic, hmem, rfl⟩
  refine Text.Within.trans ?_ (Text.within_join (List.mem_map_of_mem hfile))
  have hlisted : diagnostic ∈ (sort given).filter (·.fileKey = diagnostic.fileKey) :=
    List.mem_filter.mpr ⟨List.mem_mergeSort.mpr hmem, decide_eq_true rfl⟩
  cases hsection : (sort given).filter (·.fileKey = diagnostic.fileKey) with
  | nil =>
    rw [hsection] at hlisted
    cases hlisted
  | cons first rest =>
    rw [hsection] at hlisted
    exact (Text.within_join (List.mem_map_of_mem hlisted)).append_left _

/-- Rendering with a faithful handler writes one section for each file of the diagnostics, in the
order of the keys of the files. A section has the file as its first diagnostic spells it, then each
diagnostic of the file once, by place, number and wording, with ties in the order in which they are
given. A diagnostic with context is what the handler draws for it, its text and its place, and any
other one, and no other, is an indented line. Nothing is dropped: what is listed of a given
diagnostic stands in the listing, with its code and its message, and with the line of the text in
which it starts if it has context. -/
theorem render_sections (handler : ReportHandler) (hfaithful : handler.Faithful)
    (sources : Keyed String SourceText) (given : List Diagnostic) :
    (∃ sections : List (String × List Diagnostic),
      (sections.map Prod.fst).Pairwise (· < ·) ∧
      (∀ file, file ∈ sections.map Prod.fst ↔ ∃ diagnostic ∈ given, diagnostic.fileKey = file) ∧
      (∀ entry ∈ sections, ListedOf entry.1 given entry.2) ∧
      render handler sources given =
        String.join (sections.map fun entry => renderSection handler sources entry.2)) ∧
    ∀ diagnostic : Diagnostic,
      (∀ source text, HasContext sources diagnostic source text →
        ∃ place, source.spanOf diagnostic.range = .ok place ∧
          handler.draw? ⟨diagnostic, text, some place⟩ =
            some (renderOne handler sources diagnostic) ∧
          ∀ line, (linesOf text)[diagnostic.range.start.line]? = some line → Text.IsPlain line →
            Text.Within line (renderOne handler sources diagnostic)) ∧
      (renderOne handler sources diagnostic = diagnostic.indentedLine ↔
        ¬ ∃ source text, HasContext sources diagnostic source text) ∧
      (diagnostic ∈ given →
        Text.Within (renderOne handler sources diagnostic) (render handler sources given)) ∧
      Text.Within s!"BS{diagnostic.code}" (renderOne handler sources diagnostic) ∧
      (Text.IsPlain diagnostic.message →
        Text.Within diagnostic.message (renderOne handler sources diagnostic)) := by
  refine ⟨?_, fun diagnostic => ⟨fun source text hcontext => ?_,
    renderOne_eq_indented_iff hfaithful, renderOne_within_render handler sources,
    within_renderOne hfaithful diagnostic⟩⟩
  · have hfiles : ((filesOf given).map fun file =>
        (file, (sort given).filter (·.fileKey = file))).map Prod.fst = filesOf given := by
      rw [List.map_map]
      exact List.map_id _
    refine ⟨(filesOf given).map fun file => (file, (sort given).filter (·.fileKey = file)), ?_, ?_,
      ?_, ?_⟩
    · rw [hfiles]
      exact pairwise_filesOf given
    · intro file
      rw [hfiles]
      exact mem_filesOf_iff
    · intro entry hentry
      obtain ⟨file, -, rfl⟩ := List.mem_map.mp hentry
      exact listedOf_filter_sort file given
    · rw [render_eq_join, List.map_map]
      rfl
  · obtain ⟨place, hspan, hdraw⟩ := hcontext.draw?_eq hfaithful
    exact ⟨place, hspan, hdraw, fun line hline => hfaithful.line _ _ line hdraw rfl hline⟩

/-! ## A listing of two files -/

/-- The text of a sub that prints an unknown name. -/
def printingText : String := "sub main()\n    print missing\nend sub\n"

/-- The file of the sub. -/
def printingSource : SourceText := ⟨"source/main.bs", some printingText⟩

/-- The file of the sub is the only one of which the text is known. -/
def printingSources : Keyed String SourceText := .ofList [("source/main.bs", printingSource)]

/-- The unknown name. -/
def missingName : Diagnostic :=
  ⟨1001, "Cannot find name 'missing'", .onLine 1 10 7, "source/main.bs", .error, []⟩

/-- A problem in a file without text, at the last line that can be counted from one. -/
def strayProblem : Diagnostic :=
  ⟨1145, "Component is deprecated", .onLine 4294967294 0 3, "source/lib.bs", .warning, []⟩

/-- The text around the missing name is known. -/
theorem hasContext_missingName :
    HasContext printingSources missingName printingSource printingText where
  found := by decide +kernel
  contents := rfl
  start := by decide +kernel
  stop := by decide +kernel

/-- The unknown name is listed with its code, its message and its line, and the other problem as an
indented line. -/
theorem printing_rendered :
    ReportHandler.framed.Faithful ∧
      HasContext printingSources missingName printingSource printingText ∧
      (∃ drawing, Text.Within drawing
          (render .framed printingSources [missingName, strayProblem]) ∧
        Text.Within "BS1001" drawing ∧ Text.Within "Cannot find name 'missing'" drawing ∧
        Text.Within "    print missing" drawing) ∧
      Text.Within "  source/lib.bs:4294967295:1 - warning BS1145: Component is deprecated\n"
        (render .framed printingSources [missingName, strayProblem]) := by
  obtain ⟨-, hall⟩ := render_sections .framed framed_faithful printingSources
    [missingName, strayProblem]
  obtain ⟨hdrawn, -, hlisted, hcode, hmessage⟩ := hall missingName
  obtain ⟨place, -, -, hline⟩ := hdrawn _ _ hasContext_missingName
  have hplainMessage : Text.IsPlain "Cannot find name 'missing'" := by decide +kernel
  have hplainLine : Text.IsPlain "    print missing" := by decide +kernel
  have hnone : ¬ ∃ source text, HasContext printingSources strayProblem source text := by
    rintro ⟨source, text, hcontext⟩
    have hfound := hcontext.found
    have hunknown : printingSources.get? strayProblem.fileKey = none := by decide +kernel
    rw [hunknown] at hfound
    cases hfound
  obtain ⟨-, hindented, hstray, -⟩ := hall strayProblem
  refine ⟨framed_faithful, hasContext_missingName,
    ⟨_, hlisted List.mem_cons_self, hcode, hmessage hplainMessage, ?_⟩, ?_⟩
  · exact hline _ (by decide +kernel) hplainLine
  · have hstray := hstray (List.mem_cons_of_mem _ List.mem_cons_self)
    rw [hindented.mpr hnone] at hstray
    have hline : strayProblem.indentedLine =
        "  source/lib.bs:4294967295:1 - warning BS1145: Component is deprecated\n" := by
      decide +kernel
    rwa [hline] at hstray

end Diagnostic

end ScopeCheck
