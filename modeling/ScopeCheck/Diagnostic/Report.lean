import ScopeCheck.Diagnostic.Basic
import ScopeCheck.Keyed
import ScopeCheck.SourceText

/-!
# Reports with source context

A report joins a diagnostic with the text of its file. `render` lists diagnostics under a header
line for each file. A diagnostic whose place exists in a known text is drawn as a report, by
whatever handler is given. Any other diagnostic is one indented line, and so is one of which the
handler makes no drawing.
-/

namespace ScopeCheck

/-- How a report presents its diagnostic. Information and hints are both advice. -/
inductive ReportGrade where
  | error
  | warning
  | advice
deriving DecidableEq, Repr

namespace ReportGrade

/-- The grade of a severity. -/
def ofSeverity : Severity → ReportGrade
  | .error => error
  | .warning => warning
  | .information | .hint => advice

end ReportGrade

/-- A related place on one line, with line and character counted from one. -/
def Related.text (related : Related) : String :=
  let line := ordinal related.location.range.start.line
  let character := ordinal related.location.range.start.character
  s!"{related.location.file}:{line}:{character}: {related.message}"

/-- A diagnostic together with the text of its file and its place in that text. -/
structure Report where
  /-- The diagnostic. -/
  diagnostic : Diagnostic
  /-- The text of the file, which is empty if it is not known. -/
  source : String
  /-- The place, if the text has it. -/
  span : Option Span

namespace Report

/-- The report of a diagnostic on a text. -/
def of (diagnostic : Diagnostic) (source : SourceText) : Report :=
  ⟨diagnostic, source.contents.getD "", (source.spanOf diagnostic.range).toOption⟩

/-- The code as it is printed. -/
def codeText (report : Report) : String := s!"BS{report.diagnostic.code}"

/-- The grade of the report. -/
def grade (report : Report) : ReportGrade := .ofSeverity report.diagnostic.severity

/-- The lines of advice, one for each related place. -/
def helpLines (report : Report) : List String := report.diagnostic.related.map Related.text

/-- The advice, if the diagnostic has related places. -/
def help (report : Report) : Option String :=
  if report.diagnostic.related.isEmpty then none else some ("\n".intercalate report.helpLines)

end Report

/-- What draws reports for the console. -/
structure ReportHandler where
  /-- The drawing of a report, or `none` if the handler fails. -/
  draw? : Report → Option String

namespace Diagnostic

/-- The drawing of a diagnostic, if the text of its file is known and has its place and the handler
does not fail. -/
def drawn? (handler : ReportHandler) (sources : Keyed String SourceText)
    (diagnostic : Diagnostic) : Option String :=
  match sources.get? diagnostic.fileKey with
  | none => none
  | some source =>
    if source.contents.isSome && (source.spanOf diagnostic.range).toOption.isSome then
      handler.draw? (.of diagnostic source)
    else none

/-- One diagnostic as listed under its file: its drawing, or else an indented line. -/
def renderOne (handler : ReportHandler) (sources : Keyed String SourceText)
    (diagnostic : Diagnostic) : String :=
  (drawn? handler sources diagnostic).getD s!"  {diagnostic.text}\n"

/-- Lists sorted diagnostics, with a header line wherever the file differs from the last one. -/
def renderFrom (handler : ReportHandler) (sources : Keyed String SourceText)
    (last : Option String) : List Diagnostic → String
  | [] => ""
  | diagnostic :: rest =>
    (if last = some diagnostic.fileKey then "" else s!"{diagnostic.file}:\n")
      ++ renderOne handler sources diagnostic
      ++ renderFrom handler sources (some diagnostic.fileKey) rest

/-- Lists diagnostics file by file, with source context where it is known. -/
def render (handler : ReportHandler) (sources : Keyed String SourceText)
    (diagnostics : List Diagnostic) : String :=
  renderFrom handler sources none (sort diagnostics)

end Diagnostic

end ScopeCheck
