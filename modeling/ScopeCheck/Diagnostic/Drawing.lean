import ScopeCheck.Diagnostic.Excerpt
import ScopeCheck.Diagnostic.Report
import ScopeCheck.Text.Indented

/-!
# Reports in frames

A handler for the console. It draws the line before a place, the lines of the place, and the line
after, beside a frame. A place in one line is underlined, and one over several lines has a bracket
beside them. Every character takes one column, and no line is wrapped, so that the drawing is in
order for texts of printable characters without tabs that fit into the width of the console.
Listings do not depend on this handler: they are made with any.
-/

namespace ScopeCheck

/-- A text of the given number of copies of a character. -/
def replicateChar (count : Nat) (c : Char) : String := String.ofList (List.replicate count c)

/-- A number set to the right of a column. -/
def alignRight (width : Nat) (number : Nat) : String :=
  let digits := toString number
  replicateChar (width - digits.length) ' ' ++ digits

/-- The sign in front of the message. -/
def ReportGrade.sign : ReportGrade → String
  | error => "×"
  | warning => "⚠"
  | advice => "☞"

namespace TextLine

/-- The bracket beside a line of a place that covers several lines. -/
def bracket (line : TextLine) (place : Span) : String :=
  if !line.meets place then "    "
  else if line.offset ≤ place.offset then "╭─▶ "
  else if place.offset + place.length ≤ line.stop then "╰─▶ "
  else "│   "

/-- The marks under a place: a line under its characters, or a tip if it has none. -/
def underline (line : TextLine) (place : Span) : String :=
  let column := line.column place.offset
  replicateChar column ' ' ++
    if place.length = 0 then "▲"
    else replicateChar (line.column (place.offset + place.length) - column) '─'

end TextLine

namespace Report

/-- A line of the frame that stands beside no line of the text. -/
def drawFrame (width : Nat) (drawing : String) : String :=
  replicateChar (width + 2) ' ' ++ drawing ++ "\n"

/-- A numbered line of the text, followed by the marks under a place that lies in it. -/
def drawLine (width : Nat) (bracketed : Bool) (place : Span) (line : TextLine) : String :=
  let bracket := if bracketed then line.bracket place else ""
  s!" {alignRight width line.number} │ {bracket}{String.ofList line.text}\n" ++
    if line.holds place then drawFrame width s!"· {line.underline place}" else ""

/-- The top of the frame. Line and column of the place are given if there is more than one line
to look for it in; the column counts bytes. -/
def drawTop (width : Nat) (lines : List TextLine) (before : Nat) (place : Span) : String :=
  match lines with
  | [] | [_] => drawFrame width "╭────"
  | _ =>
    let offset := ((lines.find? (·.number = before + 1)).map (·.offset)).getD place.offset
    drawFrame width s!"╭─[{before + 1}:{place.offset - offset + 1}]"

/-- The lines of the text around a place, in a frame. -/
def drawExcerpt (contents : String) (before : Nat) (place : Span) : String :=
  let lines := TextLine.around contents before place
  let width := (toString ((lines.getLast?.map (·.number)).getD 0)).length
  let bracketed := lines.any fun line => line.meets place && !line.holds place
  drawTop width lines before place
    ++ String.join (lines.map (drawLine width bracketed place))
    ++ drawFrame width "╰────"

/-- Draws a report: the code, the message, the lines around the place and the advice. -/
def draw (report : Report) : String :=
  s!"{report.codeText}\n\n"
    ++ Text.indentLines s!"  {report.grade.sign} " "  │ " report.diagnostic.message
    ++ (report.span.map (drawExcerpt report.source report.diagnostic.range.start.line)).getD ""
    ++ (report.help.map (Text.indentLines "  help: " "        ")).getD ""

end Report

/-- The handler that draws every report in a frame. -/
def ReportHandler.framed : ReportHandler := ⟨fun report => some report.draw⟩

end ScopeCheck
