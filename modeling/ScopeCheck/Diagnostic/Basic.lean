import ScopeCheck.Position
import ScopeCheck.PackagePath

/-!
# Diagnostics

A diagnostic is one problem at one place of one file, with a severity and, where other places
help to understand it, related information. Two diagnostics with equal keys describe the same
problem; the key leaves out the file and writes the range as text.
-/

namespace ScopeCheck

/-- How serious a problem is. Only errors fail a build. -/
inductive Severity where
  | error
  | warning
  | information
  | hint
deriving DecidableEq, Repr

namespace Severity

/-- The severity as it stands in a printed diagnostic. -/
def word : Severity → String
  | error => "error"
  | warning => "warning"
  | information => "info"
  | hint => "hint"

/-- The severity as it is written in a configuration. -/
def keyword : Severity → String
  | error => "error"
  | warning => "warning"
  | information => "information"
  | hint => "hint"

/-- Reads a severity as written in a configuration. -/
def ofKeyword? (text : String) : Option Severity :=
  [error, warning, information, hint].find? fun severity => severity.keyword = text

end Severity

/-- A place in a file. -/
structure Location where
  /-- The package path of the file. -/
  file : String
  /-- The place in it. -/
  range : Range
deriving DecidableEq, Repr

/-- A further place that explains a diagnostic. -/
structure Related where
  /-- What the place has to do with the problem. -/
  message : String
  /-- The place. -/
  location : Location
deriving DecidableEq, Repr

/-- One problem in one file. -/
structure Diagnostic where
  /-- The number of the kind of problem, printed after `BS`. -/
  code : Nat
  /-- The wording. -/
  message : String
  /-- Where the problem is. -/
  range : Range
  /-- The package path of the file. -/
  file : String
  /-- How serious the problem is. -/
  severity : Severity
  /-- Further places, in the order in which they are listed. -/
  related : List Related
deriving DecidableEq, Repr

/-- What makes two diagnostics the same problem. -/
structure DiagnosticKey where
  /-- The number of the kind of problem. -/
  code : Nat
  /-- The wording. -/
  message : String
  /-- The place, as text. -/
  range : String
deriving DecidableEq, Repr

instance : Ord DiagnosticKey :=
  ⟨compareLex (compareOn DiagnosticKey.code)
    (compareLex (compareOn DiagnosticKey.message) (compareOn DiagnosticKey.range))⟩

namespace Diagnostic

/-- The key of a diagnostic. -/
def key (diagnostic : Diagnostic) : DiagnosticKey :=
  ⟨diagnostic.code, diagnostic.message, diagnostic.range.text⟩

/-- The key of the file that the problem is in. -/
def fileKey (diagnostic : Diagnostic) : String := pathKey diagnostic.file

/-- The diagnostic with one more related place at the end. -/
def withRelated (diagnostic : Diagnostic) (related : Related) : Diagnostic :=
  { diagnostic with related := diagnostic.related ++ [related] }

/-- Whether two diagnostics report the same problem in a file of the same spelling. -/
def sameProblem (left right : Diagnostic) : Bool :=
  left.file = right.file && left.code = right.code && left.message = right.message
    && left.range = right.range

/-- Whether the diagnostic fails a build. -/
def isError (diagnostic : Diagnostic) : Bool := diagnostic.severity = .error

/-- The diagnostic on one line, with line and character counted from one. -/
def text (diagnostic : Diagnostic) : String :=
  let line := ordinal diagnostic.range.start.line
  let character := ordinal diagnostic.range.start.character
  let severity := diagnostic.severity.word
  s!"{diagnostic.file}:{line}:{character} - {severity} BS{diagnostic.code}: {diagnostic.message}"

/-- The order of listing: by file, then place, then code, then wording. -/
def listingOrder : Diagnostic → Diagnostic → Ordering :=
  compareLex (compareOn fileKey)
    (compareLex (compareOn range) (compareLex (compareOn code) (compareOn message)))

/-- Whether a diagnostic is listed no later than another. -/
def listedBefore (left right : Diagnostic) : Bool := (listingOrder left right).isLE

/-- Sorts diagnostics for listing; those that compare equal keep their order. -/
def sort (diagnostics : List Diagnostic) : List Diagnostic :=
  diagnostics.mergeSort listedBefore

/-- One line for each diagnostic, in listing order. -/
def renderPlain (diagnostics : List Diagnostic) : String :=
  String.join ((sort diagnostics).map fun diagnostic => diagnostic.text ++ "\n")

end Diagnostic

end ScopeCheck
