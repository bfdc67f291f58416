import ScopeCheck.Text.Split

/-!
# Indented texts

A text of several lines under one another, each after an indent. The first line has an indent of
its own, which carries the sign or the label of the text.
-/

namespace ScopeCheck.Text

/-- A text without the spaces at its end. -/
def dropSpacesEnd (text : String) : String :=
  String.ofList (text.toList.reverse.dropWhile (· = ' ')).reverse

/-- The lines of a text after their indents. Spaces at the end of a line are left out. -/
def indentLines (first rest text : String) : String :=
  match split '\n' text with
  | [] => ""
  | line :: lines =>
    String.join
      ((first ++ dropSpacesEnd line ++ "\n") ::
        lines.map fun line => rest ++ dropSpacesEnd line ++ "\n")

end ScopeCheck.Text
