import ScopeCheck.Diagnostic.Basic
import ScopeCheck.Keyed

/-!
# Settings

Settings shape the diagnostics of a program: filters drop some, and overrides change the severity
of all that have a certain code.
-/

namespace ScopeCheck

/-- Tells which diagnostics are dropped. -/
structure Filter where
  /-- A path, or the start of one with a star at its end; every path if there is none. -/
  source : Option String
  /-- The codes that are meant; every code if there are none. -/
  codes : List Nat
deriving DecidableEq, Repr

namespace Filter

/-- The filter that drops everything. -/
def everything : Filter := ⟨none, []⟩

/-- Whether a pattern fits a path. Stars at the end of a pattern stand for any text. -/
def fits (pattern path : String) : Bool :=
  let shape := (pathKey pattern).toList
  if shape.getLast? = some '*' then
    (shape.reverse.dropWhile (· = '*')).reverse.isPrefixOf (pathKey path).toList
  else pathKey path = pathKey pattern

/-- Whether a diagnostic is dropped. -/
def covers (filter : Filter) (diagnostic : Diagnostic) : Bool :=
  (filter.codes.isEmpty || filter.codes.contains diagnostic.code) &&
    match filter.source with
    | none => true
    | some pattern => fits pattern diagnostic.file

end Filter

/-- The settings of a program. -/
structure Config where
  /-- What is dropped. -/
  filters : List Filter
  /-- The severity of codes, where it is not the usual one. -/
  overrides : Keyed Nat Severity
  /-- Whether scopes without common scripts are examined at the same time. -/
  parallel : Bool

namespace Config

/-- The settings of a program that has none written. -/
def usual : Config := ⟨[], .empty, true⟩

/-- Whether a diagnostic is dropped. -/
def drops (config : Config) (diagnostic : Diagnostic) : Bool :=
  config.filters.any fun filter => filter.covers diagnostic

/-- A diagnostic with the severity that the settings give it. -/
def regrade (config : Config) (diagnostic : Diagnostic) : Diagnostic :=
  match config.overrides.get? diagnostic.code with
  | some severity => { diagnostic with severity }
  | none => diagnostic

/-- The diagnostics that are kept, with the severities that the settings give them. -/
def apply (config : Config) (diagnostics : List Diagnostic) : List Diagnostic :=
  (diagnostics.filter fun diagnostic => !config.drops diagnostic).map config.regrade

end Config

end ScopeCheck
