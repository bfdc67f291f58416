import ScopeCheck.Config.Overrides
import ScopeCheck.Toml.Reader

/-!
# Reading settings

Settings are read from the outermost table of a file, in the order in which its entries stand; the
first fault counts. Entries of other names are passed over, and missing ones have their usual
values.
-/

namespace ScopeCheck

/-- Whether a value is a table or an array without content. -/
def Toml.Value.isVoid : Toml.Value → Bool
  | .array items => items.isEmpty
  | .tables elements => elements.isEmpty
  | .table _ entries => entries.isEmpty
  | _ => false

/-- A severity: a word, or a table that holds nothing but the word with a void value. -/
def decodeSeverity : Toml.Value → Except ConfigError Severity
  | .string word => ((Severity.ofKeyword? word).map .ok).getD (.error .malformed)
  | .table _ [(word, value)] =>
    if value.isVoid then ((Severity.ofKeyword? word).map .ok).getD (.error .malformed)
    else .error .malformed
  | _ => .error .malformed

/-- Overrides: a table of severities. -/
def decodeOverrides : Toml.Value → Except ConfigError (Keyed Nat Severity)
  | .table _ entries => do
    let written ← entries.mapM fun (key, value) => do pure (key, ← decodeSeverity value)
    readOverrides written
  | _ => .error .malformed

/-- A code. -/
def decodeCode : Toml.Value → Except ConfigError Nat
  | .integer n => if 0 ≤ n && n < codeLimit then .ok n.toNat else .error .malformed
  | _ => .error .malformed

/-- A list of codes. -/
def decodeCodes : Toml.Value → Except ConfigError (List Nat)
  | .array items => items.mapM decodeCode
  | _ => .error .malformed

/-- The pattern of a filter. -/
def decodePattern : Toml.Value → Except ConfigError String
  | .string pattern => .ok pattern
  | _ => .error .malformed

/-- Takes in one entry of a filter. -/
def decodeFilterEntry (filter : Filter) (entry : String × Toml.Value) :
    Except ConfigError Filter :=
  if entry.1 = "src" then do pure { filter with source := some (← decodePattern entry.2) }
  else if entry.1 = "codes" then do pure { filter with codes := ← decodeCodes entry.2 }
  else .ok filter

/-- A filter: a table, or an array that lists the pattern and the codes in this order. A date is a
table without known entries. -/
def decodeFilter : Toml.Value → Except ConfigError Filter
  | .table _ entries => entries.foldlM decodeFilterEntry .everything
  | .array items => ((["src", "codes"]).zip items).foldlM decodeFilterEntry .everything
  | .date => .ok .everything
  | _ => .error .malformed

/-- A list of filters. -/
def decodeFilters : Toml.Value → Except ConfigError (List Filter)
  | .array items => items.mapM decodeFilter
  | .tables elements => elements.mapM fun entries => decodeFilter (.table .headed entries)
  | _ => .error .malformed

/-- A truth value. -/
def decodeTruth : Toml.Value → Except ConfigError Bool
  | .boolean value => .ok value
  | _ => .error .malformed

namespace Config

/-- Takes in one entry of the settings. -/
def readEntry (config : Config) (entry : String × Toml.Value) : Except ConfigError Config :=
  if entry.1 = "diagnostic_filters" then do
    pure { config with filters := ← decodeFilters entry.2 }
  else if entry.1 = "severity_overrides" then do
    pure { config with overrides := ← decodeOverrides entry.2 }
  else if entry.1 = "parallel_validation" then do
    pure { config with parallel := ← decodeTruth entry.2 }
  else .ok config

/-- The settings that a text writes. -/
def read (text : String) : Except ConfigError Config :=
  match Toml.read? text with
  | none => .error .malformed
  | some entries => entries.foldlM readEntry usual

end Config

end ScopeCheck
