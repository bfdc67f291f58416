import ScopeCheck.Config.Basic
import ScopeCheck.Scope
import ScopeCheck.Text.Blank

/-!
# Written overrides

The severity of a code is written under the code, with or without the letters `BS` in front. A code
may be written twice if both spellings agree.
-/

namespace ScopeCheck

/-- Why settings are refused. -/
inductive ConfigError where
  /-- The file cannot be read. -/
  | unreadable (path : String)
  /-- The text is no TOML, or a value has the wrong type. -/
  | malformed
  /-- A severity is written under something that is no code. -/
  | invalidCode (key : String)
  /-- Two spellings of one code disagree. -/
  | conflict (code : Nat) (first second : Severity)
deriving DecidableEq, Repr

namespace ConfigError

/-- What is said of an error, as far as the wording is fixed. -/
def message? : ConfigError → Option String
  | unreadable path => some s!"Cannot read configuration file {path}"
  | malformed => none
  | invalidCode key => some s!"invalid diagnostic code '{key}' in severity_overrides"
  | conflict code first second =>
    some s!"conflicting severity overrides for code {code}: {first.word} and {second.word}"

/-- The identifier of the kind of error. -/
def tag : ConfigError → String
  | unreadable _ => "bsc_db::config_io"
  | _ => "bsc_db::config"

/-- Advice on an error, where there is any. -/
def help? : ConfigError → Option String
  | unreadable _ => none
  | _ => some "Check the TOML syntax and field names of the config file"

end ConfigError

/-- Codes are below this, since they have 32 bits. -/
def codeLimit : Nat := 4294967296

/-- The text after the letters in front of a code. -/
def dropCodeLetters : List Char → List Char
  | 'B' :: 'S' :: rest => rest
  | 'b' :: 's' :: rest => rest
  | text => text

/-- The number that decimal digits write, of which there is at least one. A plus may stand in
front. -/
def readCount? (text : List Char) : Option Nat :=
  let digits :=
    match text with
    | '+' :: rest => rest
    | other => other
  if digits.isEmpty || !digits.all Char.isDigit then none
  else some (digits.foldl (fun total c => total * 10 + (c.toNat - '0'.toNat)) 0)

/-- The code that a key writes. -/
def parseCode? (key : String) : Option Nat :=
  (readCount? (dropCodeLetters (Text.trim key).toList)).filter (· < codeLimit)

/-- Takes in one written override. -/
def readOverride (overrides : Keyed Nat Severity) (written : String × Severity) :
    Except ConfigError (Keyed Nat Severity) :=
  match parseCode? written.1 with
  | none => .error (.invalidCode written.1)
  | some code =>
    match overrides.get? code with
    | some first =>
      if first = written.2 then .ok overrides else .error (.conflict code first written.2)
    | none => .ok (overrides.put code written.2)

/-- The overrides that are written, read in the order of their keys. -/
def readOverrides (written : List (String × Severity)) :
    Except ConfigError (Keyed Nat Severity) :=
  (written.mergeSort fun left right => textAtOrBefore left.1 right.1).foldlM readOverride .empty

/-- How overrides are written, in the order of their keys. -/
def writeOverrides (overrides : Keyed Nat Severity) : List (String × Severity) :=
  (overrides.entries.map fun (code, severity) => (s!"BS{code}", severity)).mergeSort
    fun left right => textAtOrBefore left.1 right.1

end ScopeCheck
