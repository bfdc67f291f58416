import ScopeCheck.Text.Lower

/-!
# Package paths

A file is known by its path inside the package. Paths that differ only in case or in the
direction of their slashes name the same file, so files are kept and sorted under a key.
-/

namespace ScopeCheck

/-- A path with forward slashes only. -/
def forwardSlashes (path : String) : String :=
  String.ofList (path.toList.map fun c => if c = '\\' then '/' else c)

/-- The key of a package path: forward slashes, in lower case. -/
def pathKey (path : String) : String := Text.lower (forwardSlashes path)

end ScopeCheck
