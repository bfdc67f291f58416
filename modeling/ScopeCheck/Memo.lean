import ScopeCheck.Keyed

/-!
# Memos

A memo keeps what has been computed for a key. The first value stored under a key stays: whoever
computes another value for it later is handed the stored one. While a value is being computed, the
memo may be used, even for the same key.
-/

namespace ScopeCheck

/-- Values that have been computed, under their keys. -/
structure Memo (κ ν : Type) where
  /-- The stored values. -/
  stored : Keyed κ ν

namespace Memo

variable {κ ν : Type} [DecidableEq κ]

omit [DecidableEq κ] in
/-- The memo without values. -/
def empty : Memo κ ν := ⟨.empty⟩

/-- The value stored under a key. -/
def get? (memo : Memo κ ν) (key : κ) : Option ν := memo.stored.get? key

omit [DecidableEq κ] in
/-- The number of stored values. -/
def size (memo : Memo κ ν) : Nat := memo.stored.size

/-- Stores a value under a key that has none yet; the value that is then stored. -/
def store (memo : Memo κ ν) (key : κ) (value : ν) : ν × Memo κ ν :=
  match memo.get? key with
  | some known => (known, memo)
  | none => (value, ⟨memo.stored.put key value⟩)

/-- The value of a key, which is computed by `make` and stored if there is none yet. -/
def getOrAdd {m : Type → Type} [Monad m] (memo : Memo κ ν) (key : κ)
    (make : Memo κ ν → m (ν × Memo κ ν)) : m (ν × Memo κ ν) :=
  match memo.get? key with
  | some known => pure (known, memo)
  | none => do
    let (value, later) ← make memo
    pure (later.store key value)

/-- The value of a key, where computing it does not use the memo. -/
def remember (memo : Memo κ ν) (key : κ) (value : ν) : ν × Memo κ ν :=
  Id.run (memo.getOrAdd key fun later => (value, later))

end Memo

end ScopeCheck
