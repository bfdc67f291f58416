/-!
# Global functions of the platform

The functions that every script may call without declaring them, in name order, with the numbers
of arguments that they take.
-/

namespace ScopeCheck

/-- A function that every script may call. -/
structure GlobalFunction where
  /-- The name as the platform documents it. -/
  name : String
  /-- The fewest arguments it takes. -/
  least : Nat
  /-- The most arguments it takes. -/
  most : Nat
deriving DecidableEq, Repr

/-- Whether a call with so many arguments is accepted. -/
def GlobalFunction.accepts (function : GlobalFunction) (count : Nat) : Bool :=
  function.least ≤ count && count ≤ function.most

/-- Every global function, in name order. -/
def globalFunctions : List GlobalFunction :=
  [⟨"Abs", 1, 1⟩, ⟨"Asc", 1, 1⟩, ⟨"Atn", 1, 1⟩, ⟨"Box", 1, 1⟩, ⟨"Cdbl", 1, 1⟩, ⟨"Chr", 1, 1⟩,
   ⟨"Cint", 1, 1⟩, ⟨"CopyFile", 2, 2⟩, ⟨"Cos", 1, 1⟩, ⟨"CreateDirectory", 1, 1⟩,
   ⟨"CreateObject", 1, 7⟩, ⟨"Csng", 1, 1⟩, ⟨"DeleteDirectory", 1, 1⟩, ⟨"DeleteFile", 1, 1⟩,
   ⟨"Eval", 1, 1⟩, ⟨"Exp", 1, 1⟩, ⟨"FindMemberFunction", 2, 2⟩, ⟨"Fix", 1, 1⟩,
   ⟨"FormatDrive", 2, 2⟩, ⟨"FormatJson", 1, 2⟩, ⟨"GetGlobalAA", 0, 0⟩, ⟨"GetInterface", 2, 2⟩,
   ⟨"GetLastRunCompileError", 0, 0⟩, ⟨"GetLastRunRuntimeError", 0, 0⟩, ⟨"Instr", 3, 3⟩,
   ⟨"Int", 1, 1⟩, ⟨"LCase", 1, 1⟩, ⟨"Left", 2, 2⟩, ⟨"Len", 1, 1⟩, ⟨"ListDir", 1, 1⟩,
   ⟨"Log", 1, 1⟩, ⟨"MatchFiles", 2, 2⟩, ⟨"Mid", 2, 3⟩, ⟨"MoveFile", 2, 2⟩, ⟨"ObjFun", 2, 11⟩,
   ⟨"ParseJson", 1, 2⟩, ⟨"ReadAsciiFile", 1, 1⟩, ⟨"RebootSystem", 0, 0⟩, ⟨"Right", 2, 2⟩,
   ⟨"Rnd", 1, 1⟩, ⟨"Run", 1, 10⟩, ⟨"Sgn", 1, 1⟩, ⟨"Sin", 1, 1⟩, ⟨"Sleep", 1, 1⟩, ⟨"Sqr", 1, 1⟩,
   ⟨"Str", 1, 1⟩, ⟨"StrI", 1, 2⟩, ⟨"String", 2, 2⟩, ⟨"StringI", 2, 2⟩, ⟨"StrToI", 1, 1⟩,
   ⟨"Substitute", 2, 5⟩, ⟨"Tan", 1, 1⟩, ⟨"Tr", 1, 1⟩, ⟨"Type", 1, 2⟩, ⟨"UCase", 1, 1⟩,
   ⟨"UpTime", 1, 1⟩, ⟨"Val", 1, 2⟩, ⟨"Wait", 2, 2⟩, ⟨"WriteAsciiFile", 2, 2⟩]

end ScopeCheck
