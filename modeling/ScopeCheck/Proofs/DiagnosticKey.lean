import Mathlib.Data.List.Basic
import ScopeCheck.Aggregation

/-!
# What the key of a diagnostic tells

The key of a diagnostic writes the range as text. The digits of a number are neither `:` nor `-`, so
the text can be taken apart again, at the `-` first and then at each `:`. The key therefore tells
code, wording and range (`key_eq_iff`), and with the key of the file it tells what `sameProblem`
asks for, however the file is spelled (`keys_tell_problems`).
-/

namespace ScopeCheck

/-- The digits of a number tell the number. -/
theorem toDigits_inj {m n : Nat} (h : Nat.toDigits 10 m = Nat.toDigits 10 n) : m = n := by
  rw [← Nat.ofDigitChars_ten_toDigits (n := m), h, Nat.ofDigitChars_ten_toDigits]

/-- What is no digit does not stand in a number. -/
theorem not_mem_toDigits {c : Char} (hc : c.isDigit = false) (n : Nat) :
    c ∉ Nat.toDigits 10 n := by
  intro hmem
  rw [Nat.isDigit_of_mem_toDigits (by decide) (by decide) hmem] at hc
  cases hc

/-- The characters of the text of a position inside the text of a range. -/
def Position.digits (position : Position) : List Char :=
  Nat.toDigits 10 position.line ++ ':' :: Nat.toDigits 10 position.character

/-- There is no hyphen in a printed position. -/
theorem Position.hyphen_not_mem_digits (position : Position) : '-' ∉ position.digits := by
  unfold Position.digits
  rw [List.mem_append, List.mem_cons]
  rintro (h | h | h)
  · exact not_mem_toDigits rfl _ h
  · cases h
  · exact not_mem_toDigits rfl _ h

/-- Positions that are printed alike are equal, as the colon stands where the line ends. -/
theorem Position.digits_inj {left right : Position} (h : left.digits = right.digits) :
    left = right := by
  obtain ⟨hline, -, hcharacter⟩ := (List.append_cons_inj_of_notMem (not_mem_toDigits rfl _)
    (not_mem_toDigits rfl _)).mp h
  cases left
  cases right
  rw [Position.mk.injEq]
  exact ⟨toDigits_inj hline, toDigits_inj hcharacter⟩

/-- A range is printed as its two positions with a hyphen between them. -/
theorem Range.toList_text (range : Range) :
    range.text.toList = range.start.digits ++ '-' :: range.stop.digits := by
  have hcolon : (toString ":").toList = [':'] := rfl
  have hhyphen : (toString "-").toList = ['-'] := rfl
  simp [Range.text, Position.digits, hcolon, hhyphen]

/-- The text of a range tells the range. -/
theorem Range.text_inj {left right : Range} : left.text = right.text ↔ left = right := by
  refine ⟨fun h => ?_, fun h => by rw [h]⟩
  have hchars : left.text.toList = right.text.toList := by rw [h]
  rw [Range.toList_text, Range.toList_text] at hchars
  obtain ⟨hstart, -, hstop⟩ := (List.append_cons_inj_of_notMem
    (Position.hyphen_not_mem_digits _) (Position.hyphen_not_mem_digits _)).mp hchars
  cases left
  cases right
  rw [Range.mk.injEq]
  exact ⟨Position.digits_inj hstart, Position.digits_inj hstop⟩

/-- Two diagnostics have one key exactly if they have the same code, wording and range. -/
theorem Diagnostic.key_eq_iff {left right : Diagnostic} :
    left.key = right.key ↔
      left.code = right.code ∧ left.message = right.message ∧ left.range = right.range := by
  simp only [Diagnostic.key, DiagnosticKey.mk.injEq, Range.text_inj]

/-- Ranges are equal if their four numbers are. -/
theorem Range.eq_iff_coordinates {left right : Range} :
    left = right ↔ left.start.line = right.start.line ∧
      left.start.character = right.start.character ∧ left.stop.line = right.stop.line ∧
      left.stop.character = right.stop.character := by
  rcases left with ⟨⟨_, _⟩, ⟨_, _⟩⟩
  rcases right with ⟨⟨_, _⟩, ⟨_, _⟩⟩
  simp only [Range.mk.injEq, Position.mk.injEq, and_assoc]

namespace Diagnostic

/-- The key does not look at the file. -/
theorem key_withFile (diagnostic : Diagnostic) (file : String) :
    { diagnostic with file }.key = diagnostic.key := rfl

/-- Diagnostics are of one problem if their files and keys agree. -/
theorem sameProblem_iff {left right : Diagnostic} :
    left.sameProblem right = true ↔ left.file = right.file ∧ left.key = right.key := by
  rw [key_eq_iff]
  simp only [sameProblem, Bool.and_eq_true, decide_eq_true_eq, and_assoc]

/-- What is remembered of a problem per file is the key of the file and that of the problem. -/
theorem fileProblem_eq_iff {left right : Diagnostic} :
    left.fileProblem = right.fileProblem ↔
      left.fileKey = right.fileKey ∧ left.key = right.key := by
  rw [fileProblem, fileProblem, FileProblem.mk.injEq]

/-- The text of a range loses none of its coordinates, so neither does the key of a diagnostic. The
problem of a file is then the same exactly for diagnostics that are the same problem once their
files are spelled in one way; those that are the same problem as they stand are told apart from
others by the spelling alone. -/
theorem keys_tell_problems :
    Function.Injective Range.text ∧ ∀ left right : Diagnostic,
      (left.key = right.key ↔ left.code = right.code ∧ left.message = right.message ∧
        left.range.start.line = right.range.start.line ∧
        left.range.start.character = right.range.start.character ∧
        left.range.stop.line = right.range.stop.line ∧
        left.range.stop.character = right.range.stop.character) ∧
      (left.fileProblem = right.fileProblem ↔
        { left with file := left.fileKey }.sameProblem { right with file := right.fileKey }) ∧
      (left.sameProblem right ↔
        left.file = right.file ∧ left.fileProblem = right.fileProblem) := by
  refine ⟨fun _ _ => Range.text_inj.mp, fun left right => ⟨?_, ?_, ?_⟩⟩
  · rw [key_eq_iff, Range.eq_iff_coordinates]
  · rw [fileProblem_eq_iff, sameProblem_iff, key_withFile left left.fileKey,
      key_withFile right right.fileKey]
  · rw [sameProblem_iff, fileProblem_eq_iff]
    refine and_congr_right fun hfile => (and_iff_right ?_).symm
    rw [fileKey, fileKey, hfile]

end Diagnostic

end ScopeCheck
