import Mathlib.Data.List.Induction
import ScopeCheck.Proofs.Lowercase
import ScopeCheck.Proofs.Pieces
import ScopeCheck.Script.Name

/-!
# Names with dots between their parts

A dotted name whose parts have no dots is split into its parts (`split_dottedText`), and the last
part can be taken off (`Text.splitAtLast?_qualified`). The lower case of a dotted name of
identifiers is made part by part (`lower_dottedText_concat`).
-/

namespace ScopeCheck

namespace Text

/-- A name in a namespace is split where its parts are joined. -/
theorem split_qualified (outer name : String) :
    split '.' s!"{outer}.{name}" = split '.' outer ++ split '.' name := by
  have htext : (s!"{outer}.{name}").toList = outer.toList ++ '.' :: name.toList := by
    change (outer ++ "." ++ name).toList = _
    simp
  rw [split, htext, splitChars_eq_splitOn, List.splitOn_append_cons_self, List.map_append, split,
    split, splitChars_eq_splitOn, splitChars_eq_splitOn]

/-- The last part of a name is taken off. -/
theorem splitAtLast?_qualified (outer : String) {name : String} (hname : '.' ∉ name.toList) :
    splitAtLast? '.' s!"{outer}.{name}" = some (outer, name) := by
  obtain ⟨before, more, hreverse⟩ := List.exists_cons_of_ne_nil
    (mt List.reverse_eq_nil_iff.mp (@split_ne_nil '.' outer))
  have hjoined : (before :: more).reverse = split '.' outer := by
    rw [← hreverse, List.reverse_reverse]
  rw [splitAtLast?, split_qualified, split_of_not_mem hname, List.reverse_append, hreverse]
  change some ((String.singleton '.').intercalate (before :: more).reverse, name) = _
  rw [hjoined, intercalate_split]

/-- A word of ASCII characters without dots, such as an identifier is. -/
structure IsIdentifier (text : String) : Prop where
  nonempty : text ≠ ""
  ascii : ∀ c ∈ text.toList, c.toNat < 0x80
  undotted : '.' ∉ text.toList

instance (text : String) : Decidable (IsIdentifier text) :=
  decidable_of_iff (text ≠ "" ∧ (text.toList.all fun c => decide (c.toNat < 0x80)) = true ∧
      text.toList.contains '.' = false)
    ⟨fun ⟨hnonempty, hascii, hundotted⟩ =>
        ⟨hnonempty, by simpa using hascii, by simpa using hundotted⟩,
      fun ⟨hnonempty, hascii, hundotted⟩ =>
        ⟨hnonempty, by simpa using hascii, by simpa using hundotted⟩⟩

namespace IsIdentifier

variable {text : String}

/-- There is no sigma in an identifier. -/
theorem sigmaFree (h : IsIdentifier text) : SigmaFree text := IsAscii.sigmaFree h.ascii

/-- Of an identifier the lower case folds the letters A to Z. -/
theorem lower_eq (h : IsIdentifier text) : lower text = asciiLower text := IsAscii.lower_eq h.ascii

end IsIdentifier

end Text

/-! ## Dotted names -/

/-- Identifiers with dots between them, as text. -/
def dottedText (parts : List Ident) : String := ".".intercalate (parts.map Ident.text)

/-- One more part comes after a dot. -/
theorem dottedText_concat {front : List Ident} (hfront : front ≠ []) (part : Ident) :
    dottedText (front ++ [part]) = s!"{dottedText front}.{part.text}" := by
  have hmap : front.map Ident.text ≠ [] := mt List.map_eq_nil_iff.mp hfront
  rw [dottedText, List.map_append, List.map_cons, List.map_nil,
    String.intercalate_append_of_ne_nil hmap (List.cons_ne_nil part.text []),
    String.intercalate_singleton]
  rfl

/-- A single part has no dot. -/
theorem dottedText_singleton (part : Ident) : dottedText [part] = part.text :=
  String.intercalate_singleton

/-- A dotted name has no sigma if none of its parts has one. -/
theorem sigmaFree_dottedText {parts : List Ident}
    (hfree : ∀ part ∈ parts, Text.SigmaFree part.text) : Text.SigmaFree (dottedText parts) := by
  induction parts using List.reverseRecOn with
  | nil => exact fun c hc => absurd hc (by simp [dottedText])
  | append_singleton front part ih =>
    have hpart := hfree part (List.mem_append_right front List.mem_cons_self)
    have hfront := ih fun other hother => hfree other (List.mem_append_left [part] hother)
    by_cases hempty : front = []
    · subst hempty
      simpa [dottedText] using hpart
    · rw [dottedText_concat hempty]
      exact hfront.qualified hpart

section Identifiers

variable {parts : List Ident} (hparts : ∀ part ∈ parts, Text.IsIdentifier part.text)
include hparts

/-- A dotted name is split into its parts. -/
theorem split_dottedText (hne : parts ≠ []) :
    Text.split '.' (dottedText parts) = parts.map Ident.text := by
  refine Text.split_intercalate (mt List.map_eq_nil_iff.mp hne) fun text htext => ?_
  obtain ⟨part, hpart, rfl⟩ := List.mem_map.mp htext
  exact (hparts part hpart).undotted

/-- A dotted name with parts is not empty. -/
theorem dottedText_ne_empty (hne : parts ≠ []) : dottedText parts ≠ "" := by
  intro hempty
  have hsplit := split_dottedText hparts hne
  rw [hempty] at hsplit
  obtain ⟨part, rest, rfl⟩ := List.exists_cons_of_ne_nil hne
  have hfirst : "" = part.text := (List.cons.inj hsplit).1
  exact (hparts part List.mem_cons_self).nonempty hfirst.symm

/-- The lower case of a dotted name grows with its parts. -/
theorem lower_dottedText_concat (hne : parts ≠ []) {part : Ident}
    (hpart : Text.IsIdentifier part.text) :
    Text.lower (dottedText (parts ++ [part])) =
      s!"{Text.lower (dottedText parts)}.{part.lower}" := by
  have hfree := sigmaFree_dottedText fun other hother => (hparts other hother).sigmaFree
  rw [dottedText_concat hne,
    Text.lower_qualified hfree.capital_not_mem hpart.sigmaFree.capital_not_mem]
  rfl

end Identifiers

end ScopeCheck
