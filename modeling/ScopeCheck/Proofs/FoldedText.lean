import ScopeCheck.Proofs.DottedText
import ScopeCheck.Registry.Basic

/-!
# Folding the letters A to Z

Folding the letters A to Z of a text changes nothing about its lower case (`Text.lower_asciiLower`)
and can be done before or after the text is taken apart: splitting, trimming and joining commute
with it, since no separator and no white space is a letter.
-/

namespace ScopeCheck

namespace Text

/-! ## Characters -/

/-- What holds of every character and itself, and of each letter a to z and its capital, holds of
every character in lower case and the character. -/
theorem toLower_induction {P : Char → Char → Prop} (other : ∀ c, P c c)
    (letter : ∀ code < 0x5B, 0x41 ≤ code → P (Char.ofNat (code + 0x20)) (Char.ofNat code))
    (c : Char) : P c.toLower c := by
  have hlower : ∀ code < 0x5B, 0x41 ≤ code →
      (Char.ofNat code).toLower = Char.ofNat (code + 0x20) := by decide
  by_cases hletter : 0x41 ≤ c.toNat ∧ c.toNat < 0x5B
  · have hhere := letter c.toNat hletter.2 hletter.1
    rwa [← hlower c.toNat hletter.2 hletter.1, Char.ofNat_toNat] at hhere
  · have hsame : c.toLower = c := by
      unfold Char.toLower
      rw [dif_neg]
      rintro ⟨hge, hle⟩
      exact hletter ⟨hge, Nat.lt_succ_of_le hle⟩
    rw [hsame]
    exact other c

/-- Folding a letter yields a given character only if the letter is that character, once this is
known of the letters A to Z. -/
theorem toLower_eq_iff {d : Char} (hd : ∀ code < 0x5B, 0x41 ≤ code →
      (Char.ofNat (code + 0x20) = d ↔ Char.ofNat code = d)) (c : Char) :
    c.toLower = d ↔ c = d :=
  toLower_induction (P := fun lower c => lower = d ↔ c = d) (fun _ => Iff.rfl) hd c

/-- Folding a letter twice folds it once. -/
theorem toLower_toLower (c : Char) : c.toLower.toLower = c.toLower :=
  toLower_induction (P := fun lower c => lower.toLower = c.toLower) (fun _ => rfl) (by decide) c

/-- No letter is white space, folded or not. -/
theorem isBlank_toLower (c : Char) : isBlank c.toLower = isBlank c :=
  toLower_induction (P := fun lower c => isBlank lower = isBlank c) (fun _ => rfl) (by decide) c

/-- A letter has a case, folded or not. -/
theorem isCased_toLower (c : Char) : isCased c.toLower = isCased c :=
  toLower_induction (P := fun lower c => isCased lower = isCased c) (fun _ => rfl) (by decide) c

/-- No letter is looked through. -/
theorem inRanges_caseIgnorable_letter {code : Nat}
    (hletter : (0x41 ≤ code ∧ code ≤ 0x5A) ∨ (0x61 ≤ code ∧ code ≤ 0x7A)) :
    inRanges caseIgnorableRanges code = false := by
  have hbeside : ∀ range ∈ caseIgnorableRanges,
      range.2 < 0x41 ∨ (0x5A < range.1 ∧ range.2 < 0x61) ∨ 0x7A < range.1 := by decide +kernel
  refine List.any_eq_false.mpr fun range hrange hin => ?_
  have hwithin : range.1 ≤ code ∧ code ≤ range.2 := by simpa using hin
  have hside := hbeside range hrange
  omega

/-- No letter from A to Z is passed over when a cased neighbour is looked for. -/
theorem isCaseIgnorable_toLower (c : Char) : isCaseIgnorable c.toLower = isCaseIgnorable c := by
  refine toLower_induction (P := fun lower c => isCaseIgnorable lower = isCaseIgnorable c)
    (fun _ => rfl) ?_ c
  intro code hlast hfirst
  have hcodes : ∀ code < 0x80, (Char.ofNat code).toNat = code := by decide
  rw [isCaseIgnorable, isCaseIgnorable, hcodes _ (by omega), hcodes _ (by omega),
    inRanges_caseIgnorable_letter (by omega), inRanges_caseIgnorable_letter (by omega)]

/-- The letters A to Z have the same lower case as their foldings. -/
theorem lowerChar_toLower (c : Char) : lowerChar c.toLower = lowerChar c :=
  toLower_induction (P := fun lower c => lowerChar lower = lowerChar c) (fun _ => rfl) (by decide) c

/-! ## Lower case -/

/-- A sigma has a cased letter beside it exactly if it has one after folding. -/
theorem meetsCased_toLower (neighbours : List Char) :
    meetsCased (neighbours.map Char.toLower) = meetsCased neighbours := by
  induction neighbours with
  | nil => rfl
  | cons c rest ih =>
    unfold meetsCased at ih ⊢
    rw [List.map_cons, List.dropWhile_cons, List.dropWhile_cons, isCaseIgnorable_toLower]
    cases isCaseIgnorable c with
    | true => exact ih
    | false => exact isCased_toLower c

/-- Folding what stands before and what is lowered changes nothing: every letter has the same lower
case, and every sigma the same surroundings. -/
theorem lowerChars_toLower (before text : List Char) :
    lowerChars (before.map Char.toLower) (text.map Char.toLower) = lowerChars before text := by
  induction text generalizing before with
  | nil => rfl
  | cons c rest ih =>
    have hsigma : c.toLower = 'Σ' ↔ c = 'Σ' := toLower_eq_iff (by decide) c
    have hrest := ih (c :: before)
    rw [List.map_cons] at hrest
    simp only [List.map_cons, lowerChars, hrest, hsigma, meetsCased_toLower, lowerChar_toLower]

/-- A text is folded character by character. -/
theorem toList_asciiLower (text : String) :
    (asciiLower text).toList = text.toList.map Char.toLower :=
  String.toList_ofList

/-- The lower case of a text does not depend on the case of the letters A to Z. -/
@[simp]
theorem lower_asciiLower (text : String) : lower (asciiLower text) = lower text := by
  rw [lower, toList_asciiLower]
  exact congrArg String.ofList (lowerChars_toLower [] text.toList)

/-- Folding a text twice folds it once. -/
@[simp]
theorem asciiLower_asciiLower (text : String) : asciiLower (asciiLower text) = asciiLower text := by
  refine String.toList_inj.mp ?_
  rw [toList_asciiLower, toList_asciiLower, List.map_map]
  exact List.map_congr_left fun c _ => toLower_toLower c

/-- A text may be folded before it is compared without regard to the letters A to Z. -/
@[simp]
theorem sameIgnoringAsciiCase_asciiLower_left (left right : String) :
    sameIgnoringAsciiCase (asciiLower left) right = sameIgnoringAsciiCase left right := by
  rw [sameIgnoringAsciiCase, asciiLower_asciiLower, sameIgnoringAsciiCase]

/-- Either of the two texts may be folded before they are compared. -/
@[simp]
theorem sameIgnoringAsciiCase_asciiLower_right (left right : String) :
    sameIgnoringAsciiCase left (asciiLower right) = sameIgnoringAsciiCase left right := by
  rw [sameIgnoringAsciiCase, asciiLower_asciiLower, sameIgnoringAsciiCase]

/-! ## Joining and taking apart -/

/-- A text that is put together may be folded part by part. -/
theorem asciiLower_append (left right : String) :
    asciiLower (left ++ right) = asciiLower left ++ asciiLower right := by
  refine String.toList_inj.mp ?_
  rw [toList_asciiLower, String.toList_append, List.map_append, String.toList_append,
    toList_asciiLower, toList_asciiLower]

/-- A qualified name is folded part by part. -/
theorem asciiLower_qualified (outer name : String) :
    asciiLower s!"{outer}.{name}" = s!"{asciiLower outer}.{asciiLower name}" := by
  change asciiLower (outer ++ "." ++ name) = asciiLower outer ++ "." ++ asciiLower name
  rw [asciiLower_append, asciiLower_append]
  rfl

/-- Folding makes no text empty. -/
@[simp]
theorem isEmpty_asciiLower (text : String) : (asciiLower text).isEmpty = text.isEmpty := by
  rw [Bool.eq_iff_iff, String.isEmpty_iff, String.isEmpty_iff, ← String.toList_eq_nil_iff,
    ← String.toList_eq_nil_iff, toList_asciiLower, List.map_eq_nil_iff]

/-- A dotted text is folded part by part. -/
theorem asciiLower_intercalate (pieces : List String) :
    asciiLower (".".intercalate pieces) = ".".intercalate (pieces.map asciiLower) := by
  induction pieces with
  | nil => rfl
  | cons piece rest ih =>
    by_cases hrest : rest = []
    · subst hrest
      simp
    · rw [String.intercalate_cons_of_ne_nil hrest, asciiLower_append, asciiLower_append, ih,
        List.map_cons, String.intercalate_cons_of_ne_nil (mt List.map_eq_nil_iff.mp hrest)]
      rfl

/-- Dots are no letters, so folding leaves the places where a text is split. -/
theorem splitChars_toLower (text : List Char) :
    splitChars '.' (text.map Char.toLower) = (splitChars '.' text).map (List.map Char.toLower) := by
  induction text with
  | nil => rfl
  | cons c rest ih =>
    have hdot : c.toLower = '.' ↔ c = '.' := toLower_eq_iff (by decide) c
    rw [List.map_cons, splitChars, splitChars, ih]
    simp only [hdot]
    split
    · rfl
    · cases splitChars '.' rest <;> rfl

/-- A text may be folded before or after it is split at its dots. -/
theorem split_asciiLower (text : String) :
    split '.' (asciiLower text) = (split '.' text).map asciiLower := by
  rw [split, toList_asciiLower, splitChars_toLower, split, List.map_map, List.map_map]
  refine List.map_congr_left fun piece _ => String.toList_inj.mp ?_
  rw [Function.comp_apply, Function.comp_apply, toList_asciiLower, String.toList_ofList,
    String.toList_ofList]

/-- A text may be folded before or after it is split at its last dot. -/
theorem splitAtLast?_asciiLower (text : String) :
    splitAtLast? '.' (asciiLower text) =
      (splitAtLast? '.' text).map (Prod.map asciiLower asciiLower) := by
  have hdot : String.singleton '.' = "." := rfl
  rw [splitAtLast?, splitAtLast?, split_asciiLower, ← List.map_reverse, hdot]
  rcases (split '.' text).reverse with _ | ⟨last, _ | ⟨before, more⟩⟩
  · rfl
  · rfl
  · simp only [List.map_cons, Option.map_some, Prod.map_apply]
    rw [asciiLower_intercalate, ← List.map_cons, List.map_reverse]

/-- White space in front is dropped before or after folding. -/
theorem dropWhile_isBlank_toLower (text : List Char) :
    (text.map Char.toLower).dropWhile isBlank = (text.dropWhile isBlank).map Char.toLower := by
  induction text with
  | nil => rfl
  | cons c rest ih =>
    rw [List.map_cons, List.dropWhile_cons, List.dropWhile_cons, isBlank_toLower, ih]
    split <;> rfl

/-- A text may be folded before or after it is trimmed. -/
theorem trim_asciiLower (text : String) : trim (asciiLower text) = asciiLower (trim text) := by
  refine String.toList_inj.mp ?_
  rw [trim, toList_asciiLower, dropWhile_isBlank_toLower, toList_asciiLower, trim,
    String.toList_ofList, String.toList_ofList, dropBlanksEnd, ← List.map_reverse,
    dropWhile_isBlank_toLower, ← List.map_reverse, dropBlanksEnd]

end Text

/-- The name that a declaration has at run time is folded with its full name, since only dots are
replaced. -/
theorem Registry.runtimeName_asciiLower (fullName : String) :
    runtimeName (Text.asciiLower fullName) = Text.asciiLower (runtimeName fullName) := by
  refine String.toList_inj.mp ?_
  rw [runtimeName, String.toList_ofList, Text.toList_asciiLower, Text.toList_asciiLower,
    runtimeName, String.toList_ofList, List.map_map, List.map_map]
  refine List.map_congr_left fun c _ => ?_
  have hdot : c.toLower = '.' ↔ c = '.' := Text.toLower_eq_iff (by decide) c
  simp only [Function.comp_apply, hdot]
  split <;> rfl

end ScopeCheck
