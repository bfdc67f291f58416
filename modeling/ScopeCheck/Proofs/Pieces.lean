import Mathlib.Data.List.DropRight
import Mathlib.Data.String.Basic
import ScopeCheck.Text.Blank
import ScopeCheck.Text.Split

/-!
# Texts in pieces

A text is split at a character and joined again without loss (`intercalate_split`), and texts that
are joined are split where they were joined (`split_intercalate`). A piece stands in the text behind
the pieces before it, each with its separator (`exists_around_piece`), so that its place is a number
of bytes that can be told from the pieces alone (`bytesBefore`).

A trimmed text is what lies between the white space in front and the white space behind
(`exists_around_trim`). It is empty exactly if there is nothing but white space, and trimming it
again changes nothing.
-/

namespace ScopeCheck.Text

open String (utf8Len)

variable {separator : Char}

/-! ## Splitting -/

/-- Splitting is that of the library, character by character. -/
theorem splitChars_eq_splitOn (text : List Char) :
    splitChars separator text = text.splitOn separator := by
  induction text with
  | nil => rfl
  | cons c rest ih =>
    obtain ⟨piece, pieces, hpieces⟩ := List.exists_cons_of_ne_nil
      (List.splitOn_ne_nil separator rest)
    rw [splitChars, ih, List.splitOn_cons_eq_if_modifyHead, hpieces]
    by_cases hc : c = separator <;> simp [hc]

/-- The first piece ends before the first separator, and the others are the pieces of the rest. -/
theorem splitChars_eq_cons (text : List Char) :
    splitChars separator text =
      text.takeWhile (· ≠ separator) ::
        match text.dropWhile (· ≠ separator) with
        | [] => []
        | _ :: rest => splitChars separator rest := by
  induction text with
  | nil => rfl
  | cons c rest ih =>
    by_cases hc : c = separator
    · simp [splitChars, hc]
    · rw [splitChars, if_neg hc, ih, List.takeWhile_cons_of_pos (by simpa using hc),
        List.dropWhile_cons_of_pos (by simpa using hc)]

/-- What stops the search for a separator is a separator. -/
theorem eq_of_dropWhile_eq_cons {text rest : List Char} {c : Char}
    (hdrop : text.dropWhile (· ≠ separator) = c :: rest) : c = separator := by
  have hne : text.dropWhile (· ≠ separator) ≠ [] := by
    rw [hdrop]
    exact List.cons_ne_nil c rest
  have hhead := List.head_dropWhile_not (· ≠ separator) hne
  simpa only [hdrop, List.head_cons, decide_eq_false_iff_not, not_not] using hhead

/-- There is one piece more than there are separators. -/
theorem length_splitChars (text : List Char) :
    (splitChars separator text).length = text.count separator + 1 := by
  fun_induction splitChars separator text with
  | case1 => rfl
  | case2 rest ih => simpa using ih
  | case3 c rest hc hrest ih => simp [hrest] at ih
  | case4 c rest hc first later hrest ih => simpa [hrest, hc] using ih

/-- No piece has the character at which the text was split. -/
theorem not_mem_of_mem_splitChars {text piece : List Char}
    (hpiece : piece ∈ splitChars separator text) : separator ∉ piece := by
  fun_induction splitChars separator text generalizing piece with
  | case1 => simp_all
  | case2 rest ih =>
    rcases List.mem_cons.mp hpiece with rfl | hlater
    · exact List.not_mem_nil
    · exact ih hlater
  | case3 c rest hc hrest ih =>
    rw [List.mem_singleton.mp hpiece, List.mem_singleton]
    exact Ne.symm hc
  | case4 c rest hc first later hrest ih =>
    rcases List.mem_cons.mp hpiece with rfl | hlater
    · rw [List.mem_cons, not_or]
      exact ⟨Ne.symm hc, ih (hrest ▸ List.mem_cons_self)⟩
    · exact ih (hrest ▸ List.mem_cons_of_mem first hlater)

/-- No piece holds a separator. -/
theorem not_mem_of_mem_split {text piece : String} (hpiece : piece ∈ split separator text) :
    separator ∉ piece.toList := by
  obtain ⟨chars, hchars, rfl⟩ := List.mem_map.mp hpiece
  rw [String.toList_ofList]
  exact not_mem_of_mem_splitChars hchars

/-- The characters of the pieces are the pieces of the characters. -/
theorem map_toList_split (text : String) :
    (split separator text).map String.toList = text.toList.splitOn separator := by
  simp [split, splitChars_eq_splitOn, Function.comp_def]

/-- There is always a piece, if only an empty one. -/
theorem split_ne_nil (text : String) : split separator text ≠ [] := by
  rw [split, splitChars_eq_splitOn]
  exact mt List.map_eq_nil_iff.mp (List.splitOn_ne_nil separator _)

/-- Joining the pieces of a text gives the text. -/
theorem intercalate_split (text : String) :
    (String.singleton separator).intercalate (split separator text) = text := by
  refine String.toList_inj.mp ?_
  rw [String.toList_intercalate, map_toList_split, String.toList_singleton,
    List.intercalate_splitOn]

/-- Texts that are joined are split where they were joined. -/
theorem split_intercalate {pieces : List String} (hne : pieces ≠ [])
    (hnone : ∀ piece ∈ pieces, separator ∉ piece.toList) :
    split separator ((String.singleton separator).intercalate pieces) = pieces := by
  have hsplit : (String.singleton separator |>.intercalate pieces).toList.splitOn separator =
      pieces.map String.toList := by
    rw [String.toList_intercalate, String.toList_singleton]
    refine List.splitOn_intercalate separator ?_ (mt List.map_eq_nil_iff.mp hne)
    simpa using hnone
  rw [split, splitChars_eq_splitOn, hsplit, List.map_map]
  simp [Function.comp_def]

/-- A text without the character is one piece. -/
theorem split_of_not_mem {text : String} (hnone : separator ∉ text.toList) :
    split separator text = [text] := by
  rw [split, splitChars_eq_splitOn, List.splitOn_eq_singleton hnone, List.map_singleton,
    String.ofList_toList]

/-! ## Places of pieces -/

/-- The number of bytes before a piece, which are those of the pieces before it and one for each
separator. -/
def bytesBefore (pieces : List String) (number : Nat) : Nat :=
  (pieces.take number).foldr (fun piece bytes => piece.utf8ByteSize + 1 + bytes) 0

/-- The bytes before a later piece start with those of the first and its separator. -/
theorem bytesBefore_cons (first : String) (rest : List String) (number : Nat) :
    bytesBefore (first :: rest) (number + 1) =
      first.utf8ByteSize + 1 + bytesBefore rest number := rfl

/-- The bytes before the next piece end with those of this one and its separator. -/
theorem bytesBefore_succ {pieces : List String} {number : Nat} {piece : String}
    (hpiece : pieces[number]? = some piece) :
    bytesBefore pieces (number + 1) = bytesBefore pieces number + (piece.utf8ByteSize + 1) := by
  induction pieces generalizing number with
  | nil => cases hpiece
  | cons first rest ih =>
    cases number with
    | zero =>
      cases hpiece
      exact Nat.add_comm _ _
    | succ number =>
      rw [bytesBefore_cons, ih hpiece, bytesBefore_cons]
      exact (Nat.add_assoc _ _ _).symm

/-- Later pieces start later. -/
theorem bytesBefore_mono {left right : Nat} (hle : left ≤ right) (pieces : List String) :
    bytesBefore pieces left ≤ bytesBefore pieces right := by
  induction pieces generalizing left right with
  | nil => simp [bytesBefore]
  | cons first rest ih =>
    cases left with
    | zero => exact Nat.zero_le _
    | succ left =>
      obtain ⟨right, rfl⟩ := Nat.exists_eq_add_of_le' hle
      rw [← Nat.add_assoc, bytesBefore_cons, bytesBefore_cons]
      exact Nat.add_le_add_left (ih (by omega)) _

/-- A piece stands in the text behind the pieces before it. -/
theorem exists_around_piece (hone : separator.utf8Size = 1) {text piece : List Char} {number : Nat}
    (hpiece : (splitChars separator text)[number]? = some piece) :
    ∃ before after, text = before ++ piece ++ after ∧
      utf8Len before = bytesBefore ((splitChars separator text).map String.ofList) number := by
  induction number generalizing text with
  | zero =>
    rw [splitChars_eq_cons] at hpiece
    cases hpiece
    exact ⟨[], text.dropWhile (· ≠ separator), by simp, rfl⟩
  | succ number ih =>
    rw [splitChars_eq_cons] at hpiece ⊢
    rw [List.getElem?_cons_succ] at hpiece
    rcases hdrop : text.dropWhile (· ≠ separator) with _ | ⟨c, rest⟩
    · rw [hdrop] at hpiece
      cases hpiece
    · -- the piece is one of the rest, before which stand the first piece and a separator
      rw [hdrop] at hpiece
      obtain ⟨before, after, hrest, hbytes⟩ := ih hpiece
      obtain rfl : c = separator := eq_of_dropWhile_eq_cons hdrop
      refine ⟨text.takeWhile (· ≠ c) ++ c :: before, after, ?_, ?_⟩
      · conv_lhs => rw [← @List.takeWhile_append_dropWhile _ (· ≠ c) text, hdrop, hrest]
        simp
      · rw [List.map_cons, bytesBefore_cons, ← hbytes, String.utf8ByteSize_ofList,
          String.utf8Len_append, String.utf8Len_cons, hone]
        omega

/-! ## Trimming -/

/-- Trimming drops white space in front, then at the end. -/
theorem toList_trim (text : String) :
    (trim text).toList = (text.toList.dropWhile isBlank).rdropWhile isBlank :=
  String.toList_ofList

/-- A trimmed text is what lies between the white space at either end. -/
theorem exists_around_trim (text : String) :
    ∃ behind, text.toList = text.toList.takeWhile isBlank ++ (trim text).toList ++ behind := by
  refine ⟨(text.toList.dropWhile isBlank).rtakeWhile isBlank, ?_⟩
  rw [toList_trim, List.append_assoc, List.rdropWhile_append_rtakeWhile,
    List.takeWhile_append_dropWhile]

/-- Trimming adds no character. -/
theorem mem_of_mem_trim {text : String} {c : Char} (hc : c ∈ (trim text).toList) :
    c ∈ text.toList := by
  obtain ⟨behind, htext⟩ := exists_around_trim text
  rw [htext]
  exact List.mem_append_left behind (List.mem_append_right _ hc)

/-- Trimming makes no text longer. -/
theorem utf8ByteSize_trim_le (text : String) : (trim text).utf8ByteSize ≤ text.utf8ByteSize := by
  obtain ⟨behind, htext⟩ := exists_around_trim text
  have hbytes := congrArg utf8Len htext
  rw [String.utf8Len_append, String.utf8Len_append, ← String.utf8ByteSize_ofList,
    ← String.utf8ByteSize_ofList (trim text).toList, String.ofList_toList,
    String.ofList_toList] at hbytes
  omega

/-- A trimmed text does not start with white space. -/
theorem isBlank_of_toList_trim_eq_cons {text : String} {c : Char} {rest : List Char}
    (htrim : (trim text).toList = c :: rest) : isBlank c = false := by
  rw [toList_trim] at htrim
  obtain ⟨behind, hdrop⟩ := List.rdropWhile_prefix isBlank (text.toList.dropWhile isBlank)
  rw [htrim, List.cons_append] at hdrop
  have hne : text.toList.dropWhile isBlank ≠ [] := by
    rw [← hdrop]
    exact List.cons_ne_nil _ _
  have hhead := List.head_dropWhile_not isBlank hne
  simpa only [← hdrop, List.head_cons] using hhead

/-- Nothing is left of a text exactly if it is white space throughout. -/
theorem trim_eq_empty_iff {text : String} :
    trim text = "" ↔ ∀ c ∈ text.toList, isBlank c = true := by
  constructor
  · intro hempty
    rw [← String.toList_eq_nil_iff, toList_trim, List.rdropWhile_eq_nil_iff] at hempty
    intro c hc
    -- `c` is dropped from the front, or left by it and dropped from the end
    rw [← @List.takeWhile_append_dropWhile _ isBlank text.toList] at hc
    rcases List.mem_append.mp hc with hfront | hrest
    · exact List.mem_takeWhile_imp hfront
    · exact hempty c hrest
  · intro hall
    rw [← String.toList_eq_nil_iff, toList_trim, List.dropWhile_eq_nil_iff.mpr hall]
    rfl

/-- A text without white space is not trimmed. -/
theorem trim_of_not_blank {text : String} (hnone : ∀ c ∈ text.toList, isBlank c = false) :
    trim text = text := by
  refine String.toList_inj.mp ?_
  have hdrop : text.toList.dropWhile isBlank = text.toList := by
    rcases htext : text.toList with _ | ⟨c, rest⟩
    · rfl
    · rw [List.dropWhile_cons_of_neg (by simp [hnone c (htext ▸ List.mem_cons_self)])]
  rw [toList_trim, hdrop, List.rdropWhile_eq_self_iff]
  intro hne
  simp [hnone _ (List.getLast_mem hne)]

/-- A trimmed text is not trimmed any further. -/
theorem trim_trim (text : String) : trim (trim text) = trim text := by
  refine String.toList_inj.mp ?_
  have hdrop : (trim text).toList.dropWhile isBlank = (trim text).toList := by
    rcases htrim : (trim text).toList with _ | ⟨c, rest⟩
    · rfl
    · rw [List.dropWhile_cons_of_neg (by simp [isBlank_of_toList_trim_eq_cons htrim])]
  rw [toList_trim, hdrop, toList_trim, List.rdropWhile_idempotent]

end ScopeCheck.Text
