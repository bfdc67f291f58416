import ScopeCheck.Proofs.Pieces
import ScopeCheck.Proofs.TextOrder
import ScopeCheck.SourceText

/-!
# Offsets of positions

A position names a line and a character, an offset is a number of bytes. The lines of a text are its
pieces between line breaks, so there is one more of them than there are line breaks.
`splitAfterLines` finds the line of a position: what it has passed are the lines above with their
line breaks, and what comes next is the line itself (`PartsAtLine`), which one more line passed does
not change (`PartsAtLine.passLine`). The offset is therefore that of the line and
the bytes of the characters before the position (`offsetOf_value`), and it lies between two
characters, since it counts the bytes of a beginning of the text (`offsetOf_isValid`).

Below the end of a line there is at least the line break. So offsets in different lines are ordered
as the lines are, without ties, and inside a line they grow with every character; that is why they
keep the order of positions and tell apart all positions that are not past the ends of their lines.
-/

namespace ScopeCheck

open String (utf8Len)

/-! ## Bytes -/

/-- The bytes of characters are counted as in the library. -/
theorem byteLength_eq_utf8Len (chars : List Char) : byteLength chars = utf8Len chars := by
  induction chars with
  | nil => rfl
  | cons c rest ih => rw [byteLength, ih, String.utf8Len_cons, Nat.add_comm]

/-- More characters have no fewer bytes. -/
theorem utf8Len_take_le {fewer more : Nat} (hle : fewer ≤ more) (chars : List Char) :
    utf8Len (chars.take fewer) ≤ utf8Len (chars.take more) :=
  String.utf8Len_le_of_sublist (List.take_sublist_take_left hle)

/-- Every character has a byte, so more characters have more bytes. -/
theorem utf8Len_take_lt {fewer more : Nat} {chars : List Char} (hlt : fewer < more)
    (hmore : more ≤ chars.length) : utf8Len (chars.take fewer) < utf8Len (chars.take more) := by
  obtain ⟨c, hc⟩ : ∃ c, chars[fewer]? = some c :=
    ⟨chars[fewer], List.getElem?_eq_getElem (by omega)⟩
  calc utf8Len (chars.take fewer) < utf8Len (chars.take fewer) + c.utf8Size :=
        Nat.lt_add_of_pos_right (Char.utf8Size_pos c)
    _ = utf8Len (chars.take (fewer + 1)) := by
        rw [List.take_add_one, hc, String.utf8Len_append]
        simp
    _ ≤ utf8Len (chars.take more) := utf8Len_take_le hlt chars

/-! ## Lines -/

/-- The lines of a text, without the line breaks between them. -/
def linesOf (text : String) : List String := Text.split '\n' text

/-- The first characters of a line. -/
def leading (line : String) (count : Nat) : String := String.ofList (line.toList.take count)

/-- The bytes of the first characters of a line. -/
theorem utf8ByteSize_leading (line : String) (count : Nat) :
    (leading line count).utf8ByteSize = utf8Len (line.toList.take count) :=
  String.utf8ByteSize_ofList _

/-- Characters past the end of a line are cut off. -/
theorem leading_min_length (line : String) (count : Nat) :
    leading line (min count line.length) = leading line count := by
  rw [leading, leading, ← String.length_toList, ← List.take_eq_take_min]

/-- The first characters of a line have no more bytes than the line. -/
theorem utf8ByteSize_leading_le (line : String) (count : Nat) :
    (leading line count).utf8ByteSize ≤ line.utf8ByteSize := by
  rw [utf8ByteSize_leading, ← String.ofList_toList (s := line), String.utf8ByteSize_ofList,
    String.toList_ofList]
  exact String.utf8Len_le_of_sublist (List.take_sublist _ _)

/-- A place in a line comes before every line below, by the line break at least. -/
theorem bytesBefore_add_leading_lt {lines : List String} {number below : Nat} {line : String}
    (hline : lines[number]? = some line) (count : Nat) (hlt : number < below) :
    Text.bytesBefore lines number + (leading line count).utf8ByteSize <
      Text.bytesBefore lines below :=
  calc Text.bytesBefore lines number + (leading line count).utf8ByteSize
      < Text.bytesBefore lines number + (line.utf8ByteSize + 1) :=
        Nat.add_lt_add_left (Nat.lt_succ_of_le (utf8ByteSize_leading_le line count)) _
    _ = Text.bytesBefore lines (number + 1) := (Text.bytesBefore_succ hline).symm
    _ ≤ Text.bytesBefore lines below := Text.bytesBefore_mono hlt lines

/-! ## Finding a line -/

/-- The lines above a line with their line breaks, and the line with all that follows. -/
structure PartsAtLine (text : List Char) (number : Nat) (before after : List Char) : Prop where
  append : before ++ after = text
  line : (Text.splitChars '\n' text)[number]? = some (currentLine after)
  bytes : utf8Len before = Text.bytesBefore ((Text.splitChars '\n' text).map String.ofList) number

/-- The first line starts with the text. -/
theorem partsAtLine_zero (text : List Char) : PartsAtLine text 0 [] text where
  append := rfl
  line := by
    rw [Text.splitChars_eq_cons]
    rfl
  bytes := rfl

/-- One more line is passed with its line break. -/
theorem PartsAtLine.passLine {text rest before after : List Char} {lineBreak : Char} {number : Nat}
    (h : PartsAtLine rest number before after)
    (hrest : text.dropWhile (· ≠ '\n') = lineBreak :: rest) :
    PartsAtLine text (number + 1) (currentLine text ++ lineBreak :: before) after where
  append := by
    rw [List.append_assoc, List.cons_append, h.append, ← hrest]
    exact List.takeWhile_append_dropWhile
  line := by
    rw [Text.splitChars_eq_cons, hrest]
    exact h.line
  bytes := by
    obtain rfl : lineBreak = '\n' := Text.eq_of_dropWhile_eq_cons hrest
    have hbreak : '\n'.utf8Size = 1 := rfl
    rw [Text.splitChars_eq_cons, hrest, List.map_cons, Text.bytesBefore_cons, ← h.bytes,
      String.utf8Len_append, String.utf8Len_cons, hbreak, String.utf8ByteSize_ofList, currentLine]
    omega

/-- Passing over lines one by one ends where the line with that number starts, by induction on the
number. -/
theorem partsAtLine_of_splitAfterLines {number : Nat} {text before after : List Char}
    (hsplit : splitAfterLines number text = some (before, after)) :
    PartsAtLine text number before after := by
  fun_induction splitAfterLines number text generalizing before after with
  | case1 text =>
    cases hsplit
    exact partsAtLine_zero text
  | case2 => cases hsplit
  | case3 number text lineBreak rest hrest ih =>
    obtain ⟨⟨above, below⟩, hbelow, heq⟩ := Option.map_eq_some_iff.mp hsplit
    cases heq
    exact (ih hbelow).passLine hrest

/-- As many lines can be passed over as there are, but one. -/
theorem isSome_splitAfterLines_iff {number : Nat} {text : List Char} :
    (splitAfterLines number text).isSome ↔ number < (Text.splitChars '\n' text).length := by
  fun_induction splitAfterLines number text with
  | case1 text => simp [Text.length_splitChars]
  | case2 number text hrest =>
    rw [Text.splitChars_eq_cons, hrest]
    simp
  | case3 number text lineBreak rest hrest ih =>
    rw [Text.splitChars_eq_cons, hrest, Option.isSome_map, ih]
    simp

/-! ## Offsets -/

namespace SourceText

variable {path text : String} {position : Position} {offset : Nat}

/-- An offset is the bytes before the line and those of the characters before the position, cut off
at the end of the line. -/
theorem offsetOf_eq_ok_iff :
    (⟨path, some text⟩ : SourceText).offsetOf position = .ok offset ↔
      ∃ before after, splitAfterLines position.line text.toList = some (before, after) ∧
        offset = byteLength before + byteLength ((currentLine after).take position.character) := by
  cases hsplit : splitAfterLines position.line text.toList with
  | none => simp [offsetOf, hsplit]
  | some parts => simp [offsetOf, hsplit, Prod.ext_iff, eq_comm]

/-- The offset of a position is told by the lines of the text. -/
theorem offsetOf_value
    (hoffset : (⟨path, some text⟩ : SourceText).offsetOf position = .ok offset) :
    ∃ line, (linesOf text)[position.line]? = some line ∧
      offset = Text.bytesBefore (linesOf text) position.line +
        (leading line position.character).utf8ByteSize := by
  obtain ⟨before, after, hsplit, rfl⟩ := offsetOf_eq_ok_iff.mp hoffset
  have hparts := partsAtLine_of_splitAfterLines hsplit
  refine ⟨String.ofList (currentLine after), ?_, ?_⟩
  · rw [linesOf, Text.split, List.getElem?_map, hparts.line]
    rfl
  · rw [byteLength_eq_utf8Len, byteLength_eq_utf8Len, hparts.bytes, utf8ByteSize_leading,
      String.toList_ofList]
    rfl

/-- A position has an offset exactly if its line exists. -/
theorem exists_offsetOf_iff :
    (∃ offset, (⟨path, some text⟩ : SourceText).offsetOf position = .ok offset) ↔
      position.line ≤ text.toList.count '\n' := by
  have hlength := @Text.length_splitChars '\n' text.toList
  calc
    _ ↔ (splitAfterLines position.line text.toList).isSome := by
      simp only [offsetOf_eq_ok_iff, Option.isSome_iff_exists]
      constructor
      · rintro ⟨_, before, after, hsplit, -⟩
        exact ⟨(before, after), hsplit⟩
      · rintro ⟨⟨before, after⟩, hsplit⟩
        exact ⟨_, before, after, hsplit, rfl⟩
    _ ↔ position.line ≤ text.toList.count '\n' := by
      rw [isSome_splitAfterLines_iff]
      omega

/-- An offset counts the bytes of a beginning of the text. -/
theorem offsetOf_isValid
    (hoffset : (⟨path, some text⟩ : SourceText).offsetOf position = .ok offset) :
    String.Pos.Raw.IsValid text ⟨offset⟩ := by
  obtain ⟨before, after, hsplit, rfl⟩ := offsetOf_eq_ok_iff.mp hoffset
  have hline : currentLine after <+: after := List.takeWhile_prefix _
  have htake : (currentLine after).take position.character <+: currentLine after :=
    List.take_prefix _ _
  obtain ⟨behind, hbehind⟩ := htake.trans hline
  have htext : text = String.ofList (before ++ (currentLine after).take position.character) ++
      String.ofList behind := by
    rw [← String.ofList_append, List.append_assoc, hbehind,
      (partsAtLine_of_splitAfterLines hsplit).append, String.ofList_toList]
  rw [String.Pos.Raw.isValid_iff_exists_append]
  refine ⟨_, _, htext, ?_⟩
  rw [String.rawEndPos_ofList, String.utf8Len_append, byteLength_eq_utf8Len, byteLength_eq_utf8Len]

end SourceText

/-! ## Offsets and the order of positions -/

/-- A position is in its line or at the end of it. -/
def Position.Inside (position : Position) (text : String) : Prop :=
  ∃ line, (linesOf text)[position.line]? = some line ∧ position.character ≤ line.length

namespace SourceText

section Order

variable {path text : String} {left right : Position} {first second : Nat}
  (hleft : (⟨path, some text⟩ : SourceText).offsetOf left = .ok first)
  (hright : (⟨path, some text⟩ : SourceText).offsetOf right = .ok second)
include hleft hright

/-- Offsets in a line above are smaller. -/
theorem offsetOf_lt_of_line_lt (hlt : left.line < right.line) : first < second := by
  obtain ⟨line, hline, rfl⟩ := offsetOf_value hleft
  obtain ⟨_, _, rfl⟩ := offsetOf_value hright
  exact Nat.lt_add_right _ (bytesBefore_add_leading_lt hline left.character hlt)

/-- Later positions have no smaller offsets. -/
theorem offsetOf_le_of_atOrBefore (hle : left.atOrBefore right = true) : first ≤ second := by
  rcases Position.atOrBefore_iff.mp hle with hlt | ⟨heq, hle⟩
  · exact (offsetOf_lt_of_line_lt hleft hright hlt).le
  · obtain ⟨line, hline, rfl⟩ := offsetOf_value hleft
    obtain ⟨other, hother, rfl⟩ := offsetOf_value hright
    rw [← heq, hline] at hother
    cases hother
    rw [heq, utf8ByteSize_leading, utf8ByteSize_leading]
    exact Nat.add_le_add_left (utf8Len_take_le hle line.toList) _

/-- In one line, the offset of a later character is greater. -/
theorem offsetOf_lt_of_character_lt (hline : left.line = right.line)
    (hinside : right.Inside text) (hlt : left.character < right.character) : first < second := by
  obtain ⟨line, hleftLine, rfl⟩ := offsetOf_value hleft
  obtain ⟨other, hrightLine, rfl⟩ := offsetOf_value hright
  obtain ⟨_, hinLine, hle⟩ := hinside
  rw [hrightLine] at hinLine
  cases hinLine
  rw [hline, hrightLine] at hleftLine
  cases hleftLine
  rw [← String.length_toList] at hle
  rw [hline, utf8ByteSize_leading, utf8ByteSize_leading]
  exact Nat.add_lt_add_left (utf8Len_take_lt hlt hle) _

/-- Positions inside the lines of a text are told apart by their offsets. -/
theorem eq_of_offsetOf_eq (hleftInside : left.Inside text) (hrightInside : right.Inside text)
    (heq : first = second) : left = right := by
  -- offsets of different lines differ, so the lines are the same; then the characters are
  have hline : left.line = right.line := by
    rcases lt_trichotomy left.line right.line with hlt | hsame | hgt
    · exact absurd heq (offsetOf_lt_of_line_lt hleft hright hlt).ne
    · exact hsame
    · exact absurd heq (offsetOf_lt_of_line_lt hright hleft hgt).ne'
  have hcharacter : left.character = right.character := by
    rcases lt_trichotomy left.character right.character with hlt | hsame | hgt
    · exact absurd heq (offsetOf_lt_of_character_lt hleft hright hline hrightInside hlt).ne
    · exact hsame
    · exact absurd heq
        (offsetOf_lt_of_character_lt hright hleft hline.symm hleftInside hgt).ne'
  cases left
  cases right
  rw [Position.mk.injEq]
  exact ⟨hline, hcharacter⟩

end Order

/-! ## Spans -/

section Spans

variable {source : SourceText} {range : Range} {span : Span}

/-- A span starts at the offset of the start and ends at that of the end, and is empty where the end
comes first. -/
theorem spanOf_eq_ok_iff :
    source.spanOf range = .ok span ↔
      ∃ start stop, source.offsetOf range.start = .ok start ∧
        source.offsetOf range.stop = .ok stop ∧ span = ⟨start, max stop start - start⟩ := by
  unfold spanOf
  cases source.offsetOf range.start with
  | error e => simp
  | ok start =>
    cases source.offsetOf range.stop with
    | error e => simp
    | ok stop => simp [eq_comm]

/-- A span ends at the offset of one end of its range, the start of a range that is reversed. -/
theorem exists_end_of_spanOf (hspan : source.spanOf range = .ok span) :
    ∃ position, source.offsetOf position = .ok (span.offset + span.length) := by
  obtain ⟨start, stop, hstart, hstop, rfl⟩ := spanOf_eq_ok_iff.mp hspan
  rcases le_total start stop with hle | hle
  · refine ⟨range.stop, ?_⟩
    rw [hstop, max_eq_left hle, Nat.add_sub_cancel' hle]
  · refine ⟨range.start, ?_⟩
    rw [hstart, max_eq_right hle, Nat.sub_self, Nat.add_zero]

end Spans

/-- What the offsets of positions and the spans of ranges are in a source of a text. -/
structure FollowsLines (source : SourceText) (text : String) : Prop where
  /-- A position has an offset exactly if its line exists. -/
  exists_offset : ∀ position, (∃ offset, source.offsetOf position = .ok offset) ↔
    position.line ≤ text.toList.count '\n'
  /-- The offset is that of the line and the bytes of the characters before the position, of which
  there are no more than the line has. -/
  value : ∀ position offset, source.offsetOf position = .ok offset →
    ∃ line, (linesOf text)[position.line]? = some line ∧
      offset = Text.bytesBefore (linesOf text) position.line +
        (leading line (min position.character line.length)).utf8ByteSize
  /-- The offset lies in the text, between two characters. -/
  valid : ∀ position offset, source.offsetOf position = .ok offset →
    offset ≤ text.utf8ByteSize ∧ String.Pos.Raw.IsValid text ⟨offset⟩
  /-- Offsets keep the order of positions. -/
  monotone : ∀ left right first second, source.offsetOf left = .ok first →
    source.offsetOf right = .ok second → left.atOrBefore right = true → first ≤ second
  /-- Offsets tell apart the positions that are not past the ends of their lines. -/
  injective : ∀ left right offset, source.offsetOf left = .ok offset →
    source.offsetOf right = .ok offset → left.Inside text → right.Inside text → left = right
  /-- A range has a span exactly if both of its lines exist. -/
  exists_span : ∀ range, (∃ span, source.spanOf range = .ok span) ↔
    range.start.line ≤ text.toList.count '\n' ∧ range.stop.line ≤ text.toList.count '\n'
  /-- The span goes from the offset of the start to the larger of the two offsets. -/
  span : ∀ range span, source.spanOf range = .ok span →
    ∃ start stop, source.offsetOf range.start = .ok start ∧
      source.offsetOf range.stop = .ok stop ∧ span.offset = start ∧
      span.offset + span.length = max start stop
  /-- The span lies in the text, and both of its ends are between two characters. -/
  span_valid : ∀ range span, source.spanOf range = .ok span →
    span.offset + span.length ≤ text.utf8ByteSize ∧
      String.Pos.Raw.IsValid text ⟨span.offset⟩ ∧
      String.Pos.Raw.IsValid text ⟨span.offset + span.length⟩

/-- Positions map to offsets, and ranges to spans, along the lines of the text. -/
theorem offsets_along_lines (path text : String) :
    FollowsLines ⟨path, some text⟩ text where
  exists_offset _ := exists_offsetOf_iff
  value position offset hoffset := by
    obtain ⟨line, hline, rfl⟩ := offsetOf_value hoffset
    exact ⟨line, hline, by rw [leading_min_length]⟩
  valid position offset hoffset :=
    ⟨(offsetOf_isValid hoffset).le_utf8ByteSize, offsetOf_isValid hoffset⟩
  monotone left right first second := offsetOf_le_of_atOrBefore
  injective left right offset hleft hright hleftInside hrightInside :=
    eq_of_offsetOf_eq hleft hright hleftInside hrightInside rfl
  exists_span range := by
    rw [← exists_offsetOf_iff, ← exists_offsetOf_iff]
    constructor
    · rintro ⟨span, hspan⟩
      obtain ⟨start, stop, hstart, hstop, -⟩ := spanOf_eq_ok_iff.mp hspan
      exact ⟨⟨start, hstart⟩, ⟨stop, hstop⟩⟩
    · rintro ⟨⟨start, hstart⟩, ⟨stop, hstop⟩⟩
      exact ⟨_, spanOf_eq_ok_iff.mpr ⟨start, stop, hstart, hstop, rfl⟩⟩
  span range span hspan := by
    obtain ⟨start, stop, hstart, hstop, rfl⟩ := spanOf_eq_ok_iff.mp hspan
    have hend : start + (max stop start - start) = max start stop := by omega
    exact ⟨start, stop, hstart, hstop, rfl, hend⟩
  span_valid range span hspan := by
    obtain ⟨start, stop, hstart, -, rfl⟩ := spanOf_eq_ok_iff.mp hspan
    obtain ⟨last, hlast⟩ := exists_end_of_spanOf hspan
    have hend := offsetOf_isValid hlast
    exact ⟨hend.le_utf8ByteSize, offsetOf_isValid hstart, hend⟩

example : (⟨"a.bs", some "né\n\nüb"⟩ : SourceText).spanOf ⟨⟨2, 1⟩, ⟨0, 9⟩⟩ = .ok ⟨7, 0⟩ := by
  decide

end SourceText

end ScopeCheck
