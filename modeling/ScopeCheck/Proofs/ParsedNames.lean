import ScopeCheck.Proofs.DottedText
import ScopeCheck.Proofs.TextOrder

/-!
# Reading dotted names

A dotted name is read piece by piece. The part of a piece has the trimmed piece as its text and
stands as far behind the start of the name as the piece does (`DottedName.parse_eq_ok_iff`). What is
accepted, what the parts say and that a name can be read again from its text all follow from this,
and so does the order of the parts: a part is no longer than its piece, and the next piece starts
behind the dot.

A part keeps the column of its piece, also when the piece starts with white space. In a text of
ASCII characters the part's range therefore covers the part's word exactly if no white space stands
in front of it in the piece, and otherwise starts that much too early
(`DottedName.part_covers_word_iff`).
-/

namespace ScopeCheck

open String (utf8Len)

namespace DottedName

/-! ## Parts of pieces -/

/-- The part that is made of a piece at a column. -/
def partAt (line column : Nat) (piece : String) : Ident :=
  ⟨Text.trim piece, .onLine line column (Text.trim piece).utf8ByteSize⟩

/-- The parts that are made of pieces with a dot behind each. -/
def partsFrom (line column : Nat) (pieces : List String) : List Ident :=
  pieces.mapIdx fun index piece => partAt line (column + Text.bytesBefore pieces index) piece

/-- The parts after the first start after its piece and the dot. -/
theorem partsFrom_cons (line column : Nat) (piece : String) (rest : List String) :
    partsFrom line column (piece :: rest) =
      partAt line column piece :: partsFrom line (column + piece.utf8ByteSize + 1) rest := by
  rw [partsFrom, List.mapIdx_cons, partsFrom]
  refine congrArg₂ List.cons rfl (congrArg (List.mapIdx · rest) ?_)
  funext index later
  rw [Text.bytesBefore_cons]
  exact congrArg (partAt line · later) (by omega)

/-- A part is placed by the bytes of the pieces and dots before it. -/
theorem getElem?_partsFrom (line column : Nat) (pieces : List String) (index : Nat) :
    (partsFrom line column pieces)[index]? =
      pieces[index]?.map (partAt line (column + Text.bytesBefore pieces index)) :=
  List.getElem?_mapIdx

/-- The parts say what the pieces say without white space around it. -/
theorem map_text_partsFrom (line column : Nat) (pieces : List String) :
    (partsFrom line column pieces).map Ident.text = pieces.map Text.trim := by
  induction pieces generalizing column with
  | nil => rfl
  | cons piece rest ih =>
    rw [partsFrom_cons, List.map_cons, ih, List.map_cons]
    rfl

/-- Pieces are placed exactly if none is empty or blank. -/
theorem placePieces_eq_some_iff {line column : Nat} {pieces : List String} {parts : List Ident} :
    placePieces line column pieces = some parts ↔
      (∀ piece ∈ pieces, Text.trim piece ≠ "") ∧ parts = partsFrom line column pieces := by
  induction pieces generalizing column parts with
  | nil =>
    rw [placePieces, Option.some.injEq, eq_comm]
    exact (and_iff_right (List.forall_mem_nil _)).symm
  | cons piece rest ih =>
    rw [placePieces, partsFrom_cons, List.forall_mem_cons]
    by_cases hempty : Text.trim piece = ""
    · simp [hempty]
    · rw [if_neg (by simpa using hempty), Option.map_eq_some_iff]
      constructor
      · rintro ⟨later, hlater, rfl⟩
        obtain ⟨hrest, rfl⟩ := ih.mp hlater
        exact ⟨⟨hempty, hrest⟩, rfl⟩
      · rintro ⟨⟨-, hrest⟩, rfl⟩
        exact ⟨_, ih.mpr ⟨hrest, rfl⟩, rfl⟩

/-- What is read from a text. -/
theorem parse_eq_ok_iff {text : String} {range : Range} {name : DottedName} :
    parse text range = .ok name ↔
      (∀ piece ∈ Text.split '.' text, Text.trim piece ≠ "") ∧
        name = ⟨partsFrom range.start.line range.start.character (Text.split '.' text), range⟩ := by
  have hplace := @placePieces_eq_some_iff range.start.line range.start.character
    (Text.split '.' text)
  rw [parse]
  cases hparts : placePieces range.start.line range.start.character (Text.split '.' text) with
  | none =>
    refine iff_of_false (fun hname => by cases hname) fun hname => ?_
    cases hparts.symm.trans (hplace.mpr ⟨hname.1, rfl⟩)
  | some parts =>
    obtain ⟨hpieces, rfl⟩ := hplace.mp hparts
    rw [Except.ok.injEq, eq_comm]
    exact (and_iff_right hpieces).symm

/-! ## Reading a name again -/

/-- A text that can be a part of a name as it is. -/
structure IsWord (text : String) : Prop where
  nonempty : text ≠ ""
  trimmed : Text.trim text = text
  undotted : '.' ∉ text.toList

/-- A piece that is not blank is a word once it is trimmed. -/
theorem isWord_trim {text piece : String} (hpiece : piece ∈ Text.split '.' text)
    (hne : Text.trim piece ≠ "") : IsWord (Text.trim piece) where
  nonempty := hne
  trimmed := Text.trim_trim piece
  undotted hdot := Text.not_mem_of_mem_split hpiece (Text.mem_of_mem_trim hdot)

/-- Words with dots between them are read as these words. -/
theorem exists_parse_intercalate {words : List String} (hne : words ≠ [])
    (hwords : ∀ word ∈ words, IsWord word) (range : Range) :
    ∃ name, parse (".".intercalate words) range = .ok name ∧
      name.parts.map Ident.text = words := by
  have hsplit : Text.split '.' (".".intercalate words) = words :=
    Text.split_intercalate hne fun word hword => (hwords word hword).undotted
  refine ⟨_, parse_eq_ok_iff.mpr ⟨?_, rfl⟩, ?_⟩
  · intro word hword
    rw [hsplit] at hword
    rw [(hwords word hword).trimmed]
    exact (hwords word hword).nonempty
  · rw [hsplit, map_text_partsFrom]
    calc words.map Text.trim = words.map id :=
          List.map_congr_left fun word hword => (hwords word hword).trimmed
      _ = words := List.map_id words

/-! ## The order of the parts -/

/-- A part stands on the line, at the column of its piece or behind. -/
theorem exists_of_mem_partsFrom {line column : Nat} {pieces : List String} {part : Ident}
    (hpart : part ∈ partsFrom line column pieces) :
    ∃ piece ∈ pieces, ∃ start, column ≤ start ∧ part = partAt line start piece := by
  obtain ⟨index, hindex, rfl⟩ := List.mem_mapIdx.mp hpart
  exact ⟨_, List.getElem_mem hindex, _, Nat.le_add_right _ _, rfl⟩

/-- A part ends before the next piece starts, and so before every later part. -/
theorem pairwise_partsFrom (line column : Nat) (pieces : List String) :
    (partsFrom line column pieces).Pairwise fun left right =>
      compare left.range right.range = .lt ∧
        compare left.range.stop right.range.start = .lt := by
  induction pieces generalizing column with
  | nil => exact List.Pairwise.nil
  | cons piece rest ih =>
    rw [partsFrom_cons, List.pairwise_cons]
    refine ⟨fun part hpart => ?_, ih _⟩
    obtain ⟨later, -, start, hstart, rfl⟩ := exists_of_mem_partsFrom hpart
    have hword := Text.utf8ByteSize_trim_le piece
    -- the later part starts behind the whole piece and its dot, not only behind the word
    have hstarts : compare (⟨line, column⟩ : Position) ⟨line, start⟩ = .lt := by
      rw [Position.compare_on_line, Nat.compare_eq_lt]
      omega
    constructor
    · change (compare (⟨line, column⟩ : Position) ⟨line, start⟩).then _ = _
      rw [hstarts]
      rfl
    · change compare (⟨line, column + (Text.trim piece).utf8ByteSize⟩ : Position) ⟨line, start⟩ = _
      rw [Position.compare_on_line, Nat.compare_eq_lt]
      omega

/-! ## What is read -/

/-- What a name is that was read from a text at a range. -/
structure ReadFrom (text : String) (range : Range) (name : DottedName) : Prop where
  /-- The name stands at the range. -/
  whole : name.range = range
  /-- The parts say what the pieces of the text say, in their order and without white space around
  them. -/
  texts : name.parts.map Ident.text = (Text.split '.' text).map Text.trim
  /-- The text of the name has dots between them. -/
  joined : name.text = ".".intercalate ((Text.split '.' text).map Text.trim)
  /-- Reading the text of the name, wherever it is written, gives the same texts. -/
  again : ∀ other, ∃ same, parse name.text other = .ok same ∧
    same.parts.map Ident.text = name.parts.map Ident.text
  /-- No part has an empty range. -/
  nonempty : ∀ part ∈ name.parts, compare part.range.start part.range.stop = .lt
  /-- The ranges of the parts ascend and do not overlap. -/
  ascending : name.parts.Pairwise fun left right =>
    compare left.range right.range = .lt ∧ compare left.range.stop right.range.start = .lt

/-- What is read from a text has the parts that are specified. -/
theorem readFrom_of_parse {text : String} {range : Range} {name : DottedName}
    (hparse : parse text range = .ok name) : ReadFrom text range name := by
  obtain ⟨hpieces, rfl⟩ := parse_eq_ok_iff.mp hparse
  have htexts := map_text_partsFrom range.start.line range.start.character (Text.split '.' text)
  have hjoined := congrArg ".".intercalate htexts
  refine ⟨rfl, htexts, hjoined, fun other => ?_, fun part hpart => ?_, pairwise_partsFrom _ _ _⟩
  · rw [DottedName.text, htexts]
    refine exists_parse_intercalate (mt List.map_eq_nil_iff.mp (Text.split_ne_nil _)) ?_ other
    intro word hword
    obtain ⟨piece, hpiece, rfl⟩ := List.mem_map.mp hword
    exact isWord_trim hpiece (hpieces piece hpiece)
  · obtain ⟨piece, hpiece, start, -, rfl⟩ := exists_of_mem_partsFrom hpart
    have hbytes : (Text.trim piece).utf8ByteSize ≠ 0 :=
      mt String.utf8ByteSize_eq_zero_iff.mp (hpieces piece hpiece)
    change compare (⟨range.start.line, start⟩ : Position) ⟨range.start.line, start + _⟩ = _
    rw [Position.compare_on_line, Nat.compare_eq_lt]
    omega

/-- A text is read exactly if every piece has a character that is not white space. What is read says
what the pieces say, and every name of words is read from its text. -/
theorem parse_reads_words :
    (∀ text range, (∃ name, parse text range = .ok name) ↔
      ∀ piece ∈ Text.split '.' text, ∃ c ∈ piece.toList, Text.isBlank c = false) ∧
    (∀ text range name, parse text range = .ok name → ReadFrom text range name) ∧
    (∀ name : DottedName, name.parts ≠ [] → (∀ part ∈ name.parts, IsWord part.text) →
      ∀ range, ∃ same, parse name.text range = .ok same ∧
        same.parts.map Ident.text = name.parts.map Ident.text) := by
  refine ⟨fun text range => ?_, fun text range name => readFrom_of_parse, ?_⟩
  · have hpiece : ∀ piece, Text.trim piece ≠ "" ↔
        ∃ c ∈ piece.toList, Text.isBlank c = false := by
      intro piece
      rw [Ne, Text.trim_eq_empty_iff]
      simp
    simp only [parse_eq_ok_iff, hpiece, exists_and_left, exists_eq, and_true]
  · intro name hne hwords range
    refine exists_parse_intercalate (mt List.map_eq_nil_iff.mp hne) ?_ range
    intro word hword
    obtain ⟨part, hpart, rfl⟩ := List.mem_map.mp hword
    exact hwords part hpart

/-- The text `Alpha. Beta`, read at the tenth column of a line. -/
def spacedName : DottedName :=
  ⟨[⟨"Alpha", .onLine 3 10 5⟩, ⟨"Beta", .onLine 3 16 4⟩], ⟨⟨3, 10⟩, ⟨3, 21⟩⟩⟩

/-- A name with a space after the dot is read. Its second part is placed right after the dot, where
the space stands. -/
theorem spacedName_readFrom :
    parse "Alpha. Beta" spacedName.range = .ok spacedName ∧
      ReadFrom "Alpha. Beta" spacedName.range spacedName :=
  have hparse : parse "Alpha. Beta" spacedName.range = .ok spacedName := by decide
  ⟨hparse, parse_reads_words.2.1 _ _ _ hparse⟩

end DottedName

/-! ## What the range of a part covers -/

namespace Text

/-- The characters of a text from one column to another. -/
def cut (text : String) (start stop : Nat) : String :=
  String.ofList ((text.toList.drop start).take (stop - start))

/-- The number of characters of white space at the beginning of a text. -/
def indent (text : String) : Nat := (text.toList.takeWhile isBlank).length

/-- An ASCII character is one byte. -/
theorem utf8Len_of_ascii {chars : List Char} (hascii : ∀ c ∈ chars, c.toNat < 0x80) :
    utf8Len chars = chars.length := by
  induction chars with
  | nil => rfl
  | cons c rest ih =>
    have hc : c.utf8Size = 1 := by
      have hlt := hascii c List.mem_cons_self
      rw [Char.utf8Size_eq_one_iff, UInt32.le_iff_toNat_le]
      change c.toNat ≤ 127
      omega
    rw [String.utf8Len_cons, hc, List.length_cons,
      ih fun d hd => hascii d (List.mem_cons_of_mem c hd)]

/-- What stands between a beginning and an end of a text is cut out behind the beginning. -/
theorem cut_of_eq_append {text word : String} {before after : List Char}
    (htext : text.toList = before ++ word.toList ++ after) :
    cut text before.length (before.length + word.length) = word := by
  refine String.toList_inj.mp ?_
  rw [cut, String.toList_ofList, htext, List.append_assoc, List.drop_left, Nat.add_sub_cancel_left,
    ← String.length_toList, List.take_left]

section Ascii

variable {text piece : String} {index : Nat} (hascii : IsAscii text)
  (hpiece : (split '.' text)[index]? = some piece)
include hascii hpiece

/-- The word of a piece stands behind the pieces before and the white space in front of it. -/
theorem exists_around_word :
    ∃ before behind, text.toList =
      before ++ (piece.toList.takeWhile isBlank ++ ((trim piece).toList ++ behind)) ∧
        before.length = bytesBefore (split '.' text) index := by
  have hchars : (splitChars '.' text.toList)[index]? = some piece.toList := by
    rw [split, List.getElem?_map, Option.map_eq_some_iff] at hpiece
    obtain ⟨chars, hchars, rfl⟩ := hpiece
    rw [hchars, String.toList_ofList]
  have hdot : '.'.utf8Size = 1 := rfl
  obtain ⟨before, after, htext, hbytes⟩ := exists_around_piece hdot hchars
  obtain ⟨behind, htrim⟩ := exists_around_trim piece
  refine ⟨before, behind ++ after, ?_, ?_⟩
  · conv_lhs => rw [htext, htrim]
    simp only [List.append_assoc]
  · rw [split, ← hbytes, utf8Len_of_ascii]
    intro c hc
    refine hascii c ?_
    rw [htext]
    exact List.mem_append_left after (List.mem_append_left piece.toList hc)

/-- A word of an ASCII text has as many bytes as characters. -/
theorem utf8ByteSize_word : (trim piece).utf8ByteSize = (trim piece).length := by
  obtain ⟨before, behind, htext, -⟩ := exists_around_word hascii hpiece
  have hword : ∀ c ∈ (trim piece).toList, c.toNat < 0x80 := by
    intro c hc
    refine hascii c ?_
    rw [htext]
    exact List.mem_append_right before (List.mem_append_right _ (List.mem_append_left behind hc))
  rw [← String.length_toList, ← utf8Len_of_ascii hword, ← String.utf8ByteSize_ofList,
    String.ofList_toList]

/-- Cutting an ASCII text where a word starts, white space passed over, gives the word. -/
theorem cut_word :
    cut text (bytesBefore (split '.' text) index + indent piece)
      (bytesBefore (split '.' text) index + indent piece + (trim piece).length) = trim piece := by
  obtain ⟨before, behind, htext, hlength⟩ := exists_around_word hascii hpiece
  have hfront : (before ++ piece.toList.takeWhile isBlank).length =
      bytesBefore (split '.' text) index + indent piece := by
    rw [List.length_append, hlength, indent]
  have haround : text.toList =
      (before ++ piece.toList.takeWhile isBlank) ++ (trim piece).toList ++ behind := by
    rw [htext]
    simp only [List.append_assoc]
  rw [← hfront]
  exact cut_of_eq_append haround

/-- Cut from the column of its piece on, a word comes out only if it stands there: else the first
character is white space. -/
theorem indent_eq_zero_of_cut (hne : trim piece ≠ "")
    (hcut : cut text (bytesBefore (split '.' text) index)
      (bytesBefore (split '.' text) index + (trim piece).length) = trim piece) :
    indent piece = 0 := by
  obtain ⟨before, behind, htext, hlength⟩ := exists_around_word hascii hpiece
  rw [indent, List.length_eq_zero_iff]
  rcases hblanks : piece.toList.takeWhile isBlank with _ | ⟨c, more⟩
  · rfl
  · have hblank : isBlank c = true :=
      List.mem_takeWhile_imp (hblanks ▸ List.mem_cons_self)
    obtain ⟨length, hlen⟩ : ∃ length, (trim piece).length = length + 1 := by
      refine Nat.exists_eq_succ_of_ne_zero ?_
      rw [← String.length_toList, Ne, List.length_eq_zero_iff, String.toList_eq_nil_iff]
      exact hne
    -- what is cut starts with the white space `c`, which no trimmed text does
    have hhead : (trim piece).toList =
        c :: (more ++ ((trim piece).toList ++ behind)).take length := by
      conv_lhs => rw [← hcut]
      rw [cut, String.toList_ofList, htext, ← hlength, List.drop_left, Nat.add_sub_cancel_left,
        hlen, hblanks, List.cons_append, List.take_succ_cons]
    exact absurd hblank (by simp [isBlank_of_toList_trim_eq_cons hhead])

end Ascii

end Text

namespace DottedName

/-- The range of a part stands on the line of the name. It covers the part's word exactly if no
white space stands in front of it in its piece; else it starts too early, by just that white
space. -/
theorem part_covers_word_iff {text : String} {range : Range} {name : DottedName} {index : Nat}
    {part : Ident} (hascii : Text.IsAscii text) (hparse : parse text range = .ok name)
    (hpart : name.parts[index]? = some part) :
    part.range.start.line = range.start.line ∧ part.range.stop.line = range.start.line ∧
      range.start.character ≤ part.range.start.character ∧
      ∃ piece, (Text.split '.' text)[index]? = some piece ∧
        Text.cut text (part.range.start.character - range.start.character + Text.indent piece)
          (part.range.stop.character - range.start.character + Text.indent piece) = part.text ∧
        (Text.cut text (part.range.start.character - range.start.character)
          (part.range.stop.character - range.start.character) = part.text ↔
            Text.indent piece = 0) := by
  obtain ⟨hpieces, rfl⟩ := parse_eq_ok_iff.mp hparse
  rw [getElem?_partsFrom, Option.map_eq_some_iff] at hpart
  obtain ⟨piece, hpiece, rfl⟩ := hpart
  have hne := hpieces piece (List.mem_of_getElem? hpiece)
  have hstart : range.start.character + Text.bytesBefore (Text.split '.' text) index -
      range.start.character = Text.bytesBefore (Text.split '.' text) index :=
    Nat.add_sub_cancel_left _ _
  have hstop : range.start.character + Text.bytesBefore (Text.split '.' text) index +
      (Text.trim piece).utf8ByteSize - range.start.character =
        Text.bytesBefore (Text.split '.' text) index + (Text.trim piece).length := by
    rw [Text.utf8ByteSize_word hascii hpiece]
    omega
  -- the word stands behind the white space of its piece, which the range does not pass over
  have hword := Text.cut_word hascii hpiece
  rw [partAt, Range.onLine]
  refine ⟨rfl, rfl, Nat.le_add_right _ _, piece, hpiece, ?_⟩
  rw [hstart, hstop]
  refine ⟨?_, ?_, fun hindent => ?_⟩
  · rwa [Nat.add_right_comm] at hword
  · exact Text.indent_eq_zero_of_cut hascii hpiece hne
  · rwa [hindent, Nat.add_zero] at hword

/-- `Beta` stands one column behind the range of its part. -/
theorem beta_behind_its_range :
    Text.IsAscii "Alpha. Beta" ∧ parse "Alpha. Beta" spacedName.range = .ok spacedName ∧
      ∃ part, spacedName.parts[1]? = some part ∧
        ∃ piece, (Text.split '.' "Alpha. Beta")[1]? = some piece ∧ Text.indent piece = 1 ∧
          Text.cut "Alpha. Beta" (part.range.start.character - 10 + Text.indent piece)
            (part.range.stop.character - 10 + Text.indent piece) = part.text := by
  have hascii : Text.IsAscii "Alpha. Beta" := by decide
  have hparse : parse "Alpha. Beta" spacedName.range = .ok spacedName := by decide
  have hpart : spacedName.parts[1]? = some ⟨"Beta", .onLine 3 16 4⟩ := rfl
  obtain ⟨-, -, -, piece, hpiece, hcut, -⟩ := part_covers_word_iff hascii hparse hpart
  have hindent : (Text.split '.' "Alpha. Beta")[1]?.map Text.indent = some 1 := by decide
  rw [hpiece] at hindent
  exact ⟨hascii, hparse, _, hpart, piece, hpiece, Option.some.inj hindent, hcut⟩

/-- A part with white space in front of its word is not covered. -/
theorem indented_part_not_covered :
    ¬ ∀ (text : String) (range : Range) (name : DottedName) (part : Ident), Text.IsAscii text →
      parse text range = .ok name → part ∈ name.parts →
        Text.cut text (part.range.start.character - range.start.character)
          (part.range.stop.character - range.start.character) = part.text := by
  intro hcovers
  have hcut := hcovers "Alpha. Beta" spacedName.range spacedName ⟨"Beta", .onLine 3 16 4⟩
    (by decide) (by decide) (by decide)
  revert hcut
  decide

end DottedName

end ScopeCheck
