import ScopeCheck.Diagnostic.Drawing
import ScopeCheck.Proofs.Offsets

/-!
# What is asked of a handler

Listings are made with any handler, and a handler may draw as it likes. What a reader of a listing
relies on is `Faithful`: no report fails, a drawing starts with a line for the code, and the message
and the line of the text where the place starts stand in it, as long as they are short lines of
printable characters (a handler may wrap or expand others). The handler that draws frames is
faithful (`framed_faithful`). That its excerpts hold the line of the place rests on two facts: line
`n` of a text is numbered `n + 1` (`getElem?_ofPieces`), and of the lines from the one before the
place on the first two are always kept (`mem_around_of_getElem?`).
-/

namespace ScopeCheck

namespace Text

/-! ## Texts that stand in others -/

/-- A text stands in another one. -/
def Within (part whole : String) : Prop := ∃ before after, whole = before ++ part ++ after

/-- A text stands in itself. -/
theorem within_refl (text : String) : Within text text :=
  ⟨"", "", by rw [String.empty_append, String.append_empty]⟩

/-- The empty text stands in every other. -/
theorem within_empty (text : String) : Within "" text :=
  ⟨"", text, by rw [String.empty_append, String.empty_append]⟩

/-- What stands in a text stands in it with more in front. -/
theorem Within.append_left {part whole : String} (h : Within part whole) (more : String) :
    Within part (more ++ whole) := by
  obtain ⟨before, after, rfl⟩ := h
  exact ⟨more ++ before, after, by simp only [String.append_assoc]⟩

/-- What stands in a text stands in it with more behind. -/
theorem Within.append_right {part whole : String} (h : Within part whole) (more : String) :
    Within part (whole ++ more) := by
  obtain ⟨before, after, rfl⟩ := h
  exact ⟨before, after ++ more, by simp only [String.append_assoc]⟩

/-- What stands in a part stands in the whole. -/
theorem Within.trans {part middle whole : String} (h : Within part middle)
    (hwhole : Within middle whole) : Within part whole := by
  obtain ⟨before, after, rfl⟩ := hwhole
  exact (h.append_left before).append_right after

/-- A member of a list stands in what the list is joined to. -/
theorem within_join {part : String} {texts : List String} (hmem : part ∈ texts) :
    Within part (String.join texts) := by
  induction texts with
  | nil => cases hmem
  | cons first rest ih =>
    rw [String.join_cons]
    rcases List.mem_cons.mp hmem with rfl | hrest
    · exact (within_refl part).append_right _
    · exact (ih hrest).append_left first

/-- A short line of printable ASCII characters without a space at its end, which a handler has no
reason to change. -/
structure IsPlain (text : String) : Prop where
  /-- It fits into the width of a console. -/
  short : text.length ≤ 100
  /-- Every character takes one column. -/
  printable : ∀ c ∈ text.toList, 0x20 ≤ c.toNat ∧ c.toNat ≤ 0x7e
  /-- There is nothing to trim. -/
  trimmed : text.toList.getLast? ≠ some ' '

instance (text : String) : Decidable (IsPlain text) :=
  decidable_of_iff (text.length ≤ 100 ∧
      (text.toList.all fun c => decide (0x20 ≤ c.toNat) && decide (c.toNat ≤ 0x7e)) = true ∧
      text.toList.getLast? ≠ some ' ')
    ⟨fun ⟨hshort, hprintable, htrimmed⟩ => ⟨hshort, by simpa using hprintable, htrimmed⟩,
      fun ⟨hshort, hprintable, htrimmed⟩ => ⟨hshort, by simpa using hprintable, htrimmed⟩⟩

/-- A plain text does not end in a space, so nothing is dropped from it. -/
theorem IsPlain.dropSpacesEnd_eq {text : String} (h : IsPlain text) :
    dropSpacesEnd text = text := by
  have hlast : text.toList.reverse.head? ≠ some ' ' := by
    rw [List.head?_reverse]
    exact h.trimmed
  have hkept : text.toList.reverse.dropWhile (fun c => decide (c = ' ')) = text.toList.reverse := by
    cases hreverse : text.toList.reverse with
    | nil => rfl
    | cons last rest =>
      rw [hreverse] at hlast
      refine List.dropWhile_cons_of_neg fun hspace => hlast ?_
      rw [List.head?_cons, of_decide_eq_true hspace]
  rw [dropSpacesEnd, hkept, List.reverse_reverse, String.ofList_toList]

/-- A plain text after an indent is one line. -/
theorem IsPlain.indentLines_eq {text : String} (h : IsPlain text) (first rest : String) :
    indentLines first rest text = first ++ text ++ "\n" := by
  have hline : '\n' ∉ text.toList := fun hmem => absurd (h.printable _ hmem).1 (by decide)
  rw [indentLines, split_of_not_mem hline]
  simp only [List.map_nil, h.dropSpacesEnd_eq]
  rw [String.join_cons, String.join_nil, String.append_empty]

end Text

/-! ## Handlers -/

/-- What is relied on of a handler. -/
structure ReportHandler.Faithful (handler : ReportHandler) : Prop where
  /-- No report fails. -/
  draws : ∀ report, ∃ drawing, handler.draw? report = some drawing
  /-- A drawing starts with the code on a line of its own. -/
  code : ∀ report drawing, handler.draw? report = some drawing →
    ∃ rest, drawing = s!"BS{report.diagnostic.code}" ++ "\n" ++ rest
  /-- A plain message stands in the drawing. -/
  message : ∀ report drawing, handler.draw? report = some drawing →
    Text.IsPlain report.diagnostic.message → Text.Within report.diagnostic.message drawing
  /-- A plain line in which the place starts stands in the drawing. -/
  line : ∀ report drawing line, handler.draw? report = some drawing → report.span.isSome = true →
    (linesOf report.source)[report.diagnostic.range.start.line]? = some line →
      Text.IsPlain line → Text.Within line drawing

/-! ## The lines of an excerpt -/

namespace TextLine

/-- The pieces of a text that are lines are numbered one after the other. -/
theorem getElem?_ofPieces {pieces : List (List Char)} {index : Nat} {piece : List Char}
    (hpiece : pieces[index]? = some piece) (hnonempty : piece ≠ []) (number offset : Nat) :
    ∃ line, (ofPieces number offset pieces)[index]? = some line ∧ line.number = number + index ∧
      line.text = piece := by
  induction pieces generalizing index number offset with
  | nil => cases hpiece
  | cons first rest ih =>
    cases rest with
    | nil =>
      obtain ⟨rfl, rfl⟩ : index = 0 ∧ first = piece := by
        cases index with
        | zero => exact ⟨rfl, Option.some.inj hpiece⟩
        | succ index => cases hpiece
      rw [ofPieces, if_neg (by simpa using hnonempty)]
      exact ⟨_, rfl, rfl, rfl⟩
    | cons second rest =>
      cases index with
      | zero =>
        obtain rfl : first = piece := Option.some.inj hpiece
        exact ⟨_, rfl, rfl, rfl⟩
      | succ index =>
        obtain ⟨line, hline, hnumber, htext⟩ :=
          ih hpiece (number + 1) (offset + byteLength first + 1)
        refine ⟨line, hline, ?_, htext⟩
        omega

/-- The numbers of lines go up. -/
theorem number_ofPieces {pieces : List (List Char)} {number offset : Nat} {index : Nat}
    {line : TextLine} (hline : (ofPieces number offset pieces)[index]? = some line) :
    line.number = number + index := by
  induction pieces generalizing index number offset with
  | nil => cases hline
  | cons first rest ih =>
    cases rest with
    | nil =>
      rw [ofPieces] at hline
      split at hline
      · cases hline
      · cases index with
        | zero => cases hline; rfl
        | succ index => cases hline
    | cons second rest =>
      cases index with
      | zero => cases hline; rfl
      | succ index =>
        rw [ofPieces, List.getElem?_cons_succ] at hline
        have hnumber := ih hline
        omega

/-- Of lines that are numbered from one, those from a number on are what is left when the others are
dropped. -/
theorem filter_number_eq_drop {lines : List TextLine}
    (hnumber : ∀ index line, lines[index]? = some line → line.number = index + 1) (least : Nat) :
    lines.filter (least ≤ ·.number) = lines.drop (least - 1) := by
  have hdropped : (lines.take (least - 1)).filter (least ≤ ·.number) = [] := by
    refine List.filter_eq_nil_iff.mpr fun line hline => ?_
    obtain ⟨index, hlt, hget⟩ := List.mem_take_iff_getElem.mp hline
    have hline := hnumber index line (List.getElem?_eq_some_iff.mpr ⟨by omega, hget⟩)
    rw [decide_eq_true_eq]
    omega
  have hkept : (lines.drop (least - 1)).filter (least ≤ ·.number) = lines.drop (least - 1) := by
    refine List.filter_eq_self.mpr fun line hline => ?_
    obtain ⟨index, hget⟩ := List.mem_iff_getElem?.mp hline
    rw [List.getElem?_drop] at hget
    have hline := hnumber _ line hget
    rw [decide_eq_true_eq]
    omega
  calc lines.filter (least ≤ ·.number)
      = (lines.take (least - 1) ++ lines.drop (least - 1)).filter (least ≤ ·.number) := by
        rw [List.take_append_drop]
    _ = lines.drop (least - 1) := by rw [List.filter_append, hdropped, hkept, List.nil_append]

/-- The first two members of a list are among those up to the second that a test does not pass. -/
theorem mem_takeWhile_append_take {α : Type} {list : List α} {index : Nat} {member : α}
    (hmember : list[index]? = some member) (hindex : index ≤ 1) (passed : α → Bool) :
    member ∈ list.takeWhile passed ++ (list.dropWhile passed).take 2 := by
  cases list with
  | nil => cases hmember
  | cons first rest =>
    -- the first two stand among what is passed or among the two after it
    by_cases hfirst : passed first = true
    · rw [List.takeWhile_cons_of_pos hfirst, List.dropWhile_cons_of_pos hfirst]
      cases index with
      | zero =>
        cases hmember
        exact List.mem_cons_self
      | succ index =>
        obtain rfl : index = 0 := by omega
        refine List.mem_cons_of_mem first ?_
        cases rest with
        | nil => cases hmember
        | cons second rest =>
          obtain rfl : member = second := (Option.some.inj hmember).symm
          by_cases hsecond : passed member = true
          · rw [List.takeWhile_cons_of_pos hsecond]
            exact List.mem_append_left _ List.mem_cons_self
          · rw [List.dropWhile_cons_of_neg hsecond]
            exact List.mem_append_right _ List.mem_cons_self
    · rw [List.dropWhile_cons_of_neg hfirst]
      refine List.mem_append_right _ (List.mem_of_getElem? (i := index) ?_)
      rw [List.getElem?_take_of_lt (by omega), hmember]

/-- The line in which a place starts is among the lines around it. -/
theorem mem_around_of_getElem? {text : String} {before : Nat} {line : TextLine}
    (hline : (all text)[before]? = some line) (place : Span) :
    line ∈ around text before place := by
  have hnumber : ∀ index line, (all text)[index]? = some line → line.number = index + 1 := by
    intro index line hget
    rw [number_ofPieces hget, Nat.add_comm]
  have hkept : ((all text).filter (before ≤ ·.number))[before - (before - 1)]? = some line := by
    rw [filter_number_eq_drop hnumber, List.getElem?_drop, ← hline]
    congr 1
    omega
  unfold around
  exact mem_takeWhile_append_take hkept (by omega) _

end TextLine

namespace Report

/-- The line in which a place starts stands in the excerpt around the place. -/
theorem within_drawExcerpt {text : String} {before : Nat} {line : String}
    (hline : (linesOf text)[before]? = some line) (place : Span) :
    Text.Within line (drawExcerpt text before place) := by
  obtain ⟨piece, hpiece, rfl⟩ : ∃ piece, (Text.splitChars '\n' text.toList)[before]? = some piece ∧
      String.ofList piece = line := by
    rw [linesOf, Text.split, List.getElem?_map] at hline
    exact Option.map_eq_some_iff.mp hline
  by_cases hempty : piece = []
  · rw [hempty]
    exact Text.within_empty _
  · obtain ⟨drawn, hdrawn, -, rfl⟩ := TextLine.getElem?_ofPieces hpiece hempty 1 0
    have hmem := TextLine.mem_around_of_getElem? hdrawn place
    have hwithin : ∀ width bracketed,
        Text.Within (String.ofList drawn.text) (drawLine width bracketed place drawn) := by
      intro width bracketed
      refine Text.Within.append_right ?_ _
      exact ((Text.within_refl _).append_left _).append_right _
    refine Text.Within.append_right (Text.Within.append_left ?_ _) _
    exact (hwithin _ _).trans (Text.within_join (List.mem_map_of_mem hmem))

end Report

/-- The handler that draws frames is faithful. -/
theorem framed_faithful : ReportHandler.framed.Faithful where
  draws report := ⟨report.draw, rfl⟩
  code report drawing hdrawing := by
    cases hdrawing
    have hbreaks : "\n\n" = "\n" ++ "\n" := by decide
    -- a drawing is the code, the message, the excerpt and the advice, one after the other
    have hstart : ∀ message excerpt help : String,
        s!"{report.codeText}\n\n" ++ message ++ excerpt ++ help =
          s!"BS{report.diagnostic.code}" ++ "\n" ++ ("\n" ++ message ++ excerpt ++ help) := by
      intro message excerpt help
      rw [hbreaks]
      simp only [Report.codeText, toString, String.append_assoc]
    exact ⟨_, hstart _ _ _⟩
  message report drawing hdrawing hplain := by
    cases hdrawing
    refine ((Text.Within.append_left ?_ _).append_right _).append_right _
    rw [hplain.indentLines_eq]
    exact ((Text.within_refl _).append_left _).append_right _
  line report drawing line hdrawing hspan hline _ := by
    cases hdrawing
    obtain ⟨place, hplace⟩ := Option.isSome_iff_exists.mp hspan
    refine (Text.Within.append_left ?_ _).append_right _
    rw [hplace]
    exact Report.within_drawExcerpt hline place

end ScopeCheck
