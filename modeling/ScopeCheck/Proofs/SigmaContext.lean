import Mathlib.Data.List.TakeWhile
import ScopeCheck.Proofs.Lowercase

/-!
# Lower case around a dot

What a text becomes in lower case depends on its surroundings only through two facts: whether the
nearest letter before it is cased, and whether the nearest letter after it is
(`lowerBetween_congr`). A dot is looked through, so the letters on its two sides are neighbours. The
name of a thing in a namespace can therefore be lower-cased part by part exactly if neither side has
a capital sigma at the dot whose form the other side decides (`lower_qualified_iff`). Whatever the
text, lower-casing it twice is lower-casing it once (`lower_idem`).
-/

namespace ScopeCheck.Text

/-! ## Letters and what is looked through -/

/-- A dot is looked through when a letter with a case is searched beside a sigma. This is what lets
the lower case of a name reach across its dots. -/
theorem isCaseIgnorable_dot : isCaseIgnorable '.' = true := by decide +kernel

/-- A sigma is not looked through. -/
theorem isCaseIgnorable_sigma : isCaseIgnorable 'Σ' = false := by decide +kernel

/-- At the end of a text no letter is met. -/
theorem meetsCased_nil : meetsCased [] = false := rfl

/-- A character that is looked through decides nothing, and any other does. -/
theorem meetsCased_cons (c : Char) (rest : List Char) :
    meetsCased (c :: rest) = if isCaseIgnorable c then meetsCased rest else isCased c := by
  unfold meetsCased
  rw [List.dropWhile_cons]
  cases isCaseIgnorable c <;> rfl

/-- Behind a front, only what the rest meets can matter. -/
theorem meetsCased_append_congr (front : List Char) {left right : List Char}
    (hmeets : meetsCased left = meetsCased right) :
    meetsCased (front ++ left) = meetsCased (front ++ right) := by
  induction front with
  | nil => exact hmeets
  | cons c front ih => rw [List.cons_append, List.cons_append, meetsCased_cons, meetsCased_cons, ih]

/-- What is looked through can be left out. -/
theorem meetsCased_append_of_ignorable {front : List Char}
    (hfront : ∀ c ∈ front, isCaseIgnorable c = true) (rest : List Char) :
    meetsCased (front ++ rest) = meetsCased rest := by
  induction front with
  | nil => rfl
  | cons c front ih =>
    rw [List.cons_append, meetsCased_cons, if_pos (hfront c List.mem_cons_self)]
    exact ih fun d hd => hfront d (List.mem_cons_of_mem c hd)

/-- There is no sigma among what is looked through. -/
theorem sigma_not_mem_of_ignorable {text : List Char}
    (htext : ∀ c ∈ text, isCaseIgnorable c = true) : 'Σ' ∉ text := by
  intro hmem
  have hignored := htext 'Σ' hmem
  rw [isCaseIgnorable_sigma] at hignored
  cases hignored

/-! ## A text between others -/

/-- The lower case of a character. `before` is what stands before it, nearest first. -/
def lowerAmong (before after : List Char) (c : Char) : List Char :=
  if c = 'Σ' then if meetsCased before && !meetsCased after then ['ς'] else ['σ'] else lowerChar c

/-- The lower case of a text between two others, of which the one before is given from its end. -/
def lowerBetween (before after : List Char) : List Char → List Char
  | [] => []
  | c :: rest => lowerAmong before (rest ++ after) c ++ lowerBetween (c :: before) after rest

/-- With nothing after it, a text is lowered as by the program. -/
theorem lowerChars_eq_lowerBetween (before text : List Char) :
    lowerChars before text = lowerBetween before [] text := by
  induction text generalizing before with
  | nil => rfl
  | cons c rest ih => rw [lowerChars, lowerBetween, lowerAmong, ih, List.append_nil]

/-- The lower case of a text is that with nothing around it. -/
theorem toList_lower_eq (text : String) :
    (lower text).toList = lowerBetween [] [] text.toList := by
  rw [lower, String.toList_ofList, lowerChars_eq_lowerBetween]

/-- The surroundings count only as far as the nearest letters are cased or not. -/
theorem lowerBetween_congr {before before' after after' : List Char}
    (hbefore : meetsCased before = meetsCased before')
    (hafter : meetsCased after = meetsCased after') (text : List Char) :
    lowerBetween before after text = lowerBetween before' after' text := by
  induction text generalizing before before' with
  | nil => rfl
  | cons c rest ih =>
    have hnext : meetsCased (c :: before) = meetsCased (c :: before') := by
      rw [meetsCased_cons, meetsCased_cons, hbefore]
    rw [lowerBetween, lowerBetween, lowerAmong, lowerAmong, hbefore,
      meetsCased_append_congr rest hafter, ih hnext]

/-- Of two texts in a row each is lowered with the other beside it. -/
theorem lowerBetween_append (before after left right : List Char) :
    lowerBetween before after (left ++ right) =
      lowerBetween before (right ++ after) left ++
        lowerBetween (left.reverse ++ before) after right := by
  induction left generalizing before with
  | nil => rfl
  | cons c rest ih =>
    rw [List.cons_append, lowerBetween, lowerBetween, ih, List.reverse_cons]
    simp only [List.append_assoc, List.singleton_append]

/-- Without a sigma it does not matter what stands around a text. -/
theorem lowerBetween_of_not_mem {text : List Char} (hnone : 'Σ' ∉ text) (before after : List Char) :
    lowerBetween before after text = text.flatMap lowerChar := by
  induction text generalizing before with
  | nil => rfl
  | cons c rest ih =>
    obtain ⟨hc, hrest⟩ := not_or.mp (mt List.mem_cons.mpr hnone)
    rw [lowerBetween, lowerAmong, if_neg (Ne.symm hc), ih hrest, List.flatMap_cons]

/-- Both lower cases of a sigma are one character, so lengths do not depend on what stands around.
-/
theorem length_lowerAmong (before after : List Char) (c : Char) :
    (lowerAmong before after c).length = (lowerChar c).length := by
  unfold lowerAmong
  split
  · rename_i hc
    subst hc
    split <;> decide
  · rfl

/-- The surroundings do not change how long the lower case is. -/
theorem length_lowerBetween (before after text : List Char) :
    (lowerBetween before after text).length = (text.flatMap lowerChar).length := by
  induction text generalizing before with
  | nil => rfl
  | cons c rest ih =>
    rw [lowerBetween, List.length_append, length_lowerAmong, ih, List.flatMap_cons,
      List.length_append]

/-! ## Sigmas at the ends of a text -/

/-- Whether the last letter of a text is a capital sigma that ends a word there. -/
def endsInSigma (text : List Char) : Bool :=
  match text.reverse.dropWhile isCaseIgnorable with
  | [] => false
  | c :: before => c = 'Σ' && meetsCased before

/-- Whether the first letter of a text is a capital sigma that no cased letter follows. -/
def beginsWithSigma (text : List Char) : Bool :=
  match text.dropWhile isCaseIgnorable with
  | [] => false
  | c :: after => c = 'Σ' && !meetsCased after

/-- Looking through what can be looked through ends at the first other character. -/
theorem dropWhile_of_letter {front : List Char}
    (hfront : ∀ c ∈ front, isCaseIgnorable c = true) {c : Char} (hc : isCaseIgnorable c = false)
    (rest : List Char) : (front ++ c :: rest).dropWhile isCaseIgnorable = c :: rest := by
  rw [List.dropWhile_append_of_pos hfront, List.dropWhile_cons_of_neg (by simp [hc])]

/-- A text has a first letter, or all of it is looked through. -/
theorem exists_first_letter (text : List Char) :
    (∀ c ∈ text, isCaseIgnorable c = true) ∨
      ∃ front c rest, text = front ++ c :: rest ∧ (∀ d ∈ front, isCaseIgnorable d = true) ∧
        isCaseIgnorable c = false := by
  induction text with
  | nil => exact .inl fun c hc => absurd hc List.not_mem_nil
  | cons c text ih =>
    cases hc : isCaseIgnorable c with
    | false => exact .inr ⟨[], c, text, rfl, fun d hd => absurd hd List.not_mem_nil, hc⟩
    | true =>
      rcases ih with hall | ⟨front, d, rest, rfl, hfront, hd⟩
      · exact .inl (List.forall_mem_cons.mpr ⟨hc, hall⟩)
      · exact .inr ⟨c :: front, d, rest, rfl, List.forall_mem_cons.mpr ⟨hc, hfront⟩, hd⟩

/-- A text has a last letter, or all of it is looked through. -/
theorem exists_last_letter (text : List Char) :
    (∀ c ∈ text, isCaseIgnorable c = true) ∨
      ∃ front c rest, text = front ++ c :: rest ∧ (∀ d ∈ rest, isCaseIgnorable d = true) ∧
        isCaseIgnorable c = false := by
  rcases exists_first_letter text.reverse with hall | ⟨front, c, rest, htext, hfront, hc⟩
  · exact .inl fun c hmem => hall c (List.mem_reverse.mpr hmem)
  · refine .inr ⟨rest.reverse, c, front.reverse, ?_, fun d hd => hfront d (by simpa using hd), hc⟩
    simpa using congrArg List.reverse htext

/-- A character is affected by a change of its surroundings if it is a capital sigma and ends a word
in only one of them. -/
theorem lowerAmong_eq_iff {before before' after after' : List Char} (c : Char) :
    lowerAmong before after c = lowerAmong before' after' c ↔
      (c = 'Σ' → (meetsCased before && !meetsCased after) =
        (meetsCased before' && !meetsCased after')) := by
  unfold lowerAmong
  by_cases hc : c = 'Σ'
  · cases meetsCased before && !meetsCased after <;>
      cases meetsCased before' && !meetsCased after' <;> simp [hc]
  · simp [hc]

/-- What follows a text changes its lower case exactly if it begins with a cased letter and the text
ends in a final sigma. -/
theorem lowerBetween_after_iff (after text : List Char) :
    lowerBetween [] after text = lowerBetween [] [] text ↔
      (endsInSigma text && meetsCased after) = false := by
  rcases exists_last_letter text with hall | ⟨front, c, rest, rfl, hrest, hc⟩
  · have hends : endsInSigma text = false := by
      rw [endsInSigma, List.dropWhile_eq_nil_iff.mpr fun c hc => hall c (List.mem_reverse.mp hc)]
    have hnone := sigma_not_mem_of_ignorable hall
    simp [lowerBetween_of_not_mem hnone, hends]
  · have hends : endsInSigma (front ++ c :: rest) = (c = 'Σ' && meetsCased front.reverse) := by
      have hreverse : (front ++ c :: rest).reverse = rest.reverse ++ c :: front.reverse := by simp
      rw [endsInSigma, hreverse,
        dropWhile_of_letter (fun d hd => hrest d (List.mem_reverse.mp hd)) hc]
    have hnone := sigma_not_mem_of_ignorable hrest
    have hfront : lowerBetween [] (c :: (rest ++ after)) front =
        lowerBetween [] (c :: (rest ++ [])) front :=
      lowerBetween_congr rfl (by simp [meetsCased_cons, hc]) front
    rw [lowerBetween_append, lowerBetween_append, lowerBetween, lowerBetween, List.cons_append,
      List.cons_append, hfront, List.append_cancel_left_eq, lowerBetween_of_not_mem hnone,
      lowerBetween_of_not_mem hnone, List.append_cancel_right_eq, lowerAmong_eq_iff, hends,
      meetsCased_append_of_ignorable hrest, meetsCased_append_of_ignorable hrest, List.append_nil]
    by_cases hsigma : c = 'Σ'
    · cases meetsCased front.reverse <;> cases meetsCased after <;> simp [hsigma, meetsCased_nil]
    · simp [hsigma]

/-- What precedes a text changes its lower case exactly if it ends in a cased letter and the text
begins with a sigma that no cased letter follows. -/
theorem lowerBetween_before_iff (before text : List Char) :
    lowerBetween before [] text = lowerBetween [] [] text ↔
      (meetsCased before && beginsWithSigma text) = false := by
  rcases exists_first_letter text with hall | ⟨front, c, rest, rfl, hfront, hc⟩
  · have hbegins : beginsWithSigma text = false := by
      rw [beginsWithSigma, List.dropWhile_eq_nil_iff.mpr hall]
    have hnone := sigma_not_mem_of_ignorable hall
    simp [lowerBetween_of_not_mem hnone, hbegins]
  · have hbegins : beginsWithSigma (front ++ c :: rest) = (c = 'Σ' && !meetsCased rest) := by
      rw [beginsWithSigma, dropWhile_of_letter hfront hc]
    have hnone := sigma_not_mem_of_ignorable hfront
    have hreverse : ∀ d ∈ front.reverse, isCaseIgnorable d = true :=
      fun d hd => hfront d (List.mem_reverse.mp hd)
    have hrest : lowerBetween (c :: (front.reverse ++ before)) [] rest =
        lowerBetween (c :: (front.reverse ++ [])) [] rest :=
      lowerBetween_congr (by simp [meetsCased_cons, hc]) rfl rest
    rw [lowerBetween_append, lowerBetween_append, lowerBetween, lowerBetween, hrest,
      lowerBetween_of_not_mem hnone, lowerBetween_of_not_mem hnone, List.append_cancel_left_eq,
      List.append_cancel_right_eq, lowerAmong_eq_iff, hbegins,
      meetsCased_append_of_ignorable hreverse, meetsCased_append_of_ignorable hreverse,
      List.append_nil]
    by_cases hsigma : c = 'Σ'
    · cases meetsCased before <;> cases meetsCased rest <;> simp [hsigma, meetsCased_nil]
    · simp [hsigma]

/-! ## Names in namespaces -/

/-- Whether one side of the dot between two names decides the form of a capital sigma on the other
side. -/
def sigmaAtDot (outer name : String) : Bool :=
  endsInSigma outer.toList && meetsCased name.toList ||
    meetsCased outer.toList.reverse && beginsWithSigma name.toList

/-- The lower case of a name in a namespace: each side is lower-cased with a view to the other. -/
theorem toList_lower_qualified (outer name : String) :
    (lower s!"{outer}.{name}").toList =
      lowerBetween [] name.toList outer.toList ++
        '.' :: lowerBetween outer.toList.reverse [] name.toList := by
  have htext : (s!"{outer}.{name}").toList = outer.toList ++ '.' :: name.toList := by
    change (outer ++ "." ++ name).toList = _
    simp
  have hdot : ∀ neighbours, meetsCased ('.' :: neighbours) = meetsCased neighbours := by
    intro neighbours
    rw [meetsCased_cons, if_pos isCaseIgnorable_dot]
  have hlower : lowerAmong outer.toList.reverse name.toList '.' = ['.'] := rfl
  rw [toList_lower_eq, htext, lowerBetween_append, lowerBetween, List.append_nil, List.append_nil,
    List.append_nil, hlower, List.singleton_append]
  rw [lowerBetween_congr rfl (hdot name.toList) outer.toList,
    lowerBetween_congr (hdot outer.toList.reverse) rfl name.toList]

/-- A name in a namespace is lower-cased part by part exactly if no sigma at the dot depends on the
other side. -/
theorem lower_qualified_iff (outer name : String) :
    lower s!"{outer}.{name}" = s!"{lower outer}.{lower name}" ↔ sigmaAtDot outer name = false := by
  have hparts : (s!"{lower outer}.{lower name}").toList =
      lowerBetween [] [] outer.toList ++ '.' :: lowerBetween [] [] name.toList := by
    rw [← toList_lower_eq, ← toList_lower_eq]
    change (lower outer ++ "." ++ lower name).toList = _
    simp
  have hlength : (lowerBetween [] name.toList outer.toList).length =
      (lowerBetween [] [] outer.toList).length := by
    rw [length_lowerBetween, length_lowerBetween]
  rw [← String.toList_inj, toList_lower_qualified, hparts, sigmaAtDot, Bool.or_eq_false_iff,
    ← lowerBetween_after_iff, ← lowerBetween_before_iff]
  constructor
  · intro heq
    obtain ⟨houter, hname⟩ := List.append_inj heq hlength
    exact ⟨houter, (List.cons.inj hname).2⟩
  · rintro ⟨houter, hname⟩
    rw [houter, hname]

/-! ## Lower case of lower case -/

/-- What comes out of lowering is lowered already, and no capital sigma. -/
theorem lowered_of_mem_lowerAmong {before after : List Char} {c d : Char}
    (hmem : d ∈ lowerAmong before after c) : lowerChar d = [d] ∧ d ≠ 'Σ' := by
  unfold lowerAmong at hmem
  split at hmem
  · split at hmem <;> rw [List.mem_singleton.mp hmem] <;> decide
  · rename_i hne
    exact lowerChar_of_mem hne hmem

/-- The same for a whole text between others. -/
theorem lowered_of_mem_lowerBetween {before after text : List Char} {d : Char}
    (hmem : d ∈ lowerBetween before after text) : lowerChar d = [d] ∧ d ≠ 'Σ' := by
  induction text generalizing before with
  | nil => exact absurd hmem List.not_mem_nil
  | cons c rest ih =>
    rw [lowerBetween, List.mem_append] at hmem
    exact hmem.elim lowered_of_mem_lowerAmong ih

/-- What is in lower case stays as it is. -/
theorem lower_idem (text : String) : lower (lower text) = lower text := by
  have hlowered : ∀ d ∈ (lower text).toList, lowerChar d = [d] ∧ d ≠ 'Σ' := by
    intro d hd
    rw [toList_lower_eq] at hd
    exact lowered_of_mem_lowerBetween hd
  refine String.toList_inj.mp ?_
  calc (lower (lower text)).toList = (lower text).toList.flatMap lowerChar :=
        toList_lower fun hmem => (hlowered 'Σ' hmem).2 rfl
    _ = (lower text).toList.flatMap fun d => [d] :=
        List.flatMap_congr fun d hd => (hlowered d hd).1
    _ = (lower text).toList := List.flatMap_singleton' _

/-! ## Lengths -/

/-- A name in a namespace differs from the name alone. -/
theorem lower_qualified_ne (outer name : String) : lower s!"{outer}.{name}" ≠ lower name := by
  intro heq
  have hlength := congrArg (List.length ∘ String.toList) heq
  rw [Function.comp_apply, Function.comp_apply, toList_lower_qualified, toList_lower_eq,
    List.length_append, List.length_cons, length_lowerBetween, length_lowerBetween,
    length_lowerBetween] at hlength
  omega

/-- No character is lost in lowering. -/
theorem lowerChar_ne_nil (c : Char) : lowerChar c ≠ [] := by
  unfold lowerChar
  repeat' split
  all_goals exact List.cons_ne_nil _ _

/-- Only the empty text has an empty lower case. -/
theorem lower_eq_empty_iff (text : String) : lower text = "" ↔ text = "" := by
  have hchars : lowerBetween [] [] text.toList = [] ↔ text.toList = [] := by
    rw [← List.length_eq_zero_iff, length_lowerBetween, List.length_eq_zero_iff,
      List.flatMap_eq_nil_iff, List.eq_nil_iff_forall_not_mem]
    exact forall₂_congr fun c _ => iff_false_intro (lowerChar_ne_nil c)
  rw [← String.toList_inj, ← @String.toList_inj text, toList_lower_eq]
  exact hchars

end ScopeCheck.Text
