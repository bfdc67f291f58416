import ScopeCheck.Proofs.PackagePath

/-!
# Lower case without sigmas

The lower case of a capital sigma depends on its neighbours, that of every other character does not.
So texts without capital sigmas can be lower-cased piece by piece (`lower_append`), and a name in a
namespace part by part (`lower_qualified`). Lower-casing such a text again changes nothing
(`lower_lower`). Whether a text has a sigma at all can be told from its lower case
(`SigmaFree.not_mem_of_lower`, `SigmaFree.lower`). Of an ASCII text the lower case folds the letters
A to Z and nothing else (`IsAscii.lower_eq`).
-/

namespace ScopeCheck.Text

/-- No sigma, neither the capital nor one of the two small ones, occurs in a text. -/
def SigmaFree (text : String) : Prop := ∀ c ∈ text.toList, c ≠ 'Σ' ∧ c ≠ 'σ' ∧ c ≠ 'ς'

instance (text : String) : Decidable (SigmaFree text) :=
  List.decidableBAll (fun c => c ≠ 'Σ' ∧ c ≠ 'σ' ∧ c ≠ 'ς') text.toList

/-- A text without sigmas has no capital one. -/
theorem SigmaFree.capital_not_mem {text : String} (h : SigmaFree text) : 'Σ' ∉ text.toList :=
  fun hmem => (h 'Σ' hmem).1 rfl

/-! ## Piece by piece -/

/-- Without a capital sigma, a text is lowered letter by letter, whatever stands before it. -/
theorem lowerChars_eq_flatMap {text : List Char} (hnone : 'Σ' ∉ text) (before : List Char) :
    lowerChars before text = text.flatMap lowerChar := by
  induction text generalizing before with
  | nil => rfl
  | cons c rest ih =>
    obtain ⟨hc, hrest⟩ := not_or.mp (mt List.mem_cons.mpr hnone)
    rw [lowerChars, if_neg (Ne.symm hc), ih hrest, List.flatMap_cons]

/-- The lower case of a text without a capital sigma is that of its letters. -/
theorem toList_lower {text : String} (hnone : 'Σ' ∉ text.toList) :
    (lower text).toList = text.toList.flatMap lowerChar := by
  rw [lower, String.toList_ofList, lowerChars_eq_flatMap hnone]

/-- Two such texts in a row are lowered one by one. -/
theorem lower_append {left right : String} (hleft : 'Σ' ∉ left.toList)
    (hright : 'Σ' ∉ right.toList) : lower (left ++ right) = lower left ++ lower right := by
  have hboth : 'Σ' ∉ (left ++ right).toList := by
    rw [String.toList_append, List.mem_append]
    exact fun h => h.elim hleft hright
  refine String.toList_inj.mp ?_
  rw [toList_lower hboth, String.toList_append, String.toList_append, List.flatMap_append,
    toList_lower hleft, toList_lower hright]

/-- A name in a namespace is lower-cased part by part. -/
theorem lower_qualified {outer name : String} (houter : 'Σ' ∉ outer.toList)
    (hname : 'Σ' ∉ name.toList) :
    lower s!"{outer}.{name}" = s!"{lower outer}.{lower name}" := by
  have hdot : 'Σ' ∉ (outer ++ ".").toList := by
    rw [String.toList_append, List.mem_append]
    exact fun h => h.elim houter (by decide)
  have hlower : lower "." = "." := rfl
  calc lower (outer ++ "." ++ name) = lower (outer ++ ".") ++ lower name := lower_append hdot hname
    _ = lower outer ++ lower "." ++ lower name := by rw [lower_append houter (by decide)]
    _ = lower outer ++ "." ++ lower name := by rw [hlower]

/-! ## What characters become -/

namespace CaseRun

/-- The code point that the first of a run becomes. -/
def lowFirst (run : CaseRun) : Nat := (run.first + run.shift).toNat

/-- The code point that the last of a run becomes. -/
def lowLast (run : CaseRun) : Nat := (run.last + run.shift).toNat

/-- Whether no code point that a run yields belongs to another run, since the two lie apart or
alternate. -/
def avoids (run other : CaseRun) : Bool :=
  run.lowLast.blt other.first || other.last.blt run.lowFirst ||
    (other.stride.beq 2 && (run.stride.beq 2 || run.first.beq run.last) &&
      ((run.lowFirst + other.first) % 2).beq 1)

/-- A run that avoids another is not shifted onto it. -/
theorem not_covers_of_avoids {run other : CaseRun} (havoids : run.avoids other = true) {code : Nat}
    (hcovers : run.covers code = true) (hpositive : 0 < run.first + run.shift) :
    other.covers (code + run.shift).toNat = false := by
  simp only [avoids, lowFirst, lowLast, Bool.or_eq_true, Bool.and_eq_true, Nat.blt_eq,
    Nat.beq_eq] at havoids
  simp only [covers, Bool.and_eq_true, decide_eq_true_eq, beq_iff_eq] at hcovers
  rw [Bool.eq_false_iff]
  simp only [covers, ne_eq, Bool.and_eq_true, decide_eq_true_eq, beq_iff_eq]
  rintro ⟨⟨hfirst, hlast⟩, hmultiple⟩
  obtain ⟨⟨hfrom, hto⟩, hstride⟩ := hcovers
  rcases havoids with (hbelow | habove) | ⟨⟨htwo, hpace⟩, hodd⟩
  · omega
  · omega
  · rw [htwo] at hmultiple
    rcases hpace with hpace | hpace
    · rw [hpace] at hstride
      omega
    · omega

end CaseRun

/-- The only ASCII letter that a run yields is `k`; none yields the capital I with dot above or a
final sigma, and a small sigma comes from one that lies 32 below it. -/
theorem yields_lowerRuns : ∀ run ∈ lowerRuns,
    (run.lowFirst < 0x80 → run.first = run.last ∧ run.lowFirst = 0x6B) ∧
      (run.lowLast < 0x130 ∨ 0x130 < run.lowFirst) ∧
      (run.lowLast < 0x3C2 ∨ 0x3C2 < run.lowFirst) ∧
      (run.lowLast < 0x3C3 ∨ 0x3C3 < run.lowFirst ∨ run.shift = 32) := by
  decide +kernel

/-- ASCII letters stay ASCII, and folding them again changes nothing. -/
theorem ascii_toLower_toLower : ∀ code < 0x80,
    (Char.ofNat code).toLower.toNat < 0x80 ∧
      (Char.ofNat code).toLower.toLower = (Char.ofNat code).toLower := by
  decide

/-- No run of capitals is shifted onto capitals. This is checked for all pairs of runs. -/
theorem avoids_lowerRuns : (lowerRuns.all fun run => lowerRuns.all run.avoids) = true := by
  decide +kernel

/-- The lower case of an ASCII letter is its folding. -/
theorem lowerChar_ascii {c : Char} (hascii : c.toNat < 0x80) : lowerChar c = [c.toLower] :=
  if_pos hascii

/-- What a character becomes: an ASCII letter, a part of the dotted `i`, what a run yields, or
itself. -/
theorem mem_lowerChar_cases {c d : Char} (hmem : d ∈ lowerChar c) :
    (c.toNat < 0x80 ∧ d = c.toLower) ∨ (d = 'i' ∨ d = Char.ofNat 0x307) ∨
      (∃ run ∈ lowerRuns, run.covers c.toNat = true ∧
        d = Char.ofNat (c.toNat + run.shift).toNat) ∨
      (d = c ∧ lowerChar c = [c]) := by
  by_cases hascii : c.toNat < 0x80
  · rw [lowerChar_ascii hascii] at hmem
    exact .inl ⟨hascii, List.mem_singleton.mp hmem⟩
  · by_cases hdotted : c.toNat = 0x130
    · rw [lowerChar, if_neg hascii, if_pos hdotted] at hmem
      exact .inr (.inl (by simpa using hmem))
    · rw [lowerChar, if_neg hascii, if_neg hdotted] at hmem
      cases hrun : lowerRuns.find? (·.covers c.toNat) with
      | some run =>
        rw [hrun] at hmem
        have hcovers := List.find?_some hrun
        exact .inr (.inr (.inl ⟨run, List.mem_of_find?_eq_some hrun, hcovers,
          List.mem_singleton.mp hmem⟩))
      | none =>
        rw [hrun] at hmem
        refine .inr (.inr (.inr ⟨List.mem_singleton.mp hmem, ?_⟩))
        rw [lowerChar, if_neg hascii, if_neg hdotted, hrun]

/-- What a run yields is in lower case: it lies in no run, and of the ASCII letters it can only be
a small one. -/
theorem lowerChar_shifted {run : CaseRun} (hrun : run ∈ lowerRuns) {code : Nat}
    (hcovers : run.covers code = true) :
    lowerChar (Char.ofNat (code + run.shift).toNat) = [Char.ofNat (code + run.shift).toNat] ∧
      Char.ofNat (code + run.shift).toNat ≠ 'Σ' := by
  have hpositive := shifted_above_backslash run hrun
  obtain ⟨hascii, hdotted, -, -⟩ := yields_lowerRuns run hrun
  have hrange : run.first ≤ code ∧ code ≤ run.last := by
    simp only [CaseRun.covers, Bool.and_eq_true, decide_eq_true_eq] at hcovers
    exact hcovers.1
  have hapart : ∀ other ∈ lowerRuns, other.covers (code + run.shift).toNat = false := by
    intro other hother
    have havoids := List.all_eq_true.mp (List.all_eq_true.mp avoids_lowerRuns run hrun) other hother
    exact CaseRun.not_covers_of_avoids havoids hcovers (by omega)
  simp only [CaseRun.lowFirst, CaseRun.lowLast] at hascii hdotted
  have htoNat := toNat_ofNat (code + run.shift).toNat
  have hbounds : (code + run.shift).toNat < 0x80 → (code + run.shift).toNat = 0x6B := by omega
  have hplain : (code + run.shift).toNat ≠ 0x130 := by omega
  generalize (code + run.shift).toNat = low at *
  -- the only ASCII letters that a shift yields are k, from the Kelvin sign, and what is no
  -- character
  by_cases hlow : (Char.ofNat low).toNat < 0x80
  · have hsmall : low = 0x6B ∨ Char.ofNat low = Char.ofNat 0 := by
      split at htoNat
      · exact .inl (hbounds (htoNat ▸ hlow))
      · exact .inr (by rw [← Char.ofNat_toNat (Char.ofNat low), htoNat])
    rcases hsmall with rfl | hzero
    · decide
    · rw [hzero]
      decide
  · have hvalid : (Char.ofNat low).toNat = low := by
      split at htoNat
      · exact htoNat
      · omega
    have hnone : lowerRuns.find? (·.covers (Char.ofNat low).toNat) = none := by
      rw [hvalid]
      exact List.find?_eq_none.mpr fun other hother => by simp [hapart other hother]
    have hne : (Char.ofNat low).toNat ≠ 0x130 := by rwa [hvalid]
    refine ⟨by rw [lowerChar, if_neg hlow, if_neg hne, hnone], fun hsigma => ?_⟩
    rw [hsigma] at hnone
    exact absurd hnone (by decide)

/-- What a character becomes, unless it is a capital sigma, is in lower case. -/
theorem lowerChar_of_mem {c d : Char} (hne : c ≠ 'Σ') (hmem : d ∈ lowerChar c) :
    lowerChar d = [d] ∧ d ≠ 'Σ' := by
  rcases mem_lowerChar_cases hmem with
    ⟨hascii, rfl⟩ | (rfl | rfl) | ⟨run, hrun, hcovers, rfl⟩ | ⟨rfl, hself⟩
  · obtain ⟨hlow, hagain⟩ := ascii_toLower_toLower c.toNat hascii
    rw [Char.ofNat_toNat] at hlow hagain
    refine ⟨by rw [lowerChar_ascii hlow, hagain], fun hsigma => ?_⟩
    rw [hsigma] at hlow
    exact absurd hlow (by decide)
  · decide
  · decide
  · exact lowerChar_shifted hrun hcovers
  · exact ⟨hself, hne⟩

/-- Only sigmas become small sigmas. -/
theorem sigma_of_mem_lowerChar {c d : Char} (hsigma : d = 'σ' ∨ d = 'ς') (hmem : d ∈ lowerChar c) :
    c = 'Σ' ∨ c = d := by
  have hcode : d.toNat = 0x3C3 ∨ d.toNat = 0x3C2 := by
    rcases hsigma with rfl | rfl <;> decide
  rcases mem_lowerChar_cases hmem with
    ⟨hascii, rfl⟩ | (rfl | rfl) | ⟨run, hrun, hcovers, heq⟩ | ⟨rfl, -⟩
  · have hlow := (ascii_toLower_toLower c.toNat hascii).1
    rw [Char.ofNat_toNat] at hlow
    omega
  · exact absurd hcode (by decide)
  · exact absurd hcode (by decide)
  · left
    simp only [CaseRun.covers, Bool.and_eq_true, decide_eq_true_eq] at hcovers
    obtain ⟨-, -, hfinal, hsmall⟩ := yields_lowerRuns run hrun
    simp only [CaseRun.lowFirst, CaseRun.lowLast] at hfinal hsmall
    have htoNat := toNat_ofNat (c.toNat + run.shift).toNat
    rw [← heq] at htoNat
    have hcapital : c.toNat = 0x3A3 := by split at htoNat <;> omega
    rw [← Char.ofNat_toNat c, hcapital]
  · exact .inr rfl

/-! ## Texts of one lower case -/

/-- A capital sigma leaves a small one of either form. -/
theorem sigma_mem_lowerChars {text : List Char} (hmem : 'Σ' ∈ text) (before : List Char) :
    'σ' ∈ lowerChars before text ∨ 'ς' ∈ lowerChars before text := by
  induction text generalizing before with
  | nil => exact absurd hmem List.not_mem_nil
  | cons c rest ih =>
    rw [lowerChars, List.mem_append, List.mem_append]
    by_cases hc : c = 'Σ'
    · rw [if_pos hc]
      split
      · exact .inr (.inl (List.mem_singleton_self _))
      · exact .inl (.inl (List.mem_singleton_self _))
    · have hrest := (List.mem_cons.mp hmem).resolve_left (Ne.symm hc)
      exact (ih hrest (c :: before)).imp .inr .inr

/-- A text with a capital sigma has a small one in its lower case. -/
theorem SigmaFree.not_mem_of_lower {text : String} (hfree : SigmaFree (lower text)) :
    'Σ' ∉ text.toList := by
  intro hmem
  have hlowered := sigma_mem_lowerChars hmem []
  unfold SigmaFree lower at hfree
  rw [String.toList_ofList] at hfree
  rcases hlowered with hsmall | hfinal
  · exact (hfree 'σ' hsmall).2.1 rfl
  · exact (hfree 'ς' hfinal).2.2 rfl

/-- The lower case of a text without capital sigmas has none, and is its own lower case. -/
theorem lower_lower {text : String} (hnone : 'Σ' ∉ text.toList) :
    'Σ' ∉ (lower text).toList ∧ lower (lower text) = lower text := by
  have hlowered : ∀ d ∈ (lower text).toList, lowerChar d = [d] ∧ d ≠ 'Σ' := by
    intro d hd
    rw [toList_lower hnone] at hd
    obtain ⟨c, hc, hmem⟩ := List.mem_flatMap.mp hd
    exact lowerChar_of_mem (fun heq => hnone (heq ▸ hc)) hmem
  have hfree : 'Σ' ∉ (lower text).toList := fun hmem => (hlowered 'Σ' hmem).2 rfl
  refine ⟨hfree, String.toList_inj.mp ?_⟩
  calc (lower (lower text)).toList = (lower text).toList.flatMap lowerChar := toList_lower hfree
    _ = (lower text).toList.flatMap fun d => [d] :=
        List.flatMap_congr fun d hd => (hlowered d hd).1
    _ = (lower text).toList := List.flatMap_singleton' _

/-- Lowering makes no sigma. -/
theorem SigmaFree.lower {text : String} (hfree : SigmaFree text) : SigmaFree (lower text) := by
  intro d hd
  have hcapital := (lower_lower hfree.capital_not_mem).1
  rw [toList_lower hfree.capital_not_mem] at hd hcapital
  obtain ⟨c, hc, hmem⟩ := List.mem_flatMap.mp hd
  have hnone : ∀ other, other = 'σ' ∨ other = 'ς' → d ≠ other := by
    rintro other hsigma rfl
    obtain ⟨hfirst, hsmall, hfinal⟩ := hfree c hc
    rcases sigma_of_mem_lowerChar hsigma hmem with heq | rfl
    · exact hfirst heq
    · exact hsigma.elim hsmall hfinal
  exact ⟨fun heq => hcapital (heq ▸ hd), hnone 'σ' (.inl rfl), hnone 'ς' (.inr rfl)⟩

/-- Joining two texts by a dot makes no sigma. -/
theorem SigmaFree.qualified {outer name : String} (houter : SigmaFree outer)
    (hname : SigmaFree name) : SigmaFree s!"{outer}.{name}" := by
  intro c hc
  change c ∈ (outer ++ "." ++ name).toList at hc
  rw [String.toList_append, String.toList_append, List.mem_append, List.mem_append] at hc
  rcases hc with (hc | hc) | hc
  · exact houter c hc
  · rw [List.mem_singleton.mp hc]
    decide
  · exact hname c hc

/-! ## ASCII texts -/

/-- A text of ASCII characters. -/
def IsAscii (text : String) : Prop := ∀ c ∈ text.toList, c.toNat < 0x80

instance (text : String) : Decidable (IsAscii text) :=
  List.decidableBAll (fun c : Char => c.toNat < 0x80) text.toList

/-- There is no sigma in ASCII. -/
theorem IsAscii.sigmaFree {text : String} (h : IsAscii text) : SigmaFree text := by
  intro c hc
  have hascii := h c hc
  refine ⟨?_, ?_, ?_⟩ <;> rintro rfl <;> exact absurd hascii (by decide)

/-- Of an ASCII text the lower case folds the letters A to Z. -/
theorem IsAscii.lower_eq {text : String} (h : IsAscii text) : lower text = asciiLower text := by
  refine String.toList_inj.mp ?_
  rw [toList_lower h.sigmaFree.capital_not_mem, asciiLower, String.toList_ofList,
    ← List.flatMap_singleton' (text.toList.map Char.toLower), List.flatMap_map]
  exact List.flatMap_congr fun c hc => lowerChar_ascii (h c hc)

/-- Two ASCII texts differ at most in the case of their letters exactly if their lower cases
agree. -/
theorem IsAscii.sameIgnoringAsciiCase_iff {left right : String} (hleft : IsAscii left)
    (hright : IsAscii right) : sameIgnoringAsciiCase left right ↔ lower left = lower right := by
  rw [sameIgnoringAsciiCase, beq_iff_eq, hleft.lower_eq, hright.lower_eq]

end ScopeCheck.Text
