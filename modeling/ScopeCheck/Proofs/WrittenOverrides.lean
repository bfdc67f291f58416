import ScopeCheck.Config.Overrides
import ScopeCheck.Proofs.Keyed
import ScopeCheck.Proofs.Pieces

/-!
# Overrides as they are written

A code can be spelled in several ways (`parseCode?_eq_some_iff`), so a table of overrides may have
several keys for one code. `Assigns` says what the table means: a severity is assigned to a code if
it is written under some spelling of it. Reading goes through the keys one after the other and keeps
a map that holds what the entries so far assign (`Holds`). Each step keeps this (`Holds.step`), and
a step can only fail on a key that is no code or on a code with another severity than before
(`Holds.exists_step`), so the order in which the keys come does not matter.

Overrides are written with one spelling for each code, which is read as that code
(`parseCode?_written`); so reading what was written gives the same map.
-/

namespace ScopeCheck.Overrides

/-! ## Spellings of a code -/

/-- A text spells a code: there may be letters in front and a plus behind them, then digits. -/
def Spells (text : List Char) (code : Nat) : Prop :=
  ∃ letters ∈ [[], ['B', 'S'], ['b', 's']], ∃ sign ∈ [[], ['+']], ∃ digits,
    text = letters ++ (sign ++ digits) ∧ digits ≠ [] ∧ (∀ c ∈ digits, c.isDigit = true) ∧
      Nat.ofDigitChars 10 digits 0 = code ∧ code < codeLimit

/-- The number that digits write; nothing else writes one. -/
def countOf (digits : List Char) : Option Nat :=
  if digits.isEmpty || !digits.all Char.isDigit then none
  else some (Nat.ofDigitChars 10 digits 0)

/-- Digits are a number exactly if there is one and all are digits. -/
theorem countOf_eq_some_iff {digits : List Char} {count : Nat} :
    countOf digits = some count ↔
      digits ≠ [] ∧ (∀ c ∈ digits, c.isDigit = true) ∧ Nat.ofDigitChars 10 digits 0 = count := by
  rw [countOf]
  by_cases hdigits : digits ≠ [] ∧ ∀ c ∈ digits, c.isDigit = true
  · simp [hdigits.1]
  · rw [if_pos (by simpa [Decidable.imp_iff_not_or] using hdigits)]
    exact iff_of_false (by simp) fun hcount => hdigits ⟨hcount.1, hcount.2.1⟩

/-- Reading digit by digit gives the number in base ten. -/
theorem foldl_digits (digits : List Char) :
    digits.foldl (fun total c => total * 10 + (c.toNat - '0'.toNat)) 0 =
      Nat.ofDigitChars 10 digits 0 := by
  simp only [Nat.ofDigitChars_eq_foldl, Nat.mul_comm 10]

/-- A plus sign in front of a number is passed over. -/
theorem readCount?_plus (digits : List Char) : readCount? ('+' :: digits) = countOf digits := by
  rw [countOf, ← foldl_digits]
  rfl

/-- Without a plus sign all has to be digits. -/
theorem readCount?_of_not_plus {text : List Char} (hplus : ∀ rest, text ≠ '+' :: rest) :
    readCount? text = countOf text := by
  unfold readCount?
  split
  · rename_i rest
    exact absurd rfl (hplus rest)
  · rw [countOf, ← foldl_digits]

/-- A number may be written with a plus sign or without. -/
theorem readCount?_eq_some_iff {text : List Char} {count : Nat} :
    readCount? text = some count ↔
      ∃ sign ∈ [[], ['+']], ∃ digits, text = sign ++ digits ∧ digits ≠ [] ∧
        (∀ c ∈ digits, c.isDigit = true) ∧ Nat.ofDigitChars 10 digits 0 = count := by
  by_cases hplus : ∃ rest, text = '+' :: rest
  · obtain ⟨rest, rfl⟩ := hplus
    rw [readCount?_plus, countOf_eq_some_iff]
    constructor
    · intro hcount
      exact ⟨['+'], by simp, rest, rfl, hcount⟩
    · rintro ⟨sign, hsign, digits, heq, hcount⟩
      rcases List.mem_pair.mp hsign with rfl | rfl
      · obtain rfl : '+' :: rest = digits := heq
        exact absurd (hcount.2.1 '+' List.mem_cons_self) (by decide)
      · cases heq
        exact hcount
  · rw [readCount?_of_not_plus (not_exists.mp hplus), countOf_eq_some_iff]
    constructor
    · intro hcount
      exact ⟨[], by simp, text, rfl, hcount⟩
    · rintro ⟨sign, hsign, digits, rfl, hcount⟩
      rcases List.mem_pair.mp hsign with rfl | rfl
      · exact hcount
      · exact absurd ⟨digits, rfl⟩ hplus

/-- What is dropped in front of a code is `BS`, `bs` or nothing. -/
theorem exists_letters (text : List Char) :
    ∃ letters ∈ [[], ['B', 'S'], ['b', 's']], text = letters ++ dropCodeLetters text := by
  fun_cases dropCodeLetters text with
  | case1 rest => exact ⟨['B', 'S'], by simp, rfl⟩
  | case2 rest => exact ⟨['b', 's'], by simp, rfl⟩
  | case3 => exact ⟨[], by simp, rfl⟩

/-- Only the letters are dropped from a spelling. -/
theorem dropCodeLetters_append {letters sign digits : List Char}
    (hletters : letters ∈ [[], ['B', 'S'], ['b', 's']]) (hsign : sign ∈ [[], ['+']])
    (hdigits : ∀ c ∈ digits, c.isDigit = true) :
    dropCodeLetters (letters ++ (sign ++ digits)) = sign ++ digits := by
  have hhead : ∀ c rest, sign ++ digits = c :: rest → c ≠ 'B' ∧ c ≠ 'b' := by
    intro c rest hcons
    rcases List.mem_pair.mp hsign with rfl | rfl
    · have hdigit := hdigits c (by rw [← List.nil_append digits, hcons]; exact List.mem_cons_self)
      constructor <;> rintro rfl <;> exact absurd hdigit (by decide)
    · obtain rfl : '+' = c := (List.cons.inj hcons).1
      decide
  -- without letters, what comes first must not be taken for one
  simp only [List.mem_cons, List.not_mem_nil, or_false] at hletters
  rcases hletters with rfl | rfl | rfl
  · rw [List.nil_append]
    generalize sign ++ digits = text at hhead
    fun_cases dropCodeLetters text with
    | case1 rest => exact absurd rfl (hhead 'B' _ rfl).1
    | case2 rest => exact absurd rfl (hhead 'b' _ rfl).2
    | case3 => rfl
  · rfl
  · rfl

/-- What is read as a code are its spellings, with white space around them or without. -/
theorem parseCode?_eq_some_iff {key : String} {code : Nat} :
    parseCode? key = some code ↔ Spells (Text.trim key).toList code := by
  rw [parseCode?, Option.filter_eq_some_iff, readCount?_eq_some_iff]
  constructor
  · rintro ⟨⟨sign, hsign, digits, hdrop, hne, hdigits, hcount⟩, hlt⟩
    obtain ⟨letters, hletters, htext⟩ := exists_letters (Text.trim key).toList
    rw [hdrop] at htext
    exact ⟨letters, hletters, sign, hsign, digits, htext, hne, hdigits, hcount, by simpa using hlt⟩
  · rintro ⟨letters, hletters, sign, hsign, digits, htext, hne, hdigits, hcount, hlt⟩
    rw [htext, dropCodeLetters_append hletters hsign hdigits]
    exact ⟨⟨sign, hsign, digits, rfl, hne, hdigits, hcount⟩, by simpa using hlt⟩

/-! ## What a table assigns -/

/-- A severity is written under a spelling of a code. -/
def Assigns (written : List (String × Severity)) (code : Nat) (severity : Severity) : Prop :=
  ∃ key, (key, severity) ∈ written ∧ parseCode? key = some code

/-- A map has the overrides that a table assigns, and no others. -/
def Holds (overrides : Keyed Nat Severity) (written : List (String × Severity)) : Prop :=
  ∀ code severity, overrides.get? code = some severity ↔ Assigns written code severity

/-- No code gets two severities. -/
def Agree (written : List (String × Severity)) : Prop :=
  ∀ code first second, Assigns written code first → Assigns written code second → first = second

/-- A table agrees with itself if no two of its entries give one code two severities. -/
theorem agree_iff {written : List (String × Severity)} :
    Agree written ↔ ∀ first ∈ written, ∀ second ∈ written, ∀ code,
      parseCode? first.1 = some code → parseCode? second.1 = some code → first.2 = second.2 := by
  constructor
  · intro hagree first hfirst second hsecond code hfirstCode hsecondCode
    exact hagree code first.2 second.2 ⟨first.1, hfirst, hfirstCode⟩
      ⟨second.1, hsecond, hsecondCode⟩
  · rintro hagree code first second ⟨key, hkey, hkeyCode⟩ ⟨other, hother, hotherCode⟩
    exact hagree _ hkey _ hother code hkeyCode hotherCode

section Steps

variable {overrides : Keyed Nat Severity} {before : List (String × Severity)}
  {entry : String × Severity}

/-- One more entry assigns its own code. -/
theorem assigns_concat {code : Nat} {severity : Severity} :
    Assigns (before ++ [entry]) code severity ↔
      Assigns before code severity ∨ parseCode? entry.1 = some code ∧ entry.2 = severity := by
  constructor
  · rintro ⟨key, hmem, hcode⟩
    rcases List.mem_append.mp hmem with hbefore | hlast
    · exact Or.inl ⟨key, hbefore, hcode⟩
    · cases List.mem_singleton.mp hlast
      exact Or.inr ⟨hcode, rfl⟩
  · rintro (⟨key, hmem, hcode⟩ | ⟨hcode, rfl⟩)
    · exact ⟨key, List.mem_append_left [entry] hmem, hcode⟩
    · exact ⟨entry.1, List.mem_append_right before List.mem_cons_self, hcode⟩

/-- Nothing is read from an empty table. -/
theorem holds_empty : Holds .empty [] := by
  intro code severity
  constructor
  · intro hget
    cases hget
  · rintro ⟨key, hmem, -⟩
    cases hmem

/-- What one step can do: the code is known with this severity, or it is new. -/
theorem readOverride_eq_ok_iff {after : Keyed Nat Severity} :
    readOverride overrides entry = .ok after ↔
      ∃ code, parseCode? entry.1 = some code ∧
        (overrides.get? code = some entry.2 ∧ after = overrides ∨
          overrides.get? code = none ∧ after = overrides.put code entry.2) := by
  unfold readOverride
  cases parseCode? entry.1 with
  | none => simp
  | some code =>
    cases hknown : overrides.get? code with
    | none => simp [hknown, eq_comm]
    | some first => by_cases hsame : first = entry.2 <;> simp [hknown, hsame, eq_comm]

namespace Holds

/-- A step keeps what the entries before assign and adds what its entry assigns. -/
theorem step (h : Holds overrides before) {after : Keyed Nat Severity}
    (hstep : readOverride overrides entry = .ok after) : Holds after (before ++ [entry]) := by
  obtain ⟨code, hcode, ⟨hknown, rfl⟩ | ⟨hnew, rfl⟩⟩ := readOverride_eq_ok_iff.mp hstep
  · -- the code is known, and the entry says of it what was said before
    intro other severity
    rw [assigns_concat, h other severity]
    refine ⟨Or.inl, ?_⟩
    rintro (hold | ⟨hother, rfl⟩)
    · exact hold
    · cases hcode.symm.trans hother
      exact (h code entry.2).mp hknown
  · intro other severity
    rw [assigns_concat, ← h other severity, Keyed.get?_put]
    by_cases hother : other = code
    · simp [hother, hnew, hcode]
    · simp [hother, Ne.symm hother, hcode]

/-- A step succeeds on a code that has no other severity yet. -/
theorem exists_step (h : Holds overrides before) {code : Nat}
    (hcode : parseCode? entry.1 = some code)
    (hagree : ∀ severity, Assigns before code severity → severity = entry.2) :
    ∃ after, readOverride overrides entry = .ok after := by
  cases hknown : overrides.get? code with
  | none => exact ⟨_, readOverride_eq_ok_iff.mpr ⟨code, hcode, Or.inr ⟨hknown, rfl⟩⟩⟩
  | some first =>
    rw [hagree first ((h code first).mp hknown)] at hknown
    exact ⟨_, readOverride_eq_ok_iff.mpr ⟨code, hcode, Or.inl ⟨hknown, rfl⟩⟩⟩

/-- A run that succeeds has met codes only, and its map has what all entries assign. -/
theorem run (h : Holds overrides before) {rest : List (String × Severity)}
    {after : Keyed Nat Severity}
    (hrun : rest.foldlM readOverride overrides = .ok after) :
    Holds after (before ++ rest) ∧ ∀ entry ∈ rest, ∃ code, parseCode? entry.1 = some code := by
  induction rest generalizing overrides before with
  | nil =>
    cases hrun
    exact ⟨by rwa [List.append_nil], List.forall_mem_nil _⟩
  | cons entry rest ih =>
    rw [List.foldlM_cons] at hrun
    cases hstep : readOverride overrides entry with
    | error e =>
      rw [hstep] at hrun
      cases hrun
    | ok next =>
      rw [hstep] at hrun
      obtain ⟨hafter, hcodes⟩ := ih (h.step hstep) hrun
      obtain ⟨code, hcode, -⟩ := readOverride_eq_ok_iff.mp hstep
      rw [List.append_assoc, List.singleton_append] at hafter
      exact ⟨hafter, List.forall_mem_cons.mpr ⟨⟨code, hcode⟩, hcodes⟩⟩

/-- A run over codes that agree succeeds. -/
theorem exists_run (h : Holds overrides before) {rest : List (String × Severity)}
    (hcodes : ∀ entry ∈ rest, ∃ code, parseCode? entry.1 = some code)
    (hagree : Agree (before ++ rest)) :
    ∃ after, rest.foldlM readOverride overrides = .ok after := by
  induction rest generalizing overrides before with
  | nil => exact ⟨overrides, rfl⟩
  | cons entry rest ih =>
    obtain ⟨⟨code, hcode⟩, hrest⟩ := List.forall_mem_cons.mp hcodes
    -- the entry agrees with those before it, since the whole table agrees
    have hentry : Assigns (before ++ entry :: rest) code entry.2 :=
      ⟨entry.1, List.mem_append_right before List.mem_cons_self, hcode⟩
    have hbefore : ∀ severity, Assigns before code severity → severity = entry.2 := by
      rintro severity ⟨key, hmem, hkey⟩
      exact hagree code severity entry.2 ⟨key, List.mem_append_left _ hmem, hkey⟩ hentry
    obtain ⟨next, hstep⟩ := h.exists_step hcode hbefore
    obtain ⟨after, hrun⟩ := ih (h.step hstep) hrest
      (by rwa [List.append_assoc, List.singleton_append])
    refine ⟨after, ?_⟩
    rw [List.foldlM_cons, hstep]
    exact hrun

end Holds

end Steps

/-! ## Reading a table -/

section Tables

variable {written : List (String × Severity)}

/-- The order of the entries does not matter to what they assign. -/
theorem assigns_of_perm {other : List (String × Severity)} (hperm : written.Perm other) {code : Nat}
    {severity : Severity} : Assigns written code severity ↔ Assigns other code severity := by
  simp only [Assigns, hperm.mem_iff]

/-- Sorting by key neither loses nor adds an entry. -/
theorem perm_sorted :
    (written.mergeSort fun left right => textAtOrBefore left.1 right.1).Perm written :=
  List.mergeSort_perm _ _

/-- What has been read holds what the table assigns, and all its keys are codes. -/
theorem holds_of_readOverrides {overrides : Keyed Nat Severity}
    (hread : readOverrides written = .ok overrides) :
    Holds overrides written ∧ ∀ entry ∈ written, ∃ code, parseCode? entry.1 = some code := by
  obtain ⟨hholds, hcodes⟩ := holds_empty.run hread
  rw [List.nil_append] at hholds
  refine ⟨fun code severity => ?_, fun entry hentry => ?_⟩
  · rw [hholds code severity, assigns_of_perm perm_sorted]
  · exact hcodes entry (perm_sorted.mem_iff.mpr hentry)

/-- What holds the assignments of a table has one severity for each code, so the table agrees. -/
theorem Holds.agree {overrides : Keyed Nat Severity} (h : Holds overrides written) :
    Agree written := by
  intro code first second hfirst hsecond
  have hget := (h code first).mpr hfirst
  rw [(h code second).mpr hsecond] at hget
  exact (Option.some.inj hget).symm

/-- A table is read exactly if its keys are codes and no code gets two severities. -/
theorem exists_readOverrides_iff :
    (∃ overrides, readOverrides written = .ok overrides) ↔
      (∀ entry ∈ written, ∃ code, parseCode? entry.1 = some code) ∧ Agree written := by
  constructor
  · rintro ⟨overrides, hread⟩
    obtain ⟨hholds, hcodes⟩ := holds_of_readOverrides hread
    exact ⟨hcodes, hholds.agree⟩
  · rintro ⟨hcodes, hagree⟩
    refine holds_empty.exists_run (fun entry hentry => ?_) ?_
    · exact hcodes entry (perm_sorted.mem_iff.mp hentry)
    · intro code first second hfirst hsecond
      rw [List.nil_append, assigns_of_perm perm_sorted] at hfirst hsecond
      exact hagree code first second hfirst hsecond

end Tables

/-! ## Writing a table -/

/-- Digits are not trimmed. -/
theorem isBlank_of_isDigit {c : Char} (hdigit : c.isDigit = true) : Text.isBlank c = false := by
  have hcode : 48 ≤ c.toNat ∧ c.toNat ≤ 57 := by
    simpa [Char.isDigit, UInt32.le_iff_toNat_le] using hdigit
  simp only [Text.isBlank, Bool.or_eq_false_iff, Bool.and_eq_false_iff, decide_eq_false_iff_not,
    beq_eq_false_iff_ne]
  omega

/-- The spelling that is written for a code is read as this code. -/
theorem parseCode?_written {code : Nat} (hlt : code < codeLimit) :
    parseCode? s!"BS{code}" = some code := by
  have htext : (s!"BS{code}").toList = 'B' :: 'S' :: Nat.toDigits 10 code := by
    change ("BS" ++ Nat.repr code).toList = _
    rw [String.toList_append, Nat.toList_repr]
    rfl
  have hdigits : ∀ c ∈ Nat.toDigits 10 code, c.isDigit = true := fun c hc =>
    Nat.isDigit_of_mem_toDigits (by decide) (by decide) hc
  have htrim : Text.trim s!"BS{code}" = s!"BS{code}" := by
    refine Text.trim_of_not_blank fun c hc => ?_
    rw [htext, List.mem_cons, List.mem_cons] at hc
    rcases hc with rfl | rfl | hdigit
    · rfl
    · rfl
    · exact isBlank_of_isDigit (hdigits c hdigit)
  rw [parseCode?_eq_some_iff, htrim, htext]
  exact ⟨['B', 'S'], by simp, [], by simp, Nat.toDigits 10 code, rfl, Nat.toDigits_ne_nil, hdigits,
    Nat.ofDigitChars_ten_toDigits, hlt⟩

section Writing

variable {overrides : Keyed Nat Severity}

/-- Each override is written under the letters and its code. -/
theorem mem_writeOverrides {key : String} {severity : Severity} :
    (key, severity) ∈ writeOverrides overrides ↔
      ∃ code, (code, severity) ∈ overrides.entries ∧ s!"BS{code}" = key := by
  rw [writeOverrides, (List.mergeSort_perm _ _).mem_iff]
  simp

variable (hcodes : ∀ code ∈ overrides.keys, code < codeLimit)
include hcodes

/-- What is written assigns what was held, as long as all codes are small enough to be read. -/
theorem holds_writeOverrides : Holds overrides (writeOverrides overrides) := by
  intro code severity
  rw [Keyed.get?_eq_some_iff]
  constructor
  · intro hentry
    have hlt := hcodes code (List.mem_map_of_mem hentry)
    exact ⟨_, mem_writeOverrides.mpr ⟨code, hentry, rfl⟩, parseCode?_written hlt⟩
  · rintro ⟨key, hkey, hcode⟩
    obtain ⟨other, hentry, rfl⟩ := mem_writeOverrides.mp hkey
    rw [parseCode?_written (hcodes other (List.mem_map_of_mem hentry))] at hcode
    cases hcode
    exact hentry

/-- No key is written twice, since no code is. -/
theorem nodup_writeOverrides : ((writeOverrides overrides).map Prod.fst).Nodup := by
  have hkeys : ((writeOverrides overrides).map Prod.fst).Perm
      (overrides.keys.map fun code => s!"BS{code}") := by
    refine ((List.mergeSort_perm _ _).map Prod.fst).trans ?_
    simp [Keyed.keys, Function.comp_def]
  rw [hkeys.nodup_iff]
  refine List.Nodup.map_on (fun left hleft right hright heq => ?_) overrides.nodup
  have hcode := parseCode?_written (hcodes left hleft)
  rw [heq, parseCode?_written (hcodes right hright)] at hcode
  exact (Option.some.inj hcode).symm

/-- Reading what is written for a map gives the same map. -/
theorem exists_readOverrides_writeOverrides :
    ∃ again, readOverrides (writeOverrides overrides) = .ok again ∧
      ∀ code, again.get? code = overrides.get? code := by
  have hholds := holds_writeOverrides hcodes
  have hkeys : ∀ entry ∈ writeOverrides overrides, ∃ code, parseCode? entry.1 = some code := by
    rintro ⟨key, severity⟩ hentry
    obtain ⟨code, hcode, rfl⟩ := mem_writeOverrides.mp hentry
    exact ⟨code, parseCode?_written (hcodes code (List.mem_map_of_mem hcode))⟩
  obtain ⟨again, hread⟩ := exists_readOverrides_iff.mpr ⟨hkeys, hholds.agree⟩
  refine ⟨again, hread, fun code => Option.ext fun severity => ?_⟩
  rw [(holds_of_readOverrides hread).1 code severity, hholds code severity]

end Writing

/-- A key is read as a code if it spells one. A table is read exactly if all of its keys are codes
and no two spellings of a code disagree; its map has the severity of each code that is written under
some spelling; and a map of codes is read back from what is written for it. -/
theorem overrides_read_back :
    (∀ key code, parseCode? key = some code ↔ Spells (Text.trim key).toList code) ∧
    (∀ written, (∃ overrides, readOverrides written = .ok overrides) ↔
      (∀ entry ∈ written, ∃ code, parseCode? entry.1 = some code) ∧
        ∀ first ∈ written, ∀ second ∈ written, ∀ code, parseCode? first.1 = some code →
          parseCode? second.1 = some code → first.2 = second.2) ∧
    (∀ written overrides, readOverrides written = .ok overrides → ∀ code severity,
      overrides.get? code = some severity ↔
        ∃ key, (key, severity) ∈ written ∧ parseCode? key = some code) ∧
    (∀ overrides : Keyed Nat Severity, (∀ code ∈ overrides.keys, code < codeLimit) →
      ((writeOverrides overrides).map Prod.fst).Nodup ∧
        ∃ again, readOverrides (writeOverrides overrides) = .ok again ∧
          ∀ code, again.get? code = overrides.get? code) := by
  refine ⟨fun key code => parseCode?_eq_some_iff, fun written => ?_,
    fun written overrides hread => (holds_of_readOverrides hread).1, fun overrides hcodes =>
      ⟨nodup_writeOverrides hcodes, exists_readOverrides_writeOverrides hcodes⟩⟩
  rw [exists_readOverrides_iff, agree_iff]

/-- Two spellings of one code that agree, and the largest code. -/
theorem spellings_read_back :
    (∃ overrides, readOverrides [("BS1023", .hint), (" +01023", .hint)] = .ok overrides ∧
      overrides.get? 1023 = some .hint) ∧
    ∃ again, readOverrides (writeOverrides (Keyed.empty.put 4294967295 .error)) = .ok again ∧
      again.get? 4294967295 = some .error := by
  obtain ⟨-, hexists, hget, hback⟩ := overrides_read_back
  have hcode : ∀ entry ∈ [("BS1023", Severity.hint), (" +01023", Severity.hint)],
      parseCode? entry.1 = some 1023 ∧ entry.2 = .hint :=
    List.forall_mem_cons.mpr ⟨⟨by decide, rfl⟩, List.forall_mem_singleton.mpr ⟨by decide, rfl⟩⟩
  constructor
  · obtain ⟨overrides, hread⟩ := (hexists [("BS1023", .hint), (" +01023", .hint)]).mpr
      ⟨fun entry hentry => ⟨1023, (hcode entry hentry).1⟩,
        fun first hfirst second hsecond _ _ _ =>
          (hcode first hfirst).2.trans (hcode second hsecond).2.symm⟩
    exact ⟨overrides, hread, (hget _ _ hread 1023 .hint).mpr
      ⟨"BS1023", List.mem_cons_self, (hcode _ List.mem_cons_self).1⟩⟩
  · obtain ⟨-, again, hread, hsame⟩ := hback (Keyed.empty.put 4294967295 .error) (by decide)
    exact ⟨again, hread, (hsame _).trans rfl⟩

end ScopeCheck.Overrides
