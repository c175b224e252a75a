import CLex.Proofs.Diagnostic.Lines

/-!
# Reading Messages

The message about characters that form no token consists of words and of the characters, quoted.
The words hold no quote mark, so the quoted text starts at the first one, and reads back. Hence
the message tells the characters, and whether they are punctuation that is no operator.

Neither a message nor the line that reports it can be made to look like several lines, or like
other text, by the characters in question: whatever they are, what is written is printable, and so
neither a control nor the end of a line.

## Main definitions

* `Text.OneLine`: a line of printable characters.
* `Cause.read?`: what can be read from a message.

## Main results

* `Cause.read?_message`: a message reads back.
* `Cause.message_unrecognized`: messages, and the lines that report them.
-/

namespace CLex

open Text (isPrintable)

/-! ### One line -/

namespace Text

/-- Whether a character is a control, of general category Cc. -/
def isControl (c : Char) : Bool :=
  c.toNat ≤ 0x1f || (0x7f ≤ c.toNat && c.toNat ≤ 0x9f)

/-- The code points that end a line of text. -/
def lineEnds : List Nat :=
  [0xa, 0xb, 0xc, 0xd, 0x1c, 0x1d, 0x1e, 0x85, 0x2028, 0x2029]

/-- Whether a text is one line, and shows all there is in it. -/
def OneLine (s : String) : Prop :=
  ∀ c ∈ s.toList, isPrintable c = true ∧ isControl c = false ∧ c.toNat ∉ lineEnds

/-- A character in a range of those that are not printable is not printable. -/
private theorem not_isPrintable_of_mem {c : Char} {r : Nat × Nat} (hr : r ∈ unprintableRanges)
    (hlow : r.1 ≤ c.toNat) (hhigh : c.toNat ≤ r.2) : isPrintable c ≠ true :=
  fun hc => isPrintable_iff.mp hc r hr ⟨hlow, hhigh⟩

/-- Controls are not printable. -/
theorem not_isControl_of_isPrintable {c : Char} (hc : isPrintable c = true) :
    isControl c = false := by
  rw [Bool.eq_false_iff]
  intro hcontrol
  rw [isControl, Bool.or_eq_true, Bool.and_eq_true, decide_eq_true_eq, decide_eq_true_eq,
    decide_eq_true_eq] at hcontrol
  rcases hcontrol with hlow | ⟨hlow, hhigh⟩
  · exact not_isPrintable_of_mem (r := (0x0, 0x1f)) (by decide +kernel) (Nat.zero_le _) hlow hc
  · exact not_isPrintable_of_mem (r := (0x7f, 0xa0)) (by decide +kernel) hlow (by omega) hc

/-- What ends a line is not printable. -/
theorem notMem_lineEnds_of_isPrintable {c : Char} (hc : isPrintable c = true) :
    c.toNat ∉ lineEnds := by
  have hranges : ∀ n ∈ lineEnds, ∃ r ∈ unprintableRanges, r.1 ≤ n ∧ n ≤ r.2 := by decide +kernel
  intro hend
  obtain ⟨r, hr, hlow, hhigh⟩ := hranges _ hend
  exact not_isPrintable_of_mem hr hlow hhigh hc

/-- Printable characters make one line. -/
theorem oneLine_iff {s : String} : OneLine s ↔ ∀ c ∈ s.toList, isPrintable c = true :=
  ⟨fun h c hc => (h c hc).1, fun h c hc =>
    ⟨h c hc, not_isControl_of_isPrintable (h c hc), notMem_lineEnds_of_isPrintable (h c hc)⟩⟩

/-- Words in printable ASCII make one line. -/
theorem oneLine_of_ascii {s : String}
    (h : (s.toList.all fun c => 0x20 ≤ c.toNat && c.toNat ≤ 0x7e) = true) : OneLine s :=
  oneLine_iff.mpr fun _ hc => isPrintable_of_mem_words h hc

end Text

open Text (OneLine oneLine_iff oneLine_of_ascii)

/-! ### Reading a message -/

namespace Cause

/-- Whether the words of a message are about punctuation that is no operator. -/
def operatorOf? (words : String) : Option Bool :=
  if words = "unrecognized character " then some true
  else if words = "malformed token " then some false
  else none

/-- Whether a character may be the mark that starts a quoted text. -/
def isMark (c : Char) : Bool :=
  c == '\x27' || c == '\x22'

/-- Reading a message: the characters in question, and whether they are punctuation that is no
operator. The quoted text starts at the first mark. -/
def read? (message : String) : Option (String × Bool) :=
  (Text.Quoted.decode (message.toList.dropWhile (!isMark ·))).bind fun quoted =>
    (operatorOf? (String.ofList (message.toList.takeWhile (!isMark ·)))).map fun isOperator =>
      (String.ofList quoted, isOperator)

/-- Words without a mark, and a quoted text. -/
theorem read?_append_quote {words : String} (h : words.toList.any isMark = false)
    (lexeme : String) :
    read? (words ++ Text.Quoted.quote lexeme) = (operatorOf? words).map (lexeme, ·) := by
  have hquote : (Text.Quoted.quote lexeme).toList = Text.Quoted.encode lexeme.toList := by
    rw [Text.Quoted.quote, String.toList_ofList]
  have hrun : IsLongestRun (!isMark ·) words.toList (Text.Quoted.encode lexeme.toList) := by
    constructor
    · simpa using h
    · intro c hc
      obtain rfl : Text.Quoted.quoteMark lexeme.toList = c := Option.some.inj hc
      rcases Text.Quoted.quoteMark_eq_or lexeme.toList with hmark | hmark <;> rw [hmark] <;> rfl
  rw [read?, String.toList_append, hquote, hrun.dropWhile_eq, hrun.takeWhile_eq,
    Text.Quoted.decode_encode, Option.bind_some, String.ofList_toList, String.ofList_toList]

/-- **A message reads back.** -/
theorem read?_message (lexeme : String) (reason : Reason) :
    read? (unrecognized lexeme reason).message = some (lexeme, decide (reason = .operator)) := by
  by_cases hreason : reason = .operator
  · rw [message, if_pos hreason, read?_append_quote (by decide), decide_eq_true hreason]
    rfl
  · rw [message, if_neg hreason, read?_append_quote (by decide), decide_eq_false hreason]
    rfl

/-- **Messages.** The message about characters that form no token is one line of printable
characters. It tells which these are, and whether they are punctuation that is no operator, so no
other characters have the same message. Each diagnostic of a source is reported on one line. -/
theorem message_unrecognized :
    (∀ (lexeme : String) (reason : Reason),
      OneLine (unrecognized lexeme reason).message ∧
        read? (unrecognized lexeme reason).message =
          some (lexeme, decide (reason = .operator))) ∧
    (∀ (lexeme lexeme' : String) (reason reason' : Reason),
      (unrecognized lexeme reason).message = (unrecognized lexeme' reason').message →
        lexeme = lexeme' ∧ (reason = .operator ↔ reason' = .operator)) ∧
    ∀ source : String, ∀ d ∈ (Analysis.ofSource source).diagnostics,
      OneLine d.warning ∧ OneLine d.error ∧
        ∀ level : String, OneLine level → OneLine (d.render level) := by
  refine ⟨fun lexeme reason => ⟨?_, read?_message lexeme reason⟩, ?_, fun source d hd => ?_⟩
  · have hworded : (unrecognized lexeme reason).IsWorded := trivial
    exact oneLine_iff.mpr fun c hc => isPrintable_of_mem_message hworded hc
  · intro lexeme lexeme' reason reason' hmessage
    have hread := congrArg read? hmessage
    rw [read?_message, read?_message, Option.some.injEq, Prod.mk.injEq, decide_eq_decide] at hread
    exact hread
  · have hline : ∀ level : String, OneLine level → OneLine (d.render level) := by
      intro level hlevel
      exact oneLine_iff.mpr fun c hc => Diagnostic.isPrintable_of_mem_render
        (oneLine_iff.mp hlevel) (Analysis.isWorded_of_mem_diagnostics hd) hc
    exact ⟨hline _ (oneLine_of_ascii (by decide)), hline _ (oneLine_of_ascii (by decide)), hline⟩

/-- A word with an invisible character in it, and a reason with a label of its own. -/
theorem message_unrecognized_of_invisible :
    (unrecognized "a\u200b" .malformed).message = "malformed token \x27a\\u200b\x27" ∧
      read? (unrecognized "a\u200b" .malformed).message = some ("a\u200b", false) ∧
      ("a\u200b" = "a\u200b" ∧ (Reason.malformed = .operator ↔ (⟨"other"⟩ : Reason) = .operator)) ∧
      ⟨.unrecognized "a\u200b" .malformed, some 2, ⟨2, 1⟩⟩ ∈
        (Analysis.ofSource ";\na\u200b").diagnostics ∧
      OneLine (Diagnostic.warning ⟨.unrecognized "a\u200b" .malformed, some 2, ⟨2, 1⟩⟩) ∧
      OneLine (Diagnostic.render "note" ⟨.unrecognized "a\u200b" .malformed, some 2, ⟨2, 1⟩⟩) := by
  have hproblem : ⟨.unrecognized "a\u200b" .malformed, some 2, ⟨2, 1⟩⟩ ∈
      (Analysis.ofSource ";\na\u200b").diagnostics := by
    rw [Analysis.diagnostics_ofSource]
    decide +kernel
  have hlevel : OneLine "note" := oneLine_of_ascii (by decide)
  obtain ⟨hread, hinjective, hlines⟩ := message_unrecognized
  obtain ⟨hwarning, -, hrender⟩ := hlines ";\na\u200b" _ hproblem
  exact ⟨by decide +kernel, (hread _ _).2, hinjective _ _ _ _ rfl, hproblem, hwarning,
    hrender "note" hlevel⟩

end Cause

end CLex
