import CLex.Proofs.Segment.Spacing
import CLex.Proofs.Text.Origins

/-!
# Texts and Whitespace

Lexing takes whitespace for what separates marks and words, and for line ends. So it does not
see how a text is spaced, and a text can be taken apart at every whitespace character. Both
need an origin for each character, and operators that do not contain whitespace: one that ends
with a tab would be lost when the tab becomes a space, and cut in two by a parting before it.

## Main results

* `Text.exists_lexing?_collapse`: lexing a text and the text in normal spacing.
* `Text.exists_lexing?_append_space`: lexing a text and its parts around whitespace.
-/

namespace CLex

namespace Text

variable {lexicon : Lexicon}

/-! ### Normal spacing -/

/-- **Lexing does not see how a text is spaced.** It succeeds on a text with enough origins, and
on the text in normal spacing it yields the same tokens and diagnostics at the same offsets and
positions, and the same breaks. -/
theorem exists_lexing?_collapse (hsolid : lexicon.IsSolid) (lines : LineMap) {text : Text}
    (h : text.chars.length ≤ text.origins.length) :
    ∃ lexing, text.lexing? lexicon lines = some lexing ∧
      text.collapse.lexing? lexicon lines = some lexing := by
  refine ⟨.ofCells lexicon lines text.cells, lexing?_of_length_le h lexicon lines, ?_⟩
  rw [collapse, lexing?_ofCells, Lexing.ofCells_collapse hsolid]

/-- A text with an origin to spare, in which blanks stand at the start of a line, in a row, and
between what would be a number or an operator without them. -/
theorem exists_lexing?_collapse_of_tabs :
    ∃ text : Text, text = ⟨"\t1 .\t 5<\r= \n  a\x0c;".toList, (List.range 18).map Int.ofNat⟩ ∧
      text.chars.length ≤ text.origins.length ∧ text.collapse ≠ text ∧
      ∀ lines, ∃ lexing, text.lexing? .standard lines = some lexing ∧
        text.collapse.lexing? .standard lines = some lexing := by
  refine ⟨_, rfl, by decide, by decide, fun lines => ?_⟩
  exact exists_lexing?_collapse Lexicon.isSolid_standard lines (by decide)

/-! ### Parts around whitespace -/

/-- The origins of two parts, with the one of the character between them. -/
private theorem exists_cells_append_cons (before : List Char) (c : Char) (after : List Char)
    {origins : List Int} (h : before.length + 1 + after.length ≤ origins.length) :
    ∃ offset, (Text.mk (before ++ c :: after) origins).cells =
      before.zip (origins.take before.length) ++
        (c, offset) :: after.zip (origins.drop (before.length + 1)) := by
  have hlt : before.length < origins.length := by omega
  have hlength : before.length = (origins.take before.length).length := by
    rw [List.length_take_of_le (Nat.le_of_lt hlt)]
  have hsplit : origins = origins.take before.length ++
      origins[before.length] :: origins.drop (before.length + 1) := by
    rw [← List.drop_eq_getElem_cons hlt, List.take_append_drop]
  refine ⟨origins[before.length], ?_⟩
  calc (before ++ c :: after).zip origins
      = (before ++ c :: after).zip (origins.take before.length ++
          origins[before.length] :: origins.drop (before.length + 1)) := by rw [← hsplit]
    _ = _ := by rw [List.zip_append hlength, List.zip_cons_cons]

/-- **Lexing takes a text apart at whitespace.** The parts before and after a whitespace
character are lexed as texts of their own, and yield the tokens and the diagnostics of the whole
text one after the other. The line ends of the second part, and the whitespace character if it is
one, come after all tokens of the first part. -/
theorem exists_lexing?_append_space (hsolid : lexicon.IsSolid) (lines : LineMap)
    (before after : List Char) {c : Char} (hc : isWhitespace c = true) {origins : List Int}
    (h : before.length + 1 + after.length ≤ origins.length) :
    ∃ a b,
      (Text.mk before (origins.take before.length)).lexing? lexicon lines = some a ∧
      (Text.mk after (origins.drop (before.length + 1))).lexing? lexicon lines = some b ∧
      (Text.mk (before ++ c :: after) origins).lexing? lexicon lines = some
        { tokens := a.tokens ++ b.tokens
          diagnostics := a.diagnostics ++ b.diagnostics
          breaks := a.breaks ++ (if c = '\n' then [a.tokens.length] else []) ++
            b.breaks.map (a.tokens.length + ·) } := by
  have hbefore : before.length ≤ (origins.take before.length).length := by
    rw [List.length_take]
    omega
  have hafter : after.length ≤ (origins.drop (before.length + 1)).length := by
    rw [List.length_drop]
    omega
  have hwhole : (before ++ c :: after).length ≤ origins.length := by
    rw [List.length_append, List.length_cons]
    omega
  obtain ⟨offset, hcells⟩ := exists_cells_append_cons before c after h
  refine ⟨_, _, lexing?_of_length_le hbefore lexicon lines,
    lexing?_of_length_le hafter lexicon lines, ?_⟩
  rw [lexing?_of_length_le hwhole, hcells]
  -- the character in between ends the first part, and yields at most a break itself
  have hspaces : ∀ d ∈ charsOf [(c, offset)], isWhitespace d = true := by
    intro d hd
    rw [charsOf_cons, charsOf_nil, List.mem_singleton] at hd
    rw [hd]
    exact hc
  rw [Lexing.ofCells_append lines hsolid _ (by simpa using hc), ← List.singleton_append,
    Lexing.ofCells_spaces_append lines hspaces]
  refine congrArg some (Lexing.ext rfl rfl ?_)
  by_cases hnewline : c = '\n'
  · simp [hnewline, cells]
  · simp [hnewline, cells, List.count_cons_of_ne]

/-- A line feed in what would be a number without it, with an origin to spare. -/
theorem exists_lexing?_append_space_of_number :
    let origins := (List.range 8).map Int.ofNat
    isWhitespace '\n' = true ∧ "1.".toList.length + 1 + "5 +=".toList.length ≤ origins.length ∧
      ∀ lines, ∃ a b,
        (Text.mk "1.".toList (origins.take 2)).lexing? .standard lines = some a ∧
        (Text.mk "5 +=".toList (origins.drop 3)).lexing? .standard lines = some b ∧
        (Text.mk "1.\n5 +=".toList origins).lexing? .standard lines = some
          { tokens := a.tokens ++ b.tokens
            diagnostics := a.diagnostics ++ b.diagnostics
            breaks := a.breaks ++ [a.tokens.length] ++ b.breaks.map (a.tokens.length + ·) } := by
  refine ⟨rfl, by decide, fun lines => ?_⟩
  have hspace : isWhitespace '\n' = true := rfl
  exact exists_lexing?_append_space Lexicon.isSolid_standard lines "1.".toList "5 +=".toList hspace
    (by decide)

end Text

end CLex
