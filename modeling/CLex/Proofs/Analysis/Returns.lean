import CLex.Proofs.Analysis.Sighting
import CLex.Proofs.Analysis.Tally
import CLex.Proofs.Comment.Returns
import CLex.Proofs.Segment.Spacing
import CLex.Report.Document
import CLex.Report.Transcript

/-!
# Analyses and Carriage Returns

It makes no difference to an analysis whether lines end with a line feed, or with a carriage
return and a line feed: the same is found at the same positions, and only the offsets of
diagnostics grow. All reports are equal that do not show the code itself.

## Main results

* `Lexing.ofCells_trailed`: blanks before line feeds yield nothing.
* `Stages.lexed_withReturns`: the tokens and problems of both sources.
* `Analysis.ofSource_withReturns`: the analyses and the reports of both sources.
-/

namespace CLex

/-! ### Lexing -/

namespace Lexing

variable {lexicon : Lexicon} (hsolid : lexicon.IsSolid) (lines : LineMap)

include hsolid

/-- Blanks before line feeds yield nothing, whatever stands before them on the line. -/
private theorem ofCells_append_trailed {xs ys : List (Cell Int)} (h : Trailed xs ys)
    (line : List (Cell Int)) :
    ofCells lexicon lines (line ++ ys) = ofCells lexicon lines (line ++ xs) := by
  induction h generalizing line with
  | nil => rfl
  | @text x xs ys _ _ ih => simpa using ih (line ++ [x])
  | @feed a b xs ys _ ih =>
      have hrest : ofCells lexicon lines ys = ofCells lexicon lines xs := ih []
      rw [ofCells_append_newline lines hsolid, ofCells_append_newline lines hsolid, hrest]
  | @blank c a b xs ys hc _ ih =>
      have hspace : isWhitespace c = true := Spacing.isWhitespace_of_isBlank hc
      have hnewline : c ≠ '\n' := by
        rintro rfl
        exact Bool.false_ne_true hc
      have hblank : ofCells lexicon lines ((c, b) :: ys) = ofCells lexicon lines ys := by
        have hspaces : ∀ d ∈ charsOf [(c, b)], isWhitespace d = true := by simpa using hspace
        rw [← List.singleton_append, ofCells_spaces_append lines hspaces, charsOf_cons,
          List.count_cons_of_ne hnewline]
        exact empty_append _
      have hrest : ofCells lexicon lines ys = ofCells lexicon lines (('\n', a) :: xs) := ih []
      rw [ofCells_append lines hsolid line (by simpa using hspace), hblank, hrest,
        ofCells_append lines hsolid line (by simp [isWhitespace])]

/-- Blanks before line feeds yield nothing. -/
theorem ofCells_trailed {xs ys : List (Cell Int)} (h : Trailed xs ys) :
    ofCells lexicon lines ys = ofCells lexicon lines xs :=
  ofCells_append_trailed hsolid lines h []

end Lexing

/-! ### Stages -/

namespace Stages

variable (source : String)

/-- The stripped sources are related, with the labels that the code has in the longer one. -/
theorem trailed_stripped :
    Trailed (relabel (shift source.toList) (ofSource source).stripped.kept)
        (ofSource (String.ofList (withReturns source.toList))).stripped.kept ∧
      (ofSource (String.ofList (withReturns source.toList))).stripped.unclosed =
        (ofSource source).stripped.unclosed.map (shift source.toList) := by
  have h := trailed_numbered source.toList
  have hkept := Comment.trailed_kept h
  have hunclosed := Comment.unclosed_trailed h
  rw [Comment.strip_relabel] at hkept hunclosed
  simp only [ofSource, String.toList_ofList]
  exact ⟨hkept, hunclosed⟩

/-- What stands in the source stands in the longer one at the same position. -/
theorem locate_withReturns {n : Nat} (h : n ≤ source.toList.length) :
    (LineMap.ofString (String.ofList (withReturns source.toList))).locate
        (shift source.toList n) =
      (LineMap.ofString source).locate n := by
  rw [LineMap.ofString, String.toList_ofList]
  exact LineMap.locate_withReturns h

/-- Both sources yield the same at the same positions. -/
theorem lexed_withReturns :
    (ofSource (String.ofList (withReturns source.toList))).lexed =
      (ofSource source).lexed.move id (shift source.toList) := by
  have hlexed : ∀ s : String, (ofSource s).lexed =
      .ofCells .standard (.ofString s) (ofSource s).stripped.kept :=
    fun s => Lexing.ofCells_collapse Lexicon.isSolid_standard _ _
  rw [hlexed, hlexed,
    Lexing.ofCells_trailed Lexicon.isSolid_standard _ (trailed_stripped source).1]
  refine Lexing.ofCells_relabel fun x hx => ?_
  obtain ⟨n, hn, hc⟩ := getElem?_of_mem_kept source hx
  obtain ⟨hlt, -⟩ := List.getElem?_eq_some_iff.mp hc
  rw [hn]
  exact locate_withReturns source (Nat.le_of_lt hlt)

/-- Both sources have the same block comment open, at the same position. -/
theorem located_withReturns :
    (ofSource (String.ofList (withReturns source.toList))).stripped.diagnostics.map
        (·.locate (.ofString (String.ofList (withReturns source.toList)))) =
      ((ofSource source).stripped.diagnostics.map (·.locate (.ofString source))).map
        (·.move id (shift source.toList)) := by
  rw [Comment.Stripped.diagnostics, (trailed_stripped source).2, Comment.Stripped.diagnostics]
  cases hunclosed : (ofSource source).stripped.unclosed with
  | none => rfl
  | some offset =>
      obtain ⟨n, rfl, hopening, -⟩ := exists_of_unclosed source hunclosed
      have hle : n ≤ source.toList.length := by
        have := congrArg List.length hopening
        simp only [List.length_take, List.length_drop, List.length_cons, List.length_nil] at this
        omega
      have hposition := locate_withReturns source hle
      simp [Diagnostic.unterminatedComment, Diagnostic.locate, Diagnostic.moveTo,
        Diagnostic.move, LineMap.locate?, hposition]

end Stages

/-! ### Analyses -/

namespace Analysis

/-- **Line ends may be longer.** A source with a carriage return before each line feed has the
same tokens, breaks and statistics. Its diagnostics are the same, at the same positions, and
each offset is greater by the number of line feeds before it. So both sources have the same
document, the same statistics and the same transcript, unless this shows the code. -/
theorem ofSource_withReturns (source : String) :
    let returned := ofSource (String.ofList (withReturns source.toList))
    returned.tokens = (ofSource source).tokens ∧
      returned.breaks = (ofSource source).breaks ∧
      returned.statistics = (ofSource source).statistics ∧
      returned.diagnostics = (ofSource source).diagnostics.map (fun d =>
        { d with offset := d.offset.map (shift source.toList) }) ∧
      ∀ path, Report.renderDocument path returned = Report.renderDocument path (ofSource source) ∧
        Report.renderStatistics returned = Report.renderStatistics (ofSource source) ∧
        Report.renderTranscript path returned false =
          Report.renderTranscript path (ofSource source) false := by
  intro returned
  have hlexed := Stages.lexed_withReturns source
  have htokens : returned.tokens = (ofSource source).tokens := by
    refine (congrArg Lexing.tokens hlexed).trans ?_
    exact List.map_id _
  have hbreaks : returned.breaks = (ofSource source).breaks :=
    congrArg (fun lexing => lexing.breaks.map Int.ofNat) hlexed
  have hstatistics : returned.statistics = (ofSource source).statistics :=
    congrArg Tally.ofTokens htokens
  have hdiagnostics : returned.diagnostics = (ofSource source).diagnostics.map (fun d =>
      { d with offset := d.offset.map (shift source.toList) }) := by
    rw [diagnostics_ofSource, diagnostics_ofSource, hlexed, Stages.located_withReturns,
      List.map_append]
    rfl
  -- a document leaves offsets out
  have hobjects : returned.diagnostics.map Report.diagnosticJson =
      (ofSource source).diagnostics.map Report.diagnosticJson := by
    rw [hdiagnostics, List.map_map]
    rfl
  refine ⟨htokens, hbreaks, hstatistics, hdiagnostics, fun path => ⟨?_, ?_, ?_⟩⟩
  · simp only [Report.renderDocument, Report.document, htokens, hstatistics, hobjects]
  · simp only [Report.renderStatistics, Analysis.total, hstatistics]
  · simp only [Report.renderTranscript, Report.banner, htokens, hbreaks, Bool.false_eq_true,
      if_false]

end Analysis

end CLex
