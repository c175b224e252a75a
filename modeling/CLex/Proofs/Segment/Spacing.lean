import CLex.Proofs.Lexing.Parts
import CLex.Proofs.Segment.Parts
import CLex.Proofs.Spacing.Context

/-!
# Segments and Spacing

Collapsing the spacing of a text takes away blanks between its segments and turns others into
spaces, but one of them is always left where segments were apart. So the same marks and words
are found, each with its label, and as many line ends between them, as long as no operator
contains whitespace. Lexing therefore does not see how a text is spaced.

## Main results

* `Divided.exists_collapseAfter`: how a text in normal spacing is divided.
* `Lexing.ofCells_collapse`: lexing a text in normal spacing.
-/

open scoped List

namespace CLex

open Spacing

variable {α : Type}

/-! ### Gaps -/

/-- Whether a segment is a whitespace character that does not end a line. -/
def Segment.isGap : Segment α → Bool
  | .space c => c != '\n'
  | _ => false

/-- The segments of a text without the gaps between them. -/
def withoutGaps (segments : List (Segment α)) : List (Segment α) :=
  segments.filter (!·.isGap)

theorem withoutGaps_cons_gap {c : Char} (h : c ≠ '\n') (segments : List (Segment α)) :
    withoutGaps (.space c :: segments) = withoutGaps segments :=
  List.filter_cons_of_neg (by simp [Segment.isGap, h])

theorem withoutGaps_cons {s : Segment α} (h : s.isGap = false) (segments : List (Segment α)) :
    withoutGaps (s :: segments) = s :: withoutGaps segments :=
  List.filter_cons_of_pos (by simp [h])

/-- The same segment before texts that differ in gaps. -/
theorem withoutGaps_cons_congr {s : Segment α} (h : s.isGap = false) {ss ts : List (Segment α)}
    (heq : withoutGaps ss = withoutGaps ts) : withoutGaps (s :: ss) = withoutGaps (s :: ts) := by
  rw [withoutGaps_cons h, withoutGaps_cons h, heq]

/-- A blank is not a line feed. -/
theorem ne_newline_of_isBlank {c : Char} (h : isBlank c = true) : c ≠ '\n' := by
  rintro rfl
  exact Bool.false_ne_true h

/-- Of whitespace only the line feed is no blank. -/
theorem eq_newline_of_not_isBlank {c : Char} (hspace : isWhitespace c = true)
    (h : isBlank c = false) : c = '\n' := by
  rw [isWhitespace_eq, h, Bool.false_or] at hspace
  exact beq_iff_eq.mp hspace

/-! ### Division -/

/-- A run of word characters is followed by something else, also when that is collapsed. -/
private theorem not_isWordChar_head?_collapseAfter {c : Char} {rest : List (Cell α)}
    (hc : isWhitespace c = false) (h : ∀ d ∈ (charsOf rest).head?, isWordChar d = false) :
    ∀ d ∈ (charsOf (collapseAfter (some c) rest)).head?, isWordChar d = false := by
  intro d hd
  cases hb : isBlank d with
  | true => exact not_isWordChar_of_isWhitespace (isWhitespace_of_isBlank hb)
  | false => exact h d ((head?_collapseAfter_eq_some_iff hc hb).mp hd)

/-- A point and a digit start what follows a word just if they did before. -/
private theorem startsFraction_collapseAfter_iff {c : Char} (hc : isWhitespace c = false)
    {rest : List (Cell α)} :
    StartsFraction (charsOf (collapseAfter (some c) rest)) ↔ StartsFraction (charsOf rest) := by
  have hpair : ∀ chars : List Char,
      StartsFraction chars ↔ ∃ d : Char, d.isDigit = true ∧ ['.', d] <+: chars := by
    intro chars
    constructor
    · rintro ⟨d, after, rfl, hd⟩
      exact ⟨d, hd, after, rfl⟩
    · rintro ⟨d, hd, after, rfl⟩
      exact ⟨d, after, rfl, hd⟩
  rw [hpair, hpair]
  refine exists_congr fun d => and_congr_right fun hd => ?_
  have hd := isBlank_of_not_isWhitespace (isWhitespace_of_isWordChar (isWordChar_of_isDigit hd))
  exact pair_prefix_collapseAfter_iff hc rfl hd

/-- **Collapsing keeps the marks and the words.** In normal spacing a text is divided into the
same segments, but for the gaps between them. -/
theorem Divided.exists_collapseAfter {lexicon : Lexicon} (hsolid : lexicon.IsSolid)
    {cells : List (Cell α)} {found : List (Segment α)} (h : Divided lexicon cells found)
    (previous : Option Char) :
    ∃ found', Divided lexicon (collapseAfter previous cells) found' ∧
      withoutGaps found' = withoutGaps found := by
  induction h generalizing previous with
  | nil => exact ⟨[], .nil, rfl⟩
  | @space c a rest found hc _ ih =>
      cases hb : isBlank c with
      | false =>
          obtain rfl := eq_newline_of_not_isBlank hc hb
          obtain ⟨found', hfound, hgaps⟩ := ih (some '\n')
          refine ⟨.space '\n' :: found', ?_, ?_⟩
          · rw [collapseAfter_cons_of_not_isBlank hb]
            exact .space hc hfound
          · exact withoutGaps_cons_congr rfl hgaps
      | true =>
          obtain ⟨found', hfound, hgaps⟩ := ih none
          cases hprevious : followsText previous with
          | false =>
              refine ⟨found', ?_, ?_⟩
              · rw [collapseAfter_cons_of_not_followsText hb hprevious]
                exact hfound
              · rw [withoutGaps_cons_gap (ne_newline_of_isBlank hb), hgaps]
          | true =>
              refine ⟨.space ' ' :: found', ?_, ?_⟩
              · rw [collapseAfter_cons_of_followsText hb hprevious]
                exact .space rfl hfound
              · rw [withoutGaps_cons_gap (by decide),
                  withoutGaps_cons_gap (ne_newline_of_isBlank hb), hgaps]
  | @pair c d a b rest found hc hop _ ih =>
      obtain ⟨found', hfound, hgaps⟩ := ih (some d)
      refine ⟨.mark [c, d] a :: found', ?_, ?_⟩
      · have hd := isBlank_of_not_isWhitespace (hsolid.not_isWhitespace_of_pair hop)
        have hc' := isBlank_of_not_isWhitespace (isWhitespace_of_isPunctuation hc)
        rw [collapseAfter_cons_of_not_isBlank hc', collapseAfter_cons_of_not_isBlank hd]
        exact .pair hc hop hfound
      · exact withoutGaps_cons_congr rfl hgaps
  | @single c a rest found hc hop _ ih =>
      obtain ⟨found', hfound, hgaps⟩ := ih (some c)
      refine ⟨.mark [c] a :: found', ?_, ?_⟩
      · have hc' := isWhitespace_of_isPunctuation hc
        rw [collapseAfter_cons_of_not_isBlank (isBlank_of_not_isWhitespace hc')]
        refine .single hc (fun d hd hmem => ?_) hfound
        have hd' := isBlank_of_not_isWhitespace (hsolid.not_isWhitespace_of_pair hmem)
        exact hop d ((head?_collapseAfter_eq_some_iff hc' hd').mp hd) hmem
      · exact withoutGaps_cons_congr rfl hgaps
  | @word c a run rest found hrun hnumber _ ih =>
      obtain ⟨found', hfound, hgaps⟩ := ih (some c)
      refine ⟨.word (c :: charsOf run) a :: found', ?_, ?_⟩
      · have hsolid : ∀ d ∈ c :: charsOf run, isWhitespace d = false :=
          fun d hd => isWhitespace_of_isWordChar (hrun.1 d hd)
        obtain ⟨hc, hrest⟩ := List.forall_mem_cons.mp hsolid
        rw [collapseAfter_cons_of_not_isBlank (isBlank_of_not_isWhitespace hc),
          collapseAfter_append_of_solid hrest hc]
        refine .word ⟨hrun.1, not_isWordChar_head?_collapseAfter hc hrun.2⟩ ?_ hfound
        rwa [startsFraction_collapseAfter_iff hc]
      · exact withoutGaps_cons_congr rfl hgaps
  | @decimal c a b run fraction rest found hdigits hstart hrun _ ih =>
      obtain ⟨found', hfound, hgaps⟩ := ih (some '.')
      refine ⟨.word (c :: (charsOf run ++ '.' :: charsOf fraction)) a :: found', ?_, ?_⟩
      · have hsolid : ∀ d ∈ c :: charsOf run, isWhitespace d = false :=
          fun d hd => isWhitespace_of_isWordChar (isWordChar_of_isDigit (hdigits d hd))
        obtain ⟨hc, hrest⟩ := List.forall_mem_cons.mp hsolid
        have hfraction : ∀ d ∈ charsOf fraction, isWhitespace d = false :=
          fun d hd => isWhitespace_of_isWordChar (hrun.1 d hd)
        rw [collapseAfter_cons_of_not_isBlank (isBlank_of_not_isWhitespace hc),
          collapseAfter_append_of_solid hrest hc, collapseAfter_cons_of_not_isBlank rfl,
          collapseAfter_append_of_solid hfraction rfl]
        exact .decimal hdigits hstart
          ⟨hrun.1, not_isWordChar_head?_collapseAfter rfl hrun.2⟩ hfound
      · exact withoutGaps_cons_congr rfl hgaps

/-! ### Lexing -/

/-- A gap yields nothing. -/
theorem Segment.outcome_of_isGap {lexicon : Lexicon} {lines : LineMap} {s : Segment Int}
    (h : s.isGap = true) : s.outcome lexicon lines = .gap := by
  cases s with
  | space c => exact if_neg (by simpa [isGap] using h)
  | mark chars start => exact absurd h Bool.false_ne_true
  | word chars start => exact absurd h Bool.false_ne_true

namespace Lexing

/-- Gaps yield nothing. -/
theorem ofSegments_withoutGaps (lexicon : Lexicon) (lines : LineMap)
    (segments : List (Segment Int)) :
    ofSegments lexicon lines (withoutGaps segments) = ofSegments lexicon lines segments := by
  induction segments with
  | nil => rfl
  | cons s ss ih =>
      cases hs : s.isGap with
      | true =>
          have hskip : withoutGaps (s :: ss) = withoutGaps ss :=
            List.filter_cons_of_neg (by simp [hs])
          have hgap : ofOutcomes [s.outcome lexicon lines] = {} := by
            rw [Segment.outcome_of_isGap hs]
            rfl
          rw [hskip, ih, ofSegments_cons, hgap, empty_append]
      | false => rw [withoutGaps_cons hs, ofSegments_cons, ih, ofSegments_cons]

/-- Lexing does not see how a text is spaced, if no operator contains whitespace. -/
theorem ofCells_collapse {lexicon : Lexicon} (hsolid : lexicon.IsSolid) (lines : LineMap)
    (cells : List (Cell Int)) :
    ofCells lexicon lines (collapse cells) = ofCells lexicon lines cells := by
  obtain ⟨found, hfound, hgaps⟩ :=
    (divided_segments lexicon cells).exists_collapseAfter hsolid none
  obtain rfl := hfound.eq_segments
  rw [ofCells, ← ofSegments_withoutGaps]
  exact (congrArg (ofSegments lexicon lines) hgaps).trans (ofSegments_withoutGaps ..)

end Lexing

end CLex
