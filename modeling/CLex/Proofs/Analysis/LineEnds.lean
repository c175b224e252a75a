import Mathlib.Data.List.Pairwise
import CLex.Proofs.Analysis.Sighting
import CLex.Proofs.Comment.LineEnds
import CLex.Proofs.Lexing.Parts
import CLex.Proofs.Position.Order

/-!
# Breaks and Line Ends

For every line end of the code an analysis notes how many tokens come before it. The line ends
are told by the source and its comments, see `Comment.lineEndsFrom`, and which tokens come before
one of them is told by their positions. No token reaches over a line end, not even one that is
interrupted by a block comment.

## Main results

* `Lexing.breaks_ofCells`: the breaks of a text whose positions increase.
* `exists_sighted_apart`: sightings stand on either side of a line end.
* `Analysis.breaks_ofSource_eq`: the breaks of a source.
-/

namespace CLex

/-! ### Texts without line feeds -/

/-- Only a line feed ends a line. -/
theorem Segment.outcome_eq_lineEnd_iff {lexicon : Lexicon} {lines : LineMap} {s : Segment Int} :
    s.outcome lexicon lines = .lineEnd ↔ s = .space '\n' := by
  cases s with
  | space c => by_cases hc : c = '\n' <;> simp [outcome, hc]
  | mark chars start => by_cases hop : lexicon.isOperator chars = true <;> simp [outcome, hop]
  | word chars start =>
      cases hkind : Token.Kind.ofWord? lexicon.keywords (String.ofList chars) <;>
        simp [outcome, hkind]

/-- Where no line ends there is no break. -/
theorem lineBreaks_of_notMem {os : List Outcome} (h : .lineEnd ∉ os) : lineBreaks os = [] := by
  induction os with
  | nil => rfl
  | cons o os ih =>
      rw [List.mem_cons, not_or] at h
      cases o with
      | token t => rw [lineBreaks_token, ih h.2, List.map_nil]
      | problem d => rw [lineBreaks_problem, ih h.2]
      | lineEnd => exact absurd rfl h.1
      | gap => rw [lineBreaks_gap, ih h.2]

namespace Lexing

variable {lexicon : Lexicon} {lines : LineMap} {cells : List (Cell Int)}

/-- A text without line feeds has no breaks. -/
theorem breaks_of_notMem (h : '\n' ∉ charsOf cells) : (ofCells lexicon lines cells).breaks = [] := by
  refine lineBreaks_of_notMem fun hmem => h ?_
  obtain ⟨s, hs, houtcome⟩ := List.mem_map.mp hmem
  obtain rfl := Segment.outcome_eq_lineEnd_iff.mp houtcome
  rw [← flatMap_chars_segments lexicon cells]
  exact List.mem_flatMap.mpr ⟨_, hs, List.mem_singleton_self _⟩

/-! ### Tokens before a line end -/

/-- A token has the position of a cell of the text. -/
theorem exists_cell_of_mem_tokens {t : Token} (h : t ∈ (ofCells lexicon lines cells).tokens) :
    ∃ x ∈ cells, t.position = lines.locate x.2 := by
  obtain ⟨o, ho, htoken⟩ := List.mem_filterMap.mp h
  obtain ⟨s, hs, rfl⟩ := List.mem_map.mp ho
  rw [Outcome.token?_eq, Option.bind_eq_some_iff] at htoken
  obtain ⟨seen, hseen, hleft⟩ := htoken
  cases hspace : s.isSpace with
  | true =>
      rw [Segment.seen?_outcome_of_isSpace lexicon lines hspace] at hseen
      exact absurd hseen (by simp)
  | false =>
      obtain ⟨start, seen', hstart, hseen', -, hposition, -⟩ :=
        Segment.exists_seen_of_not_isSpace lexicon lines hspace
      obtain rfl : seen' = seen := Option.some.inj (hseen'.symm.trans hseen)
      obtain ⟨x, hx, rfl⟩ := exists_mem_of_start? hs hstart
      obtain rfl := Sum.getLeft?_eq_some_iff.mp hleft
      exact ⟨x, hx, hposition⟩

/-- How many tokens start before an offset. -/
def tokensBefore (lines : LineMap) (tokens : List Token) (offset : Int) : Nat :=
  tokens.countP (·.position < lines.locate offset)

theorem tokensBefore_append (lines : LineMap) (ts us : List Token) (offset : Int) :
    tokensBefore lines (ts ++ us) offset =
      tokensBefore lines ts offset + tokensBefore lines us offset :=
  List.countP_append

/-- All tokens of a text come before what stands behind all of its cells. -/
theorem tokensBefore_eq_length {offset : Int}
    (h : ∀ x ∈ cells, lines.locate x.2 < lines.locate offset) :
    tokensBefore lines (ofCells lexicon lines cells).tokens offset =
      (ofCells lexicon lines cells).tokens.length := by
  refine List.countP_eq_length.mpr fun t ht => ?_
  obtain ⟨x, hx, hposition⟩ := exists_cell_of_mem_tokens ht
  rw [decide_eq_true_eq, hposition]
  exact h x hx

/-- No token of a text comes before what stands in front of all of its cells. -/
theorem tokensBefore_eq_zero {offset : Int}
    (h : ∀ x ∈ cells, lines.locate offset < lines.locate x.2) :
    tokensBefore lines (ofCells lexicon lines cells).tokens offset = 0 := by
  refine List.countP_eq_zero.mpr fun t ht => ?_
  obtain ⟨x, hx, hposition⟩ := exists_cell_of_mem_tokens ht
  rw [decide_eq_true_eq, hposition]
  exact lt_asymm (h x hx)

/-- The breaks of a text that starts with a line without its line feed. -/
private theorem breaks_ofCells_line (hsolid : lexicon.IsSolid) {line : List (Cell Int)}
    (hline : '\n' ∉ charsOf line)
    (h : (line ++ cells).Pairwise fun x y => lines.locate x.2 < lines.locate y.2) :
    (ofCells lexicon lines (line ++ cells)).breaks =
      (lineFeeds (line ++ cells)).map
        (tokensBefore lines (ofCells lexicon lines (line ++ cells)).tokens) := by
  induction cells generalizing line with
  | nil =>
      rw [List.append_nil, breaks_of_notMem hline, lineFeeds_of_notMem hline, List.map_nil]
  | cons x rest ih =>
      obtain ⟨c, a⟩ := x
      by_cases hc : c = '\n'
      · subst hc
        obtain ⟨-, hrest, hbefore⟩ := List.pairwise_append.mp h
        obtain ⟨hafter, hrest⟩ := List.pairwise_cons.mp hrest
        -- all tokens of the line come before its end and before all later ones
        have hall : ∀ n ∈ a :: lineFeeds rest,
            tokensBefore lines (ofCells lexicon lines line).tokens n =
              (ofCells lexicon lines line).tokens.length := by
          intro n hn
          refine tokensBefore_eq_length fun x hx => hbefore x hx ('\n', n) ?_
          rw [← lineFeeds_cons_newline] at hn
          exact mem_lineFeeds_iff.mp hn
        have hnone : tokensBefore lines (ofCells lexicon lines rest).tokens a = 0 :=
          tokensBefore_eq_zero hafter
        have hlater : (ofCells lexicon lines rest).breaks =
            (lineFeeds rest).map (tokensBefore lines (ofCells lexicon lines rest).tokens) :=
          @ih [] (by simp) hrest
        rw [ofCells_append_newline lines hsolid, lineFeeds_append, lineFeeds_of_notMem hline,
          lineFeeds_cons_newline, List.nil_append, List.map_cons]
        simp only [breaks_append, tokens_append, breaks_of_notMem hline, List.nil_append,
          List.length_nil, Nat.zero_add, List.map_id', List.singleton_append, List.map_cons,
          Nat.add_zero, tokensBefore_append]
        rw [hall a (List.mem_cons_self ..), hnone, hlater, List.map_map, Nat.add_zero,
          List.cons.injEq]
        refine ⟨rfl, List.map_congr_left fun n hn => ?_⟩
        rw [Function.comp_apply, tokensBefore_append, hall n (List.mem_cons_of_mem _ hn)]
      · have hcells : line ++ (c, a) :: rest = (line ++ [(c, a)]) ++ rest := by simp
        rw [hcells] at h ⊢
        exact ih (by simpa [hc, eq_comm] using hline) h

/-- **Breaks count the tokens before line feeds.** Where later cells have later positions, there
is a break for each line feed, and it is the number of tokens that start before it. -/
theorem breaks_ofCells (hsolid : lexicon.IsSolid)
    (h : cells.Pairwise fun x y => lines.locate x.2 < lines.locate y.2) :
    (ofCells lexicon lines cells).breaks =
      (lineFeeds cells).map (tokensBefore lines (ofCells lexicon lines cells).tokens) :=
  @breaks_ofCells_line lexicon lines cells hsolid [] (by simp) h

end Lexing

/-! ### The line ends of a source -/

namespace Stages

variable (source : String)

/-- In the code in normal spacing later cells have later positions. -/
theorem pairwise_locate_normalized :
    (ofSource source).normalized.Pairwise fun x y =>
      (LineMap.ofString source).locate x.2 < (LineMap.ofString source).locate y.2 := by
  refine (pairwise_normalized source).imp_of_mem fun {x y} hx hy hxy => ?_
  obtain ⟨m, hm, -⟩ := exists_of_mem_normalized source hx
  obtain ⟨n, hn, c, hc, -⟩ := exists_of_mem_normalized source hy
  obtain ⟨hlt, -⟩ := List.getElem?_eq_some_iff.mp hc
  exact LineMap.locate_lt_locate (by omega) hxy (by omega)

/-- The line feeds of the code in normal spacing are the line ends of the source. -/
theorem lineFeeds_normalized :
    lineFeeds (ofSource source).normalized =
      Comment.lineEndsFrom 0 (Comment.pieces (numbered source.toList)) := by
  rw [(Comment.composed_pieces (numbered source.toList)).lineEndsFrom_zero]
  exact Spacing.lineFeeds_collapse _

/-- The line ends of a source stand at increasing offsets. -/
theorem pairwise_lineFeeds_normalized :
    (lineFeeds (ofSource source).normalized).Pairwise (· < ·) :=
  List.pairwise_map.mpr ((pairwise_normalized source).filter _)

/-- At each line end the source has a line feed. -/
theorem getElem?_of_mem_lineFeeds {n : Int} (h : n ∈ lineFeeds (ofSource source).normalized) :
    ∃ i : Nat, n = i ∧ source.toList[i]? = some '\n' := by
  obtain ⟨i, hi, c, hc, rfl | ⟨hspace, -⟩⟩ :=
    exists_of_mem_normalized source (mem_lineFeeds_iff.mp h)
  · exact ⟨i, hi, hc⟩
  · exact absurd (show '\n' = ' ' from hspace) (by decide)

end Stages

/-- Of two spans of a text whose offsets increase, one comes before the other. -/
private theorem before_or_after {spans : List (Segment Int × List (Cell Int))}
    (h : spans.Pairwise fun s t => ∀ x ∈ s.2, ∀ y ∈ t.2, x.2 < y.2)
    {s t : Segment Int × List (Cell Int)} (hs : s ∈ spans) (ht : t ∈ spans) (hne : s ≠ t) :
    (∀ x ∈ s.2, ∀ y ∈ t.2, x.2 < y.2) ∨ ∀ x ∈ s.2, ∀ y ∈ t.2, y.2 < x.2 := by
  have hsides : spans.Pairwise fun s t =>
      (∀ x ∈ s.2, ∀ y ∈ t.2, x.2 < y.2) ∨ ∀ x ∈ s.2, ∀ y ∈ t.2, y.2 < x.2 :=
    h.imp Or.inl
  have hsymm : Std.Symm fun s t : Segment Int × List (Cell Int) =>
      (∀ x ∈ s.2, ∀ y ∈ t.2, x.2 < y.2) ∨ ∀ x ∈ s.2, ∀ y ∈ t.2, y.2 < x.2 :=
    ⟨fun _ _ hst => hst.symm.imp (fun h x hx y hy => h y hy x hx) fun h x hx y hy => h y hy x hx⟩
  exact hsides.forall hs ht hne

/-- Sightings can be listed so that each stands on one side of any line feed of the code: all of
its characters come before it, or all of them come after it. -/
theorem exists_sighted_apart (source : String) :
    ∃ found, Sighted source found ∧
      ∀ s ∈ found, ∀ n ∈ lineFeeds (Stages.ofSource source).normalized,
        (∀ i ∈ s.offsets, (i : Int) < n) ∨ ∀ i ∈ s.offsets, n < i := by
  have hdivided := divided_segments .standard (Stages.ofSource source).normalized
  obtain ⟨spans, hsegments, hcells, hcovers⟩ := hdivided.exists_spans
  have hspace := hdivided.isWhitespace_eq_isSpace Lexicon.isSolid_standard
  have hincreasing := Stages.pairwise_normalized source
  rw [← hcells, List.pairwise_flatMap] at hincreasing
  refine ⟨_, sighted_of_spans hsegments hcells hcovers, fun s hs n hn => ?_⟩
  obtain ⟨span, hspan, hseen⟩ := List.mem_filterMap.mp hs
  obtain ⟨hnot, hoffsets, -⟩ := Sighting.ofSpan?_eq_some hseen
  -- the line feed has a span of its own, since it is whitespace
  obtain ⟨other, hother, hmem⟩ : ∃ other ∈ spans, ('\n', n) ∈ other.2 := by
    rw [mem_lineFeeds_iff, ← hcells] at hn
    exact List.mem_flatMap.mp hn
  have hisSpace : other.1.isSpace = true := by
    refine (hspace other.1 (hsegments ▸ List.mem_map_of_mem hother) '\n' ?_).symm
    rw [← (hcovers other hother).1]
    exact List.mem_map_of_mem (f := Prod.fst) hmem
  have hne : span ≠ other := by
    rintro rfl
    exact Bool.false_ne_true (hnot.symm.trans hisSpace)
  have hlabel : ∀ x ∈ span.2, ((x.2.toNat : Nat) : Int) = x.2 := by
    intro x hx
    have hx : x ∈ (Stages.ofSource source).normalized :=
      hcells ▸ List.mem_flatMap.mpr ⟨span, hspan, hx⟩
    obtain ⟨m, hm, -⟩ := Stages.exists_of_mem_normalized source hx
    omega
  rw [hoffsets]
  rcases before_or_after hincreasing.2 hspan hother hne with hlt | hlt
  · refine .inl fun i hi => ?_
    obtain ⟨x, hx, rfl⟩ := List.mem_map.mp hi
    exact hlabel x hx ▸ hlt x hx _ hmem
  · refine .inr fun i hi => ?_
    obtain ⟨x, hx, rfl⟩ := List.mem_map.mp hi
    exact hlabel x hx ▸ hlt x hx _ hmem

/-! ### The breaks of a source -/

namespace Analysis

/-- **Breaks are the line ends of the source.** A source is composed of code and comments in one
way, and this tells which of its line feeds are outside of block comments. There is a break for
each of them, in order, and it is the number of tokens whose position is before that line feed.
So breaks do not decrease. No token has characters on both sides of one of these line feeds,
and neither has anything else that is seen. -/
theorem breaks_ofSource_eq (source : String) :
    ∃ found pieces, Sighted source found ∧ Comment.Composed (numbered source.toList) pieces ∧
      let ends := Comment.lineEndsFrom 0 pieces
      ends.Pairwise (· < ·) ∧
        (∀ n ∈ ends, ∃ i : Nat, n = i ∧ source.toList[i]? = some '\n') ∧
        (ofSource source).breaks = ends.map (fun n =>
          (((ofSource source).tokens.countP
            (·.position < (LineMap.ofString source).locate n) : Nat) : Int)) ∧
        (ofSource source).breaks.Pairwise (· ≤ ·) ∧
        ∀ s ∈ found, ∀ n ∈ ends, (∀ i ∈ s.offsets, (i : Int) < n) ∨ ∀ i ∈ s.offsets, n < i := by
  obtain ⟨found, hfound, hapart⟩ := exists_sighted_apart source
  refine ⟨found, _, hfound, Comment.composed_pieces _, ?_⟩
  rw [← Stages.lineFeeds_normalized source]
  have hlocate := Stages.pairwise_locate_normalized source
  have hbreaks : (ofSource source).breaks =
      (lineFeeds (Stages.ofSource source).normalized).map fun n =>
        (Lexing.tokensBefore (.ofString source) (ofSource source).tokens n : Int) := by
    have hlexed := Lexing.breaks_ofCells Lexicon.isSolid_standard hlocate
    exact (congrArg (List.map Int.ofNat) hlexed).trans List.map_map
  refine ⟨Stages.pairwise_lineFeeds_normalized source,
    fun n hn => Stages.getElem?_of_mem_lineFeeds source hn, hbreaks, ?_, hapart⟩
  -- a token that comes before a line end comes before all later ones
  rw [hbreaks, List.pairwise_map, lineFeeds, List.pairwise_map]
  refine (hlocate.filter _).imp fun {x y} hxy => Int.ofNat_le.mpr ?_
  refine List.countP_mono_left fun t _ ht => ?_
  rw [decide_eq_true_eq] at ht ⊢
  exact ht.trans hxy

end Analysis

end CLex
