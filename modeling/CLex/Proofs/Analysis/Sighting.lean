import CLex.Proofs.Analysis.Origins
import CLex.Proofs.Segment.Span

/-!
# Sightings

A **sighting** is a token, or a diagnostic of characters that form no token, together with
the offsets in the source of all its characters. An analysis keeps only the first of these
offsets, and of a token only the position of it. Here they are all found again: what an
analysis of a source reports is a list of sightings, one after the other, which take all the
code between them that is not whitespace.

A comment may stand within a lexeme, whose offsets then have a gap.

## Main results

* `sighted_of_spans`, `exists_sighted`: the sightings of a source.
* `Stages.diagnostics_eq`: the problems are found in the order of their offsets.
* `exists_sightings_of_analysis`: where everything that an analysis reports stands.
-/

namespace CLex

/-! ### Tokens and problems -/

/-- What characters that are not whitespace amount to. -/
def Outcome.seen? : Outcome → Option (Token ⊕ Diagnostic)
  | .token t => some (.inl t)
  | .problem d => some (.inr d)
  | _ => none

/-- Whether characters that form no token are the cause. -/
def Cause.isUnrecognized : Cause → Bool
  | .unrecognized .. => true
  | _ => false

/-- A token or a problem, with the offsets of its characters. -/
structure Sighting where
  /-- What was seen. -/
  seen : Token ⊕ Diagnostic
  /-- Where its characters stand in the source. -/
  offsets : List Nat

namespace Sighting

/-- The characters of the token, or those in question. -/
def lexeme (s : Sighting) : String :=
  s.seen.elim Token.lexeme (·.cause.lexeme)

/-- The position that is reported. -/
def position (s : Sighting) : Position :=
  s.seen.elim Token.position Diagnostic.position

/-- Whether something stands where it was seen: at increasing offsets of the code there are
the characters of its lexeme, and its position is that of the first of them, as is the offset
of a diagnostic. -/
structure Stands (source : String) (code : List Int) (s : Sighting) : Prop where
  /-- The offsets increase. -/
  increasing : s.offsets.Pairwise (· < ·)
  /-- The offsets are outside of comments. -/
  in_code : ∀ n ∈ s.offsets, (n : Int) ∈ code
  /-- The source has the characters of the lexeme there. -/
  spells : s.offsets.map (source.toList[·]?) = s.lexeme.toList.map some
  /-- The first offset is the one that is reported. -/
  starts : ∃ first ∈ s.offsets.head?, s.position = (LineMap.ofString source).locate first ∧
    ∀ d ∈ s.seen.getRight?, d.offset = some (first : Int)

/-- What a segment amounts to, with the offsets of its cells. -/
def ofSpan? (lexicon : Lexicon) (lines : LineMap) (span : Segment Int × List (Cell Int)) :
    Option Sighting :=
  (span.1.outcome lexicon lines).seen?.map fun seen => ⟨seen, span.2.map (·.2.toNat)⟩

end Sighting

/-! ### What segments amount to -/

theorem Outcome.token?_eq (o : Outcome) : o.token? = o.seen?.bind Sum.getLeft? := by
  cases o <;> rfl

theorem Outcome.problem?_eq (o : Outcome) : o.problem? = o.seen?.bind Sum.getRight? := by
  cases o <;> rfl

namespace Segment

variable (lexicon : Lexicon) (lines : LineMap) {s : Segment Int}

/-- Whitespace amounts to nothing that is seen. -/
theorem seen?_outcome_of_isSpace (h : s.isSpace = true) :
    (s.outcome lexicon lines).seen? = none := by
  cases s with
  | space c => by_cases hc : c = '\n' <;> simp [outcome, hc, Outcome.seen?]
  | mark chars start => simp [isSpace] at h
  | word chars start => simp [isSpace] at h

/-- A mark or a word is seen at the position of its first character. -/
theorem exists_seen_of_not_isSpace (h : s.isSpace = false) :
    ∃ start seen, s.start? = some start ∧ (s.outcome lexicon lines).seen? = some seen ∧
      seen.elim Token.lexeme (·.cause.lexeme) = String.ofList s.chars ∧
      seen.elim Token.position Diagnostic.position = lines.locate start ∧
      ∀ d ∈ seen.getRight?, d.offset = some start ∧ d.cause.isUnrecognized = true := by
  cases s with
  | space c => simp [isSpace] at h
  | mark chars start =>
      by_cases hop : lexicon.isOperator chars = true
      · exact ⟨start, .inl _, rfl, by rw [outcome, if_pos hop]; rfl, rfl, rfl, by simp⟩
      · refine ⟨start, .inr _, rfl, by rw [outcome, if_neg hop]; rfl, rfl, rfl, ?_⟩
        simp [Cause.isUnrecognized]
  | word chars start =>
      cases hkind : Token.Kind.ofWord? lexicon.keywords (String.ofList chars) with
      | some kind =>
          exact ⟨start, .inl _, rfl, by rw [outcome, hkind]; rfl, rfl, rfl, by simp⟩
      | none =>
          refine ⟨start, .inr _, rfl, by rw [outcome, hkind]; rfl, rfl, rfl, ?_⟩
          simp [Cause.isUnrecognized]

end Segment

/-! ### The sightings of a division -/

namespace Sighting

variable {lexicon : Lexicon} {lines : LineMap} {span : Segment Int × List (Cell Int)}
  {s : Sighting}

/-- There is nothing to see in whitespace, and nowhere else. -/
theorem ofSpan?_eq_none_iff : ofSpan? lexicon lines span = none ↔ span.1.isSpace = true := by
  rw [ofSpan?, Option.map_eq_none_iff]
  cases hspace : span.1.isSpace with
  | true => simp [Segment.seen?_outcome_of_isSpace lexicon lines hspace]
  | false =>
      obtain ⟨_, seen, -, hseen, -⟩ :=
        Segment.exists_seen_of_not_isSpace lexicon lines hspace
      simp [hseen]

/-- A sighting of a span is a mark or a word at the offsets of its cells. -/
theorem ofSpan?_eq_some (h : ofSpan? lexicon lines span = some s) :
    span.1.isSpace = false ∧ s.offsets = span.2.map (·.2.toNat) ∧
      s.lexeme = String.ofList span.1.chars ∧
      ∃ start, span.1.start? = some start ∧ s.position = lines.locate start ∧
        ∀ d ∈ s.seen.getRight?, d.offset = some start ∧ d.cause.isUnrecognized = true := by
  obtain ⟨seen, hseen, rfl⟩ := Option.map_eq_some_iff.mp h
  cases hspace : span.1.isSpace with
  | true => simp [Segment.seen?_outcome_of_isSpace lexicon lines hspace] at hseen
  | false =>
      obtain ⟨start, seen', hstart, hseen', hlexeme, hposition, hproblem⟩ :=
        Segment.exists_seen_of_not_isSpace lexicon lines hspace
      obtain rfl : seen' = seen := Option.some.inj (hseen'.symm.trans hseen)
      exact ⟨rfl, rfl, hlexeme, start, hstart, hposition, hproblem⟩

/-- The tokens among the sightings are those of the segments. -/
theorem filterMap_getLeft? (spans : List (Segment Int × List (Cell Int))) :
    (spans.filterMap (ofSpan? lexicon lines)).filterMap (·.seen.getLeft?) =
      (Lexing.ofSegments lexicon lines (spans.map (·.1))).tokens := by
  simp only [Lexing.ofSegments, Lexing.ofOutcomes, List.filterMap_filterMap, List.filterMap_map,
    Function.comp_def, Outcome.token?_eq, ofSpan?, Option.bind_map]

/-- The problems among the sightings are those of the segments. -/
theorem filterMap_getRight? (spans : List (Segment Int × List (Cell Int))) :
    (spans.filterMap (ofSpan? lexicon lines)).filterMap (·.seen.getRight?) =
      (Lexing.ofSegments lexicon lines (spans.map (·.1))).diagnostics := by
  simp only [Lexing.ofSegments, Lexing.ofOutcomes, List.filterMap_filterMap, List.filterMap_map,
    Function.comp_def, Outcome.problem?_eq, ofSpan?, Option.bind_map]

/-- The lexemes of the sightings are the characters of marks and words. -/
theorem flatMap_lexeme (spans : List (Segment Int × List (Cell Int))) :
    (spans.filterMap (ofSpan? lexicon lines)).flatMap (·.lexeme.toList) =
      ((spans.map (·.1)).filter (fun s => !s.isSpace)).flatMap Segment.chars := by
  induction spans with
  | nil => rfl
  | cons span spans ih =>
      rw [List.map_cons, List.filter_cons, List.filterMap_cons]
      cases hspan : ofSpan? lexicon lines span with
      | none =>
          rw [if_neg (by simp [ofSpan?_eq_none_iff.mp hspan]), ih]
      | some s =>
          obtain ⟨hspace, -, hlexeme, -⟩ := ofSpan?_eq_some hspan
          rw [if_pos (by simp [hspace]), List.flatMap_cons, List.flatMap_cons, ih, hlexeme,
            String.toList_ofList]

end Sighting

/-! ### The sightings of a source -/

/-- Whether these are the sightings of a source: they give its tokens and its problems, each
stands where it was seen, each ends before the next one starts, and together they spell the
code without its whitespace. -/
structure Sighted (source : String) (found : List Sighting) : Prop where
  /-- The tokens are those of the code. -/
  tokens_eq : (Stages.ofSource source).lexed.tokens = found.filterMap (·.seen.getLeft?)
  /-- The problems are those of the code. -/
  problems_eq : (Stages.ofSource source).lexed.diagnostics = found.filterMap (·.seen.getRight?)
  /-- The problems are characters that form no token. -/
  unrecognized : ∀ s ∈ found, ∀ d ∈ s.seen.getRight?, d.cause.isUnrecognized = true
  /-- They stand where they were seen. -/
  stands : ∀ s ∈ found, s.Stands source (Stages.ofSource source).stripped.text.origins
  /-- Each ends before the next one starts. -/
  ordered : found.Pairwise fun s t => ∀ i ∈ s.offsets, ∀ j ∈ t.offsets, i < j
  /-- Together they spell the code without its whitespace. -/
  lexemes_eq : found.flatMap (·.lexeme.toList) =
    (charsOf (Stages.ofSource source).stripped.kept).filter (fun c => !isWhitespace c)

/-- A sighting stands where the cells of its span come from. -/
private theorem stands_of_covers {source : String} {span : Segment Int × List (Cell Int)}
    {s : Sighting} (h : Sighting.ofSpan? .standard (.ofString source) span = some s)
    (hcovers : span.1.Covers span.2)
    (hincreasing : span.2.Pairwise (fun x y => x.2.toNat < y.2.toNat))
    (hcode : ∀ x ∈ span.2, x ∈ (Stages.ofSource source).stripped.kept) :
    s.Stands source (Stages.ofSource source).stripped.text.origins := by
  obtain ⟨-, hoffsets, hlexeme, start, hstart, hposition, hproblem⟩ :=
    Sighting.ofSpan?_eq_some h
  have horigin : ∀ x ∈ span.2, ∃ n : Nat, x.2 = n ∧ source.toList[n]? = some x.1 :=
    fun x hx => Stages.getElem?_of_mem_kept source (hcode x hx)
  refine ⟨?_, ?_, ?_, ?_⟩
  · rw [hoffsets]
    exact List.pairwise_map.mpr hincreasing
  · intro n hn
    rw [hoffsets, List.mem_map] at hn
    obtain ⟨x, hx, rfl⟩ := hn
    obtain ⟨n, hn, -⟩ := horigin x hx
    have hlabel : ((x.2.toNat : Nat) : Int) = x.2 := by omega
    rw [hlabel]
    exact List.mem_map_of_mem (hcode x hx)
  · have hchars : ∀ x ∈ span.2, source.toList[x.2.toNat]? = some x.1 := by
      intro x hx
      obtain ⟨n, hn, hc⟩ := horigin x hx
      rw [hn, Int.toNat_natCast, hc]
    rw [hoffsets, hlexeme, String.toList_ofList, ← hcovers.1, charsOf, List.map_map, List.map_map]
    exact List.map_congr_left hchars
  · have hhead := hcovers.2 start hstart
    obtain ⟨x, hx, rfl⟩ := Option.map_eq_some_iff.mp hhead
    obtain ⟨n, hn, -⟩ := horigin x (List.mem_of_mem_head? hx)
    refine ⟨n, ?_, ?_, fun d hd => ?_⟩
    · simp [hoffsets, hx, hn]
    · rw [hposition, hn]
    · rw [(hproblem d hd).1, hn]

/-- Where the code of a source falls to its segments, the marks and the words are sightings. -/
theorem sighted_of_spans {source : String} {spans : List (Segment Int × List (Cell Int))}
    (hsegments : spans.map (·.1) = segments .standard (Stages.ofSource source).normalized)
    (hcells : spans.flatMap (·.2) = (Stages.ofSource source).normalized)
    (hcovers : ∀ span ∈ spans, span.1.Covers span.2) :
    Sighted source (spans.filterMap (Sighting.ofSpan? .standard (.ofString source))) := by
  have hdivided := divided_segments .standard (Stages.ofSource source).normalized
  have hspace := hdivided.isWhitespace_eq_isSpace Lexicon.isSolid_standard
  have hincreasing := Stages.pairwise_toNat_normalized source
  rw [← hcells, List.pairwise_flatMap] at hincreasing
  obtain ⟨hwithin, hbetween⟩ := hincreasing
  have hcode : ∀ span ∈ spans, span.1.isSpace = false →
      ∀ x ∈ span.2, x ∈ (Stages.ofSource source).stripped.kept := by
    intro span hspan hnot x hx
    refine Stages.mem_kept_of_mem_normalized source ?_ ?_
    · exact hcells ▸ List.mem_flatMap.mpr ⟨span, hspan, hx⟩
    · rw [← hnot]
      refine hspace span.1 (hsegments ▸ List.mem_map_of_mem hspan) x.1 ?_
      rw [← (hcovers span hspan).1]
      exact List.mem_map_of_mem hx
  refine ⟨?_, ?_, ?_, ?_, ?_, ?_⟩
  · rw [Sighting.filterMap_getLeft?, hsegments]
    rfl
  · rw [Sighting.filterMap_getRight?, hsegments]
    rfl
  · intro s hs d hd
    obtain ⟨span, -, h⟩ := List.mem_filterMap.mp hs
    obtain ⟨-, -, -, start, -, -, hproblem⟩ := Sighting.ofSpan?_eq_some h
    exact (hproblem d hd).2
  · intro s hs
    obtain ⟨span, hspan, h⟩ := List.mem_filterMap.mp hs
    have hnot := (Sighting.ofSpan?_eq_some h).1
    exact stands_of_covers h (hcovers span hspan) (hwithin span hspan) (hcode span hspan hnot)
  · refine List.Pairwise.filterMap _ (fun s t hst s' hs' t' ht' i hi j hj => ?_) hbetween
    rw [(Sighting.ofSpan?_eq_some hs').2.1, List.mem_map] at hi
    rw [(Sighting.ofSpan?_eq_some ht').2.1, List.mem_map] at hj
    obtain ⟨x, hx, rfl⟩ := hi
    obtain ⟨y, hy, rfl⟩ := hj
    exact hst x hx y hy
  · rw [Sighting.flatMap_lexeme, hsegments,
      hdivided.flatMap_chars_of_not_isSpace Lexicon.isSolid_standard,
      Stages.filter_charsOf_normalized]

/-- Every source has its sightings. -/
theorem exists_sighted (source : String) : ∃ found, Sighted source found := by
  obtain ⟨spans, hsegments, hcells, hcovers⟩ :=
    (divided_segments .standard (Stages.ofSource source).normalized).exists_spans
  exact ⟨_, sighted_of_spans hsegments hcells hcovers⟩

/-! ### The order of the problems -/

namespace Sighted

variable {source : String} {found : List Sighting}

/-- The problems of the code are characters that form no token. -/
theorem isUnrecognized_of_mem (h : Sighted source found) {d : Diagnostic}
    (hd : d ∈ (Stages.ofSource source).lexed.diagnostics) : d.cause.isUnrecognized = true := by
  rw [h.problems_eq, List.mem_filterMap] at hd
  obtain ⟨s, hs, hseen⟩ := hd
  exact h.unrecognized s hs d hseen

/-- A problem starts at an offset of the code. -/
theorem exists_offset (h : Sighted source found) {d : Diagnostic}
    (hd : d ∈ (Stages.ofSource source).lexed.diagnostics) :
    ∃ n : Nat, d.offset = some (n : Int) ∧
      (n : Int) ∈ (Stages.ofSource source).stripped.text.origins := by
  rw [h.problems_eq, List.mem_filterMap] at hd
  obtain ⟨s, hs, hseen⟩ := hd
  obtain ⟨first, hfirst, -, hoffset⟩ := (h.stands s hs).starts
  exact ⟨first, hoffset d hseen, (h.stands s hs).in_code first (List.mem_of_mem_head? hfirst)⟩

/-- Problems are found in the order of their offsets. -/
theorem pairwise_offset (h : Sighted source found) :
    (Stages.ofSource source).lexed.diagnostics.Pairwise
      fun d e => d.offset.getD 0 < e.offset.getD 0 := by
  rw [h.problems_eq]
  have hordered := h.ordered.imp_of_mem
    (S := fun s t => ∀ d ∈ s.seen.getRight?, ∀ e ∈ t.seen.getRight?,
      d.offset.getD 0 < e.offset.getD 0) ?_
  · exact List.Pairwise.filterMap _ (fun s t hst d hd e he => hst d hd e he) hordered
  · intro s t hs ht hst d hd e he
    obtain ⟨m, hm, -, hd'⟩ := (h.stands s hs).starts
    obtain ⟨n, hn, -, he'⟩ := (h.stands t ht).starts
    have := hst m (List.mem_of_mem_head? hm) n (List.mem_of_mem_head? hn)
    rw [hd' d hd, he' e he, Option.getD_some, Option.getD_some]
    omega

end Sighted

namespace Stages

/-- A block comment that is not closed starts after all code, and so after all problems of the
code. -/
theorem pairwise_offset (source : String) :
    ((ofSource source).lexed.diagnostics ++
        (ofSource source).stripped.diagnostics.map (·.locate (.ofString source))).Pairwise
      fun d e => d.offset.getD 0 < e.offset.getD 0 := by
  obtain ⟨found, hfound⟩ := exists_sighted source
  refine List.pairwise_append.mpr ⟨hfound.pairwise_offset, ?_, ?_⟩
  · rw [Comment.Stripped.diagnostics]
    cases (ofSource source).stripped.unclosed <;> simp
  · intro d hd e he
    obtain ⟨n, hn, hcode⟩ := hfound.exists_offset hd
    obtain ⟨x, hx, hlabel⟩ := List.mem_map.mp hcode
    rw [Comment.Stripped.diagnostics] at he
    cases hunclosed : (ofSource source).stripped.unclosed with
    | none => simp [hunclosed] at he
    | some offset =>
        obtain ⟨_, -, -, hbefore⟩ := exists_of_unclosed source hunclosed
        have hlt := hbefore x hx
        rw [hunclosed, Option.toList_some, List.map_singleton, List.map_singleton,
          List.mem_singleton] at he
        rw [he, hn, Option.getD_some, ← hlabel]
        exact hlt

/-- The problems of the code come first, and sorting them all does not change their order. -/
theorem diagnostics_eq (source : String) :
    (ofSource source).diagnostics =
      (ofSource source).lexed.diagnostics ++
        (ofSource source).stripped.diagnostics.map (·.locate (.ofString source)) := by
  refine List.mergeSort_of_pairwise ?_
  simp only [decide_eq_true_eq]
  exact (pairwise_offset source).imp Int.le_of_lt

/-- Stripping reports nothing but a comment that is not closed. -/
theorem cause_of_mem_located {source : String} {d : Diagnostic}
    (hd : d ∈ (ofSource source).stripped.diagnostics.map (·.locate (.ofString source))) :
    d.cause = .unterminatedComment := by
  rw [Comment.Stripped.diagnostics, List.map_map, List.mem_map] at hd
  obtain ⟨offset, -, rfl⟩ := hd
  rfl

end Stages

/-- An analysis reports the problems of the code, and then a comment that is not closed. -/
theorem Analysis.diagnostics_ofSource (source : String) :
    (ofSource source).diagnostics =
      (Stages.ofSource source).lexed.diagnostics ++
        (Stages.ofSource source).stripped.diagnostics.map (·.locate (.ofString source)) :=
  Stages.diagnostics_eq source

/-! ### Where everything stands that an analysis reports -/

/-- The problems of the code are those of the analysis that are about characters. -/
theorem Sighted.filter_diagnostics {source : String} {found : List Sighting}
    (h : Sighted source found) :
    (Analysis.ofSource source).diagnostics.filter (·.cause.isUnrecognized) =
      found.filterMap (·.seen.getRight?) := by
  have hproblems : ∀ d ∈ (Stages.ofSource source).lexed.diagnostics,
      d.cause.isUnrecognized = true := fun d hd => h.isUnrecognized_of_mem hd
  have hcomment : ∀ d ∈ (Stages.ofSource source).stripped.diagnostics.map
      (·.locate (.ofString source)), ¬ d.cause.isUnrecognized = true := by
    intro d hd
    rw [Stages.cause_of_mem_located hd]
    exact Bool.false_ne_true
  rw [Analysis.diagnostics_ofSource, List.filter_append, List.filter_eq_self.mpr hproblems,
    List.filter_eq_nil_iff.mpr hcomment, List.append_nil, h.problems_eq]

/-- Without a comment that is not closed, an analysis reports the problems of the code. -/
theorem Analysis.filter_diagnostics_ofSource (source : String) :
    (ofSource source).diagnostics.filter (·.cause ≠ .unterminatedComment) =
      (Stages.ofSource source).lexed.diagnostics := by
  obtain ⟨found, hfound⟩ := exists_sighted source
  have hproblems : ∀ d ∈ (Stages.ofSource source).lexed.diagnostics,
      decide (d.cause ≠ .unterminatedComment) = true := by
    intro d hd
    rw [decide_eq_true_eq]
    intro hcause
    have := hfound.isUnrecognized_of_mem hd
    simp [hcause, Cause.isUnrecognized] at this
  have hcomment : ∀ d ∈ (Stages.ofSource source).stripped.diagnostics.map
      (·.locate (.ofString source)), ¬ decide (d.cause ≠ .unterminatedComment) = true := by
    intro d hd
    simp [Stages.cause_of_mem_located hd]
  rw [diagnostics_ofSource, List.filter_append, List.filter_eq_self.mpr hproblems,
    List.filter_eq_nil_iff.mpr hcomment, List.append_nil]

/-- An unterminated comment is reported where it opens. -/
theorem exists_of_unterminatedComment {source : String} {d : Diagnostic}
    (hd : d ∈ (Analysis.ofSource source).diagnostics) (hcause : d.cause = .unterminatedComment) :
    ∃ n : Nat, d.offset = some (n : Int) ∧ (source.toList.drop n).take 2 = ['/', '*'] ∧
      d.position = (LineMap.ofString source).locate n := by
  obtain ⟨found, hfound⟩ := exists_sighted source
  rw [Analysis.diagnostics_ofSource, List.mem_append] at hd
  rcases hd with hd | hd
  · have := hfound.isUnrecognized_of_mem hd
    simp [hcause, Cause.isUnrecognized] at this
  · rw [Comment.Stripped.diagnostics, List.map_map, List.mem_map] at hd
    obtain ⟨offset, hoffset, rfl⟩ := hd
    obtain ⟨n, rfl, hopens, -⟩ := Stages.exists_of_unclosed source (by simpa using hoffset)
    exact ⟨n, rfl, hopens, rfl⟩

/-- **Positions are those of the source.** Everything that an analysis reports stands where it
says. Tokens and characters that form no token can be listed so that each has its characters
at increasing offsets of the code, before those of the next, and is reported at the position
of the first one. A comment that is not closed is reported at its slash and star. The texts
between the stages can be traced to the source, too. -/
theorem exists_sightings_of_analysis (source : String) :
    ∃ stripped, (Text.ofString source).strip? = some stripped ∧
      stripped.text.Traces source ∧ stripped.text.collapse.Traces source ∧
      (∃ found : List Sighting,
        (Analysis.ofSource source).tokens = found.filterMap (·.seen.getLeft?) ∧
        (Analysis.ofSource source).diagnostics.filter (·.cause.isUnrecognized) =
          found.filterMap (·.seen.getRight?) ∧
        (∀ s ∈ found, s.Stands source stripped.text.origins) ∧
        found.Pairwise fun s t => ∀ i ∈ s.offsets, ∀ j ∈ t.offsets, i < j) ∧
      ∀ d ∈ (Analysis.ofSource source).diagnostics, d.cause = .unterminatedComment →
        ∃ n : Nat, d.offset = some (n : Int) ∧ (source.toList.drop n).take 2 = ['/', '*'] ∧
          d.position = (LineMap.ofString source).locate n := by
  refine ⟨(Stages.ofSource source).stripped, ?_, Stages.traces_stripped source,
    Stages.traces_normalized source, ?_, fun d hd => exists_of_unterminatedComment hd⟩
  · rw [Text.ofString_eq_ofCells, Text.strip?_ofCells]
    rfl
  · obtain ⟨found, hfound⟩ := exists_sighted source
    exact ⟨found, hfound.tokens_eq, hfound.filter_diagnostics, hfound.stands, hfound.ordered⟩

end CLex
