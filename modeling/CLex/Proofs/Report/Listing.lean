import CLex.Proofs.Analysis.Sighting
import CLex.Report.Transcript

/-!
# Reading Transcripts

A transcript lists the tokens of an analysis in order, and puts an empty line for each break. What
breaks are they need not be in order, nor between zero and the number of tokens: since they are
taken one after the other, an empty line stands as far down as the greatest break up to its own
asks for, but not before the first token and not after the last one.

The breaks of a source are in order, and none of its lexemes holds a line feed. So the list can be
read back line by line, and tells the kinds and lexemes of all tokens and all breaks.

## Main definitions

* `Entry.blanksFrom`: how many tokens come before each empty line.
* `dueFrom`: what breaks in any order ask for.
* `textLines`: the lines of a text.
* `Entry.read?`, `readListing?`: reading a line of the list, and the list.

## Main results

* `blanksFrom_entriesFrom`: where the empty lines stand.
* `Analysis.dueFrom_breaks_ofSource`: the breaks of a source ask for what they are.
* `readListing?_joinLines`: the list reads back.
* `renderTranscript_listing`: the list of a transcript, and what is read from it.
-/

namespace CLex

/-! ### Breaks in order -/

/-- Later line ends have no fewer tokens before them. -/
theorem pairwise_lineBreaks (os : List Outcome) : (lineBreaks os).Pairwise (· ≤ ·) := by
  induction os with
  | nil => exact .nil
  | cons o os ih =>
      cases o with
      | token t =>
          rw [lineBreaks_token, List.pairwise_map]
          exact ih.imp fun h => Nat.add_le_add_left h 1
      | problem d => exact ih
      | lineEnd =>
          rw [lineBreaks_lineEnd]
          exact .cons (fun n _ => Nat.zero_le n) ih
      | gap => exact ih

/-- No line end has more tokens before it than there are. -/
theorem le_of_mem_lineBreaks {os : List Outcome} {n : Nat} (h : n ∈ lineBreaks os) :
    n ≤ (os.filterMap Outcome.token?).length := by
  induction os generalizing n with
  | nil => simp at h
  | cons o os ih =>
      cases o with
      | token t =>
          rw [lineBreaks_token, List.mem_map] at h
          obtain ⟨m, hm, rfl⟩ := h
          have hle := ih hm
          rw [List.filterMap_cons, Outcome.token?, List.length_cons]
          omega
      | problem d => exact ih h
      | lineEnd =>
          rw [lineBreaks_lineEnd, List.mem_cons] at h
          rcases h with rfl | h
          · exact Nat.zero_le _
          · exact ih h
      | gap => exact ih h

namespace Report

/-! ### Where empty lines stand -/

namespace Entry

/-- The token that a line lists. -/
def token? : Entry → Option Token
  | token t => some t
  | blank => none

/-- For each empty line in order, the number of tokens before it, when `count` tokens come before
all lines. -/
def blanksFrom (count : Int) : List Entry → List Int
  | [] => []
  | token _ :: es => blanksFrom (count + 1) es
  | blank :: es => count :: blanksFrom count es

/-- There is a number for each empty line. -/
theorem length_blanksFrom (count : Int) (es : List Entry) :
    (blanksFrom count es).length = es.count blank := by
  induction es generalizing count with
  | nil => rfl
  | cons e es ih =>
      cases e with
      | token t => rw [blanksFrom, ih, List.count_cons_of_ne (by simp)]
      | blank => rw [blanksFrom, List.length_cons, ih, List.count_cons_self]

/-- Empty lines in front of others. -/
theorem blanksFrom_blanks_append (count : Int) (breaks : List Int) (es : List Entry) :
    blanksFrom count (breaks.map (fun _ => blank) ++ es) =
      breaks.map (fun _ => count) ++ blanksFrom count es := by
  induction breaks with
  | nil => rfl
  | cons b bs ih => rw [List.map_cons, List.cons_append, blanksFrom, ih, List.map_cons,
      List.cons_append]

end Entry

/-- How many tokens each of some breaks asks for: as many as the greatest break up to this one, but
at least `least` and at most `most`. -/
def dueFrom (least most : Int) (breaks : List Int) : List Int :=
  (List.range breaks.length).map fun j => min most ((breaks.take (j + 1)).foldl max least)

/-- No later break asks for fewer tokens than the first one. -/
theorem dueFrom_cons (least most b : Int) (bs : List Int) :
    dueFrom least most (b :: bs) = min most (max least b) :: dueFrom (max least b) most bs := by
  rw [dueFrom, List.length_cons, List.range_succ_eq_map, List.map_cons, List.map_map]
  rfl

/-- All tokens are asked for if at least that many are. -/
theorem dueFrom_of_le {least most : Int} (h : most ≤ least) (breaks : List Int) :
    dueFrom least most breaks = breaks.map fun _ => most := by
  induction breaks generalizing least with
  | nil => rfl
  | cons b bs ih => rw [dueFrom_cons, ih (by omega), Int.min_eq_left (by omega), List.map_cons]

/-- The breaks that are due before a token, and those that ask for it as well. -/
theorem dueFrom_of_lt {least most : Int} (h : least < most) (breaks : List Int) :
    dueFrom least most breaks =
      (breaks.takeWhile (· ≤ least)).map (fun _ => least) ++
        dueFrom (least + 1) most (breaks.dropWhile (· ≤ least)) := by
  induction breaks with
  | nil => rfl
  | cons b bs ih =>
      by_cases hb : b ≤ least
      · rw [List.takeWhile_cons_of_pos (by simpa using hb),
          List.dropWhile_cons_of_pos (by simpa using hb), dueFrom_cons,
          Int.max_eq_left hb, Int.min_eq_right (Int.le_of_lt h), ih, List.map_cons,
          List.cons_append]
      · rw [List.takeWhile_cons_of_neg (by simpa using hb),
          List.dropWhile_cons_of_neg (by simpa using hb), dueFrom_cons, dueFrom_cons,
          Int.max_eq_right (by omega), Int.max_eq_right (by omega)]
        rfl

/-- **An empty line stands where the greatest break up to its own asks for.** -/
theorem blanksFrom_entriesFrom (count : Int) (tokens : List Token) (breaks : List Int) :
    Entry.blanksFrom count (entriesFrom count tokens breaks) =
      dueFrom count (count + tokens.length) breaks := by
  induction tokens generalizing count breaks with
  | nil =>
      have hblanks := Entry.blanksFrom_blanks_append count breaks []
      rw [List.append_nil] at hblanks
      rw [entriesFrom_nil, hblanks, dueFrom_of_le (by simp)]
      simp [Entry.blanksFrom]
  | cons t ts ih =>
      have hlt : count < count + ((t :: ts).length : Int) := by
        rw [List.length_cons]
        omega
      have hmost : count + 1 + (ts.length : Int) = count + ((t :: ts).length : Int) := by
        rw [List.length_cons]
        omega
      rw [entriesFrom_cons, Entry.blanksFrom_blanks_append, Entry.blanksFrom, ih, hmost,
        dueFrom_of_lt hlt]

/-- Breaks that are too small or too large. -/
example : dueFrom 0 2 [1, -1, 5, 0] = [1, 1, 2, 2] := by decide

/-- The tokens are listed in order. -/
theorem filterMap_token?_entriesFrom (count : Int) (tokens : List Token) (breaks : List Int) :
    (entriesFrom count tokens breaks).filterMap Entry.token? = tokens := by
  have hblanks : ∀ breaks : List Int,
      (breaks.map fun _ => Entry.blank).filterMap Entry.token? = [] := by
    intro breaks
    rw [List.filterMap_eq_nil_iff]
    intro e he
    obtain ⟨-, -, rfl⟩ := List.mem_map.mp he
    rfl
  induction tokens generalizing count breaks with
  | nil => rw [entriesFrom_nil, hblanks]
  | cons t ts ih =>
      rw [entriesFrom_cons, List.filterMap_append, hblanks, List.nil_append,
        List.filterMap_cons, Entry.token?, ih]

/-- Breaks that are in order and within bounds ask for what they are. -/
theorem dueFrom_eq_self {least most : Int} {breaks : List Int}
    (hordered : (least :: breaks).Pairwise (· ≤ ·)) (hmost : ∀ b ∈ breaks, b ≤ most) :
    dueFrom least most breaks = breaks := by
  induction breaks generalizing least with
  | nil => rfl
  | cons b bs ih =>
      obtain ⟨hleast, hordered⟩ := List.pairwise_cons.mp hordered
      obtain ⟨hb, hmost⟩ := List.forall_mem_cons.mp hmost
      rw [dueFrom_cons, Int.max_eq_right (hleast b (List.mem_cons_self ..)), Int.min_eq_right hb,
        ih hordered hmost]

/-! ### The lines of the list -/

/-- There is no colon in a label. -/
theorem colon_notMem_label (kind : Token.Kind) : ':' ∉ kind.label.toList := by
  cases kind <;> decide

namespace Entry

/-- What can be read from a line: a token at no position, or nothing. -/
def unplaced : Entry → Entry
  | token t => token { kind := t.kind, lexeme := t.lexeme }
  | blank => blank

/-- Reading a line. The kind ends at the first colon, and a space follows. -/
def read? : List Char → Option Entry
  | [] => some blank
  | c :: cs =>
    match (c :: cs).dropWhile (· != ':') with
    | ':' :: ' ' :: lexeme =>
      (Token.Kind.ofLabel? (String.ofList ((c :: cs).takeWhile (· != ':')))).map fun kind =>
        token { kind, lexeme := String.ofList lexeme }
    | _ => none

/-- A line reads back. -/
theorem read?_render (e : Entry) : read? e.render.toList = some e.unplaced := by
  cases e with
  | blank => rfl
  | token t =>
      have hrun : IsLongestRun (· != ':') t.kind.label.toList (':' :: ' ' :: t.lexeme.toList) :=
        .of_notMem (colon_notMem_label t.kind)
      have hline : (token t).render.toList =
          t.kind.label.toList ++ ':' :: ' ' :: t.lexeme.toList := by
        rw [render, String.toList_append, String.toList_append, List.append_assoc]
        rfl
      obtain ⟨c, cs, hcons⟩ : ∃ c cs, (token t).render.toList = c :: cs :=
        List.exists_cons_of_ne_nil (by simp [hline])
      rw [hcons, read?, ← hcons, hline, hrun.takeWhile_eq, hrun.dropWhile_eq, String.ofList_toList,
        Token.Kind.ofLabel?_label]
      simp [unplaced]

/-- A line holds no line feed if its lexeme holds none. -/
theorem newline_notMem_render {e : Entry} (h : ∀ t ∈ e.token?, '\n' ∉ t.lexeme.toList) :
    '\n' ∉ e.render.toList := by
  cases e with
  | blank => simp [render]
  | token t =>
      have hlabel : '\n' ∉ t.kind.label.toList := by cases t.kind <;> decide
      have hlexeme := h t rfl
      simp [render, hlabel, hlexeme]

/-- What cannot be read from lines is where their tokens stand. -/
theorem filterMap_token?_unplaced (es : List Entry) :
    ((es.map unplaced).filterMap token?).map (fun t => (t.kind, t.lexeme)) =
      (es.filterMap token?).map fun t => (t.kind, t.lexeme) := by
  rw [List.filterMap_map, List.map_filterMap, List.map_filterMap]
  congr 1
  funext e
  cases e <;> rfl

theorem blanksFrom_unplaced (count : Int) (es : List Entry) :
    blanksFrom count (es.map unplaced) = blanksFrom count es := by
  induction es generalizing count with
  | nil => rfl
  | cons e es ih => cases e <;> simp [unplaced, blanksFrom, ih]

end Entry

/-- The lines of a text. -/
def textLines (text : String) : List (List Char) :=
  text.toList.splitOn '\n'

/-- Joined lines are parted again, if they hold no line feeds. -/
theorem textLines_joinLines {lines : List String} (hne : lines ≠ [])
    (h : ∀ line ∈ lines, '\n' ∉ line.toList) :
    textLines (joinLines lines) = lines.map String.toList := by
  rw [textLines, joinLines, String.toList_intercalate]
  refine List.splitOn_intercalate '\n' (fun line hline => ?_) (by simpa using hne)
  obtain ⟨s, hs, rfl⟩ := List.mem_map.mp hline
  exact h s hs

/-- Reading lines that each follow a line feed: the kinds and lexemes of the tokens, and how many
of these come before each empty line. -/
def readListing? (text : String) : Option (List (Token.Kind × String) × List Int) :=
  (((text.toList.splitOn '\n').drop 1).mapM Entry.read?).map fun listed =>
    ((listed.filterMap Entry.token?).map fun t => (t.kind, t.lexeme), Entry.blanksFrom 0 listed)

/-- More lines follow a line feed each. -/
theorem joinLines_append {lines : List String} (h : lines ≠ []) (more : List String) :
    joinLines (lines ++ more) = joinLines lines ++ joinLines ("" :: more) := by
  cases more with
  | nil => simp [joinLines]
  | cons line more =>
      have hmore : line :: more ≠ [] := List.cons_ne_nil _ _
      rw [joinLines, joinLines, joinLines, String.intercalate_append_of_ne_nil h hmore,
        String.intercalate_cons_of_ne_nil hmore, String.empty_append, String.append_assoc]

/-- No line of a list holds a line feed, unless a lexeme holds one. -/
theorem newline_notMem_of_mem_renders {listed : List Entry}
    (h : ∀ t ∈ listed.filterMap Entry.token?, '\n' ∉ t.lexeme.toList) :
    ∀ line ∈ listed.map Entry.render, '\n' ∉ line.toList := by
  intro line hline
  obtain ⟨e, he, rfl⟩ := List.mem_map.mp hline
  exact Entry.newline_notMem_render fun t ht => h t (List.mem_filterMap.mpr ⟨e, he, ht⟩)

/-- The list of tokens reads back, unless a lexeme holds a line feed. -/
theorem readListing?_joinLines {listed : List Entry}
    (h : ∀ t ∈ listed.filterMap Entry.token?, '\n' ∉ t.lexeme.toList) :
    readListing? (joinLines ("" :: listed.map Entry.render)) =
      some ((listed.filterMap Entry.token?).map fun t => (t.kind, t.lexeme),
        Entry.blanksFrom 0 listed) := by
  have hlines : ∀ line ∈ "" :: listed.map Entry.render, '\n' ∉ line.toList :=
    List.forall_mem_cons.mpr ⟨by simp, newline_notMem_of_mem_renders h⟩
  have hread : (listed.map fun e => e.render.toList).mapM Entry.read? =
      some (listed.map Entry.unplaced) := by
    rw [List.mapM_map]
    simp only [Function.comp_def, Entry.read?_render]
    exact List.mapM_pure
  have hsplit : (joinLines ("" :: listed.map Entry.render)).toList.splitOn '\n' =
      [] :: listed.map fun e => e.render.toList := by
    have hparted := textLines_joinLines (List.cons_ne_nil _ _) hlines
    rwa [List.map_cons, List.map_map] at hparted
  rw [readListing?, hsplit, List.drop_one, List.tail_cons, hread, Option.map_some,
    Entry.filterMap_token?_unplaced, Entry.blanksFrom_unplaced]

end Report

/-! ### The list of a source -/

namespace Analysis

/-- The breaks of a source are in order and within bounds. -/
theorem dueFrom_breaks_ofSource (source : String) :
    Report.dueFrom 0 (ofSource source).tokens.length (ofSource source).breaks =
      (ofSource source).breaks := by
  refine Report.dueFrom_eq_self (List.pairwise_cons.mpr ⟨?_, ?_⟩) ?_
  · intro b hb
    obtain ⟨n, -, rfl⟩ := List.mem_map.mp hb
    exact Int.natCast_nonneg n
  · exact List.pairwise_map.mpr ((pairwise_lineBreaks _).imp Int.ofNat_le.mpr)
  · intro b hb
    obtain ⟨n, hn, rfl⟩ := List.mem_map.mp hb
    exact Int.ofNat_le.mpr (le_of_mem_lineBreaks hn)

/-- A lexeme of a source holds no whitespace, and so no line feed. -/
theorem newline_notMem_lexeme {source : String} {t : Token} (ht : t ∈ (ofSource source).tokens) :
    '\n' ∉ t.lexeme.toList := by
  intro hnewline
  obtain ⟨found, hfound⟩ := exists_sighted source
  have htokens : (ofSource source).tokens = found.filterMap (·.seen.getLeft?) := hfound.tokens_eq
  rw [htokens, List.mem_filterMap] at ht
  obtain ⟨s, hs, hseen⟩ := ht
  have hlexeme : s.lexeme = t.lexeme := by
    rw [Sighting.lexeme, Sum.getLeft?_eq_some_iff.mp hseen, Sum.elim_inl]
  have hcode : '\n' ∈ found.flatMap (·.lexeme.toList) :=
    List.mem_flatMap.mpr ⟨s, hs, hlexeme ▸ hnewline⟩
  rw [hfound.lexemes_eq, List.mem_filter] at hcode
  exact absurd hcode.2 (by decide)

end Analysis

namespace Report

/-- The list comes after a heading. -/
theorem heading_suffix_banner (path : String) (a : Analysis) (showClean : Bool) :
    ["Tokens:", "-------"] <:+ banner path a showClean :=
  List.suffix_append ..

/-- Where the empty lines of a list stand. -/
theorem blanksFrom_entries (a : Analysis) : Entry.blanksFrom 0 (entries a.tokens a.breaks) =
    dueFrom 0 a.tokens.length a.breaks := by
  rw [entries, blanksFrom_entriesFrom, Int.zero_add]

/-- The tokens of a list. -/
theorem filterMap_token?_entries (a : Analysis) :
    (entries a.tokens a.breaks).filterMap Entry.token? = a.tokens :=
  filterMap_token?_entriesFrom 0 a.tokens a.breaks

/-- The list of a source reads back. -/
theorem readListing?_ofSource (source : String) :
    let a := Analysis.ofSource source
    readListing? (joinLines ("" :: (entries a.tokens a.breaks).map Entry.render)) =
      some (a.tokens.map fun t => (t.kind, t.lexeme), a.breaks) := by
  intro a
  have hlexemes : ∀ t ∈ (entries a.tokens a.breaks).filterMap Entry.token?,
      '\n' ∉ t.lexeme.toList := by
    rw [filterMap_token?_entries]
    exact fun t ht => Analysis.newline_notMem_lexeme ht
  rw [readListing?_joinLines hlexemes, filterMap_token?_entries, blanksFrom_entries,
    Analysis.dueFrom_breaks_ofSource]

/-- **Transcripts.** After its heading, a transcript lists the tokens of an analysis in order, and
as many empty lines as there are breaks; each of them stands after as many tokens as the greatest
break up to its own asks for, as far as there are so many tokens. The list of a source reads back:
its lexemes hold no line feed, and its empty lines stand where its breaks say. -/
theorem renderTranscript_listing :
    (∀ (path : String) (a : Analysis) (showClean : Bool), ∃ listed : List Entry,
      renderTranscript path a showClean =
          joinLines (banner path a showClean ++ listed.map Entry.render) ∧
        ["Tokens:", "-------"] <:+ banner path a showClean ∧
        listed.filterMap Entry.token? = a.tokens ∧
        listed.count .blank = a.breaks.length ∧
        Entry.blanksFrom 0 listed = dueFrom 0 a.tokens.length a.breaks) ∧
    ∀ source : String,
      dueFrom 0 (Analysis.ofSource source).tokens.length (Analysis.ofSource source).breaks =
          (Analysis.ofSource source).breaks ∧
        (∀ t ∈ (Analysis.ofSource source).tokens, '\n' ∉ t.lexeme.toList) ∧
        ∀ (path : String) (showClean : Bool), ∃ listing : String,
          renderTranscript path (.ofSource source) showClean =
              joinLines (banner path (.ofSource source) showClean) ++ listing ∧
            readListing? listing =
              some ((Analysis.ofSource source).tokens.map fun t => (t.kind, t.lexeme),
                (Analysis.ofSource source).breaks) := by
  refine ⟨fun path a showClean => ?_, fun source => ?_⟩
  · refine ⟨entries a.tokens a.breaks, rfl, heading_suffix_banner path a showClean,
      filterMap_token?_entries a, ?_, blanksFrom_entries a⟩
    rw [← Entry.length_blanksFrom 0, blanksFrom_entries, dueFrom, List.length_map,
      List.length_range]
  · have hlexemes : ∀ t ∈ (Analysis.ofSource source).tokens, '\n' ∉ t.lexeme.toList :=
      fun t ht => Analysis.newline_notMem_lexeme ht
    refine ⟨Analysis.dueFrom_breaks_ofSource source, hlexemes, fun path showClean =>
      ⟨_, joinLines_append ?_ _, readListing?_ofSource source⟩⟩
    simp [banner]

/-- An empty line in front, a comment across lines and empty lines in between. -/
theorem renderTranscript_listing_of_empty_lines :
    (Analysis.ofSource "\nif /*\n*/ x\n\ny").tokens =
        [⟨.keyword, "if", ⟨2, 1⟩⟩, ⟨.identifier, "x", ⟨3, 4⟩⟩, ⟨.identifier, "y", ⟨5, 1⟩⟩] ∧
      '\n' ∉ "x".toList ∧
      ∃ listing : String,
        renderTranscript "a.c" (.ofSource "\nif /*\n*/ x\n\ny") false =
            joinLines (banner "a.c" (.ofSource "\nif /*\n*/ x\n\ny") false) ++ listing ∧
          readListing? listing =
            some ([(.keyword, "if"), (.identifier, "x"), (.identifier, "y")], [0, 2, 2]) := by
  have htokens : (Analysis.ofSource "\nif /*\n*/ x\n\ny").tokens =
      [⟨.keyword, "if", ⟨2, 1⟩⟩, ⟨.identifier, "x", ⟨3, 4⟩⟩, ⟨.identifier, "y", ⟨5, 1⟩⟩] := by
    decide +kernel
  have hbreaks : (Analysis.ofSource "\nif /*\n*/ x\n\ny").breaks = [0, 2, 2] := by
    decide +kernel
  obtain ⟨-, hlexemes, hread⟩ := renderTranscript_listing.2 "\nif /*\n*/ x\n\ny"
  refine ⟨htokens, hlexemes ⟨.identifier, "x", ⟨3, 4⟩⟩ ?_, ?_⟩
  · rw [htokens]
    decide
  · obtain ⟨listing, hlisting, hsome⟩ := hread "a.c" false
    rw [htokens, hbreaks] at hsome
    exact ⟨listing, hlisting, hsome⟩

end Report

end CLex
