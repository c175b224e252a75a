import CLex.CommandLine.Run
import CLex.Proofs.Analysis.Strict
import CLex.Proofs.Diagnostic.Lines

/-!
# Answers to Requests

What a request is answered with is told by the analysis of its source, and by which flags are
given, but not by their order or number. The answer is written in whole lines: no line that
reports a stage or a diagnostic holds a line feed of its own.

## Main definitions

* `Unified`: a text and what it becomes when its line ends are unified.
* `LeadsTo`, `IsUnreadable`: the source that is read from a path, or that there is none.
* `logLines`: the sizes of the stages, as the analysis tells them.
* `Request.log`, `Request.warnings`: what a request writes besides the report.

## Main results

* `unified_iff`, `Unified.return_notMem`: unifying line ends.
* `Request.answer_congr`: only the set of flags matters.
* `Request.answerSource_of_first`, `Request.answerSource_eq`: the answer of the strict analysis
  to a source with problems, and all other answers.
* `newline_notMem_logLines`: the log is written line by line.
-/

namespace CLex.CommandLine

/-! ### Sources -/

/-- Whether a text becomes another one when its line ends are unified: every line ends with a line
feed then, whether it ended with a carriage return, a line feed or both before. -/
inductive Unified : List Char → List Char → Prop
  | nil : Unified [] []
  /-- A carriage return and a line feed end a line. -/
  | both {text source : List Char} (rest : Unified text source) :
      Unified ('\r' :: '\n' :: text) ('\n' :: source)
  /-- A carriage return ends a line alone. -/
  | alone {text source : List Char} (hnext : text.head? ≠ some '\n') (rest : Unified text source) :
      Unified ('\r' :: text) ('\n' :: source)
  /-- Any other character stays, also a line feed that ends a line alone. -/
  | stays {c : Char} {text source : List Char} (hc : c ≠ '\r') (rest : Unified text source) :
      Unified (c :: text) (c :: source)

/-- What a text becomes. -/
theorem Unified.unifyNewlines_eq {text source : List Char} (h : Unified text source) :
    unifyNewlines text = source := by
  induction h with
  | nil => exact unifyNewlines_nil
  | both _ ih => rw [unifyNewlines_return_newline, ih]
  | alone hnext _ ih => rw [unifyNewlines_return hnext, ih]
  | stays hc _ ih => rw [unifyNewlines_of_ne hc, ih]

/-- Every text becomes something. -/
theorem unified_unifyNewlines : ∀ text : List Char, Unified text (unifyNewlines text)
  | [] => .nil
  | c :: text => by
      by_cases hc : c = '\r'
      · subst hc
        by_cases hnext : text.head? = some '\n'
        · obtain ⟨text, rfl⟩ := List.head?_eq_some_iff.mp hnext
          rw [unifyNewlines_return_newline]
          exact .both (unified_unifyNewlines text)
        · rw [unifyNewlines_return hnext]
          exact .alone hnext (unified_unifyNewlines text)
      · rw [unifyNewlines_of_ne hc]
        exact .stays hc (unified_unifyNewlines text)

/-- Unifying line ends. -/
theorem unified_iff {text source : List Char} : Unified text source ↔ unifyNewlines text = source :=
  ⟨Unified.unifyNewlines_eq, fun h => h ▸ unified_unifyNewlines text⟩

/-- No carriage return is left. -/
theorem Unified.return_notMem {text source : List Char} (h : Unified text source) :
    '\r' ∉ source :=
  h.unifyNewlines_eq ▸ return_notMem_unifyNewlines text

/-- Whether a path leads to a source: to a file with the bytes of a text, which becomes the source
when its line ends are unified. -/
def LeadsTo (read? : String → Option ByteArray) (path source : String) : Prop :=
  ∃ text : String, read? path = some text.toUTF8 ∧ Unified text.toList source.toList

/-- Whether a path leads to no source: the file cannot be read, or its bytes are not those of a
text. -/
def IsUnreadable (read? : String → Option ByteArray) (path : String) : Prop :=
  read? path = none ∨ ∃ bytes, read? path = some bytes ∧ ¬ bytes.IsValidUTF8

/-- The bytes of a text are decoded. -/
theorem decodeSource?_toUTF8 (text : String) :
    decodeSource? text.toUTF8 = some (String.ofList (unifyNewlines text.toList)) := by
  rw [decodeSource?, String.toUTF8_eq_toByteArray, String.fromUTF8?, dif_pos text.isValidUTF8]
  rfl

/-- Bytes that are not those of a text are not decoded. -/
theorem decodeSource?_eq_none_iff {bytes : ByteArray} :
    decodeSource? bytes = none ↔ ¬ bytes.IsValidUTF8 := by
  by_cases h : bytes.IsValidUTF8
  · simp [decodeSource?, String.fromUTF8?, h]
  · simp [decodeSource?, String.fromUTF8?, h]

section Sources

variable {read? : String → Option ByteArray} {path source : String}

/-- What is decoded of a file is the source that its path leads to. -/
theorem LeadsTo.bind_decodeSource? (h : LeadsTo read? path source) :
    (read? path).bind decodeSource? = some source := by
  obtain ⟨text, htext, hunified⟩ := h
  rw [htext, Option.bind_some, decodeSource?_toUTF8, hunified.unifyNewlines_eq,
    String.ofList_toList]

/-- Nothing is decoded for an unreadable path. -/
theorem bind_decodeSource?_eq_none_iff :
    (read? path).bind decodeSource? = none ↔ IsUnreadable read? path := by
  rw [IsUnreadable]
  cases read? path with
  | none => simp
  | some bytes => simp [decodeSource?_eq_none_iff]

/-- A path that leads to a source is not unreadable. -/
theorem LeadsTo.not_isUnreadable (h : LeadsTo read? path source) : ¬ IsUnreadable read? path := by
  rw [← bind_decodeSource?_eq_none_iff, h.bind_decodeSource?]
  exact Option.some_ne_none source

/-- A path leads to one source. -/
theorem LeadsTo.unique {source' : String} (h : LeadsTo read? path source)
    (h' : LeadsTo read? path source') : source = source' :=
  Option.some.inj (h.bind_decodeSource?.symm.trans h'.bind_decodeSource?)

/-- A path that is not unreadable leads to a source. -/
theorem exists_leadsTo (h : ¬ IsUnreadable read? path) : ∃ source, LeadsTo read? path source := by
  rw [IsUnreadable, not_or] at h
  obtain ⟨hsome, hvalid⟩ := h
  obtain ⟨bytes, hbytes⟩ := Option.ne_none_iff_exists'.mp hsome
  have hvalid : bytes.IsValidUTF8 :=
    Decidable.byContradiction fun hinvalid => hvalid ⟨bytes, hbytes, hinvalid⟩
  let text := String.ofByteArray bytes hvalid
  refine ⟨String.ofList (unifyNewlines text.toList), text, hbytes, ?_⟩
  rw [String.toList_ofList]
  exact unified_unifyNewlines text.toList

end Sources

/-! ### Lines -/

theorem unlines_cons (line : String) (lines : List String) :
    unlines (line :: lines) = line ++ "\n" ++ unlines lines := by
  simp [unlines, String.join_cons]

/-- Lines that are joined, with a line feed at the end. -/
theorem joinLines_append_newline {lines : List String} (h : lines ≠ []) :
    Report.joinLines lines ++ "\n" = unlines lines := by
  induction lines with
  | nil => exact absurd rfl h
  | cons line later ih =>
      rw [unlines_cons]
      cases later with
      | nil => exact String.append_empty.symm
      | cons next later =>
          rw [← ih (List.cons_ne_nil _ _), Report.joinLines,
            String.intercalate_cons_of_ne_nil (List.cons_ne_nil _ _), String.append_assoc]
          rfl

/-- Lines that are written are not nothing. -/
theorem unlines_ne_empty (line : String) (lines : List String) : unlines (line :: lines) ≠ "" := by
  intro h
  have hlength := congrArg String.length h
  rw [unlines_cons, String.length_append, String.length_append] at hlength
  have hfeed : "\n".length = 1 := rfl
  have hnone : "".length = 0 := rfl
  omega

/-- The sizes of the stages, as the analysis tells them: the lengths of the texts, how many tokens
there are, and how many problems but for a comment that is not closed. -/
def logLines (analysis : Analysis) : List String :=
  let change (before after : String) : String :=
    toString before.length ++ " -> " ++ toString after.length ++ " chars"
  ["cscan.pipeline: strip: " ++ change analysis.source analysis.stripped,
    "cscan.pipeline: normalize: " ++ change analysis.stripped analysis.normalized,
    "cscan.pipeline: lex: " ++ toString analysis.tokens.length ++ " tokens, " ++
      toString (analysis.diagnostics.filter (·.cause ≠ .unterminatedComment)).length ++
        " diagnostics"]

/-- The log of the stages of a source is told by its analysis. -/
theorem stageLog_ofSource (source : String) :
    stageLog (Stages.ofSource source) = logLines (Analysis.ofSource source) := by
  have hlength : ∀ cells : List (Cell Int),
      (String.ofList (charsOf cells)).length = cells.length := by
    intro cells
    rw [String.length_ofList, charsOf, List.length_map]
  have hstripped : (Analysis.ofSource source).stripped.length =
      (Stages.ofSource source).stripped.kept.length := hlength _
  have hnormalized : (Analysis.ofSource source).normalized.length =
      (Stages.ofSource source).normalized.length := hlength _
  simp only [logLines, Analysis.filter_diagnostics_ofSource, hstripped, hnormalized]
  rfl

/-- A line of the log holds words and numbers. -/
theorem newline_notMem_logLines (analysis : Analysis) :
    ∀ line ∈ logLines analysis, '\n' ∉ line.toList := by
  have hnumber : ∀ n : Nat, '\n' ∉ Nat.toDigits 10 n := by
    intro n h
    have hdigit : ('\n').isDigit = true := Nat.isDigit_of_mem_toDigits (by decide) (by decide) h
    exact absurd hdigit (by decide)
  intro line hline
  simp only [logLines, List.mem_cons, List.not_mem_nil, or_false] at hline
  rcases hline with rfl | rfl | rfl
  · simp [hnumber]
  · simp [hnumber]
  · simp [hnumber]

/-! ### Answers -/

namespace Request

/-- A request has the flags that are given. -/
theorem has_eq_true_iff {request : Request} {flag : Flag} :
    request.has flag = true ↔ flag ∈ request.flags :=
  List.contains_iff_mem

/-- Only the set of flags matters. -/
theorem answer_congr {path : String} {flags flags' : List Flag}
    (h : ∀ flag, flag ∈ flags ↔ flag ∈ flags') (bytes : Option ByteArray) :
    answer { path, flags } bytes = answer { path, flags := flags' } bytes := by
  have hhas : ∀ flag, has { path, flags } flag = has { path, flags := flags' } flag := by
    intro flag
    rw [Bool.eq_iff_iff, has_eq_true_iff, has_eq_true_iff]
    exact h flag
  simp only [answer, answerSource, output, hhas]

/-- What is printed is the document, or the transcript and perhaps the statistics. -/
theorem unlines_output (request : Request) (analysis : Analysis) :
    unlines (request.output analysis) =
      if .json ∈ request.flags then Report.renderDocument request.path analysis ++ "\n"
      else
        Report.renderTranscript request.path analysis (.showClean ∈ request.flags) ++ "\n" ++
          if .stats ∈ request.flags then "\n" ++ Report.renderStatistics analysis ++ "\n"
          else "" := by
  have hclean : request.has .showClean = decide (.showClean ∈ request.flags) := by
    rw [Bool.eq_iff_iff, has_eq_true_iff, decide_eq_true_iff]
  simp only [output, has_eq_true_iff, hclean]
  by_cases hjson : .json ∈ request.flags
  · rw [if_pos hjson, if_pos hjson, unlines_cons]
    exact String.append_empty
  · rw [if_neg hjson, if_neg hjson, unlines_cons]
    by_cases hstats : .stats ∈ request.flags
    · rw [if_pos hstats, if_pos hstats, unlines_cons, unlines_cons, String.empty_append]
      exact congrArg _ (congrArg _ String.append_empty)
    · rw [if_neg hstats, if_neg hstats]
      rfl

/-- Something is printed. -/
theorem unlines_output_ne_empty (request : Request) (analysis : Analysis) :
    unlines (request.output analysis) ≠ "" := by
  rw [output]
  split
  · exact unlines_ne_empty _ _
  · exact unlines_ne_empty _ _

variable (request : Request) (source : String)

/-- What is written of the stages. -/
def log : List String :=
  if .verbose ∈ request.flags then logLines (Analysis.ofSource source) else []

/-- What is written of the problems of a source that is reported. -/
def warnings : List String :=
  if .diagnostics ∈ request.flags then
    (Analysis.ofSource source).diagnostics.map Diagnostic.warning
  else []

/-- A strict request is answered with the first problem of the source, if there is one. -/
theorem answerSource_of_first (hstrict : .strict ∈ request.flags) {first : Diagnostic}
    (hfirst : (Analysis.ofSource source).diagnostics.head? = some first) :
    request.answerSource source =
      { exit := 2, stderr := unlines (request.log source ++ [first.error]) } := by
  have hhas : request.has .strict = true := has_eq_true_iff.mpr hstrict
  have hanalysis : (Stages.ofSource source).analysis = Analysis.ofSource source := rfl
  simp only [answerSource, log, hhas, stageLog_ofSource, has_eq_true_iff, hanalysis]
  -- only the shape of the list of problems matters from here on
  generalize Analysis.ofSource source = analysis at hfirst ⊢
  obtain ⟨others, hdiagnostics⟩ := List.head?_eq_some_iff.mp hfirst
  cases analysis
  cases hdiagnostics
  rfl

/-- Any other request is answered with the analysis of the source. -/
theorem answerSource_eq
    (h : .strict ∉ request.flags ∨ (Analysis.ofSource source).diagnostics = []) :
    request.answerSource source =
      { stdout := unlines (request.output (Analysis.ofSource source))
        stderr := unlines (request.log source ++ request.warnings source) } := by
  have hanalysis : (Stages.ofSource source).analysis = Analysis.ofSource source := rfl
  simp only [answerSource, log, warnings, stageLog_ofSource, has_eq_true_iff, hanalysis]
  generalize Analysis.ofSource source = analysis at h ⊢
  obtain ⟨_, _, _, _, diagnostics, _, _⟩ := analysis
  rcases h with hstrict | hnone
  · have hhas : request.has .strict = false := by
      rw [Bool.eq_false_iff, ne_eq, has_eq_true_iff]
      exact hstrict
    rw [hhas]
    cases diagnostics with
    | nil => rfl
    | cons first others => rfl
  · obtain rfl : diagnostics = [] := hnone
    cases request.has .strict with
    | false => rfl
    | true => rfl

variable {request source} {read? : String → Option ByteArray}

/-- A request for a source is answered for that source. -/
theorem answer_of_leadsTo (h : LeadsTo read? request.path source) :
    request.answer (read? request.path) = request.answerSource source := by
  rw [answer, h.bind_decodeSource?]

/-- A request with an unreadable path is answered with that path. -/
theorem answer_of_isUnreadable (h : IsUnreadable read? request.path) :
    request.answer (read? request.path) =
      { exit := 1, stderr := "Error: Could not open file " ++ request.path ++ "\n" } := by
  rw [answer, bind_decodeSource?_eq_none_iff.mpr h]
  exact congrArg (RunResult.mk 1 "") ((unlines_cons _ []).trans String.append_empty)

end Request

end CLex.CommandLine
