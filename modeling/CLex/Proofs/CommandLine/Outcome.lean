import CLex.CommandLine.Folder
import CLex.Main
import CLex.Proofs.CommandLine.Answer
import CLex.Proofs.CommandLine.Spelling
import CLex.Proofs.Report.Listing

/-!
# Outcomes of Runs

Arguments that spell flags and operands in any order have one of four outcomes: they are a
mistake unless there is just one operand; it may lead to no source; the source may have a problem
that a strict run gives up with; and otherwise the source is reported. The exit status tells the
last one from the others, and it is the only one that prints anything.

## Main definitions

* `Ends`: the four outcomes.

## Main results

* `Spells.exists_ends`: every run has one of them.
* `exists_result_of_leadsTo`: what each flag affects.
* `exists_result_of_spells`: what the exit status and the output streams tell.
-/

namespace CLex.CommandLine

variable {read? : String → Option ByteArray}

/-! ### Runs -/

section Runs

variable {arguments : List String} {flags : List Flag} {path : String}

/-- With one operand, a request for its analysis is answered. -/
theorem Spells.run_eq (h : Spells arguments flags [path]) (hnull : '\x00' ∉ path.toList) :
    run read? arguments = .ok (Request.answer { path, flags } (read? path)) := by
  have hcontains : ¬ path.toList.contains '\x00' = true := by simpa using hnull
  rw [run, h.parse_eq]
  exact if_neg hcontains

/-- With one operand, its file is wanted. -/
theorem Spells.wantedPath?_eq (h : Spells arguments flags [path]) :
    wantedPath? arguments = some path := by
  rw [wantedPath?, h.parse_eq]

/-- Without an operand, or with more than one, arguments are a mistake. -/
theorem Spells.exists_mistake {operands : List String} (h : Spells arguments flags operands)
    (hlength : operands.length ≠ 1) : ∃ mistake, parse arguments = .error mistake := by
  rw [h.parse_eq]
  match operands with
  | [] => exact ⟨_, rfl⟩
  | [_] => exact absurd rfl hlength
  | _ :: second :: others => exact ⟨.unrecognized (second :: others), rfl⟩

end Runs

/-! ### Outcomes -/

/-- The outcomes of runs with given flags and operands. -/
inductive Ends (read? : String → Option ByteArray) (flags : List Flag) :
    List String → RunResult → Prop
  /-- There is no operand, or more than one. -/
  | mistake {operands : List String} (hlength : operands.length ≠ 1) (mistake : UsageError) :
      Ends read? flags operands { exit := 2, stderr := mistake.report }
  /-- There is no source. -/
  | unreadable {path : String} (hpath : IsUnreadable read? path) :
      Ends read? flags [path]
        { exit := 1, stderr := "Error: Could not open file " ++ path ++ "\n" }
  /-- The source has a problem, and the run is strict. -/
  | problem {path source : String} (hpath : LeadsTo read? path source)
      (hstrict : .strict ∈ flags) {first : Diagnostic}
      (hfirst : (Analysis.ofSource source).diagnostics.head? = some first) :
      Ends read? flags [path]
        { exit := 2, stderr := unlines (Request.log { path, flags } source ++ [first.error]) }
  /-- The source is reported. -/
  | report {path source : String} (hpath : LeadsTo read? path source)
      (hnot : .strict ∉ flags ∨ (Analysis.ofSource source).diagnostics = []) :
      Ends read? flags [path]
        { stdout := unlines (Request.output { path, flags } (Analysis.ofSource source))
          stderr := unlines
            (Request.log { path, flags } source ++ Request.warnings { path, flags } source) }

/-- Every run has one of the outcomes. -/
theorem Spells.exists_ends {arguments : List String} {flags : List Flag} {operands : List String}
    (h : Spells arguments flags operands) (hnull : ∀ text ∈ operands, '\x00' ∉ text.toList) :
    ∃ result, run read? arguments = .ok result ∧ Ends read? flags operands result := by
  by_cases hlength : operands.length = 1
  · obtain ⟨path, rfl⟩ := List.length_eq_one_iff.mp hlength
    refine ⟨_, h.run_eq (hnull path (List.mem_singleton_self path)), ?_⟩
    by_cases hpath : IsUnreadable read? path
    · rw [Request.answer_of_isUnreadable hpath]
      exact .unreadable hpath
    · obtain ⟨source, hsource⟩ := exists_leadsTo hpath
      rw [Request.answer_of_leadsTo hsource]
      cases hdiagnostics : (Analysis.ofSource source).diagnostics with
      | nil =>
          rw [Request.answerSource_eq _ _ (.inr hdiagnostics)]
          exact .report hsource (.inr hdiagnostics)
      | cons first others =>
          have hfirst : (Analysis.ofSource source).diagnostics.head? = some first := by
            rw [hdiagnostics, List.head?_cons]
          by_cases hstrict : .strict ∈ flags
          · rw [Request.answerSource_of_first _ _ hstrict hfirst]
            exact .problem hsource hstrict hfirst
          · rw [Request.answerSource_eq _ _ (.inl hstrict)]
            exact .report hsource (.inl hstrict)
  · obtain ⟨mistake, hmistake⟩ := h.exists_mistake hlength
    refine ⟨{ exit := 2, stderr := mistake.report }, ?_, .mistake hlength mistake⟩
    rw [run, hmistake]

/-! ### What flags affect -/

/-- The lines of a transcript are those before the list and those of the list. -/
theorem renderTranscript_append_newline (path : String) (a : Analysis) (showClean : Bool) :
    Report.renderTranscript path a showClean ++ "\n" =
      unlines (["Processing file: " ++ path, ""] ++
        (if showClean then ["Clean source:", "-------------", a.normalized, ""] else []) ++
        ["Tokens:", "-------"] ++ (Report.entries a.tokens a.breaks).map Report.Entry.render) := by
  rw [Report.renderTranscript, joinLines_append_newline (by simp [Report.banner])]
  cases showClean with
  | false => rw [Report.banner_without_clean]; rfl
  | true => rw [Report.banner_with_clean]; rfl

/-- **Flags affect what they name.** With one operand that leads to a source, a run depends on
the set of flags that are given, in whatever order and number, and by whatever spelling. Unless
the run is strict and there is a problem, it succeeds. It then prints the document if that is
asked for, or else the transcript, and perhaps the statistics after an empty line. The transcript
shows the code in normal spacing just if that is asked for, and the same list in either case, from
which the tokens and breaks can be read. The run writes the log if it is verbose, and if problems
are asked for it writes a line for each of them, in the order of their offsets and so of their
positions. A strict run gives up with the first problem: it prints nothing, and writes the log as
usual and one line for the problem. -/
theorem exists_result_of_leadsTo {path source : String} (hpath : LeadsTo read? path source)
    (hnull : '\x00' ∉ path.toList) {arguments : List String} {flags : List Flag}
    (h : Spells arguments flags [path]) :
    let analysis := Analysis.ofSource source
    let log := if .verbose ∈ flags then logLines analysis else []
    let written (lines : List String) := String.join (lines.map (· ++ "\n"))
    let reported (level : String) (d : Diagnostic) :=
      level ++ toString d.position.line ++ ":" ++ toString d.position.column ++ ": " ++
        d.cause.message
    ∃ result, run read? arguments = .ok result ∧
      (∀ arguments' flags', Spells arguments' flags' [path] →
        (∀ flag, flag ∈ flags' ↔ flag ∈ flags) → run read? arguments' = .ok result) ∧
      (.strict ∉ flags ∨ analysis.diagnostics = [] →
        result =
          { exit := 0
            stdout :=
              if .json ∈ flags then Report.renderDocument path analysis ++ "\n"
              else Report.renderTranscript path analysis (.showClean ∈ flags) ++ "\n" ++
                if .stats ∈ flags then "\n" ++ Report.renderStatistics analysis ++ "\n" else ""
            stderr := written (log ++
              if .diagnostics ∈ flags then analysis.diagnostics.map (reported "[lex warning] ")
              else []) }) ∧
      (∀ first, .strict ∈ flags → analysis.diagnostics.head? = some first →
        result =
          { exit := 2, stdout := "", stderr := written (log ++ [reported "[lex error] " first]) }) ∧
      (∃ list : List String,
        Report.readListing? ("\n".intercalate ("" :: list)) =
          some (analysis.tokens.map fun t => (t.kind, t.lexeme), analysis.breaks) ∧
        ∀ showClean : Bool, Report.renderTranscript path analysis showClean ++ "\n" =
          written (["Processing file: " ++ path, ""] ++
            (if showClean then ["Clean source:", "-------------", analysis.normalized, ""]
              else []) ++
            ["Tokens:", "-------"] ++ list)) ∧
      Report.renderStatistics analysis ++ "\n" =
        written ["Statistics:", "-----------",
          "Keyword: " ++ toString (analysis.statistics.count .keyword),
          "Operator: " ++ toString (analysis.statistics.count .operator),
          "NumericConstant: " ++ toString (analysis.statistics.count .numericConstant),
          "Identifier: " ++ toString (analysis.statistics.count .identifier),
          "Total: " ++ toString analysis.total] ∧
      (∀ line ∈ logLines analysis, '\n' ∉ line.toList) ∧
      (∀ d ∈ analysis.diagnostics, '\n' ∉ (reported "[lex warning] " d).toList ∧
        '\n' ∉ (reported "[lex error] " d).toList) ∧
      Diagnostic.InOrder analysis.diagnostics ∧
      analysis.diagnostics.Pairwise fun d e => d.position < e.position := by
  intro analysis log written reported
  have hwarning : Diagnostic.warning = reported "[lex warning] " := funext Diagnostic.warning_eq
  have herror : Diagnostic.error = reported "[lex error] " := funext Diagnostic.error_eq
  have hanswer : ∀ request : Request, request.path = path →
      request.answer (read? path) = request.answerSource source := by
    rintro request rfl
    exact Request.answer_of_leadsTo hpath
  refine ⟨_, h.run_eq hnull, fun arguments' flags' h' hflags => ?_, fun hnot => ?_,
    fun first hstrict hfirst => ?_,
    ⟨_, Report.readListing?_ofSource source, renderTranscript_append_newline path analysis⟩, ?_,
    newline_notMem_logLines analysis, fun d hd => ?_,
    Analysis.inOrder_diagnostics source, Analysis.pairwise_position_diagnostics source⟩
  · rw [h'.run_eq hnull, Request.answer_congr hflags]
  · rw [hanswer _ rfl, Request.answerSource_eq _ _ hnot, Request.unlines_output, ← hwarning]
    rfl
  · rw [hanswer _ rfl, Request.answerSource_of_first _ _ hstrict hfirst, ← herror]
    rfl
  · rw [Report.renderStatistics_eq, joinLines_append_newline (List.cons_ne_nil _ _)]
    rfl
  · rw [← hwarning, ← herror]
    exact ⟨Analysis.newline_notMem_warning hd, Analysis.newline_notMem_error hd⟩

/-- Flags given twice and on both sides of the path, for a file with a comment that is not closed
and with the line ends of another system. -/
theorem exists_result_of_leadsTo_of_twice :
    let folder := Folder.ofList [("a.c", .file "a /* ;\r\n".toUTF8)]
    let arguments := ["--verbose", "--stats", "a.c", "-v", "--diagnostics", "--show-clean", "--stats"]
    LeadsTo folder.read? "a.c" "a /* ;\n" ∧ '\x00' ∉ "a.c".toList ∧
      Spells arguments [.verbose, .stats, .verbose, .diagnostics, .showClean, .stats] ["a.c"] ∧
      run folder.read? arguments = .ok
        { exit := 0
          stdout := "Processing file: a.c\n\nClean source:\n-------------\na \n\n" ++
            "Tokens:\n-------\nIdentifier: a\n\nStatistics:\n-----------\nKeyword: 0\n" ++
            "Operator: 0\nNumericConstant: 0\nIdentifier: 1\nTotal: 1\n"
          stderr := "cscan.pipeline: strip: 7 -> 2 chars\n" ++
            "cscan.pipeline: normalize: 2 -> 2 chars\n" ++
            "cscan.pipeline: lex: 1 tokens, 0 diagnostics\n" ++
            "[lex warning] 1:3: unterminated block comment\n" } ∧
      run folder.read? ["-v", "a.c", "--show-clean", "--diagnostics", "--stats"] =
        run folder.read? arguments := by
  intro folder arguments
  have hpath : LeadsTo folder.read? "a.c" "a /* ;\n" :=
    ⟨"a /* ;\r\n", rfl, unified_iff.mpr (by decide +kernel)⟩
  have hnull : '\x00' ∉ "a.c".toList := by decide
  have h : Spells arguments [.verbose, .stats, .verbose, .diagnostics, .showClean, .stats]
      ["a.c"] :=
    .flag (by decide) <| .flag (by decide) <| .operand (by decide) <| .flag (by decide) <|
      .flag (by decide) <| .flag (by decide) <| .flag (by decide) .nil
  have h' : Spells ["-v", "a.c", "--show-clean", "--diagnostics", "--stats"]
      [.verbose, .showClean, .diagnostics, .stats] ["a.c"] :=
    .flag (by decide) <| .operand (by decide) <| .flag (by decide) <| .flag (by decide) <|
      .flag (by decide) .nil
  obtain ⟨result, hrun, hsame, hreported, -⟩ := exists_result_of_leadsTo hpath hnull h
  refine ⟨hpath, hnull, h, ?_, ?_⟩
  · rw [hrun, hreported (.inl (by decide))]
    exact congrArg Except.ok (by decide +kernel)
  · rw [hrun, hsame _ _ h' fun flag => by cases flag <;> decide]

/-! ### What the exit status tells -/

/-- Whether arguments are answered without any file: none is wanted, and none would make a
difference. -/
def NeedsNoFile (arguments : List String) : Prop :=
  wantedPath? arguments = none ∧ ∀ read? read?', run read? arguments = run read?' arguments

/-- No file is needed just if there is not one operand. -/
theorem Spells.needsNoFile_iff {arguments : List String} {flags : List Flag}
    {operands : List String} (h : Spells arguments flags operands) :
    NeedsNoFile arguments ↔ operands.length ≠ 1 := by
  constructor
  · rintro ⟨hwanted, -⟩ hlength
    obtain ⟨path, rfl⟩ := List.length_eq_one_iff.mp hlength
    rw [h.wantedPath?_eq] at hwanted
    exact Option.some_ne_none path hwanted
  · intro hlength
    obtain ⟨mistake, hmistake⟩ := h.exists_mistake hlength
    refine ⟨?_, fun read? read?' => ?_⟩
    · rw [wantedPath?, hmistake]
    · rw [run, run, hmistake]

/-- Whether the last line of a text reports the problem of an analysis with the least offset. -/
def GivesUp (analysis : Analysis) (text : String) : Prop :=
  ∃ (lines : List String) (first : Diagnostic),
    let line := "[lex error] " ++ toString first.position.line ++ ":" ++
      toString first.position.column ++ ": " ++ first.cause.message
    text = String.join ((lines ++ [line]).map (· ++ "\n")) ∧ '\n' ∉ line.toList ∧
    first ∈ analysis.diagnostics ∧
    ∃ n, first.offset = some n ∧ ∀ d ∈ analysis.diagnostics, ∃ m, d.offset = some m ∧ n ≤ m

/-- A strict run gives up. -/
theorem givesUp_of_first {source : String} {first : Diagnostic}
    (hfirst : (Analysis.ofSource source).diagnostics.head? = some first) (lines : List String) :
    GivesUp (Analysis.ofSource source) (unlines (lines ++ [first.error])) := by
  have hmem := List.mem_of_mem_head? hfirst
  have hline := Analysis.newline_notMem_error hmem
  rw [Diagnostic.error_eq] at hline ⊢
  exact ⟨lines, first, rfl, hline, hmem,
    (Analysis.inOrder_diagnostics source).le_of_head? hfirst⟩

/-- A strict run does not show the usage when it gives up. -/
theorem Request.ne_usage_append (request : Request) (source : String) (first : Diagnostic)
    (rest : String) : unlines (request.log source ++ [first.error]) ≠ usage ++ rest := by
  have hfirst : usage.toList.head? = some 'u' := by decide +kernel
  have husage : (usage ++ rest).toList.head? = some 'u' := by
    rw [String.toList_append, List.head?_append, hfirst]
    rfl
  have hhead : ∀ (line : String) (lines : List String) (c : Char), line.toList.head? = some c →
      (unlines (line :: lines)).toList.head? = some c := by
    intro line lines c hc
    rw [unlines_cons, String.toList_append, String.toList_append, List.head?_append,
      List.head?_append, hc]
    rfl
  intro heq
  -- the first character is that of the log or of the error, and neither starts like the usage
  rw [← heq, log] at husage
  split at husage
  · rw [logLines, List.cons_append, hhead _ _ 'c'] at husage
    · exact absurd husage (by decide)
    · rw [String.toList_append, List.head?_append]
      rfl
  · rw [List.nil_append, hhead _ _ '['] at husage
    · exact absurd husage (by decide)
    · simp [Diagnostic.error_eq]

namespace Ends

variable {flags : List Flag} {operands : List String} {result : RunResult} {path source : String}

/-- The usage is shown just if there is not one operand. -/
theorem showsUsage_iff (h : Ends read? flags operands result) :
    (result.exit = 2 ∧ ∃ rest, result.stderr = usage ++ rest) ↔ operands.length ≠ 1 := by
  constructor
  · rintro ⟨hexit, rest, hrest⟩
    cases h with
    | mistake hlength mistake => exact hlength
    | unreadable hpath => exact absurd hexit (by simp)
    | problem hpath hstrict hfirst => exact absurd hrest (Request.ne_usage_append _ _ _ _)
    | report hpath hnot => exact absurd hexit (by simp)
  · intro hlength
    cases h with
    | mistake hlength mistake =>
        refine ⟨rfl, "cscan: error: " ++ mistake.message ++ "\n", ?_⟩
        rw [UsageError.report, String.append_assoc, String.append_assoc, String.append_assoc]
    | unreadable hpath => exact absurd rfl hlength
    | problem hpath hstrict hfirst => exact absurd rfl hlength
    | report hpath hnot => exact absurd rfl hlength

/-- With one operand, the status is 1 just if its path is unreadable. -/
theorem exit_eq_one_iff (h : Ends read? flags [path] result) :
    result.exit = 1 ↔ IsUnreadable read? path := by
  cases h with
  | mistake hlength mistake => exact absurd rfl hlength
  | unreadable hpath => exact iff_of_true rfl hpath
  | problem hpath hstrict hfirst => exact iff_of_false (by simp) hpath.not_isUnreadable
  | report hpath hnot => exact iff_of_false (by simp) hpath.not_isUnreadable

/-- Nothing else is then written than that the file cannot be opened. -/
theorem stderr_of_exit_eq_one (h : Ends read? flags [path] result) (hexit : result.exit = 1) :
    result.stderr = "Error: Could not open file " ++ path ++ "\n" := by
  cases h with
  | mistake hlength mistake => exact absurd rfl hlength
  | unreadable hpath => rfl
  | problem hpath hstrict hfirst => exact absurd hexit (by simp)
  | report hpath hnot => exact absurd hexit (by simp)

/-- For a source, the status is 2 just if the run gives up with a problem, and 0 otherwise. -/
theorem exit_of_leadsTo (h : Ends read? flags [path] result) (hpath : LeadsTo read? path source) :
    (result.exit = 2 ↔ .strict ∈ flags ∧ (Analysis.ofSource source).diagnostics ≠ []) ∧
      (result.exit = 2 → GivesUp (Analysis.ofSource source) result.stderr) ∧
      (result.exit = 0 ↔
        ¬ (.strict ∈ flags ∧ (Analysis.ofSource source).diagnostics ≠ [])) := by
  cases h with
  | mistake hlength mistake => exact absurd rfl hlength
  | unreadable hunreadable => exact absurd hunreadable hpath.not_isUnreadable
  | problem hpath' hstrict hfirst =>
      obtain rfl := hpath.unique hpath'
      have hsome : (Analysis.ofSource source).diagnostics ≠ [] := by
        intro hnil
        rw [hnil] at hfirst
        exact absurd hfirst (by simp)
      exact ⟨iff_of_true rfl ⟨hstrict, hsome⟩, fun _ => givesUp_of_first hfirst _,
        iff_of_false (by simp) (not_not_intro ⟨hstrict, hsome⟩)⟩
  | report hpath' hnot =>
      obtain rfl := hpath.unique hpath'
      have hnot : ¬ (.strict ∈ flags ∧ (Analysis.ofSource source).diagnostics ≠ []) := by
        rintro ⟨hstrict, hsome⟩
        exact hnot.elim (fun h => h hstrict) hsome
      exact ⟨iff_of_false (by simp) hnot, fun hexit => absurd hexit (by simp),
        iff_of_true rfl hnot⟩

/-- Something is printed just if the status is 0. -/
theorem stdout_ne_empty_iff (h : Ends read? flags operands result) :
    result.stdout ≠ "" ↔ result.exit = 0 := by
  cases h with
  | mistake hlength mistake => simp
  | unreadable hpath => simp
  | problem hpath hstrict hfirst => simp
  | report hpath hnot => exact iff_of_true (Request.unlines_output_ne_empty _ _) rfl

end Ends

/-- **The exit status tells the outcome.** Arguments that spell flags and operands are a mistake
just if there is not one operand: then the status is 2, the usage is shown and no file is needed.
With one operand, the status is 1 just if its path is unreadable, which is all that is then
written. If the path leads to a source, the status is 2 just if the run is strict and the source
has a problem, and then the last line is about the problem with the least offset; otherwise the
status is 0. Something is printed just if the status is 0. -/
theorem exists_result_of_spells {arguments : List String} {flags : List Flag}
    {operands : List String} (h : Spells arguments flags operands)
    (hnull : ∀ text ∈ operands, '\x00' ∉ text.toList) :
    ∃ result, run read? arguments = .ok result ∧
      ((result.exit = 2 ∧ ∃ rest, result.stderr = usage ++ rest) ↔ operands.length ≠ 1) ∧
      (NeedsNoFile arguments ↔ operands.length ≠ 1) ∧
      (∀ path, operands = [path] →
        (result.exit = 1 ↔ IsUnreadable read? path) ∧
        (result.exit = 1 → result.stderr = "Error: Could not open file " ++ path ++ "\n") ∧
        (¬ IsUnreadable read? path → ∃ source, LeadsTo read? path source ∧
          (result.exit = 2 ↔ .strict ∈ flags ∧ (Analysis.ofSource source).diagnostics ≠ []) ∧
          (result.exit = 2 → GivesUp (Analysis.ofSource source) result.stderr) ∧
          (result.exit = 0 ↔
            ¬ (.strict ∈ flags ∧ (Analysis.ofSource source).diagnostics ≠ [])))) ∧
      (result.stdout ≠ "" ↔ result.exit = 0) := by
  obtain ⟨result, hrun, hends⟩ := h.exists_ends hnull
  refine ⟨result, hrun, hends.showsUsage_iff, h.needsNoFile_iff, ?_, hends.stdout_ne_empty_iff⟩
  rintro path rfl
  refine ⟨hends.exit_eq_one_iff, hends.stderr_of_exit_eq_one, fun hpath => ?_⟩
  obtain ⟨source, hsource⟩ := exists_leadsTo hpath
  exact ⟨source, hsource, hends.exit_of_leadsTo hsource⟩

/-- A strict run for a source with a character that no token has. -/
theorem exists_result_of_spells_of_strict :
    let folder := Folder.ofList [("a.c", .file "a @ b".toUTF8)]
    Spells ["--strict", "a.c", "-v"] [.strict, .verbose] ["a.c"] ∧
      (∀ text ∈ ["a.c"], '\x00' ∉ text.toList) ∧
      ¬ IsUnreadable folder.read? "a.c" ∧ (Analysis.ofSource "a @ b").diagnostics ≠ [] ∧
      ∃ result, run folder.read? ["--strict", "a.c", "-v"] = .ok result ∧ result.exit = 2 ∧
        result.stdout = "" ∧ (∀ rest, result.stderr ≠ usage ++ rest) ∧
        ¬ NeedsNoFile ["--strict", "a.c", "-v"] ∧
        GivesUp (Analysis.ofSource "a @ b") result.stderr := by
  intro folder
  have h : Spells ["--strict", "a.c", "-v"] [.strict, .verbose] ["a.c"] :=
    .flag (by decide) <| .operand (by decide) <| .flag (by decide) .nil
  have hnull : ∀ text ∈ ["a.c"], '\x00' ∉ text.toList := by decide
  have hpath : LeadsTo folder.read? "a.c" "a @ b" :=
    ⟨"a @ b", rfl, unified_iff.mpr (by decide +kernel)⟩
  have hproblem : (Analysis.ofSource "a @ b").diagnostics ≠ [] := by decide +kernel
  refine ⟨h, hnull, hpath.not_isUnreadable, hproblem, ?_⟩
  obtain ⟨result, hrun, husage, hneeds, hone, hprints⟩ :=
    @exists_result_of_spells folder.read? _ _ _ h hnull
  obtain ⟨source, hsource, hexit, hgives, -⟩ := (hone "a.c" rfl).2.2 hpath.not_isUnreadable
  obtain rfl := hpath.unique hsource
  have htwo : result.exit = 2 := hexit.mpr ⟨by decide, hproblem⟩
  refine ⟨result, hrun, htwo, ?_, fun rest hrest => ?_, fun hnone => ?_, hgives htwo⟩
  · refine Decidable.byContradiction fun hprinted => ?_
    exact absurd (hprints.mp hprinted) (by simp [htwo])
  · exact husage.mp ⟨htwo, rest, hrest⟩ rfl
  · exact hneeds.mp hnone rfl

end CLex.CommandLine
