import Mathlib.Data.List.DropRight
import CLex.Proofs.Diagnostic.Messages
import CLex.Proofs.Lexing.Lexemes
import CLex.Proofs.Report.Document
import CLex.Proofs.Report.Listing

/-!
# Counts in All Reports

The tokens of each kind are counted in the statistics, listed in the transcript and in the document,
and the counts are printed in the statistics block and in the document. Here each count is read back
from the text of the report alone, and they all agree. In the transcript the list of tokens is what
comes after the last rule: nothing in it looks like a rule, and since lexemes are visible ASCII
characters each token takes one line, which starts with the label of its kind and with no other.

## Main definitions

* `told?`: what a line tells of a name.
* `tokenLines`, `listedCount`: the list of a transcript, and how often it lists a kind.
* `enteredCount?`, `statedCount?`: how often a document lists a kind, and what count it states.
* `printedCount?`, `printedSum?`: the number that a block of statistics prints for a name, and the
  sum of those for the kinds.

## Main results

* `tokenLines_renderTranscript`: what is read as the list of a transcript.
* `printedCount?_kind`, `printedCount?_total`: what is read from the block of statistics.
* `Analysis.reported_counts_agree`: all counts agree.
-/

namespace CLex

/-! ### Looking into documents -/

namespace Json

/-- The value of the first member with a key. -/
def member? (key : String) : Json → Option Json
  | object members => (members.find? (·.1 == key)).map (·.2)
  | _ => none

/-- The elements of an array. -/
def elements? : Json → Option (List Json)
  | array elements => some elements
  | _ => none

/-- The characters of a string. -/
def string? : Json → Option String
  | string s => some s
  | _ => none

/-- The value of a number. -/
def number? : Json → Option Int
  | number n => some n
  | _ => none

end Json

namespace Report

/-! ### Reading counts -/

/-- What a line tells of a name: what comes after the name, a colon and a space. -/
def told? (name : String) (line : List Char) : Option (List Char) :=
  line.dropPrefix? (name ++ ": ").toList

/-- The lines of a transcript after the last rule. -/
def tokenLines (transcript : String) : List (List Char) :=
  (textLines transcript).rtakeWhile (· != "-------".toList)

/-- How many lines of the list of a transcript start with the label of a kind. -/
def listedCount (transcript : String) (kind : Token.Kind) : Nat :=
  (tokenLines transcript).countP fun line => (told? kind.label line).isSome

/-- How many tokens of a kind a document lists. -/
def enteredCount? (text : String) (kind : Token.Kind) : Option Nat := do
  let document ← Json.read text
  let tokens ← document.member? "tokens"
  let entries ← tokens.elements?
  return entries.countP fun entry => (entry.member? "kind").bind Json.string? == some kind.label

/-- The count of a kind among the statistics of a document. -/
def statedCount? (text : String) (kind : Token.Kind) : Option Int := do
  let document ← Json.read text
  let statistics ← document.member? "statistics"
  let count ← statistics.member? kind.label
  count.number?

/-- The number that is printed for a name, if just one line tells of it. -/
def printedCount? (block : String) (name : String) : Option Int :=
  match (textLines block).filterMap (told? name) with
  | [number] => Json.readInt? number
  | _ => none

/-- The sum of the numbers that are printed for the kinds. -/
def printedSum? (block : String) : Option Int := do
  let counts ← Token.Kind.all.mapM fun kind => printedCount? block kind.label
  return counts.foldr (· + ·) 0

/-! ### Lines that tell of a name -/

/-- A line tells of a name what it goes on with after the name. -/
theorem told?_eq_some_iff {name : String} {line rest : List Char} :
    told? name line = some rest ↔ line = (name ++ ": ").toList ++ rest := by
  rw [told?, List.dropPrefix?_eq_some_iff]
  constructor
  · rintro ⟨_, rfl, hstart⟩
    rw [beq_iff_eq.mp hstart]
  · rintro rfl
    exact ⟨_, rfl, beq_self_eq_true _⟩

/-- A line tells of the name that it starts with, and of no other one. -/
theorem told?_line {name other : String} (hname : ':' ∉ name.toList) (hother : ':' ∉ other.toList)
    (rest : List Char) :
    told? name ((other ++ ": ").toList ++ rest) = if name = other then some rest else none := by
  split
  · next heq => exact told?_eq_some_iff.mpr (by rw [heq])
  · next hne =>
      rw [Option.eq_none_iff_forall_ne_some]
      intro found hfound
      have hline := told?_eq_some_iff.mp hfound
      -- both names are the part of the line before its first colon
      have hrun : ∀ s : String, ':' ∉ s.toList → ∀ after : List Char,
          ((s ++ ": ").toList ++ after).takeWhile (· != ':') = s.toList := by
        intro s hs after
        have hfirst : IsLongestRun (· != ':') s.toList (':' :: ' ' :: after) := .of_notMem hs
        have htake := hfirst.takeWhile_eq
        simpa [String.toList_append] using htake
      have htake := congrArg (List.takeWhile (· != ':')) hline
      rw [hrun other hother, hrun name hname] at htake
      exact hne (String.toList_inj.mp htake.symm)

/-- A line without a space tells of no name. -/
theorem told?_of_notMem {line : List Char} (h : ' ' ∉ line) (name : String) :
    told? name line = none := by
  rw [Option.eq_none_iff_forall_ne_some]
  intro found hfound
  rw [told?_eq_some_iff.mp hfound] at h
  exact h (by simp [String.toList_append])

/-- A line of the list tells of the kind of its token. -/
theorem isSome_told?_render (kind : Token.Kind) (e : Entry) :
    (told? kind.label e.render.toList).isSome = (e.token?.map (·.kind == kind)).getD false := by
  cases e with
  | blank => cases kind <;> rfl
  | token t =>
      have hline : (Entry.token t).render.toList =
          (t.kind.label ++ ": ").toList ++ t.lexeme.toList := String.toList_append
      rw [hline, told?_line (colon_notMem_label kind) (colon_notMem_label t.kind), Entry.token?,
        Option.map_some, Option.getD_some]
      by_cases hkind : t.kind = kind
      · rw [if_pos (congrArg _ hkind.symm), Option.isSome_some, beq_iff_eq.mpr hkind]
      · rw [if_neg fun h => hkind (label_injective h.symm), Option.isSome_none,
          beq_eq_false_iff_ne.mpr hkind]

/-! ### The list of a transcript -/

/-- More lines without line feeds. -/
theorem textLines_joinLines_append {first : List String} (hfirst : first ≠ [])
    {more : List String} (hmore : ∀ line ∈ more, '\n' ∉ line.toList) :
    textLines (joinLines (first ++ more)) =
      textLines (joinLines first) ++ more.map String.toList := by
  cases more with
  | nil => simp
  | cons line later =>
      have hne : line :: later ≠ [] := List.cons_ne_nil _ _
      have hjoin : (joinLines (first ++ line :: later)).toList =
          (joinLines first).toList ++ '\n' :: (joinLines (line :: later)).toList := by
        rw [joinLines, String.intercalate_append_of_ne_nil hfirst hne, String.toList_append,
          String.toList_append, List.append_assoc]
        rfl
      have hparted := List.splitOnP_append_cons (p := (· == '\n')) (joinLines first).toList
        (joinLines (line :: later)).toList (beq_self_eq_true '\n')
      rw [textLines, hjoin, ← textLines_joinLines hne hmore]
      exact hparted

/-- The part of a list after the last element of a kind. -/
theorem rtakeWhile_append_cons {α : Type} {p : α → Bool} {x : α} (hx : p x = false)
    (before : List α) {after : List α} (hafter : ∀ y ∈ after, p y = true) :
    (before ++ x :: after).rtakeWhile p = after := by
  have hrun : IsLongestRun p after.reverse (x :: before.reverse) :=
    ⟨fun y hy => hafter y (List.mem_reverse.mp hy), by simpa using hx⟩
  have htake := hrun.takeWhile_eq
  rw [List.rtakeWhile, List.reverse_append, List.reverse_cons, List.append_assoc,
    List.singleton_append, htake, List.reverse_reverse]

/-- No line of the list is a rule. -/
theorem Entry.render_ne_rule (e : Entry) : e.render.toList ≠ "-------".toList := by
  intro hrule
  have hread := e.read?_render
  rw [hrule] at hread
  exact absurd hread (by simp [Entry.read?])

section Transcript

variable (path : String) {a : Analysis} (showClean : Bool)
  (h : ∀ t ∈ a.tokens, '\n' ∉ t.lexeme.toList)

include h

/-- The lines of a transcript are those of its banner and those of the list. -/
theorem textLines_renderTranscript :
    textLines (renderTranscript path a showClean) =
      textLines (joinLines (banner path a showClean)) ++
        (entries a.tokens a.breaks).map (·.render.toList) := by
  have hlines : ∀ line ∈ (entries a.tokens a.breaks).map Entry.render, '\n' ∉ line.toList :=
    newline_notMem_of_mem_renders (by rwa [filterMap_token?_entries])
  rw [renderTranscript, textLines_joinLines_append (by simp [banner]) hlines, List.map_map]
  rfl

/-- What is read as the list of a transcript are its lines. -/
theorem tokenLines_renderTranscript :
    tokenLines (renderTranscript path a showClean) =
      (entries a.tokens a.breaks).map (·.render.toList) := by
  -- a path or a source with line feeds may add rules above, but the last one ends the banner
  obtain ⟨above, habove⟩ : ∃ above, textLines (joinLines (banner path a showClean)) =
      above ++ ["-------".toList] := by
    have hbanner : ∃ top : List String, banner path a showClean =
        (top ++ ["Tokens:"]) ++ ["-------"] := by
      obtain ⟨top, htop⟩ := heading_suffix_banner path a showClean
      exact ⟨top, by rw [← htop, List.append_assoc]; rfl⟩
    obtain ⟨top, htop⟩ := hbanner
    rw [htop, textLines_joinLines_append (by simp) (by decide)]
    exact ⟨_, rfl⟩
  rw [tokenLines, textLines_renderTranscript path showClean h, habove, List.append_assoc,
    List.singleton_append]
  refine rtakeWhile_append_cons (by simp) above fun line hline => ?_
  obtain ⟨e, -, rfl⟩ := List.mem_map.mp hline
  exact bne_iff_ne.mpr e.render_ne_rule

/-- A transcript lists each kind as often as the tokens have it. -/
theorem listedCount_renderTranscript (kind : Token.Kind) :
    listedCount (renderTranscript path a showClean) kind = a.tokens.countP (·.kind == kind) := by
  have htokens := filterMap_token?_entries a
  rw [listedCount, tokenLines_renderTranscript path showClean h, List.countP_map]
  conv_rhs => rw [← htokens, List.countP_filterMap]
  exact List.countP_congr fun e _ => by rw [Function.comp_apply, isSome_told?_render]

end Transcript

/-! ### The block of statistics -/

section Statistics

variable (a : Analysis)

/-- The names in the block, and the numbers that are printed for them. -/
def statisticsRows : List (String × Int) :=
  (Token.Kind.all.map fun kind => (kind.label, a.statistics.count kind)) ++ [("Total", a.total)]

/-- The lines of the block are its heading and a line for each name. -/
theorem textLines_renderStatistics :
    textLines (renderStatistics a) = (heading "Statistics:").map String.toList ++
      (statisticsRows a).map fun row => (row.1 ++ ": ").toList ++ (toString row.2).toList := by
  have hrows : renderStatistics a = joinLines (heading "Statistics:" ++
      (statisticsRows a).map fun row => row.1 ++ ": " ++ toString row.2) := rfl
  have hlines : ∀ line ∈ (statisticsRows a).map (fun row => row.1 ++ ": " ++ toString row.2),
      '\n' ∉ line.toList := by
    have hnames : ∀ row ∈ statisticsRows a, '\n' ∉ row.1.toList := by
      simp [statisticsRows, Token.Kind.all, Token.Kind.label]
    intro line hline
    obtain ⟨row, hrow, rfl⟩ := List.mem_map.mp hline
    have hnumber : '\n' ∉ (toString row.2).toList := fun hnewline =>
      Bool.false_ne_true (Text.not_isPrintable_newline.symm.trans
        (isPrintable_of_mem_toString hnewline))
    rw [String.toList_append, String.toList_append, List.mem_append, List.mem_append, not_or,
      not_or]
    exact ⟨⟨hnames row hrow, by decide⟩, hnumber⟩
  have hne : heading "Statistics:" ≠ [] := List.cons_ne_nil _ _
  rw [hrows, textLines_joinLines_append hne hlines, textLines_joinLines hne (by decide),
    List.map_map]
  simp [Function.comp_def, String.toList_append]

/-- What the lines of the block tell of a name. -/
theorem filterMap_told?_renderStatistics {name : String} (hname : ':' ∉ name.toList) :
    (textLines (renderStatistics a)).filterMap (told? name) =
      (statisticsRows a).filterMap fun row =>
        if name = row.1 then some (toString row.2).toList else none := by
  have hnames : ∀ row ∈ statisticsRows a, ':' ∉ row.1.toList := by
    simp [statisticsRows, Token.Kind.all, Token.Kind.label]
  have hheading : ((heading "Statistics:").map String.toList).filterMap (told? name) = [] := by
    rw [List.filterMap_eq_nil_iff]
    intro line hline
    have hspace : ∀ line ∈ (heading "Statistics:").map String.toList, ' ' ∉ line := by decide
    exact told?_of_notMem (hspace line hline) name
  rw [textLines_renderStatistics, List.filterMap_append, hheading, List.nil_append,
    List.filterMap_map]
  exact List.filterMap_congr fun row hrow => told?_line hname (hnames row hrow) _

/-- The count that is printed for a kind. -/
theorem printedCount?_kind (kind : Token.Kind) :
    printedCount? (renderStatistics a) kind.label = some (a.statistics.count kind) := by
  have hrows : (statisticsRows a).filterMap (fun row =>
      if kind.label = row.1 then some (toString row.2).toList else none) =
        [(toString (a.statistics.count kind)).toList] := by
    cases kind <;> simp [statisticsRows, Token.Kind.all, Token.Kind.label]
  rw [printedCount?, filterMap_told?_renderStatistics a (colon_notMem_label kind), hrows]
  exact Json.readInt?_toString _

/-- The total that is printed. -/
theorem printedCount?_total : printedCount? (renderStatistics a) "Total" = some a.total := by
  have hrows : (statisticsRows a).filterMap (fun row =>
      if "Total" = row.1 then some (toString row.2).toList else none) =
        [(toString a.total).toList] := by
    simp [statisticsRows, Token.Kind.all, Token.Kind.label]
  rw [printedCount?, filterMap_told?_renderStatistics a (by decide), hrows]
  exact Json.readInt?_toString _

/-- The counts that are printed add up to the total. -/
theorem printedSum?_renderStatistics : printedSum? (renderStatistics a) = some a.total := by
  simp only [printedSum?, printedCount?_kind]
  rfl

end Statistics

/-! ### The document -/

section Document

variable (path : String) (a : Analysis) (kind : Token.Kind)

/-- A document lists each kind as often as the tokens have it. -/
theorem enteredCount?_renderDocument :
    enteredCount? (renderDocument path a) kind = some (a.tokens.countP (·.kind == kind)) := by
  have hread : Json.read (renderDocument path a) = some (document path a) := Json.read_render _
  have htokens : (document path a).member? "tokens" =
      some (.array (a.tokens.map tokenJson)) := rfl
  have hentry : ∀ t : Token, ((tokenJson t).member? "kind").bind Json.string? =
      some t.kind.label := fun _ => rfl
  have hcount : (a.tokens.map tokenJson).countP
      (fun entry => (entry.member? "kind").bind Json.string? == some kind.label) =
        a.tokens.countP (·.kind == kind) := by
    rw [List.countP_map]
    refine List.countP_congr fun t _ => ?_
    rw [Function.comp_apply, hentry, beq_iff_eq, beq_iff_eq, Option.some.injEq]
    exact ⟨fun h => label_injective h, congrArg _⟩
  simp only [enteredCount?, hread, htokens, Json.elements?, hcount, Option.bind_eq_bind,
    Option.bind_some, Option.pure_def]

/-- The count that a document states for a kind. -/
theorem statedCount?_renderDocument :
    statedCount? (renderDocument path a) kind = some (a.statistics.count kind) := by
  have hread : Json.read (renderDocument path a) = some (document path a) := Json.read_render _
  have hstatistics : (document path a).member? "statistics" =
      some (tallyJson a.statistics) := rfl
  have hcount : (tallyJson a.statistics).member? kind.label =
      some (.number (a.statistics.count kind)) := by
    cases kind <;> rfl
  simp only [statedCount?, hread, hstatistics, hcount, Json.number?, Option.bind_eq_bind,
    Option.bind_some]

end Document

/-! ### The lines of the list -/

/-- A line of the list is a single line of printable characters if its lexeme is visible. -/
theorem Entry.oneLine_render {e : Entry} (h : ∀ t ∈ e.token?, IsVisible t.lexeme) :
    Text.OneLine e.render := by
  rw [Text.oneLine_iff]
  intro c hc
  cases e with
  | blank => simp [render] at hc
  | token t =>
      have hlabel : (t.kind.label.toList.all fun c => 0x20 ≤ c.toNat && c.toNat ≤ 0x7e) = true := by
        cases t.kind <;> decide
      rw [render, String.toList_append, String.toList_append, List.mem_append,
        List.mem_append] at hc
      rcases hc with (hc | hc) | hc
      · exact isPrintable_of_mem_words hlabel hc
      · exact isPrintable_of_mem_words (by decide) hc
      · obtain ⟨hlow, hhigh⟩ := h t rfl c hc
        exact Text.isPrintable_of_ascii (Nat.le_of_succ_le hlow) hhigh

end Report

namespace Analysis

open Report

/-- The lexemes of a source are visible. -/
theorem isVisible_of_mem_tokens {source : String} {t : Token}
    (ht : t ∈ (ofSource source).tokens) : IsVisible t.lexeme := by
  have hlexed : t ∈ (Lexing.ofCells .standard (.ofString source)
      (Stages.ofSource source).normalized).tokens := ht
  exact (Lexing.admits_of_mem_tokens hlexed).1.isVisible

/-- **All counts agree.** For each kind, the statistics of a source count as many tokens as there
are of that kind. As many lines of the list in its transcript start with the label of the kind, and
as many tokens in its document have the label; the document and the block of statistics print the
count. The list is what follows the banner of the transcript, and each of its lines is a single line
of printable characters. The total is the number of tokens, the sum of the four counts that are
printed, and the total that is printed. -/
theorem reported_counts_agree (source path : String) (showClean : Bool) :
    let a := ofSource source
    let transcript := renderTranscript path a showClean
    let document := renderDocument path a
    let block := renderStatistics a
    (∀ kind : Token.Kind,
      let count := a.tokens.countP (·.kind == kind)
      a.statistics.count kind = count ∧
        listedCount transcript kind = count ∧
        enteredCount? document kind = some count ∧
        statedCount? document kind = some (count : Int) ∧
        printedCount? block kind.label = some (count : Int)) ∧
      textLines transcript =
        textLines (Report.joinLines (banner path a showClean)) ++ tokenLines transcript ∧
      (∀ line ∈ tokenLines transcript, Text.OneLine (String.ofList line)) ∧
      a.total = a.tokens.length ∧
      printedSum? block = some a.total ∧
      printedCount? block "Total" = some a.total := by
  intro a transcript document block
  have hnewline : ∀ t ∈ a.tokens, '\n' ∉ t.lexeme.toList := fun t ht => newline_notMem_lexeme ht
  have hlist := tokenLines_renderTranscript path showClean hnewline
  have hcounts : ∀ kind, a.statistics.count kind = (a.tokens.countP (·.kind == kind) : Nat) :=
    fun kind => Tally.count_ofCounts _ kind
  refine ⟨fun kind => ⟨hcounts kind, listedCount_renderTranscript path showClean hnewline kind,
    enteredCount?_renderDocument path a kind, ?_, ?_⟩, ?_, fun line hline => ?_,
    Tally.total_ofTokens a.tokens, printedSum?_renderStatistics a, printedCount?_total a⟩
  · rw [statedCount?_renderDocument, hcounts]
  · rw [printedCount?_kind, hcounts]
  · rw [textLines_renderTranscript path showClean hnewline, hlist]
  · rw [hlist, List.mem_map] at hline
    obtain ⟨e, he, rfl⟩ := hline
    rw [String.ofList_toList]
    refine Entry.oneLine_render fun t ht => ?_
    have hmem : t ∈ (ofSource source).tokens := by
      rw [← filterMap_token?_entries (ofSource source)]
      exact List.mem_filterMap.mpr ⟨e, he, ht⟩
    exact isVisible_of_mem_tokens hmem

/-- A path that looks like a rule and a token, and a comment across lines before an operator. -/
theorem reported_counts_agree_of_misleading_path :
    ∃ transcript : String,
      transcript =
        renderTranscript "a\n-------\nKeyword: if" (ofSource "x /*\n*/ == 1.5;\n") true ∧
      "Operator: ==".toList ∈ tokenLines transcript ∧
      Text.OneLine "Operator: ==" ∧
      listedCount transcript .keyword = 0 ∧
      listedCount transcript .operator = 1 ∧
      (ofSource "x /*\n*/ == 1.5;\n").total = 3 := by
  have htokens : (ofSource "x /*\n*/ == 1.5;\n").tokens =
      [⟨.identifier, "x", ⟨1, 1⟩⟩, ⟨.operator, "==", ⟨2, 4⟩⟩, ⟨.numericConstant, "1.5", ⟨2, 7⟩⟩] := by
    decide +kernel
  have hline : "Operator: ==".toList ∈ tokenLines
      (renderTranscript "a\n-------\nKeyword: if" (ofSource "x /*\n*/ == 1.5;\n") true) := by
    decide +kernel
  obtain ⟨hcounts, -, hlines, htotal, -⟩ :=
    reported_counts_agree "x /*\n*/ == 1.5;\n" "a\n-------\nKeyword: if" true
  refine ⟨_, rfl, hline, hlines _ hline, ?_, ?_, ?_⟩
  · rw [(hcounts .keyword).2.1, htokens]
    rfl
  · rw [(hcounts .operator).2.1, htokens]
    rfl
  · rw [htotal, htokens]
    rfl

end Analysis

end CLex
