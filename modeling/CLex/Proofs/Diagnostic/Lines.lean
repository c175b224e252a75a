import CLex.Proofs.Analysis.Conservation
import CLex.Proofs.Json.Characters

/-!
# The Lines of Diagnostics

A diagnostic of a source is reported on one line: its position is written in digits, and its
message quotes the characters in question, so that whatever they are only printable characters
are written. The lines come in the order of the positions that they report.

## Main results

* `Cause.isPrintable_of_mem_message`: the messages that quote.
* `Analysis.newline_notMem_render`: the line of a diagnostic of a source.
* `Analysis.pairwise_position_diagnostics`: the order of these lines.
-/

namespace CLex

open Text (isPrintable isPrintable_of_ascii)

/-- A line feed is not printable. -/
theorem Text.not_isPrintable_newline : isPrintable '\n' = false := rfl

/-! ### Parts of the line -/

/-- Words in printable ASCII. -/
theorem isPrintable_of_mem_words {words : String}
    (h : (words.toList.all fun c => 0x20 ≤ c.toNat && c.toNat ≤ 0x7e) = true) {c : Char}
    (hc : c ∈ words.toList) : isPrintable c = true := by
  have hbounds := List.all_eq_true.mp h c hc
  simp only [Bool.and_eq_true, decide_eq_true_eq] at hbounds
  exact isPrintable_of_ascii hbounds.1 hbounds.2

/-- ASCII digits are printable. -/
theorem Text.isPrintable_of_isDigit {c : Char} (h : c.isDigit = true) : isPrintable c = true := by
  obtain ⟨hlow, hhigh⟩ := Char.isDigit_iff_toNat.mp h
  exact isPrintable_of_ascii (Nat.le_trans (by decide) hlow) (Nat.le_trans hhigh (by decide))

/-- The digits of an integer, and its sign. -/
theorem isPrintable_of_mem_toString {n : Int} {c : Char} (h : c ∈ (toString n).toList) :
    isPrintable c = true := by
  obtain ⟨d, ds, hcons, hd, hds⟩ := Json.exists_cons_of_toString n
  rw [hcons, List.mem_cons] at h
  rcases h with rfl | h
  · rcases hd with rfl | hd
    · exact isPrintable_of_ascii (by decide) (by decide)
    · exact Text.isPrintable_of_isDigit hd
  · exact Text.isPrintable_of_isDigit (hds c h)

/-- A position is written in digits around a colon. -/
theorem Position.isPrintable_of_mem_render {p : Position} {c : Char} (h : c ∈ p.render.toList) :
    isPrintable c = true := by
  simp only [render, String.toList_append, List.mem_append] at h
  rcases h with (h | h) | h
  · exact isPrintable_of_mem_toString h
  · exact isPrintable_of_mem_words (by decide) h
  · exact isPrintable_of_mem_toString h

/-- A text is quoted in printable characters. -/
theorem Text.Quoted.isPrintable_of_mem_quote {s : String} {c : Char} (h : c ∈ (quote s).toList) :
    isPrintable c = true := by
  rw [quote, String.toList_ofList] at h
  exact isPrintable_of_mem_encode h

/-- Words in printable ASCII, and a quoted text. -/
theorem isPrintable_of_mem_append_quote {words s : String}
    (h : (words.toList.all fun c => 0x20 ≤ c.toNat && c.toNat ≤ 0x7e) = true) {c : Char}
    (hc : c ∈ (words ++ Text.Quoted.quote s).toList) : isPrintable c = true := by
  rw [String.toList_append, List.mem_append] at hc
  rcases hc with hc | hc
  · exact isPrintable_of_mem_words h hc
  · exact Text.Quoted.isPrintable_of_mem_quote hc

/-! ### Messages -/

namespace Cause

/-- Whether a cause is worded by its kind, and not by a message of its own. -/
def IsWorded : Cause → Prop
  | general .. => False
  | unrecognized .. => True
  | unterminatedComment => True

/-- A message is printable, whatever the characters in question are. -/
theorem isPrintable_of_mem_message {cause : Cause} (hworded : cause.IsWorded) {c : Char}
    (h : c ∈ cause.message.toList) : isPrintable c = true := by
  cases cause with
  | general message lexeme => exact hworded.elim
  | unrecognized lexeme reason =>
      rw [message] at h
      split at h
      · exact isPrintable_of_mem_append_quote (by decide) h
      · exact isPrintable_of_mem_append_quote (by decide) h
  | unterminatedComment => exact isPrintable_of_mem_words (by decide) h

end Cause

/-! ### Lines -/

namespace Diagnostic

/-- The line of a diagnostic is printable, if its level and its message are. -/
theorem isPrintable_of_mem_render {level : String} {d : Diagnostic}
    (hlevel : ∀ c ∈ level.toList, isPrintable c = true) (hworded : d.cause.IsWorded) {c : Char}
    (h : c ∈ (d.render level).toList) : isPrintable c = true := by
  simp only [render, String.toList_append, List.mem_append] at h
  rcases h with ((((h | h) | h) | h) | h) | h
  · exact isPrintable_of_mem_words (by decide) h
  · exact hlevel c h
  · exact isPrintable_of_mem_words (by decide) h
  · exact Position.isPrintable_of_mem_render h
  · exact isPrintable_of_mem_words (by decide) h
  · exact Cause.isPrintable_of_mem_message hworded h

end Diagnostic

namespace Analysis

variable {source : String} {d : Diagnostic} (hd : d ∈ (ofSource source).diagnostics)

include hd

/-- The diagnostics of a source have no messages of their own. -/
theorem isWorded_of_mem_diagnostics : d.cause.IsWorded := by
  obtain ⟨found, hfound⟩ := exists_sighted source
  rw [diagnostics_ofSource, List.mem_append] at hd
  rcases hd with hd | hd
  · have hcause := hfound.isUnrecognized_of_mem hd
    cases h : d.cause with
    | general message lexeme => simp [h, Cause.isUnrecognized] at hcause
    | unrecognized lexeme reason => trivial
    | unterminatedComment => trivial
  · rw [Stages.cause_of_mem_located hd]
    trivial

/-- A diagnostic of a source is reported on one line. -/
theorem newline_notMem_render {level : String}
    (hlevel : ∀ c ∈ level.toList, isPrintable c = true) : '\n' ∉ (d.render level).toList := by
  intro hnewline
  have hprintable :=
    Diagnostic.isPrintable_of_mem_render hlevel (isWorded_of_mem_diagnostics hd) hnewline
  rw [Text.not_isPrintable_newline] at hprintable
  exact Bool.false_ne_true hprintable

theorem newline_notMem_warning : '\n' ∉ d.warning.toList :=
  newline_notMem_render hd fun _ hc => isPrintable_of_mem_words (by decide) hc

theorem newline_notMem_error : '\n' ∉ d.error.toList :=
  newline_notMem_render hd fun _ hc => isPrintable_of_mem_words (by decide) hc

/-! ### Their order -/

/-- A diagnostic of a source is reported at the position of its offset. -/
theorem exists_position_eq : ∃ n : Nat, d.offset = some (n : Int) ∧
    n ≤ source.toList.length ∧ d.position = (LineMap.ofString source).locate n := by
  obtain ⟨found, hfound⟩ := exists_sighted source
  by_cases hcause : d.cause = .unterminatedComment
  · obtain ⟨n, hn, hopens, hposition⟩ := exists_of_unterminatedComment hd hcause
    have hlength := congrArg List.length hopens
    simp only [List.length_take, List.length_drop, List.length_cons, List.length_nil] at hlength
    exact ⟨n, hn, by omega, hposition⟩
  · rw [diagnostics_ofSource, List.mem_append] at hd
    have hd := hd.resolve_right fun hcomment => hcause (Stages.cause_of_mem_located hcomment)
    rw [hfound.problems_eq, List.mem_filterMap] at hd
    obtain ⟨s, hs, hseen⟩ := hd
    obtain ⟨n, hn, hposition, hoffset⟩ := (hfound.stands s hs).starts
    have hlt := (hfound.stands s hs).lt_length (List.mem_of_mem_head? hn)
    have hmention := congrArg Mention.position (Sighting.mention_of_getRight? hseen)
    exact ⟨n, hoffset d hseen, Nat.le_of_lt hlt, hmention.symm.trans hposition⟩

omit hd

/-- The diagnostics of a source come in the order of their positions. -/
theorem pairwise_position_diagnostics (source : String) :
    (ofSource source).diagnostics.Pairwise fun d e => d.position < e.position := by
  have hordered : (ofSource source).diagnostics.Pairwise fun d e =>
      d.offset.getD 0 < e.offset.getD 0 := by
    rw [diagnostics_ofSource]
    exact Stages.pairwise_offset source
  refine hordered.imp_of_mem fun {d e} hd he hde => ?_
  obtain ⟨m, hm, -, hd'⟩ := exists_position_eq hd
  obtain ⟨n, hn, hle, he'⟩ := exists_position_eq he
  rw [hm, hn, Option.getD_some, Option.getD_some] at hde
  rw [hd', he']
  exact LineMap.locate_lt_locate (by omega) hde (by omega)

end Analysis

end CLex
