import CLex.Proofs.Segment.Grammar

/-!
# The Cells of a Segment

A segment keeps its characters and the label of the first one. Here it gets back the cells it
was taken from: the spans of a text are its segments with their cells, and the cells of all
spans in order are the cells of the text. So what is known of the cells of a text, such as
the order of their labels, is known of the characters of each segment.

## Main results

* `Divided.exists_spans`: the cells of a divided text fall to its segments.
* `Divided.isWhitespace_eq_isSpace`: only whitespace segments hold whitespace, if no operator
  does.
* `Divided.flatMap_chars_of_not_isSpace`: marks and words hold all that is not whitespace.
-/

namespace CLex

variable {α : Type}

namespace Segment

/-- The label of a mark or a word. -/
def start? : Segment α → Option α
  | space _ => none
  | mark _ label => some label
  | word _ label => some label

/-- Whether a segment is a whitespace character. -/
def isSpace : Segment α → Bool
  | space _ => true
  | _ => false

/-- Whether a segment may have been taken from these cells: they hold its characters, and the
first of them has its label. -/
def Covers (segment : Segment α) (cells : List (Cell α)) : Prop :=
  charsOf cells = segment.chars ∧ ∀ a ∈ segment.start?, cells.head?.map (·.2) = some a

end Segment

/-! ### Spans -/

/-- The cells of a divided text fall to its segments, in order. -/
theorem Divided.exists_spans {lexicon : Lexicon} {cells : List (Cell α)}
    {found : List (Segment α)} (h : Divided lexicon cells found) :
    ∃ spans : List (Segment α × List (Cell α)), spans.map (·.1) = found ∧
      spans.flatMap (·.2) = cells ∧ ∀ s ∈ spans, s.1.Covers s.2 := by
  induction h with
  | nil => exact ⟨[], rfl, rfl, by simp⟩
  | @space c a _ _ _ _ ih =>
      obtain ⟨spans, rfl, rfl, hcovers⟩ := ih
      refine ⟨(.space c, [(c, a)]) :: spans, rfl, rfl, List.forall_mem_cons.mpr ⟨?_, hcovers⟩⟩
      exact ⟨rfl, by simp [Segment.start?]⟩
  | @pair c d a b _ _ _ _ _ ih =>
      obtain ⟨spans, rfl, rfl, hcovers⟩ := ih
      refine ⟨(.mark [c, d] a, [(c, a), (d, b)]) :: spans, rfl, rfl,
        List.forall_mem_cons.mpr ⟨?_, hcovers⟩⟩
      exact ⟨rfl, by simp [Segment.start?]⟩
  | @single c a _ _ _ _ _ ih =>
      obtain ⟨spans, rfl, rfl, hcovers⟩ := ih
      refine ⟨(.mark [c] a, [(c, a)]) :: spans, rfl, rfl, List.forall_mem_cons.mpr ⟨?_, hcovers⟩⟩
      exact ⟨rfl, by simp [Segment.start?]⟩
  | @word c a run _ _ _ _ _ ih =>
      obtain ⟨spans, rfl, rfl, hcovers⟩ := ih
      refine ⟨(.word (c :: charsOf run) a, (c, a) :: run) :: spans, rfl, rfl,
        List.forall_mem_cons.mpr ⟨?_, hcovers⟩⟩
      exact ⟨rfl, by simp [Segment.start?]⟩
  | @decimal c a b run fraction _ _ _ _ _ _ ih =>
      obtain ⟨spans, rfl, rfl, hcovers⟩ := ih
      refine ⟨(.word (c :: (charsOf run ++ '.' :: charsOf fraction)) a,
        (c, a) :: (run ++ ('.', b) :: fraction)) :: spans, rfl, by simp,
        List.forall_mem_cons.mpr ⟨?_, hcovers⟩⟩
      exact ⟨by simp [Segment.chars], by simp [Segment.start?]⟩

/-- A segment starts at a cell of the text. -/
theorem exists_mem_of_start? {lexicon : Lexicon} {cells : List (Cell α)} {s : Segment α} {a : α}
    (hs : s ∈ segments lexicon cells) (ha : a ∈ s.start?) : ∃ x ∈ cells, x.2 = a := by
  obtain ⟨spans, hsegments, hcells, hcovers⟩ := (divided_segments lexicon cells).exists_spans
  rw [← hsegments, List.mem_map] at hs
  obtain ⟨span, hspan, rfl⟩ := hs
  obtain ⟨x, hx, rfl⟩ := Option.map_eq_some_iff.mp ((hcovers span hspan).2 a ha)
  exact ⟨x, hcells ▸ List.mem_flatMap.mpr ⟨span, hspan, List.mem_of_mem_head? hx⟩, rfl⟩

/-! ### Whitespace -/

/-- Whether no operator contains whitespace. -/
def Lexicon.IsSolid (lexicon : Lexicon) : Prop :=
  ∀ op ∈ lexicon.operators, ∀ c ∈ op.toList, isWhitespace c = false

/-- No operator of C89 contains whitespace. -/
theorem Lexicon.isSolid_standard : Lexicon.standard.IsSolid := by
  have hall : Lexicon.standard.operators.all
      (fun op => op.toList.all fun c => !isWhitespace c) = true := by decide
  intro op hop c hc
  have := List.all_eq_true.mp (List.all_eq_true.mp hall op hop) c hc
  simpa using this

/-- A word character is not whitespace. -/
theorem isWhitespace_of_isWordChar {c : Char} (h : isWordChar c = true) :
    isWhitespace c = false :=
  (isWordChar_iff.mp h).1

/-- If no operator contains whitespace, then whitespace segments do and no others. -/
theorem Divided.isWhitespace_eq_isSpace {lexicon : Lexicon} {cells : List (Cell α)}
    {found : List (Segment α)} (h : Divided lexicon cells found) (hsolid : lexicon.IsSolid) :
    ∀ s ∈ found, ∀ c ∈ s.chars, isWhitespace c = s.isSpace := by
  induction h with
  | nil => simp
  | space hc _ ih =>
      refine List.forall_mem_cons.mpr ⟨fun d hd => ?_, ih⟩
      obtain rfl := List.mem_singleton.mp hd
      exact hc
  | pair _ hop _ ih =>
      refine List.forall_mem_cons.mpr ⟨fun d hd => ?_, ih⟩
      exact hsolid _ hop d (by simpa [Segment.chars] using hd)
  | single hc _ _ ih =>
      refine List.forall_mem_cons.mpr ⟨fun d hd => ?_, ih⟩
      obtain rfl := List.mem_singleton.mp hd
      exact isWhitespace_of_isPunctuation hc
  | word hrun _ _ ih =>
      refine List.forall_mem_cons.mpr ⟨fun d hd => ?_, ih⟩
      exact isWhitespace_of_isWordChar (hrun.1 d hd)
  | @decimal c _ _ run fraction _ _ hdigits _ hrun _ ih =>
      refine List.forall_mem_cons.mpr ⟨fun d hd => ?_, ih⟩
      have hd : d ∈ c :: charsOf run ∨ d = '.' ∨ d ∈ charsOf fraction := by
        simpa [Segment.chars, or_assoc] using hd
      rcases hd with hd | rfl | hd
      · exact isWhitespace_of_isWordChar (isWordChar_of_isDigit (hdigits d hd))
      · rfl
      · exact isWhitespace_of_isWordChar (hrun.1 d hd)

/-- If no operator contains whitespace, then marks and words hold all that is not
whitespace. -/
theorem Divided.flatMap_chars_of_not_isSpace {lexicon : Lexicon} {cells : List (Cell α)}
    {found : List (Segment α)} (h : Divided lexicon cells found) (hsolid : lexicon.IsSolid) :
    (found.filter (fun s => !s.isSpace)).flatMap Segment.chars =
      (charsOf cells).filter (fun c => !isWhitespace c) := by
  have hchars := h.isWhitespace_eq_isSpace hsolid
  rw [← flatMap_chars_segments lexicon cells, ← h.eq_segments]
  clear h
  induction found with
  | nil => rfl
  | cons s ss ih =>
      obtain ⟨hs, hss⟩ := List.forall_mem_cons.mp hchars
      rw [List.flatMap_cons, List.filter_append, ← ih hss]
      cases hspace : s.isSpace with
      | true =>
          have hnone : s.chars.filter (fun c => !isWhitespace c) = [] :=
            List.filter_eq_nil_iff.mpr fun c hc => by simp [hs c hc, hspace]
          rw [hnone, List.filter_cons_of_neg (by simp [hspace]), List.nil_append]
      | false =>
          have hall : s.chars.filter (fun c => !isWhitespace c) = s.chars :=
            List.filter_eq_self.mpr fun c hc => by simp [hs c hc, hspace]
          rw [hall, List.filter_cons_of_pos (by simp [hspace]), List.flatMap_cons]

end CLex
