import CLex.Proofs.Lexing.Parts
import CLex.Proofs.Text.Walk

/-!
# Lexing Character by Character

A text can be lexed in one walk that remembers the word it has begun and where this started. A word
character goes on with the word, or begins one. A point goes on with it, too, if the word consists
of digits and a digit comes next. Every other character ends the word: only then is its kind told.
A punctuation character is looked up together with the character after it first.

Such a **scan** finds what the grammar of segments says. Where the first character of a mark or a
word has no origin, both fail.

## Main definitions

* `Lexing.Scan`, `Lexing.Scan.step?`: the state of the walk, and one step of it.
* `Lexing.Scan.flush?`: the end of a word.

## Main results

* `Lexing.Scan.run?_word`: how the walk goes through a word.
* `Lexing.Scan.finish?_run?_of_ends`: how it leaves a word.
* `Lexing.Scan.finish?_run?_start`: the walk yields what lexing yields.
-/

open scoped List

namespace CLex

namespace Lexing

open Text (Place Walk)

/-! ### Outcomes one by one -/

/-- What an outcome adds to the tokens, the problems, or the line ends. -/
def note (lexing : Lexing) : Outcome → Lexing
  | .token t => { lexing with tokens := lexing.tokens ++ [t] }
  | .problem d => { lexing with diagnostics := lexing.diagnostics ++ [d] }
  | .lineEnd => { lexing with breaks := lexing.breaks ++ [lexing.tokens.length] }
  | .gap => lexing

/-- An outcome is noted after what comes before it. -/
theorem note_eq (lexing : Lexing) (o : Outcome) : lexing.note o = lexing ++ ofOutcomes [o] := by
  cases o <;> refine Lexing.ext ?_ ?_ ?_ <;>
    simp [note, ofOutcomes, Outcome.token?, Outcome.problem?, lineBreaks_token, lineBreaks_lineEnd,
      lineBreaks_problem, lineBreaks_gap]

/-- Nothing comes after what is yielded. -/
theorem append_empty (a : Lexing) : a ++ ({} : Lexing) = a :=
  Lexing.ext (List.append_nil _) (List.append_nil _) (List.append_nil _)

/-! ### The walk -/

/-- The state of a scan. -/
structure Scan where
  /-- The place in the text. -/
  place : Place
  /-- The word that was begun, or nothing. -/
  word : List Char := []
  /-- The index where it started. -/
  start : Int := 0
  /-- What was found so far. -/
  found : Lexing := {}
deriving DecidableEq, Repr

namespace Scan

/-- Whether a digit stands at a distance from the place. -/
def digitAt (s : Scan) (distance : Int) : Bool :=
  match s.place.look distance with
  | .char c => c.isDigit
  | _ => false

/-- Whether a character is a point within a number. -/
def isPoint (s : Scan) (c : Char) : Bool :=
  c == '.' && s.word != [] && s.word.all Char.isDigit && s.digitAt 1

/-- A character that goes on with the word or begins one. -/
def extend (s : Scan) (c : Char) : Scan where
  place := s.place.move 1
  word := s.word ++ [c]
  start := if s.word = [] then s.place.index else s.start
  found := s.found

variable (lexicon : Lexicon) (lines : LineMap) (text : Text)

/-- The word ends, if one was begun. This fails if its first character has no origin. -/
def flush? (s : Scan) : Option Scan :=
  if s.word = [] then some s
  else (text.originAt? s.start).map fun origin =>
    { s with
      word := []
      found := s.found.note ((Segment.word s.word origin).outcome lexicon lines) }

/-- A segment is read, and the place is moved over it. -/
def read (segment : Segment Int) (distance : Int) (s : Scan) : Scan :=
  { s with
    place := s.place.move distance
    found := s.found.note (segment.outcome lexicon lines) }

/-- A punctuation character, with the character after it if they form an operator. This fails if
it has no origin. -/
def mark? (c : Char) (s : Scan) : Option Scan :=
  (text.originAt? s.place.index).map fun origin =>
    if s.place.nextTwo.length = 2 ∧ s.place.nextTwo ∈ lexicon.operators then
      s.read lexicon lines (.mark s.place.nextTwo.toList origin) 2
    else s.read lexicon lines (.mark [c] origin) 1

/-- One step. -/
def step? (s : Scan) : Option Scan :=
  match s.place.look 0 with
  | .char c =>
    if s.isPoint c then some (s.extend c)
    else if isPunctuation c then (s.flush? lexicon lines text).bind (mark? lexicon lines text c)
    else if isWhitespace c then (s.flush? lexicon lines text).map (read lexicon lines (.space c) 1)
    else some (s.extend c)
  | _ => none

/-- What was found at the end, with the last word. -/
def finish? (s : Scan) : Option Lexing :=
  (s.flush? lexicon lines text).map (·.found)

variable {lexicon lines text}

/-- After the end of a word none is begun. -/
theorem exists_of_flush? {s next : Scan} (h : s.flush? lexicon lines text = some next) :
    ∃ found, next = { place := s.place, start := s.start, found } := by
  obtain ⟨place, word, start, found⟩ := s
  rw [flush?] at h
  split at h
  · next hword =>
    obtain rfl : word = [] := hword
    exact ⟨found, (Option.some.inj h).symm⟩
  · obtain ⟨origin, -, rfl⟩ := Option.map_eq_some_iff.mp h
    exact ⟨_, rfl⟩

/-- A step moves on by one character or by two. -/
theorem place_of_step? {s next : Scan} (h : s.step? lexicon lines text = some next) :
    next.place = s.place.move 1 ∨ next.place = s.place.move 2 := by
  rw [step?] at h
  split at h
  · split at h
    · obtain rfl := Option.some.inj h
      exact .inl rfl
    · split at h
      · obtain ⟨flushed, hflush, hmark⟩ := Option.bind_eq_some_iff.mp h
        obtain ⟨origin, -, rfl⟩ := Option.map_eq_some_iff.mp hmark
        obtain ⟨found, rfl⟩ := exists_of_flush? hflush
        split
        · exact .inr rfl
        · exact .inl rfl
      · split at h
        · obtain ⟨flushed, hflush, rfl⟩ := Option.map_eq_some_iff.mp h
          obtain ⟨found, rfl⟩ := exists_of_flush? hflush
          exact .inl rfl
        · obtain rfl := Option.some.inj h
          exact .inl rfl
  · simp at h

variable (lexicon lines text) in
/-- The scan of a text. -/
def walk : Walk Scan where
  place := place
  step? := step? lexicon lines text
  moves _ _ := place_of_step?

theorem walk_step? (s : Scan) :
    (walk lexicon lines text).step? s = s.step? lexicon lines text := rfl

/-! ### One step -/

variable {place : Place} {word : List Char} {start : Int} {found : Lexing}

section Step

variable {c : Char} {label : Option Int} {rest : List (Cell (Option Int))}
  (h : text.Ahead place ((c, label) :: rest))

include h

/-- The character at the place is a point within a number if it starts a fraction. -/
theorem isPoint_eq_true_iff : isPoint ⟨place, word, start, found⟩ c = true ↔
    word ≠ [] ∧ (∀ d ∈ word, d.isDigit = true) ∧ StartsFraction (c :: charsOf rest) := by
  have hlook : place.look 1 = _ := h.isBefore.look_eq 1
  rw [isPoint, digitAt, hlook]
  cases rest with
  | nil => simp [StartsFraction]
  | cons y rest =>
      rw [Bool.and_eq_true, Bool.and_eq_true, Bool.and_eq_true, beq_iff_eq, bne_iff_ne,
        List.all_eq_true]
      constructor
      · rintro ⟨⟨⟨hpoint, hword⟩, hdigits⟩, hdigit⟩
        exact ⟨hword, hdigits, y.1, charsOf rest, by rw [hpoint, charsOf_cons], hdigit⟩
      · rintro ⟨hword, hdigits, d, after, hfraction, hdigit⟩
        obtain ⟨hpoint, hafter⟩ := List.cons.inj hfraction
        obtain ⟨rfl, -⟩ := List.cons.inj hafter
        exact ⟨⟨⟨hpoint, hword⟩, hdigits⟩, hdigit⟩

/-- A word character goes on with the word, or begins one. -/
theorem step?_word (hc : isWordChar c = true) :
    step? lexicon lines text ⟨place, word, start, found⟩ =
      some (extend ⟨place, word, start, found⟩ c) := by
  obtain ⟨hspace, hpunctuation⟩ := isWordChar_iff.mp hc
  rw [step?, h.look_cons]
  simp only [hpunctuation, hspace, Bool.false_eq_true, if_false, ite_self]

/-- A point within a number goes on with the word. -/
theorem step?_point (hword : word ≠ []) (hdigits : ∀ d ∈ word, d.isDigit = true)
    (hfraction : StartsFraction (c :: charsOf rest)) :
    step? lexicon lines text ⟨place, word, start, found⟩ =
      some (extend ⟨place, word, start, found⟩ c) := by
  rw [step?, h.look_cons]
  exact if_pos ((isPoint_eq_true_iff h).mpr ⟨hword, hdigits, hfraction⟩)

/-- A punctuation character stands for itself if no word was begun. -/
theorem step?_mark (hc : isPunctuation c = true) :
    step? lexicon lines text ⟨place, [], start, found⟩ =
      mark? lexicon lines text c ⟨place, [], start, found⟩ := by
  have hpoint : ¬ isPoint ⟨place, [], start, found⟩ c = true :=
    fun hpoint => ((isPoint_eq_true_iff h).mp hpoint).1 rfl
  rw [step?, h.look_cons]
  dsimp only
  rw [if_neg hpoint, if_pos hc, flush?, if_pos rfl, Option.bind_some]

/-- A whitespace character stands for itself if no word was begun. -/
theorem step?_space (hc : isWhitespace c = true) :
    step? lexicon lines text ⟨place, [], start, found⟩ =
      some (read lexicon lines (.space c) 1 ⟨place, [], start, found⟩) := by
  have hpoint : ¬ isPoint ⟨place, [], start, found⟩ c = true :=
    fun hpoint => ((isPoint_eq_true_iff h).mp hpoint).1 rfl
  rw [step?, h.look_cons]
  dsimp only
  rw [if_neg hpoint, if_neg (by simp [isPunctuation_of_isWhitespace hc]), if_pos hc, flush?,
    if_pos rfl, Option.map_some]

/-- Any other character ends the word, and then stands for itself. -/
theorem step?_of_ends (hc : isWordChar c = false)
    (hnumber : ¬ ((∀ d ∈ word, d.isDigit = true) ∧ StartsFraction (c :: charsOf rest))) :
    step? lexicon lines text ⟨place, word, start, found⟩ =
      (flush? lexicon lines text ⟨place, word, start, found⟩).bind
        (step? lexicon lines text) := by
  have hpoint : ¬ isPoint ⟨place, word, start, found⟩ c = true :=
    fun hpoint => hnumber ((isPoint_eq_true_iff h).mp hpoint).2
  rw [step?, h.look_cons]
  dsimp only
  rw [if_neg hpoint]
  cases hpunctuation : isPunctuation c with
  | true =>
      rw [if_pos rfl]
      refine Option.bind_congr fun next hnext => ?_
      obtain ⟨found, rfl⟩ := exists_of_flush? hnext
      exact (step?_mark h hpunctuation).symm
  | false =>
      have hspace : isWhitespace c = true := by
        simpa [isWordChar, hpunctuation] using hc
      rw [if_neg Bool.false_ne_true, if_pos hspace, Option.map_eq_bind]
      refine Option.bind_congr fun next hnext => ?_
      obtain ⟨found, rfl⟩ := exists_of_flush? hnext
      exact (step?_space h hspace).symm

/-- A punctuation character that starts an operator of two characters takes both. -/
theorem mark?_pair {d : Char} {b : Option Int} {after : List (Cell (Option Int))}
    (hrest : rest = (d, b) :: after) (hop : String.ofList [c, d] ∈ lexicon.operators) :
    mark? lexicon lines text c ⟨place, word, start, found⟩ = label.map fun origin =>
      read lexicon lines (.mark [c, d] origin) 2 ⟨place, word, start, found⟩ := by
  have horigin : text.originAt? place.index = label := h.originAt?_cons
  have htwo : place.nextTwo = String.ofList [c, d] := by rw [h.nextTwo_eq, hrest]; rfl
  have hpair : (String.ofList [c, d]).length = 2 := String.length_ofList
  rw [mark?, horigin]
  simp only [htwo, hpair, hop, and_self, if_true, String.toList_ofList]

/-- Any other punctuation character is taken alone. -/
theorem mark?_single
    (hop : ∀ d ∈ (charsOf rest).head?, String.ofList [c, d] ∉ lexicon.operators) :
    mark? lexicon lines text c ⟨place, word, start, found⟩ = label.map fun origin =>
      read lexicon lines (.mark [c] origin) 1 ⟨place, word, start, found⟩ := by
  have horigin : text.originAt? place.index = label := h.originAt?_cons
  have htwo : ¬ (place.nextTwo.length = 2 ∧ place.nextTwo ∈ lexicon.operators) := by
    rw [h.nextTwo_eq]
    cases rest with
    | nil => simp
    | cons y after => exact fun hpair => hop y.1 rfl hpair.2
  rw [mark?, horigin]
  simp only [htwo, if_false]

end Step

/-! ### Through a word and out of it -/

/-- A walk goes on with a word up to the end of a run of word characters. -/
theorem run?_word {run rest : List (Cell (Option Int))} (h : text.Ahead place (run ++ rest))
    (hrun : ∀ c ∈ charsOf run, isWordChar c = true) (hword : word ≠ []) :
    ∃ next, text.Ahead next rest ∧
      (walk lexicon lines text).run? ⟨place, word, start, found⟩ =
        (walk lexicon lines text).run? ⟨next, word ++ charsOf run, start, found⟩ := by
  induction run generalizing place word with
  | nil => exact ⟨place, h, by rw [charsOf_nil, List.append_nil]⟩
  | cons x run ih =>
      obtain ⟨c, label⟩ := x
      obtain ⟨hc, hrun⟩ := List.forall_mem_cons.mp hrun
      have hstep : (walk lexicon lines text).step? ⟨place, word, start, found⟩ =
          some ⟨place.move 1, word ++ [c], start, found⟩ := by
        rw [walk_step?, step?_word h hc, extend, if_neg hword]
      have hnil : word ++ [c] ≠ [] := List.append_ne_nil_of_right_ne_nil _ (List.cons_ne_nil c [])
      obtain ⟨next, hnext, heq⟩ := ih h.move_one hrun hnil
      refine ⟨next, hnext, ?_⟩
      rw [Walk.run?_of_step h.isAtEnd_cons hstep, heq, charsOf_cons, List.append_assoc]
      rfl

/-- A walk that has begun no word begins one at a word character. -/
theorem run?_begin {c : Char} {a : Option Int} {run rest : List (Cell (Option Int))}
    (h : text.Ahead place ((c, a) :: (run ++ rest)))
    (hrun : ∀ d ∈ c :: charsOf run, isWordChar d = true) :
    ∃ next, text.Ahead next rest ∧
      (walk lexicon lines text).run? ⟨place, [], start, found⟩ =
        (walk lexicon lines text).run? ⟨next, c :: charsOf run, place.index, found⟩ := by
  obtain ⟨hc, hrun⟩ := List.forall_mem_cons.mp hrun
  have hstep : (walk lexicon lines text).step? ⟨place, [], start, found⟩ =
      some ⟨place.move 1, [c], place.index, found⟩ := step?_word h hc
  have hafter : text.Ahead (place.move 1) (run ++ rest) := h.move_one
  obtain ⟨next, hnext, heq⟩ := run?_word hafter hrun (List.cons_ne_nil c [])
  exact ⟨next, hnext, (Walk.run?_of_step h.isAtEnd_cons hstep).trans heq⟩

/-- A walk that has begun no word goes through digits, a point, and the run after it. -/
theorem run?_decimal {c : Char} {a b : Option Int} {run fraction rest : List (Cell (Option Int))}
    (h : text.Ahead place ((c, a) :: (run ++ ('.', b) :: (fraction ++ rest))))
    (hdigits : ∀ d ∈ c :: charsOf run, d.isDigit = true)
    (hfraction : StartsFraction ('.' :: charsOf fraction))
    (hrun : ∀ d ∈ charsOf fraction, isWordChar d = true) :
    ∃ next, text.Ahead next rest ∧
      (walk lexicon lines text).run? ⟨place, [], start, found⟩ =
        (walk lexicon lines text).run?
          ⟨next, c :: (charsOf run ++ '.' :: charsOf fraction), place.index, found⟩ := by
  obtain ⟨point, hpoint, heq⟩ := run?_begin h fun d hd => isWordChar_of_isDigit (hdigits d hd)
  have hstarts : StartsFraction ('.' :: charsOf (fraction ++ rest)) := by
    rw [charsOf_append]
    exact hfraction.append (charsOf rest)
  have hstep : (walk lexicon lines text).step? ⟨point, c :: charsOf run, place.index, found⟩ =
      some ⟨point.move 1, c :: charsOf run ++ ['.'], place.index, found⟩ :=
    step?_point hpoint (List.cons_ne_nil _ _) hdigits hstarts
  have hafter : text.Ahead (point.move 1) (fraction ++ rest) := hpoint.move_one
  obtain ⟨next, hnext, heq'⟩ := run?_word hafter hrun (List.cons_ne_nil c (charsOf run ++ ['.']))
  refine ⟨next, hnext, ?_⟩
  rw [heq, Walk.run?_of_step hpoint.isAtEnd_cons hstep]
  refine heq'.trans ?_
  rw [List.cons_append, List.append_assoc]
  rfl

/-- Where a word ends, a walk reports it, and goes on without one. -/
theorem finish?_run?_of_ends {rest : List (Cell (Option Int))} (h : text.Ahead place rest)
    (hhead : ∀ c ∈ (charsOf rest).head?, isWordChar c = false)
    (hnumber : ¬ ((∀ d ∈ word, d.isDigit = true) ∧ StartsFraction (charsOf rest))) :
    ((walk lexicon lines text).run? ⟨place, word, start, found⟩).bind
        (finish? lexicon lines text) =
      (flush? lexicon lines text ⟨place, word, start, found⟩).bind fun s =>
        ((walk lexicon lines text).run? s).bind (finish? lexicon lines text) := by
  cases rest with
  | nil =>
      -- the end of the text ends the word, too
      rw [Walk.run?_of_isAtEnd h.isAtEnd_nil, Option.bind_some, finish?, Option.map_eq_bind]
      refine Option.bind_congr fun next hnext => ?_
      obtain ⟨found, rfl⟩ := exists_of_flush? hnext
      rw [Walk.run?_of_isAtEnd h.isAtEnd_nil]
      rfl
  | cons x rest =>
      obtain ⟨c, label⟩ := x
      rw [Walk.run?_of_not_isAtEnd h.isAtEnd_cons, walk_step?,
        step?_of_ends h (hhead c rfl) hnumber, Option.bind_assoc, Option.bind_assoc]
      refine Option.bind_congr fun next hnext => ?_
      obtain ⟨found, rfl⟩ := exists_of_flush? hnext
      rw [Walk.run?_of_not_isAtEnd h.isAtEnd_cons, walk_step?, Option.bind_assoc]

/-! ### The whole walk -/

/-- The first segment must have its label, and is noted before the others. -/
private theorem mapM_labelled?_cons (segment : Segment (Option Int))
    (segments : List (Segment (Option Int))) :
    ((segment :: segments).mapM Segment.labelled?).map (found ++ ofSegments lexicon lines ·) =
      segment.labelled?.bind fun first => (segments.mapM Segment.labelled?).map
        (found.note (first.outcome lexicon lines) ++ ofSegments lexicon lines ·) := by
  have hnote : ∀ (first : Segment Int) (others : List (Segment Int)),
      found.note (first.outcome lexicon lines) ++ ofSegments lexicon lines others =
        found ++ ofSegments lexicon lines (first :: others) := by
    intro first others
    rw [note_eq, append_assoc, ofSegments_cons]
  rw [List.mapM_cons]
  cases segment.labelled? with
  | none => rfl
  | some first =>
      cases segments.mapM Segment.labelled? with
      | none => rfl
      | some others => exact congrArg some (hnote first others).symm

/-- A walk finds the segments into which what comes next is divided, and adds what they yield to
what was found before. -/
theorem finish?_run?_of_divided {cells : List (Cell (Option Int))}
    {segments : List (Segment (Option Int))} (hsegments : Divided lexicon cells segments)
    (h : text.Ahead place cells) :
    ((walk lexicon lines text).run? ⟨place, [], start, found⟩).bind
        (finish? lexicon lines text) =
      (segments.mapM Segment.labelled?).map (found ++ ofSegments lexicon lines ·) := by
  -- by how the cells are divided: between two segments the walk has begun no word
  induction hsegments generalizing place start found with
  | nil =>
      rw [Walk.run?_of_isAtEnd h.isAtEnd_nil]
      exact congrArg some (Lexing.append_empty found).symm
  | @space c a rest segments hc _ ih =>
      have hstep : (walk lexicon lines text).step? ⟨place, [], start, found⟩ = _ := step?_space h hc
      rw [Walk.run?_of_step h.isAtEnd_cons hstep, read, ih h.move_one, mapM_labelled?_cons]
      rfl
  | @pair c d a b rest segments hc hop _ ih =>
      rw [Walk.run?_of_not_isAtEnd h.isAtEnd_cons, walk_step?, step?_mark h hc, mark?_pair h rfl hop,
        mapM_labelled?_cons]
      cases a with
      | none => rfl
      | some origin => exact ih h.move_two
  | @single c a rest segments hc hop _ ih =>
      rw [Walk.run?_of_not_isAtEnd h.isAtEnd_cons, walk_step?, step?_mark h hc, mark?_single h hop,
        mapM_labelled?_cons]
      cases a with
      | none => rfl
      | some origin => exact ih h.move_one
  | @word c a run rest segments hrun hnumber _ ih =>
      have horigin : text.originAt? place.index = a := h.originAt?_cons
      obtain ⟨next, hnext, hword⟩ := run?_begin h hrun.1
      rw [hword, finish?_run?_of_ends hnext hrun.2 hnumber, flush?, if_neg (List.cons_ne_nil _ _),
        horigin, mapM_labelled?_cons]
      cases a with
      | none => rfl
      | some origin => exact ih hnext
  | @decimal c a b run fraction rest segments hdigits hfraction hrun _ ih =>
      have horigin : text.originAt? place.index = a := h.originAt?_cons
      have hnumber : ¬ ((∀ d ∈ c :: (charsOf run ++ '.' :: charsOf fraction), d.isDigit = true) ∧
          StartsFraction (charsOf rest)) :=
        fun ⟨hall, _⟩ => absurd (hall '.' (by simp)) (by decide)
      obtain ⟨next, hnext, hword⟩ := run?_decimal h hdigits hfraction hrun.1
      rw [hword, finish?_run?_of_ends hnext hrun.2 hnumber, flush?, if_neg (List.cons_ne_nil _ _),
        horigin, mapM_labelled?_cons]
      cases a with
      | none => rfl
      | some origin => exact ih hnext

/-- **A scan lexes the text.** A walk from the start of a text yields its tokens, its problems and
its line ends, and fails just where lexing fails. -/
theorem finish?_run?_start (lexicon : Lexicon) (lines : LineMap) (text : Text) :
    ((walk lexicon lines text).run? { place := .ofString text.content }).bind
        (finish? lexicon lines text) = text.lexing? lexicon lines := by
  rw [finish?_run?_of_divided (divided_segments lexicon text.padded) text.ahead_start, Text.lexing?]
  exact congrArg (Option.map · _) (funext fun segments => Lexing.empty_append _)

end Scan

end Lexing

end CLex
