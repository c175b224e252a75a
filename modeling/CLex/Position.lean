import CLex.UpperBound

/-!
# Positions in a Source

A position is a line and a column, both counted from one. A **line map** records where the
lines of a source start, so that the position of an offset is found by a binary search.
Offsets outside the source are moved to its nearest end.

## Main definitions

* `Position`: line and column; `Position.after` is where a text ends.
* `LineMap`: the line starts of a source; `LineMap.locate` is the position of an offset.

## Main results

* `LineMap.locate_ofList`: the position of an offset is where the text before it ends.
-/

namespace CLex

/-! ### Positions -/

/-- A line and a column. Both count from one in a source; `0:0` stands for no position. -/
structure Position where
  /-- The line. -/
  line : Int := 0
  /-- The column. -/
  column : Int := 0
deriving DecidableEq, Repr, Inhabited

namespace Position

/-- Line and column, separated by a colon. -/
def render (p : Position) : String :=
  toString p.line ++ ":" ++ toString p.column

/-- The length of the last line of a text. -/
def lastLineLength (text : List Char) : Nat :=
  (text.reverse.takeWhile (· != '\n')).length

/-- Where a text ends: on the line after its last line feed, after the characters that follow
that line feed. -/
def after (text : List Char) : Position where
  line := text.count '\n' + 1
  column := lastLineLength text + 1

end Position

/-! ### Line maps -/

/-- Where the lines of a source start, and where the source ends. -/
structure LineMap where
  /-- The offset of the first character of each line, in increasing order. -/
  starts : Array Nat
  /-- The length of the source. -/
  size : Nat
deriving DecidableEq, Repr

namespace LineMap

/-- The offsets after the line feeds of a text that starts at a given offset. -/
def lineEnds (offset : Nat) (text : List Char) : List Nat :=
  (text.zipIdx offset).filterMap fun (c, i) => if c = '\n' then some (i + 1) else none

/-- The line map of a source: a line starts at its beginning and after every line feed. -/
def ofList (source : List Char) : LineMap where
  starts := (0 :: lineEnds 0 source).toArray
  size := source.length

/-- The line map of a source. -/
def ofString (source : String) : LineMap :=
  ofList source.toList

/-- The offset within the source that is nearest to the given one. -/
def clamp (lines : LineMap) (offset : Int) : Nat :=
  min offset.toNat lines.size

/-- The position of an offset within the source: its line is the last one that starts no
later, its column the distance from that start. -/
def locateWithin (lines : LineMap) (offset : Nat) : Position :=
  let line := upperBound lines.starts offset
  { line, column := (offset : Int) - (lines.starts.getD (line - 1) 0 : Nat) + 1 }

/-- The position of any offset. -/
def locate (lines : LineMap) (offset : Int) : Position :=
  lines.locateWithin (lines.clamp offset)

/-- The position of an offset that may be missing, which is then `0:0`. -/
def locate? (lines : LineMap) : Option Int → Position
  | none => {}
  | some offset => lines.locate offset

/-! ### The line starts -/

@[simp] theorem lineEnds_nil (offset : Nat) : lineEnds offset [] = [] := rfl

theorem lineEnds_newline (offset : Nat) (text : List Char) :
    lineEnds offset ('\n' :: text) = (offset + 1) :: lineEnds (offset + 1) text := by
  simp [lineEnds, List.zipIdx_cons]

theorem lineEnds_of_ne {c : Char} (h : c ≠ '\n') (offset : Nat) (text : List Char) :
    lineEnds offset (c :: text) = lineEnds (offset + 1) text := by
  simp [lineEnds, List.zipIdx_cons, h]

/-- Lines end after the start of the text. -/
theorem lt_of_mem_lineEnds {offset n : Nat} {text : List Char} (h : n ∈ lineEnds offset text) :
    offset < n := by
  induction text generalizing offset with
  | nil => simp at h
  | cons c cs ih =>
    by_cases hc : c = '\n'
    · subst hc
      rw [lineEnds_newline, List.mem_cons] at h
      rcases h with rfl | h
      · omega
      · have := ih h
        omega
    · rw [lineEnds_of_ne hc] at h
      have := ih h
      omega

/-- Line ends increase. -/
theorem pairwise_lineEnds (offset : Nat) (text : List Char) :
    (lineEnds offset text).Pairwise (· < ·) := by
  induction text generalizing offset with
  | nil => simp
  | cons c cs ih =>
    by_cases hc : c = '\n'
    · subst hc
      rw [lineEnds_newline]
      exact List.pairwise_cons.2 ⟨fun n hn => lt_of_mem_lineEnds hn, ih _⟩
    · rw [lineEnds_of_ne hc]
      exact ih _

/-- The line starts of a source increase. -/
theorem pairwise_starts (source : List Char) :
    (ofList source).starts.toList.Pairwise (· < ·) :=
  List.pairwise_cons.2 ⟨fun _ hn => lt_of_mem_lineEnds hn, pairwise_lineEnds 0 source⟩

/-- As many lines end up to an offset as there are line feeds before it. -/
private theorem countP_lineEnds (offset n : Nat) (text : List Char) :
    (lineEnds offset text).countP (decide <| · ≤ offset + n) = (text.take n).count '\n' := by
  induction text generalizing offset n with
  | nil => simp
  | cons c cs ih =>
    cases n with
    | zero =>
      rw [List.take_zero, List.count_nil, List.countP_eq_zero]
      intro m hm
      have := lt_of_mem_lineEnds hm
      simp only [decide_eq_true_eq]
      omega
    | succ n =>
      have hshift : offset + (n + 1) = offset + 1 + n := by omega
      rw [hshift, List.take_succ_cons]
      by_cases hc : c = '\n'
      · subst hc
        rw [lineEnds_newline, List.countP_cons, ih, List.count_cons]
        simp
      · rw [lineEnds_of_ne hc, ih, List.count_cons]
        simp [hc]

/-! ### The last line of a text -/

private theorem lastLineLength_of_notMem {text : List Char} (h : '\n' ∉ text) :
    Position.lastLineLength text = text.length := by
  have hall : ∀ c ∈ text.reverse, (c != '\n') = true := by
    intro c hc
    rw [bne_iff_ne]
    rintro rfl
    exact h (List.mem_reverse.1 hc)
  have hself : (text.reverse ++ []).takeWhile (· != '\n') = text.reverse ++ [] :=
    List.takeWhile_append_of_pos hall
  rw [List.append_nil] at hself
  rw [Position.lastLineLength, hself, List.length_reverse]

private theorem lastLineLength_cons_of_mem {c : Char} {text : List Char} (h : '\n' ∈ text) :
    Position.lastLineLength (c :: text) = Position.lastLineLength text := by
  rw [Position.lastLineLength, List.reverse_cons, List.takeWhile_append]
  rw [if_neg]
  · rfl
  · intro hlen
    have hself := (List.takeWhile_prefix (· != '\n')).eq_of_length hlen
    have hall := List.all_takeWhile (p := (· != '\n')) (l := text.reverse)
    rw [hself, List.all_eq_true] at hall
    simpa using hall '\n' (List.mem_reverse.2 h)

private theorem lastLineLength_newline_cons {text : List Char} (h : '\n' ∉ text) :
    Position.lastLineLength ('\n' :: text) = text.length := by
  have hall : ∀ c ∈ text.reverse, (c != '\n') = true := by
    intro c hc
    rw [bne_iff_ne]
    rintro rfl
    exact h (List.mem_reverse.1 hc)
  rw [Position.lastLineLength, List.reverse_cons, List.takeWhile_append_of_pos hall]
  simp

/-- The last line that starts up to an offset, if the text itself starts on a line that starts
at `start`. -/
private theorem getD_lineEnds (start offset n : Nat) (text : List Char)
    (hn : n ≤ text.length) :
    (start :: lineEnds offset text).getD ((text.take n).count '\n') 0 =
      if '\n' ∈ text.take n then offset + n - Position.lastLineLength (text.take n)
      else start := by
  induction text generalizing start offset n with
  | nil => simp
  | cons c cs ih =>
    cases n with
    | zero => simp
    | succ n =>
      have hn' : n ≤ cs.length := by simpa using hn
      rw [List.take_succ_cons]
      by_cases hc : c = '\n'
      · subst hc
        have hlen : (cs.take n).length = n := List.length_take_of_le hn'
        rw [lineEnds_newline, List.count_cons_self, List.getD_cons_succ, ih _ _ _ hn',
          if_pos (List.mem_cons_self ..)]
        split
        · next h => rw [lastLineLength_cons_of_mem h]; omega
        · next h => rw [lastLineLength_newline_cons h, hlen]; omega
      · rw [lineEnds_of_ne hc, List.count_cons_of_ne hc, ih _ _ _ hn']
        simp only [List.mem_cons, Ne.symm hc, false_or]
        split
        · next h => rw [lastLineLength_cons_of_mem h]; omega
        · rfl

/-! ### Positions of offsets -/

/-- The line of an offset is counted by the line feeds before it. -/
theorem upperBound_starts (source : List Char) (n : Nat) :
    upperBound (ofList source).starts n = (source.take n).count '\n' + 1 := by
  rw [upperBound_eq_countP ((pairwise_starts source).imp Nat.le_of_lt)]
  have h := countP_lineEnds 0 n source
  rw [Nat.zero_add] at h
  simp [ofList, h]

/-- The position of an offset within a source is where the text before it ends. -/
theorem locateWithin_ofList {source : List Char} {n : Nat} (h : n ≤ source.length) :
    (ofList source).locateWithin n = Position.after (source.take n) := by
  have hstart := getD_lineEnds 0 0 n source h
  have hlen : (source.take n).length = n := List.length_take_of_le h
  have hle : Position.lastLineLength (source.take n) ≤ n := by
    have := (List.takeWhile_prefix (· != '\n') (l := (source.take n).reverse)).length_le
    rw [List.length_reverse, hlen] at this
    exact this
  have hgetD : (ofList source).starts.getD ((source.take n).count '\n') 0 =
      n - Position.lastLineLength (source.take n) := by
    rw [ofList, Array.getD_eq_getD_getElem?, List.getElem?_toArray, ← List.getD_eq_getElem?_getD,
      hstart]
    split
    · rw [Nat.zero_add]
    · next hno => rw [lastLineLength_of_notMem hno, hlen]; omega
  simp only [locateWithin, Position.after, upperBound_starts, Nat.add_sub_cancel, hgetD,
    Position.mk.injEq]
  constructor
  · omega
  · omega

/-- The position of an offset is where the text before it ends. -/
theorem locate_ofList (source : List Char) (offset : Int) :
    (ofList source).locate offset =
      Position.after (source.take ((ofList source).clamp offset)) :=
  locateWithin_ofList (Nat.min_le_right ..)

end LineMap

end CLex
