/-!
# Source Files

A source file is a sequence of bytes in UTF-8. A carriage return, with or without a line feed
after it, ends a line like a line feed. A byte order mark is a character like any other.

## Main definitions

* `unifyNewlines`: a text with line feeds only at the ends of its lines.
* `decodeSource?`: the source in a file.

## Main results

* `unifyNewlines_return_newline`, `unifyNewlines_return`, `unifyNewlines_of_ne`: what becomes of
  the three ends of a line, and of any other character.
* `return_notMem_unifyNewlines`: no carriage return is left.
-/

namespace CLex.CommandLine

/-! ### Line ends -/

/-- What becomes of a character after a given one: a carriage return becomes a line feed, and
a line feed goes if it follows a carriage return. -/
def unifyNewline? (previous : Option Char) (c : Char) : Option Char :=
  if c = '\r' then some '\n'
  else if c = '\n' ∧ previous = some '\r' then none
  else some c

/-- What becomes of a text after a given character. -/
def unifyAfter (previous : Option Char) (chars : List Char) : List Char :=
  ((previous :: chars.map some).zip chars).filterMap fun (p, c) => unifyNewline? p c

/-- The text in which every line ends with a line feed alone. -/
def unifyNewlines (chars : List Char) : List Char :=
  unifyAfter none chars

/-- The source in a file, if the bytes are valid. -/
def decodeSource? (bytes : ByteArray) : Option String :=
  (String.fromUTF8? bytes).map fun text => String.ofList (unifyNewlines text.toList)

/-! ### The equations of `unifyNewlines` -/

/-- The first character is replaced, and is then the predecessor of the second. -/
theorem unifyAfter_cons (previous : Option Char) (c : Char) (cs : List Char) :
    unifyAfter previous (c :: cs) =
      (unifyNewline? previous c).toList ++ unifyAfter (some c) cs := by
  simp only [unifyAfter, List.map_cons, List.zip_cons_cons, List.filterMap_cons]
  cases unifyNewline? previous c <;> simp

/-- The predecessor matters only if it is a carriage return before a line feed. -/
theorem unifyAfter_eq {previous : Option Char} {cs : List Char}
    (h : previous ≠ some '\r' ∨ cs.head? ≠ some '\n') :
    unifyAfter previous cs = unifyNewlines cs := by
  cases cs with
  | nil => rfl
  | cons c cs =>
    have hfirst : unifyNewline? previous c = unifyNewline? none c := by
      have hpair : ¬ (c = '\n' ∧ previous = some '\r') := by
        rintro ⟨rfl, rfl⟩
        exact h.elim (fun h => h rfl) fun h => h rfl
      simp [unifyNewline?, hpair]
    rw [unifyNewlines, unifyAfter_cons, unifyAfter_cons, hfirst]

@[simp] theorem unifyNewlines_nil : unifyNewlines [] = [] := rfl

/-- A carriage return and a line feed become one line feed. -/
theorem unifyNewlines_return_newline (cs : List Char) :
    unifyNewlines ('\r' :: '\n' :: cs) = '\n' :: unifyNewlines cs := by
  rw [unifyNewlines, unifyAfter_cons, unifyAfter_cons, unifyAfter_eq (.inl (by decide))]
  rfl

/-- A carriage return alone becomes a line feed. -/
theorem unifyNewlines_return {cs : List Char} (h : cs.head? ≠ some '\n') :
    unifyNewlines ('\r' :: cs) = '\n' :: unifyNewlines cs := by
  rw [unifyNewlines, unifyAfter_cons, unifyAfter_eq (.inr h)]
  rfl

/-- Any other character stays, a line feed alone among them. -/
theorem unifyNewlines_of_ne {c : Char} (h : c ≠ '\r') (cs : List Char) :
    unifyNewlines (c :: cs) = c :: unifyNewlines cs := by
  rw [unifyNewlines, unifyAfter_cons, unifyAfter_eq (.inl (by simpa using h))]
  simp [unifyNewline?, h]

/-- No carriage return is left. -/
theorem return_notMem_unifyNewlines (cs : List Char) : '\r' ∉ unifyNewlines cs := by
  intro hreturn
  rw [unifyNewlines, unifyAfter, List.mem_filterMap] at hreturn
  obtain ⟨⟨previous, c⟩, -, hc⟩ := hreturn
  simp only [unifyNewline?] at hc
  split at hc
  · exact absurd (Option.some.inj hc) (by decide)
  · next hne =>
    split at hc
    · exact absurd hc (by simp)
    · exact hne (Option.some.inj hc)

end CLex.CommandLine
