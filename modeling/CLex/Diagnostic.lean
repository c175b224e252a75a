import CLex.Position
import CLex.Text.Quoted

/-!
# Diagnostics

A diagnostic says what is wrong with a source, and where. Two causes arise from reading a
source: characters that form no token, and a block comment that is not closed. A third one
carries a message of its own.

## Main definitions

* `Reason`, `Cause`: what is wrong; `Cause.message` words it.
* `Cause.Kind`: the kinds of causes, which have names of their own.
* `Diagnostic`: a cause at a place; `Diagnostic.render` is its line of output.

## Main results

* `Cause.Kind.label_injective`: a name determines its kind.
* `Diagnostic.warning_eq`, `Diagnostic.error_eq`: the lines that report a diagnostic.
-/

namespace CLex

/-! ### Causes -/

/-- Why characters form no token. A reason is known by its label alone, so that there may be
others than the two that arise from reading a source. -/
structure Reason where
  /-- The label. -/
  label : String
deriving DecidableEq, Repr, Inhabited

namespace Reason

/-- A punctuation character that is no operator. -/
def operator : Reason := ⟨"operator"⟩

/-- A word that is neither keyword nor number nor identifier. -/
def malformed : Reason := ⟨"malformed"⟩

end Reason

/-- What is wrong. -/
inductive Cause where
  /-- A problem in the words of a message. -/
  | general (message lexeme : String)
  /-- Characters that form no token. -/
  | unrecognized (lexeme : String) (reason : Reason)
  /-- A block comment that is opened and not closed. -/
  | unterminatedComment
deriving DecidableEq, Repr, Inhabited

namespace Cause

/-- The kinds of causes. -/
inductive Kind where
  /-- Any problem. -/
  | general
  /-- Characters that form no token. -/
  | unrecognized
  /-- An open block comment. -/
  | unterminatedComment
deriving DecidableEq, Repr, Inhabited

/-- The name of a kind. -/
def Kind.label : Kind → String
  | general => "LexError"
  | unrecognized => "UnrecognizedTokenError"
  | unterminatedComment => "UnterminatedCommentError"

/-- A name determines its kind. -/
theorem Kind.label_injective {k k' : Kind} (h : k.label = k'.label) : k = k' := by
  cases k <;> cases k' <;> first | rfl | exact absurd h (by decide)

/-- The kind of a cause. -/
def kind : Cause → Kind
  | general .. => .general
  | unrecognized .. => .unrecognized
  | unterminatedComment => .unterminatedComment

/-- The name of the kind of a cause. -/
def label (cause : Cause) : String :=
  cause.kind.label

/-- The characters in question. -/
def lexeme : Cause → String
  | general _ lexeme => lexeme
  | unrecognized lexeme _ => lexeme
  | unterminatedComment => "/*"

/-- What is wrong, in words. Characters of the source are quoted, so that they cannot break
the line of the message. -/
def message : Cause → String
  | general message _ => message
  | unrecognized lexeme reason =>
    if reason = .operator then "unrecognized character " ++ Text.Quoted.quote lexeme
    else "malformed token " ++ Text.Quoted.quote lexeme
  | unterminatedComment => "unterminated block comment"

/-- Why characters form no token, where that is the cause. -/
def reason? : Cause → Option Reason
  | unrecognized _ reason => some reason
  | _ => none

end Cause

/-! ### Diagnostics -/

/-- A cause, and where in the source it was found. -/
structure Diagnostic where
  /-- What is wrong. -/
  cause : Cause
  /-- The offset of the first character in question, if it is known. -/
  offset : Option Int := none
  /-- The line and the column of that character. -/
  position : Position := {}
deriving DecidableEq, Repr, Inhabited

namespace Diagnostic

/-- The diagnostic of an open block comment that starts at an offset. -/
def unterminatedComment (offset : Int) : Diagnostic where
  cause := .unterminatedComment
  offset := some offset

/-- The same cause at another position. -/
def moveTo (diagnostic : Diagnostic) (position : Position) : Diagnostic :=
  { diagnostic with position }

/-- The diagnostic with the position that a line map gives its offset. -/
def locate (lines : LineMap) (diagnostic : Diagnostic) : Diagnostic :=
  diagnostic.moveTo (lines.locate? diagnostic.offset)

/-- The line that reports a diagnostic at a level of severity. -/
def render (level : String) (diagnostic : Diagnostic) : String :=
  "[lex " ++ level ++ "] " ++ diagnostic.position.render ++ ": " ++ diagnostic.cause.message

/-- The line that reports a diagnostic and goes on. -/
def warning (diagnostic : Diagnostic) : String :=
  diagnostic.render "warning"

/-- The line that reports a diagnostic and gives up. -/
def error (diagnostic : Diagnostic) : String :=
  diagnostic.render "error"

/-- The level, the line and the column, and the message. -/
theorem render_eq (level : String) (d : Diagnostic) :
    d.render level = "[lex " ++ level ++ "] " ++ toString d.position.line ++ ":" ++
      toString d.position.column ++ ": " ++ d.cause.message := by
  simp only [render, Position.render, String.append_assoc]

theorem warning_eq (d : Diagnostic) :
    d.warning = "[lex warning] " ++ toString d.position.line ++ ":" ++
      toString d.position.column ++ ": " ++ d.cause.message := by
  have hlevel : "[lex " ++ "warning" ++ "] " = "[lex warning] " := by decide
  rw [warning, render_eq, hlevel]

theorem error_eq (d : Diagnostic) :
    d.error = "[lex error] " ++ toString d.position.line ++ ":" ++
      toString d.position.column ++ ": " ++ d.cause.message := by
  have hlevel : "[lex " ++ "error" ++ "] " = "[lex error] " := by decide
  rw [error, render_eq, hlevel]

end Diagnostic

end CLex
