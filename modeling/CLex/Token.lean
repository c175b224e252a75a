import CLex.Character
import CLex.Position
import CLex.Text.Quoted

/-!
# Tokens

A token is a lexeme of one of four kinds at a position. A word is a keyword if the set of
keywords says so, else a numeric constant or an identifier if it is spelled like one; other
words are no tokens.

## Main definitions

* `Token.Kind`: the kinds, with their labels.
* `Token`: kind, lexeme and position.
* `isNumericConstant`, `isIdentifier`: how words are spelled.
* `Token.Kind.ofWord?`: the kind of a word.
-/

namespace CLex

/-! ### Kinds -/

/-- The kinds of tokens, in the order in which they are listed. -/
inductive Token.Kind where
  /-- A reserved word. -/
  | keyword
  /-- One or two punctuation characters that form an operator. -/
  | operator
  /-- A decimal number with or without a fraction. -/
  | numericConstant
  /-- A name. -/
  | identifier
deriving DecidableEq, Repr, Inhabited

namespace Token.Kind

/-- All kinds, in order. -/
def all : List Kind :=
  [keyword, operator, numericConstant, identifier]

/-- How a kind is displayed. -/
def label : Kind → String
  | keyword => "Keyword"
  | operator => "Operator"
  | numericConstant => "NumericConstant"
  | identifier => "Identifier"

/-- The kind that is displayed in the given way. -/
def ofLabel? (label : String) : Option Kind :=
  all.find? (·.label == label)

/-- What is said of a label that belongs to no kind. -/
def unknownLabelMessage (label : String) : String :=
  Text.Quoted.quote label ++ " is not a valid TokenKind"

theorem mem_all (kind : Kind) : kind ∈ all := by
  cases kind <;> decide

/-- A label determines its kind. -/
theorem ofLabel?_label (kind : Kind) : ofLabel? kind.label = some kind := by
  cases kind <;> decide

end Token.Kind

/-! ### Tokens -/

/-- A lexeme of a kind at a position. -/
structure Token where
  /-- The kind. -/
  kind : Token.Kind
  /-- The characters. -/
  lexeme : String
  /-- Where the first of them stands. -/
  position : Position := {}
deriving DecidableEq, Repr, Inhabited

/-! ### Spelling -/

/-- Digits, or digits, a point and digits; all of them ASCII. -/
def isNumericConstant (word : List Char) : Bool :=
  !(word.takeWhile Char.isDigit).isEmpty &&
    match word.dropWhile Char.isDigit with
    | [] => true
    | point :: fraction => point == '.' && !fraction.isEmpty && fraction.all Char.isDigit

/-- An ASCII letter or underscore, and then ASCII letters, digits and underscores. -/
def isIdentifier : List Char → Bool
  | [] => false
  | first :: rest => isIdentifierStart first && rest.all isIdentifierRest

/-- The kind of a word: a keyword whatever its spelling, else a number or a name. -/
def Token.Kind.ofWord? (keywords : List String) (word : String) : Option Token.Kind :=
  if word ∈ keywords then some .keyword
  else if isNumericConstant word.toList then some .numericConstant
  else if isIdentifier word.toList then some .identifier
  else none

end CLex
