/-!
# Lexicons

The two sets of words that a lexer consults: the keywords, which look like identifiers, and
the operators of one or two punctuation characters.
-/

namespace CLex

/-- The keywords and the operators of a language. -/
structure Lexicon where
  /-- The words that are keywords. -/
  keywords : List String
  /-- The strings that are operators. -/
  operators : List String
deriving DecidableEq, Repr

namespace Lexicon

/-- The 32 reserved words of C89. -/
def standardKeywords : List String :=
  ["auto", "break", "case", "char", "const", "continue", "default", "do",
   "double", "else", "enum", "extern", "float", "for", "goto", "if",
   "int", "long", "register", "return", "short", "signed", "sizeof", "static",
   "struct", "switch", "typedef", "union", "unsigned", "void", "volatile", "while"]

/-- The operators of at most two characters. Longer ones are read in parts. -/
def standardOperators : List String :=
  ["+", "-", "*", "/", "%", "=", "==", "!=", "<", ">", "<=", ">=",
   "&&", "||", "!", "&", "|", "^", "~", "<<", ">>", "+=", "-=", "*=",
   "/=", "%=", "&=", "|=", "^=", "++", "--", "->", "."]

/-- The lexicon of C89. -/
def standard : Lexicon where
  keywords := standardKeywords
  operators := standardOperators

/-- Whether characters form an operator. -/
def isOperator (lexicon : Lexicon) (chars : List Char) : Bool :=
  lexicon.operators.contains (String.ofList chars)

end Lexicon

end CLex
