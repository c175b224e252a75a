import CLex.Analysis
import CLex.Json

/-!
# Documents

The JSON document of an analysis: the path, the tokens, the problems and the statistics, in
this order. Offsets and reasons are left out.

## Main definitions

* `document`: the JSON value of an analysis.
* `renderDocument`: its text.
-/

namespace CLex.Report

/-- The members for a line and a column. -/
def positionMembers (position : Position) : List (String × Json) :=
  [("line", .number position.line), ("column", .number position.column)]

/-- The object of a token. -/
def tokenJson (token : Token) : Json :=
  .object <|
    [("kind", .string token.kind.label), ("lexeme", .string token.lexeme)] ++
      positionMembers token.position

/-- The object of a diagnostic. -/
def diagnosticJson (diagnostic : Diagnostic) : Json :=
  .object <|
    [("kind", .string diagnostic.cause.label), ("message", .string diagnostic.cause.message),
      ("lexeme", .string diagnostic.cause.lexeme)] ++
      positionMembers diagnostic.position

/-- The object of a tally, with a member for each kind in order. -/
def tallyJson (tally : Tally) : Json :=
  .object <| Token.Kind.all.map fun kind => (kind.label, .number (tally.count kind))

/-- The document of an analysis. -/
def document (path : String) (analysis : Analysis) : Json :=
  .object
    [("file", .string path),
      ("tokens", .array (analysis.tokens.map tokenJson)),
      ("diagnostics", .array (analysis.diagnostics.map diagnosticJson)),
      ("statistics", tallyJson analysis.statistics)]

/-- The text of the document of an analysis. -/
def renderDocument (path : String) (analysis : Analysis) : String :=
  (document path analysis).render

end CLex.Report
