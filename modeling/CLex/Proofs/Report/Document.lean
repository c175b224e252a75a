import CLex.Proofs.Analysis.Tally
import CLex.Proofs.Json.Reading
import CLex.Report.Document

/-!
# Reading Documents

The document of an analysis is plain ASCII, and it is lossless: a reader gets back all that was
put into it, in the same order. So two documents differ if the analyses differ in anything but
the offsets and reasons of diagnostics, or in the source itself.

## Main definitions

* `causeMembers`: what is read of a cause.
* `summary`: what a document tells of a diagnostic.

## Main results

* `document_eq_iff`: what a document tells of an analysis.
* `read_renderDocument`: what is read from the text of a document.
-/

namespace CLex.Report

/-! ### What the parts of a document tell -/

/-- A label determines its kind. -/
theorem label_injective {k k' : Token.Kind} (h : k.label = k'.label) : k = k' := by
  have hkind := congrArg Token.Kind.ofLabel? h
  rw [Token.Kind.ofLabel?_label, Token.Kind.ofLabel?_label] at hkind
  exact Option.some.inj hkind

/-- Different tokens have different objects. -/
theorem tokenJson_injective {t u : Token} (h : tokenJson t = tokenJson u) : t = u := by
  obtain ⟨kind, lexeme, line, column⟩ := t
  obtain ⟨kind', lexeme', line', column'⟩ := u
  simp only [tokenJson, positionMembers, List.cons_append, List.nil_append, Json.object.injEq,
    List.cons.injEq, Prod.mk.injEq, Json.string.injEq, Json.number.injEq, true_and, and_true]
    at h
  obtain ⟨hkind, rfl, rfl, rfl⟩ := h
  rw [label_injective hkind]

/-- Different tallies have different objects. -/
theorem tallyJson_injective {s t : Tally} (h : tallyJson s = tallyJson t) : s = t := by
  refine Tally.ext_count fun kind => ?_
  have hmembers := Json.object.inj h
  have hmember := List.map_inj_left.mp hmembers kind (Token.Kind.mem_all kind)
  exact Json.number.inj (Prod.mk.inj hmember).2

/-- What a document tells of a diagnostic: all but its offset and its reason. -/
def summary (d : Diagnostic) : Cause.Kind × String × String × Position :=
  (d.cause.kind, d.cause.message, d.cause.lexeme, d.position)

/-- The object of a diagnostic tells its summary. -/
theorem diagnosticJson_eq_iff {d e : Diagnostic} :
    diagnosticJson d = diagnosticJson e ↔ summary d = summary e := by
  obtain ⟨cause, offset, line, column⟩ := d
  obtain ⟨cause', offset', line', column'⟩ := e
  have hkind : cause.label = cause'.label ↔ cause.kind = cause'.kind :=
    ⟨fun h => Cause.Kind.label_injective h, congrArg _⟩
  simp only [diagnosticJson, positionMembers, summary, List.cons_append, List.nil_append,
    Json.object.injEq, List.cons.injEq, Prod.mk.injEq, Json.string.injEq, Json.number.injEq,
    Position.mk.injEq, true_and, and_true, hkind]

/-- The objects of diagnostics tell their summaries. -/
theorem map_diagnosticJson_eq_iff {ds es : List Diagnostic} :
    ds.map diagnosticJson = es.map diagnosticJson ↔ ds.map summary = es.map summary := by
  induction ds generalizing es with
  | nil => cases es <;> simp
  | cons d ds ih =>
      cases es with
      | nil => simp
      | cons e es => simp only [List.map_cons, List.cons.injEq, diagnosticJson_eq_iff, ih]

/-- Two documents are equal if all is that they tell. -/
theorem document_eq_iff {path path' : String} {a b : Analysis} :
    document path a = document path' b ↔
      path = path' ∧ a.tokens = b.tokens ∧
        a.diagnostics.map summary = b.diagnostics.map summary ∧ a.statistics = b.statistics := by
  have htokens : a.tokens.map tokenJson = b.tokens.map tokenJson ↔ a.tokens = b.tokens :=
    List.map_inj_right fun _ _ h => tokenJson_injective h
  have hstatistics : tallyJson a.statistics = tallyJson b.statistics ↔
      a.statistics = b.statistics :=
    ⟨tallyJson_injective, congrArg tallyJson⟩
  simp only [document, Json.object.injEq, List.cons.injEq, Prod.mk.injEq, Json.string.injEq,
    Json.array.injEq, true_and, and_true, htokens, map_diagnosticJson_eq_iff, hstatistics]

/-! ### Reading a document -/

/-- What is read of a cause: the name of its kind, its message and its lexeme. -/
def causeMembers : Cause → List (String × Json)
  | .general message lexeme =>
    [("kind", .string "LexError"), ("message", .string message), ("lexeme", .string lexeme)]
  | .unrecognized lexeme reason =>
    [("kind", .string "UnrecognizedTokenError"),
      ("message", .string ((if reason.label = "operator" then "unrecognized character "
        else "malformed token ") ++ Text.Quoted.quote lexeme)),
      ("lexeme", .string lexeme)]
  | .unterminatedComment =>
    [("kind", .string "UnterminatedCommentError"),
      ("message", .string "unterminated block comment"), ("lexeme", .string "/*")]

/-- The members of a cause, as they are read. -/
theorem causeMembers_eq (cause : Cause) :
    causeMembers cause =
      [("kind", .string cause.label), ("message", .string cause.message),
        ("lexeme", .string cause.lexeme)] := by
  cases cause with
  | general message lexeme => rfl
  | unrecognized lexeme reason =>
      have hreason : reason.label = "operator" ↔ reason = .operator := by
        cases reason
        simp [Reason.operator]
      simp only [causeMembers, Cause.message, hreason]
      split <;> rfl
  | unterminatedComment => rfl

/-- **Documents are lossless.** The document of any analysis at any path, of a source or not,
consists of printable ASCII and line feeds. What is read from it is an object with the path,
the tokens, the diagnostics and the counts of all kinds, in this order. So two documents are
equal only if the paths, the tokens and the counts are, and the diagnostics up to their offsets
and reasons: their kinds, messages, lexemes and positions are the same. -/
theorem read_renderDocument (path : String) (a : Analysis) :
    (∀ c ∈ (renderDocument path a).toList, c = '\n' ∨ 0x20 ≤ c.toNat ∧ c.toNat ≤ 0x7e) ∧
      Json.read (renderDocument path a) = some (.object
        [("file", .string path),
          ("tokens", .array (a.tokens.map fun t => .object
            [("kind", .string t.kind.label), ("lexeme", .string t.lexeme),
              ("line", .number t.position.line), ("column", .number t.position.column)])),
          ("diagnostics", .array (a.diagnostics.map fun d => .object
            (causeMembers d.cause ++
              [("line", .number d.position.line), ("column", .number d.position.column)]))),
          ("statistics", .object
            [("Keyword", .number (a.statistics.count .keyword)),
              ("Operator", .number (a.statistics.count .operator)),
              ("NumericConstant", .number (a.statistics.count .numericConstant)),
              ("Identifier", .number (a.statistics.count .identifier))])]) ∧
      ∀ path' b, renderDocument path a = renderDocument path' b ↔
        path = path' ∧ a.tokens = b.tokens ∧
          a.diagnostics.map summary = b.diagnostics.map summary ∧
          a.statistics = b.statistics := by
  refine ⟨fun c hc => ?_, ?_, fun path' b => ?_⟩
  · rw [renderDocument, Json.render, String.toList_ofList] at hc
    exact Json.isAscii_of_mem_print hc
  · simp only [renderDocument, Json.read_render, causeMembers_eq]
    rfl
  · rw [← document_eq_iff]
    exact ⟨fun h => Json.render_injective h, congrArg Json.render⟩

end CLex.Report
