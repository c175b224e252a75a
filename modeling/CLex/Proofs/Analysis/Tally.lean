import CLex.Analysis

/-!
# Counting Kinds

The statistics of a source depend on nothing but the kinds of its tokens, and the statistics
of two parts add up.

## Main results

* `Tally.ofTokens_congr`: tokens of the same kinds.
* `Tally.ofTokens_append`: the tokens of two parts.
-/

namespace CLex

namespace Tally

/-- The sum of two tallies, kind by kind. -/
def add (s t : Tally) : Tally :=
  ofCounts fun kind => s.count kind + t.count kind

instance : Add Tally := ⟨add⟩

/-- The counts of a sum are the sums of the counts. -/
theorem count_add (s t : Tally) (kind : Token.Kind) :
    (s + t).count kind = s.count kind + t.count kind :=
  count_ofCounts _ kind

/-- Tallies with the same counts are the same. -/
theorem ext_count {s t : Tally} (h : ∀ kind, s.count kind = t.count kind) : s = t := by
  obtain ⟨keyword, operator, numericConstant, identifier⟩ := s
  obtain rfl : keyword = t.keyword := h .keyword
  obtain rfl : operator = t.operator := h .operator
  obtain rfl : numericConstant = t.numericConstant := h .numericConstant
  obtain rfl : identifier = t.identifier := h .identifier
  rfl

/-- Tokens are counted by their kinds. -/
theorem count_ofTokens (tokens : List Token) (kind : Token.Kind) :
    (ofTokens tokens).count kind = ((tokens.map (·.kind)).count kind : Nat) := by
  rw [ofTokens, count_ofCounts, List.count, List.countP_map]
  rfl

/-- Tokens of the same kinds have the same statistics. -/
theorem ofTokens_congr {ts us : List Token} (h : ts.map (·.kind) = us.map (·.kind)) :
    ofTokens ts = ofTokens us :=
  ext_count fun kind => by rw [count_ofTokens, count_ofTokens, h]

/-- The statistics of two parts add up. -/
theorem ofTokens_append (ts us : List Token) : ofTokens (ts ++ us) = ofTokens ts + ofTokens us := by
  refine ext_count fun kind => ?_
  rw [count_add, count_ofTokens, count_ofTokens, count_ofTokens, List.map_append,
    List.count_append, Int.natCast_add]

end Tally

end CLex
