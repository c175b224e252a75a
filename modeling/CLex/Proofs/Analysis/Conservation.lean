import Mathlib.Data.List.Sort
import CLex.Proofs.Analysis.Sighting
import CLex.Proofs.Position.Order

/-!
# Nothing Is Lost

An analysis takes a source apart into two lists, tokens and characters that form no token.
Their positions bring them back together: no two of them share a position, and in the order
of their positions they spell the code of the source without its whitespace.

## Main results

* `Sighted.pairwise_position`: later sightings have later positions.
* `merge_mentions_eq`: what the tokens and the problems of a source spell together.
-/

open scoped List

namespace CLex

/-! ### Mentions -/

/-- A lexeme, and the position at which it is reported. -/
structure Mention where
  /-- The lexeme. -/
  lexeme : String
  /-- The position. -/
  position : Position

/-- What a token says about the source. -/
def Token.mention (t : Token) : Mention :=
  ⟨t.lexeme, t.position⟩

/-- What a diagnostic says about the source. -/
def Diagnostic.mention (d : Diagnostic) : Mention :=
  ⟨d.cause.lexeme, d.position⟩

/-- What a sighting says about the source. -/
def Sighting.mention (s : Sighting) : Mention :=
  ⟨s.lexeme, s.position⟩

/-- What an analysis says about tokens. -/
def Analysis.tokenMentions (a : Analysis) : List Mention :=
  a.tokens.map Token.mention

/-- What an analysis says about characters that form no token. -/
def Analysis.problemMentions (a : Analysis) : List Mention :=
  (a.diagnostics.filter (·.cause.isUnrecognized)).map Diagnostic.mention

/-- The mentions of tokens and of problems, one after the other in the order of positions. -/
def mergeMentions (tokens problems : List Mention) : List Mention :=
  tokens.merge problems (fun m n => m.position ≤ n.position)

theorem Sighting.mention_of_getLeft? {s : Sighting} {t : Token} (h : s.seen.getLeft? = some t) :
    s.mention = t.mention := by
  rw [mention, lexeme, position, Sum.getLeft?_eq_some_iff.mp h]
  rfl

theorem Sighting.mention_of_getRight? {s : Sighting} {d : Diagnostic}
    (h : s.seen.getRight? = some d) : s.mention = d.mention := by
  rw [mention, lexeme, position, Sum.getRight?_eq_some_iff.mp h]
  rfl

/-- The tokens and the problems among sightings are all of them. -/
theorem perm_mentions (found : List Sighting) :
    (found.filterMap (·.seen.getLeft?)).map Token.mention ++
        (found.filterMap (·.seen.getRight?)).map Diagnostic.mention ~
      found.map Sighting.mention := by
  induction found with
  | nil => exact .nil
  | cons s found ih =>
      obtain ⟨seen, offsets⟩ := s
      cases seen with
      | inl t => exact ih.cons t.mention
      | inr d => exact List.perm_middle.trans (ih.cons d.mention)

/-! ### The order of mentions -/

/-- The characters of something that was seen lie within the source. -/
theorem Sighting.Stands.lt_length {source : String} {code : List Int} {s : Sighting}
    (h : s.Stands source code) {n : Nat} (hn : n ∈ s.offsets) : n < source.toList.length := by
  have hmem : source.toList[n]? ∈ s.lexeme.toList.map some :=
    h.spells ▸ List.mem_map_of_mem hn
  obtain ⟨c, -, hc⟩ := List.mem_map.mp hmem
  exact (List.getElem?_eq_some_iff.mp hc.symm).1

/-- Later sightings have later positions. -/
theorem Sighted.pairwise_position {source : String} {found : List Sighting}
    (h : Sighted source found) :
    (found.map Sighting.mention).Pairwise (fun m n => m.position < n.position) := by
  rw [List.pairwise_map]
  refine h.ordered.imp_of_mem fun {s t} hs ht hst => ?_
  obtain ⟨m, hm, hs', -⟩ := (h.stands s hs).starts
  obtain ⟨n, hn, ht', -⟩ := (h.stands t ht).starts
  have hmn := hst m (List.mem_of_mem_head? hm) n (List.mem_of_mem_head? hn)
  have hlt := (h.stands t ht).lt_length (List.mem_of_mem_head? hn)
  have hlocate : (LineMap.ofString source).locate m < (LineMap.ofString source).locate n :=
    LineMap.locate_lt_locate (by omega) (by omega) (by omega)
  simpa only [Sighting.mention, hs', ht'] using hlocate

/-- The tokens of a source are the tokens among its sightings. -/
theorem Sighted.tokenMentions_eq {source : String} {found : List Sighting}
    (h : Sighted source found) :
    (Analysis.ofSource source).tokenMentions =
      (found.filterMap (·.seen.getLeft?)).map Token.mention :=
  congrArg (List.map Token.mention) h.tokens_eq

/-- The characters of a source that form no token are the problems among its sightings. -/
theorem Sighted.problemMentions_eq {source : String} {found : List Sighting}
    (h : Sighted source found) :
    (Analysis.ofSource source).problemMentions =
      (found.filterMap (·.seen.getRight?)).map Diagnostic.mention :=
  congrArg (List.map Diagnostic.mention) h.filter_diagnostics

/-- What is selected from sightings comes in the order of positions. -/
private theorem Sighted.pairwise_selected {β : Type} {source : String} {found : List Sighting}
    (h : Sighted source found) {select : Sighting → Option β} {mention : β → Mention}
    (hmention : ∀ s b, select s = some b → s.mention = mention b) :
    ((found.filterMap select).map mention).Pairwise (fun m n => m.position < n.position) := by
  rw [List.pairwise_map]
  refine List.Pairwise.filterMap _ (fun s t hst b hb c hc => ?_)
    (List.pairwise_map.mp h.pairwise_position)
  rwa [hmention s b hb, hmention t c hc] at hst

/-- Tokens come in the order of their positions. -/
theorem Sighted.pairwise_tokenMentions {source : String} {found : List Sighting}
    (h : Sighted source found) :
    (Analysis.ofSource source).tokenMentions.Pairwise (fun m n => m.position < n.position) := by
  rw [h.tokenMentions_eq]
  exact h.pairwise_selected fun _ _ => Sighting.mention_of_getLeft?

/-- Characters that form no token come in the order of their positions. -/
theorem Sighted.pairwise_problemMentions {source : String} {found : List Sighting}
    (h : Sighted source found) :
    (Analysis.ofSource source).problemMentions.Pairwise (fun m n => m.position < n.position) := by
  rw [h.problemMentions_eq]
  exact h.pairwise_selected fun _ _ => Sighting.mention_of_getRight?

/-- The merge of two lists in the order of positions is in that order. -/
private theorem pairwise_mergeMentions {tokens problems : List Mention}
    (ht : tokens.Pairwise (fun m n => m.position < n.position))
    (hp : problems.Pairwise (fun m n => m.position < n.position)) :
    (mergeMentions tokens problems).Pairwise (fun m n => m.position ≤ n.position) := by
  have htokens : tokens.Pairwise (Order.Preimage Mention.position (· ≤ ·)) := ht.imp le_of_lt
  have hproblems : problems.Pairwise (Order.Preimage Mention.position (· ≤ ·)) := hp.imp le_of_lt
  exact htokens.merge hproblems

/-- Mentions that are a permutation of strictly ordered ones merge to these. -/
theorem mergeMentions_eq {tokens problems all : List Mention}
    (ht : tokens.Pairwise (fun m n => m.position < n.position))
    (hp : problems.Pairwise (fun m n => m.position < n.position))
    (hall : all.Pairwise (fun m n => m.position < n.position))
    (hperm : tokens ++ problems ~ all) : mergeMentions tokens problems = all := by
  have hmerge : mergeMentions tokens problems ~ all := (List.merge_perm_append _).trans hperm
  refine hmerge.eq_of_pairwise ?_ (pairwise_mergeMentions ht hp) (hall.imp le_of_lt)
  intro m n hm hn hmn hnm
  have hnodup : (all.map Mention.position).Nodup :=
    List.pairwise_map.mpr (hall.imp fun h => ne_of_lt h)
  exact List.inj_on_of_nodup_map hnodup (hmerge.subset hm) hn (le_antisymm hmn hnm)

/-! ### Conservation -/

/-- **Nothing is lost and nothing comes twice.** The tokens of a source and its characters
that form no token have different positions, each of the two lists is in the order of
positions, and both lists together, in that order, spell the source without comments and
whitespace. -/
theorem merge_mentions_eq (source : String) :
    (((Analysis.ofSource source).tokenMentions ++
        (Analysis.ofSource source).problemMentions).map Mention.position).Nodup ∧
      (Analysis.ofSource source).tokenMentions.Pairwise
        (fun m n => m.position < n.position) ∧
      (Analysis.ofSource source).problemMentions.Pairwise
        (fun m n => m.position < n.position) ∧
      (mergeMentions (Analysis.ofSource source).tokenMentions
          (Analysis.ofSource source).problemMentions).flatMap (·.lexeme.toList) =
        (Comment.stripSource source).toList.filter (fun c => !isWhitespace c) := by
  obtain ⟨found, hfound⟩ := exists_sighted source
  have hperm := perm_mentions found
  rw [← hfound.tokenMentions_eq, ← hfound.problemMentions_eq] at hperm
  have hall := hfound.pairwise_position
  have ht := hfound.pairwise_tokenMentions
  have hp := hfound.pairwise_problemMentions
  refine ⟨?_, ht, hp, ?_⟩
  · have hnodup : ((found.map Sighting.mention).map Mention.position).Nodup :=
      List.pairwise_map.mpr (hall.imp fun h => ne_of_lt h)
    exact ((hperm.map _).nodup_iff).mpr hnodup
  · rw [mergeMentions_eq ht hp hall hperm, List.flatMap_map, Comment.stripSource,
      String.toList_ofList]
    exact hfound.lexemes_eq

end CLex
