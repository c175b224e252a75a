import CLex.Text

/-!
# Assembling Texts

A text can be assembled from chunks of characters that are added one by one, each with one
origin. The origins fit the characters if every chunk is a single character.

## Main results

* `Assembly.text_add_singleton`: a single character becomes the last cell of the text.
-/

namespace CLex.Text

/-- What has been added so far: chunks of characters, with their origins. -/
structure Assembly where
  /-- The chunks and origins, in order. -/
  added : Array (String × Int) := #[]
deriving DecidableEq, Repr

namespace Assembly

/-- A chunk with its origin, at the end. -/
def add (assembly : Assembly) (chunk : String) (origin : Int) : Assembly where
  added := assembly.added.push (chunk, origin)

/-- The chunks so far. -/
def chunks (assembly : Assembly) : List String :=
  assembly.added.toList.map (·.1)

/-- The origins so far, one for each chunk. -/
def origins (assembly : Assembly) : List Int :=
  assembly.added.toList.map (·.2)

/-- The text so far. -/
def text (assembly : Assembly) : Text where
  chars := assembly.chunks.flatMap String.toList
  origins := assembly.origins

theorem chunks_add (assembly : Assembly) (chunk : String) (origin : Int) :
    (assembly.add chunk origin).chunks = assembly.chunks ++ [chunk] := by
  simp [add, chunks]

theorem origins_add (assembly : Assembly) (chunk : String) (origin : Int) :
    (assembly.add chunk origin).origins = assembly.origins ++ [origin] := by
  simp [add, origins]

/-- A single character that is added becomes the last cell of the text. -/
theorem text_add_singleton {assembly : Assembly} {cells : List (Cell Int)}
    (h : assembly.text = .ofCells cells) (c : Char) (origin : Int) :
    (assembly.add (String.ofList [c]) origin).text = .ofCells (cells ++ [(c, origin)]) := by
  obtain ⟨hchars, horigins⟩ := Text.mk.inj h
  rw [text, chunks_add, origins_add, List.flatMap_append, hchars, horigins]
  simp [ofCells]

end Assembly

end CLex.Text
