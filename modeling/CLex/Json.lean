import CLex.Text.Hexadecimal

/-!
# JSON Documents

JSON values built from strings, integers, arrays and objects, and their text in ASCII with
one element or member on a line, indented by two spaces for each level. The members of an
object stay in order.

## Main definitions

* `Json`: values.
* `Json.escape`, `Json.quote`: strings in JSON.
* `Json.render`: the text of a value.
-/

namespace CLex

/-- A JSON value. -/
inductive Json where
  /-- A string. -/
  | string (s : String)
  /-- An integer. -/
  | number (n : Int)
  /-- An array. -/
  | array (elements : List Json)
  /-- An object. -/
  | object (members : List (String × Json))
deriving Repr

namespace Json

/-! ### Strings -/

/-- The escape of a UTF-16 code unit. -/
def escapeUnit (n : Nat) : List Char :=
  '\\' :: 'u' :: Text.hexDigits 4 n

/-- The UTF-16 code units of a character: one, or a surrogate pair beyond U+FFFF. -/
def codeUnits (c : Char) : List Nat :=
  let n := c.toNat
  if n < 0x10000 then [n]
  else [0xd800 + (n - 0x10000) / 0x400, 0xdc00 + (n - 0x10000) % 0x400]

/-- A character in a JSON string: quotes, backslashes and five controls have short escapes,
and every other character outside of U+0020 to U+007E is written in code units. -/
def escape (c : Char) : List Char :=
  if c = '\x22' ∨ c = '\\' then ['\\', c]
  else if c = '\n' then ['\\', 'n']
  else if c = '\r' then ['\\', 'r']
  else if c = '\t' then ['\\', 't']
  else if c = '\x08' then ['\\', 'b']
  else if c = '\x0c' then ['\\', 'f']
  else if 0x20 ≤ c.toNat ∧ c.toNat ≤ 0x7e then [c]
  else (codeUnits c).flatMap escapeUnit

/-- A string in double quotes. -/
def quote (s : String) : List Char :=
  '\x22' :: s.toList.flatMap escape ++ ['\x22']

/-! ### Values -/

/-- A line feed and the indentation of a level. -/
def newline (level : Nat) : List Char :=
  '\n' :: List.replicate (2 * level) ' '

/-- Items in brackets, each on a line of its own; nothing but the brackets if there are
none. -/
def enclose (opening closing : Char) (level : Nat) (items : List (List Char)) : List Char :=
  if items.isEmpty then [opening, closing]
  else opening :: newline (level + 1) ++
    (',' :: newline (level + 1)).intercalate items ++ newline level ++ [closing]

/-- The text of a value that stands at a level of indentation. -/
def print (level : Nat) (value : Json) : List Char :=
  match value with
  | string s => quote s
  | number n => (toString n).toList
  | array elements =>
    enclose '[' ']' level (elements.map fun element => print (level + 1) element)
  | object members =>
    enclose '\x7b' '\x7d' level
      (members.map fun member => quote member.1 ++ ':' :: ' ' :: print (level + 1) member.2)
termination_by sizeOf value
decreasing_by
  · next h =>
    have := List.sizeOf_lt_of_mem h
    simp only [array.sizeOf_spec]
    omega
  · next h =>
    have := List.sizeOf_lt_of_mem h
    obtain ⟨key, value⟩ := member
    simp only [object.sizeOf_spec, Prod.mk.sizeOf_spec] at this ⊢
    omega

/-- The text of a value. -/
def render (value : Json) : String :=
  String.ofList (value.print 0)

end Json

end CLex
