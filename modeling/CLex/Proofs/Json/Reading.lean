import CLex.Proofs.Json.Symbols

/-!
# Reading JSON

The symbols of a text are read one after the other. The **reader** knows the arrays and objects
that have begun, the innermost one first, with what has been read of each, and what has to come
next: a value, a key, a colon, or the end of a value and what may follow it. It rejects what is
no JSON text, a comma before a closing bracket among others.

## Main definitions

* `Json.Reader`, `Reader.step`: what has been read, and how it goes on.
* `Json.read`: the value of a text.

## Main results

* `Json.run_symbols`: the symbols of a value are read as the value.
* `Json.read_render`: the text of a value is read as the value.
* `Json.render_injective`: different values have different texts.
-/

namespace CLex

namespace Json

/-! ### The reader -/

/-- An array or an object that has begun. -/
inductive Frame where
  /-- The elements so far. -/
  | array (elements : List Json)
  /-- The members so far, and the key of the next one. -/
  | object (members : List (String × Json)) (key : String)
deriving Repr

/-- What has been read, and what comes next. -/
inductive Reader where
  /-- A value. -/
  | value (outer : List Frame)
  /-- The first value of an array, or its end. -/
  | firstValue (outer : List Frame)
  /-- A key, after some members. -/
  | key (members : List (String × Json)) (outer : List Frame)
  /-- The first key of an object, or its end. -/
  | firstKey (outer : List Frame)
  /-- The colon after a key. -/
  | colon (members : List (String × Json)) (key : String) (outer : List Frame)
  /-- What follows a value: a comma or a closing bracket, or nothing. -/
  | done (value : Json) (outer : List Frame)
deriving Repr

namespace Reader

/-- What a symbol makes of a reader that waits for a value. -/
def start (outer : List Frame) : Symbol → Option Reader
  | .string s => some (done (.string s) outer)
  | .number n => some (done (.number n) outer)
  | .openArray => some (firstValue outer)
  | .openObject => some (firstKey outer)
  | _ => none

/-- What a symbol makes of a reader that has just read a value in an array or an object. -/
def resume (value : Json) : Frame → List Frame → Symbol → Option Reader
  | .array elements, outer, .comma => some (.value (.array (elements ++ [value]) :: outer))
  | .array elements, outer, .closeArray => some (done (.array (elements ++ [value])) outer)
  | .object members s, outer, .comma => some (key (members ++ [(s, value)]) outer)
  | .object members s, outer, .closeObject =>
    some (done (.object (members ++ [(s, value)])) outer)
  | _, _, _ => none

/-- One step of the reader. -/
def step : Reader → Symbol → Option Reader
  | value outer, symbol => start outer symbol
  | firstValue outer, .closeArray => some (done (.array []) outer)
  | firstValue outer, symbol => start (.array [] :: outer) symbol
  | key members outer, .string s => some (colon members s outer)
  | firstKey outer, .closeObject => some (done (.object []) outer)
  | firstKey outer, .string s => some (colon [] s outer)
  | colon members s outer, .colon => some (value (.object members s :: outer))
  | done v (frame :: outer), symbol => resume v frame outer symbol
  | _, _ => none

/-- The value of the text, if it may end here. -/
def finish : Reader → Option Json
  | done v [] => some v
  | _ => none

end Reader

/-- The value of the symbols that are left. -/
def run : Reader → List Symbol → Option Json
  | reader, [] => reader.finish
  | reader, symbol :: found => (reader.step symbol).bind fun next => run next found

/-- The value of a JSON text. -/
def read (text : String) : Option Json :=
  (scan .between text.toList).bind (run (.value []))

/-! ### Reading the symbols of a value -/

/-- The symbols of a value start with none that ends an array. -/
private theorem exists_cons_of_symbols (value : Json) :
    ∃ first rest, value.symbols = first :: rest ∧ first ≠ .closeArray := by
  cases value with
  | string s => exact ⟨_, _, by rw [symbols], by simp⟩
  | number n => exact ⟨_, _, by rw [symbols], by simp⟩
  | array elements => exact ⟨_, _, by rw [symbols, List.cons_append], by simp⟩
  | object members => exact ⟨_, _, by rw [symbols, List.cons_append], by simp⟩

/-- A first element is read like any other. -/
private theorem run_firstValue (value : Json) (outer : List Frame) (rest : List Symbol) :
    run (.firstValue outer) (value.symbols ++ rest) =
      run (.value (.array [] :: outer)) (value.symbols ++ rest) := by
  obtain ⟨first, found, hcons, hfirst⟩ := exists_cons_of_symbols value
  have hstep : (Reader.firstValue outer).step first = Reader.start (.array [] :: outer) first := by
    cases first with
    | closeArray => exact absurd rfl hfirst
    | _ => rfl
  rw [hcons, List.cons_append, run, hstep]
  rfl

/-- Whether the symbols of a value are read as the value, whatever has begun before it. -/
def ReadsBack (value : Json) : Prop :=
  ∀ outer rest, run (.value outer) (value.symbols ++ rest) = run (.done value outer) rest

/-- The elements of an array are read up to its end, by a reader that reads the first one. -/
private theorem run_elements {elements : List Json} (h : ∀ e ∈ elements, ReadsBack e)
    {reader : Reader} {e : Json} {before : List Json} {outer : List Frame}
    (he : ∀ rest, run reader (e.symbols ++ rest) = run (.done e (.array before :: outer)) rest)
    (rest : List Symbol) :
    run reader ([Symbol.comma].intercalate ((e :: elements).map symbols) ++ .closeArray :: rest) =
      run (.done (.array (before ++ e :: elements)) outer) rest := by
  induction elements generalizing reader e before with
  | nil =>
      rw [List.map_singleton, List.intercalate_singleton, he]
      rfl
  | cons next elements ih =>
      obtain ⟨hnext, helements⟩ := List.forall_mem_cons.mp h
      -- after the comma a reader that waits for a value takes over
      have hcomma : ∀ found, run (.done e (.array before :: outer)) (.comma :: found) =
          run (.value (.array (before ++ [e]) :: outer)) found := fun _ => rfl
      rw [List.map_cons, List.map_cons, List.intercalate_cons_cons, ← List.map_cons,
        List.append_assoc, List.append_assoc, he, List.singleton_append, hcomma,
        ih helements (hnext _), List.append_assoc, List.singleton_append]

/-- The symbols of a member of an object. -/
def memberSymbols (member : String × Json) : List Symbol :=
  .string member.1 :: .colon :: member.2.symbols

/-- The members of an object are read up to its end, by a reader that reads the first one. -/
private theorem run_members {members : List (String × Json)} (h : ∀ m ∈ members, ReadsBack m.2)
    {reader : Reader} {m : String × Json} {before : List (String × Json)} {outer : List Frame}
    (hm : ∀ rest, run reader (memberSymbols m ++ rest) =
      run (.done m.2 (.object before m.1 :: outer)) rest)
    (rest : List Symbol) :
    run reader
        ([Symbol.comma].intercalate ((m :: members).map memberSymbols) ++ .closeObject :: rest) =
      run (.done (.object (before ++ m :: members)) outer) rest := by
  induction members generalizing reader m before with
  | nil =>
      rw [List.map_singleton, List.intercalate_singleton, hm]
      rfl
  | cons next members ih =>
      obtain ⟨hnext, hmembers⟩ := List.forall_mem_cons.mp h
      have hcomma : ∀ found, run (.done m.2 (.object before m.1 :: outer)) (.comma :: found) =
          run (.key (before ++ [m]) outer) found := fun _ => rfl
      rw [List.map_cons, List.map_cons, List.intercalate_cons_cons, ← List.map_cons,
        List.append_assoc, List.append_assoc, hm, List.singleton_append, hcomma,
        ih hmembers (hnext _), List.append_assoc, List.singleton_append]

/-- **The symbols of a value are read as the value.** -/
theorem run_symbols (value : Json) : ReadsBack value := by
  induction value using symbols.induct with
  | case1 s =>
      intro outer rest
      rw [symbols]
      rfl
  | case2 n =>
      intro outer rest
      rw [symbols]
      rfl
  | case3 elements ih =>
      intro outer rest
      rw [symbols, List.append_assoc, List.singleton_append]
      cases elements with
      | nil => rfl
      | cons e elements =>
          obtain ⟨he, helements⟩ := List.forall_mem_cons.mp ih
          have hfirst : ∀ rest, run (.firstValue outer) (e.symbols ++ rest) =
              run (.done e (.array [] :: outer)) rest :=
            fun rest => (run_firstValue e outer rest).trans (he _ rest)
          exact run_elements helements hfirst rest
  | case4 members ih =>
      intro outer rest
      rw [symbols, List.append_assoc, List.singleton_append]
      cases members with
      | nil => rfl
      | cons m members =>
          obtain ⟨hm, hmembers⟩ := List.forall_mem_cons.mp ih
          have hfirst : ∀ rest, run (.firstKey outer) (memberSymbols m ++ rest) =
              run (.done m.2 (.object [] m.1 :: outer)) rest := hm _
          exact run_members hmembers hfirst rest

/-! ### Reading the text of a value -/

/-- **The text of a value is read as the value.** -/
theorem read_render (value : Json) : read value.render = some value := by
  have hscan : scan .between (value.print 0) = some value.symbols := by
    have hprint := scan_print 0 value [] (by simp [Delimited])
    rw [List.append_nil] at hprint
    rw [hprint, scan, Mode.finish, Option.map_some, List.append_nil]
  have hrun := run_symbols value [] []
  rw [List.append_nil] at hrun
  rw [read, render, String.toList_ofList, hscan, Option.bind_some, hrun]
  rfl

/- Texts that are written in another way are read, too, if they are JSON. -/
example : read "[ \"\\uD83D\\ude00\\/\" ,-10]" =
    some (.array [.string (String.ofList [Char.ofNat 0x1f600, '/']), .number (-10)]) := by rfl

example : (read "[1, ]").isNone = true := by decide

/-- Different values have different texts. -/
theorem render_injective {v w : Json} (h : v.render = w.render) : v = w := by
  have hread := congrArg read h
  rw [read_render, read_render] at hread
  exact Option.some.inj hread

end Json

end CLex
