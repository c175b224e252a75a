import CLex.Proofs.Json.Characters

/-!
# The Symbols of a JSON Text

A JSON text is a sequence of **symbols** with any whitespace between them: brackets, braces,
colons and commas, strings, and numbers. The scanner finds them reading one character after the
other, and is in a mode that says what was begun. It takes any text apart, not only the ones
that are written here: whitespace may stand anywhere between symbols, strings may hold any
escapes, and hexadecimal digits may be of either case. What a string spells is read as UTF-16
code units first, and surrogates are joined in the end; one alone spells nothing. The only
numbers are integers, and there are no other literals.

## Main definitions

* `Symbol`, `Json.symbols`: the symbols of a text, and those of a value.
* `readInt?`, `joinUnits?`: the value of a number, and what a string spells.
* `Mode.step`, `scan`: the scanner.

## Main results

* `Json.scan_number`, `Json.scan_quote`: numbers and strings are read as what they write.
* `Json.scan_print`: the text of a value has the symbols of the value.
-/

namespace CLex

namespace Json

/-! ### Symbols -/

/-- A symbol of a text. -/
inductive Symbol where
  /-- The start of an array. -/
  | openArray
  /-- The end of an array. -/
  | closeArray
  /-- The start of an object. -/
  | openObject
  /-- The end of an object. -/
  | closeObject
  /-- What stands after a key. -/
  | colon
  /-- What stands between two elements or members. -/
  | comma
  /-- A string. -/
  | string (s : String)
  /-- A number. -/
  | number (n : Int)
deriving DecidableEq, Repr

/-- The symbol that is a single character. -/
def Symbol.ofMark? (c : Char) : Option Symbol :=
  if c = '[' then some openArray
  else if c = ']' then some closeArray
  else if c = '\x7b' then some openObject
  else if c = '\x7d' then some closeObject
  else if c = ':' then some colon
  else if c = ',' then some comma
  else none

/-- The symbols of a value. -/
def symbols (value : Json) : List Symbol :=
  match value with
  | string s => [.string s]
  | number n => [.number n]
  | array elements =>
    .openArray :: [.comma].intercalate (elements.map fun element => symbols element) ++
      [.closeArray]
  | object members =>
    .openObject :: [.comma].intercalate
      (members.map fun member => .string member.1 :: .colon :: symbols member.2) ++
        [.closeObject]
termination_by sizeOf value
decreasing_by
  · next h =>
    have := List.sizeOf_lt_of_mem h
    simp only [array.sizeOf_spec]
    omega
  · next h =>
    have := List.sizeOf_lt_of_mem h
    obtain ⟨key, value⟩ := member
    simp only [object.sizeOf_spec, Prod.mk.sizeOf_spec] at this ⊢
    omega

/-! ### Numbers and strings -/

/-- The number that decimal digits write. Only zero starts with the digit zero. -/
def readNat? (digits : List Char) : Option Nat :=
  if digits ≠ [] ∧ digits.all Char.isDigit ∧ (digits.head? = some '0' → digits = ['0']) then
    some (Nat.ofDigitChars 10 digits 0)
  else none

/-- The integer that is written by digits, which may follow a sign. -/
def readInt? : List Char → Option Int
  | [] => none
  | c :: cs =>
    if c = '-' then (readNat? cs).map fun (n : Nat) => -(n : Int)
    else (readNat? (c :: cs)).map Int.ofNat

/-- Whether a code unit is the first one of a surrogate pair. -/
def isHighSurrogate (n : Nat) : Bool :=
  0xd800 ≤ n && n < 0xdc00

/-- Whether a code unit is the second one of a surrogate pair. -/
def isLowSurrogate (n : Nat) : Bool :=
  0xdc00 ≤ n && n < 0xe000

/-- The characters that code units spell. -/
def joinUnits? : List Nat → Option (List Char)
  | [] => some []
  | [n] => if isHighSurrogate n || isLowSurrogate n then none else some [Char.ofNat n]
  | m :: n :: rest =>
    if isHighSurrogate m then
      if isLowSurrogate n then
        (joinUnits? rest).map
          (Char.ofNat (0x10000 + (m - 0xd800) * 0x400 + (n - 0xdc00)) :: ·)
      else none
    else if isLowSurrogate m then none
    else (joinUnits? (n :: rest)).map (Char.ofNat m :: ·)

/-- The character that a short escape stands for. -/
def shortEscape? (c : Char) : Option Char :=
  if c = '\x22' ∨ c = '\\' ∨ c = '/' then some c
  else if c = 'n' then some '\n'
  else if c = 'r' then some '\r'
  else if c = 't' then some '\t'
  else if c = 'b' then some '\x08'
  else if c = 'f' then some '\x0c'
  else none

/-! ### The scanner -/

/-- What was begun and goes on. -/
inductive Mode where
  /-- Nothing: the text is between two symbols. -/
  | between
  /-- A number, with its characters so far. -/
  | literal (chars : List Char)
  /-- A string, with its code units so far. -/
  | string (units : List Nat)
  /-- An escape in a string, with the code units before it. -/
  | escape (units : List Nat)
  /-- A code unit in a string, with those before it and its digits so far. -/
  | hex (units : List Nat) (digits : List Char)
deriving DecidableEq, Repr

/-- Whether a character is whitespace between symbols. -/
def isSpace (c : Char) : Bool :=
  c == ' ' || c == '\t' || c == '\n' || c == '\r'

/-- Whether a number ends before a character. -/
def isDelimiter (c : Char) : Bool :=
  isSpace c || (Symbol.ofMark? c).isSome

/-- What begins with a character, and the symbol if it is one. -/
def begin (c : Char) : Mode × List Symbol :=
  if isSpace c then (.between, [])
  else if c = '\x22' then (.string [], [])
  else
    match Symbol.ofMark? c with
    | some mark => (.between, [mark])
    | none => (.literal [c], [])

namespace Mode

/-- One step of the scanner: the next mode, and the symbols that have been found. -/
def step : Mode → Char → Option (Mode × List Symbol)
  | between, c => some (begin c)
  | literal chars, c =>
    if isDelimiter c then
      (readInt? chars).map fun n => ((begin c).1, .number n :: (begin c).2)
    else some (literal (chars ++ [c]), [])
  | string units, c =>
    if c = '\x22' then
      (joinUnits? units).map fun chars => (between, [.string (String.ofList chars)])
    else if c = '\\' then some (escape units, [])
    else if c.toNat < 0x20 then none
    else some (string (units ++ codeUnits c), [])
  | escape units, c =>
    if c = 'u' then some (hex units [], [])
    else (shortEscape? c).map fun d => (string (units ++ [d.toNat]), [])
  | hex units digits, c =>
    let digits := digits ++ [c]
    if digits.length < 4 then some (hex units digits, [])
    else (Text.readHex (digits.map Char.toLower)).map fun n => (string (units ++ [n]), [])

/-- The symbols that have been found when the text ends. -/
def finish : Mode → Option (List Symbol)
  | between => some []
  | literal chars => (readInt? chars).map fun n => [.number n]
  | _ => none

end Mode

/-- The symbols of a text, read in a mode. -/
def scan : Mode → List Char → Option (List Symbol)
  | mode, [] => mode.finish
  | mode, c :: cs => (mode.step c).bind fun next => (scan next.1 cs).map (next.2 ++ ·)

/-! ### Single characters -/

/-- What comes before the first symbol that a step finds. -/
theorem scan_cons {mode next : Mode} {c : Char} {found : List Symbol}
    (h : mode.step c = some (next, found)) (cs : List Char) :
    scan mode (c :: cs) = (scan next cs).map (found ++ ·) := by
  rw [scan, h, Option.bind_some]

/-- A step that finds no symbol. -/
theorem scan_cons_nil {mode next : Mode} {c : Char} (h : mode.step c = some (next, []))
    (cs : List Char) : scan mode (c :: cs) = scan next cs := by
  rw [scan_cons h]
  exact Option.map_id'

/-- Whitespace between symbols is skipped. -/
theorem scan_space {c : Char} (h : isSpace c = true) (cs : List Char) :
    scan .between (c :: cs) = scan .between cs :=
  scan_cons_nil (by rw [Mode.step, begin, if_pos h]) cs

/-- A mark is neither whitespace nor the start of a string. -/
theorem begin_of_ofMark? {c : Char} {mark : Symbol} (h : Symbol.ofMark? c = some mark) :
    begin c = (.between, [mark]) := by
  have hspace : isSpace c = false := by
    cases hs : isSpace c with
    | false => rfl
    | true =>
        simp only [isSpace, Bool.or_eq_true, beq_iff_eq] at hs
        rcases hs with ((rfl | rfl) | rfl) | rfl <;> simp [Symbol.ofMark?] at h
  have hquote : c ≠ '\x22' := by
    rintro rfl
    simp [Symbol.ofMark?] at h
  rw [begin, if_neg (by simp [hspace]), if_neg hquote, h]

/-- A mark is a symbol. -/
theorem scan_mark {c : Char} {mark : Symbol} (h : Symbol.ofMark? c = some mark)
    (cs : List Char) : scan .between (c :: cs) = (scan .between cs).map (mark :: ·) :=
  scan_cons (by rw [Mode.step, begin_of_ofMark? h]) cs

/-- A line feed and an indentation are skipped. -/
theorem scan_newline (level : Nat) (cs : List Char) :
    scan .between (newline level ++ cs) = scan .between cs := by
  rw [newline, List.cons_append, scan_space rfl]
  induction 2 * level with
  | zero => rfl
  | succ n ih => rw [List.replicate_succ, List.cons_append, scan_space rfl, ih]

/-! ### Numbers -/

/-- A number other than zero does not start with the digit zero. -/
private theorem eq_zero_of_head?_toDigits {n : Nat} (h : (Nat.toDigits 10 n).head? = some '0') :
    n = 0 := by
  induction n using Nat.strongRecOn with
  | _ n ih =>
      by_cases hlt : n < 10
      · rw [Nat.toDigits_of_lt_base hlt] at h
        have hdigit : ∀ m < 10, [m.digitChar].head? = some '0' → m = 0 := by decide
        exact hdigit n hlt h
      · have hle : 10 ≤ n := Nat.le_of_not_lt hlt
        obtain ⟨d, ds, hds⟩ := List.exists_cons_of_ne_nil (@Nat.toDigits_ne_nil (n / 10) 10)
        rw [Nat.toDigits_of_base_le (by omega) hle, hds, List.cons_append, List.head?_cons] at h
        have hzero : n / 10 = 0 := ih (n / 10) (by omega) (by rw [hds, List.head?_cons, h])
        omega

/-- A natural number is read back from its digits. -/
theorem readNat?_toDigits (n : Nat) : readNat? (Nat.toDigits 10 n) = some n := by
  rw [readNat?, if_pos, Nat.ofDigitChars_ten_toDigits]
  refine ⟨Nat.toDigits_ne_nil, List.all_eq_true.mpr fun c hc => ?_, fun hhead => ?_⟩
  · exact Nat.isDigit_of_mem_toDigits (by omega) (by omega) hc
  · rw [eq_zero_of_head?_toDigits hhead]
    rfl

/-- An integer is read back from its text. -/
theorem readInt?_toString (n : Int) : readInt? (toString n).toList = some n := by
  rw [toList_toString]
  by_cases hneg : n < 0
  · rw [if_pos hneg, List.singleton_append, readInt?, if_pos rfl, readNat?_toDigits,
      Option.map_some, Option.some.injEq]
    omega
  · rw [if_neg hneg, List.nil_append]
    obtain ⟨c, cs, hcons⟩ := List.exists_cons_of_ne_nil (@Nat.toDigits_ne_nil n.natAbs 10)
    have hsign : c ≠ '-' := by
      rintro rfl
      have hmem : '-' ∈ Nat.toDigits 10 n.natAbs := hcons ▸ List.mem_cons_self ..
      exact absurd (Nat.isDigit_of_mem_toDigits (by omega) (by omega) hmem) (by decide)
    rw [hcons, readInt?, if_neg hsign, ← hcons, readNat?_toDigits, Option.map_some,
      Option.some.injEq]
    exact Int.natAbs_of_nonneg (Int.not_lt.mp hneg)

/-- Whether a number ends where a text starts. -/
def Delimited (cs : List Char) : Prop :=
  ∀ c ∈ cs.head?, isDelimiter c = true

/-- Signs and digits begin a number, and do not end one. -/
private theorem begin_of_digit {c : Char} (h : c = '-' ∨ c.isDigit = true) :
    begin c = (.literal [c], []) ∧ isDelimiter c = false := by
  have hne : ∀ d : Char, d.isDigit = false → d ≠ '-' → c ≠ d := by
    rintro d hd hsign rfl
    rcases h with h | h
    · exact hsign h
    · exact Bool.false_ne_true (hd.symm.trans h)
  have hspace : isSpace c = false := by
    simp [isSpace, hne ' ' rfl (by decide), hne '\t' rfl (by decide), hne '\n' rfl (by decide),
      hne '\r' rfl (by decide)]
  have hmark : Symbol.ofMark? c = none := by
    simp [Symbol.ofMark?, hne '[' rfl (by decide), hne ']' rfl (by decide),
      hne '\x7b' rfl (by decide), hne '\x7d' rfl (by decide), hne ':' rfl (by decide),
      hne ',' rfl (by decide)]
  constructor
  · rw [begin, if_neg (by simp [hspace]), if_neg (hne '\x22' rfl (by decide)), hmark]
  · rw [isDelimiter, hspace, hmark]
    rfl

/-- A number goes on with digits. -/
private theorem scan_literal_append {digits : List Char} (h : ∀ d ∈ digits, d.isDigit = true)
    (chars rest : List Char) :
    scan (.literal chars) (digits ++ rest) = scan (.literal (chars ++ digits)) rest := by
  induction digits generalizing chars with
  | nil => rw [List.nil_append, List.append_nil]
  | cons d digits ih =>
      obtain ⟨hd, hdigits⟩ := List.forall_mem_cons.mp h
      have hstep : (Mode.literal chars).step d = some (.literal (chars ++ [d]), []) := by
        rw [Mode.step, if_neg (by simp [(begin_of_digit (.inr hd)).2])]
      rw [List.cons_append, scan_cons_nil hstep, ih hdigits, List.append_assoc]
      rfl

/-- A number is found where it ends. -/
private theorem scan_literal {chars : List Char} {n : Int} (h : readInt? chars = some n)
    {rest : List Char} (hrest : Delimited rest) :
    scan (.literal chars) rest = (scan .between rest).map (.number n :: ·) := by
  cases rest with
  | nil =>
      rw [scan, Mode.finish, h]
      rfl
  | cons c cs =>
      have hstep : (Mode.literal chars).step c =
          some ((begin c).1, .number n :: (begin c).2) := by
        rw [Mode.step, if_pos (hrest c rfl), h]
        rfl
      -- what ends the number begins as if there were none
      have hbetween : Mode.between.step c = some ((begin c).1, (begin c).2) := rfl
      rw [scan_cons hstep, scan_cons hbetween, Option.map_map]
      rfl

/-- The text of an integer is a number, if it ends there. -/
theorem scan_number (n : Int) {rest : List Char} (hrest : Delimited rest) :
    scan .between ((toString n).toList ++ rest) = (scan .between rest).map (.number n :: ·) := by
  obtain ⟨c, cs, hcons, hc, hcs⟩ := exists_cons_of_toString n
  have hstep : Mode.between.step c = some (.literal [c], []) := by
    rw [Mode.step, (begin_of_digit hc).1]
  rw [hcons, List.cons_append, scan_cons_nil hstep, scan_literal_append hcs, List.singleton_append,
    ← hcons, scan_literal (readInt?_toString n) hrest]

/-! ### Strings -/

/-- Each character is spelled by its code units. -/
theorem joinUnits?_codeUnits_append (c : Char) (units : List Nat) :
    joinUnits? (codeUnits c ++ units) = (joinUnits? units).map (c :: ·) := by
  have hvalid : c.toNat < 0xd800 ∨ 0xdfff < c.toNat ∧ c.toNat < 0x110000 := c.valid
  by_cases hlt : c.toNat < 0x10000
  · have hhigh : isHighSurrogate c.toNat = false := by
      simp only [isHighSurrogate, Bool.and_eq_false_iff, decide_eq_false_iff_not]
      omega
    have hlow : isLowSurrogate c.toNat = false := by
      simp only [isLowSurrogate, Bool.and_eq_false_iff, decide_eq_false_iff_not]
      omega
    rw [codeUnits, if_pos hlt, List.singleton_append]
    cases units with
    | nil => simp [joinUnits?, hhigh, hlow]
    | cons n units => simp [joinUnits?, hhigh, hlow]
  · -- beyond U+FFFF the two units are a surrogate pair
    have hhigh : isHighSurrogate (0xd800 + (c.toNat - 0x10000) / 0x400) = true := by
      simp only [isHighSurrogate, Bool.and_eq_true, decide_eq_true_eq]
      omega
    have hlow : isLowSurrogate (0xdc00 + (c.toNat - 0x10000) % 0x400) = true := by
      simp only [isLowSurrogate, Bool.and_eq_true, decide_eq_true_eq]
      omega
    have hjoined : 0x10000 + (0xd800 + (c.toNat - 0x10000) / 0x400 - 0xd800) * 0x400 +
        (0xdc00 + (c.toNat - 0x10000) % 0x400 - 0xdc00) = c.toNat := by omega
    rw [codeUnits, if_neg hlt, List.cons_append, List.singleton_append, joinUnits?, if_pos hhigh,
      if_pos hlow, hjoined, Char.ofNat_toNat]

/-- The code units of a text spell the text. -/
theorem joinUnits?_flatMap_codeUnits (chars : List Char) :
    joinUnits? (chars.flatMap codeUnits) = some chars := by
  induction chars with
  | nil => rfl
  | cons c cs ih => rw [List.flatMap_cons, joinUnits?_codeUnits_append, ih, Option.map_some]

/-- A code unit fits into four digits. -/
theorem lt_of_mem_codeUnits {c : Char} {n : Nat} (h : n ∈ codeUnits c) : n < 0x10000 := by
  have hvalid : c.toNat < 0xd800 ∨ 0xdfff < c.toNat ∧ c.toNat < 0x110000 := c.valid
  rw [codeUnits] at h
  split at h
  · rw [List.mem_singleton] at h
    omega
  · rw [List.mem_cons, List.mem_singleton] at h
    omega

/-- Lower-case digits are in lower case. -/
private theorem map_toLower_hexDigits (width n : Nat) :
    (Text.hexDigits width n).map Char.toLower = Text.hexDigits width n := by
  have hdigit : ∀ d < 16, (Text.hexDigit d).toLower = Text.hexDigit d := by decide
  induction width generalizing n with
  | zero => rfl
  | succ width ih =>
      rw [Text.hexDigits, List.map_append, ih, List.map_singleton, hdigit _ (Nat.mod_lt _ (by omega))]

/-- The escape of a code unit is read as the code unit. -/
theorem scan_escapeUnit {n : Nat} (h : n < 0x10000) (units : List Nat) (rest : List Char) :
    scan (.string units) (escapeUnit n ++ rest) = scan (.string (units ++ [n])) rest := by
  have hread : Text.readHex ((Text.hexDigits 4 n).map Char.toLower) = some n := by
    rw [map_toLower_hexDigits, Text.readHex_hexDigits (by simpa using h)]
  obtain ⟨d₁, d₂, d₃, d₄, hdigits⟩ : ∃ d₁ d₂ d₃ d₄, Text.hexDigits 4 n = [d₁, d₂, d₃, d₄] :=
    ⟨_, _, _, _, rfl⟩
  rw [hdigits] at hread
  have hbackslash : (Mode.string units).step '\\' = some (.escape units, []) := by
    simp [Mode.step]
  have hu : (Mode.escape units).step 'u' = some (.hex units [], []) := by simp [Mode.step]
  have h₁ : (Mode.hex units []).step d₁ = some (.hex units [d₁], []) := rfl
  have h₂ : (Mode.hex units [d₁]).step d₂ = some (.hex units [d₁, d₂], []) := rfl
  have h₃ : (Mode.hex units [d₁, d₂]).step d₃ = some (.hex units [d₁, d₂, d₃], []) := rfl
  have h₄ : (Mode.hex units [d₁, d₂, d₃]).step d₄ = some (.string (units ++ [n]), []) := by
    simp only [Mode.step, List.cons_append, List.nil_append, hread]
    rfl
  simp only [escapeUnit, hdigits, List.cons_append, List.nil_append]
  rw [scan_cons_nil hbackslash, scan_cons_nil hu, scan_cons_nil h₁, scan_cons_nil h₂,
    scan_cons_nil h₃, scan_cons_nil h₄]

/-- The escapes of code units are read as the code units. -/
theorem scan_flatMap_escapeUnit {found : List Nat} (h : ∀ n ∈ found, n < 0x10000)
    (units : List Nat) (rest : List Char) :
    scan (.string units) (found.flatMap escapeUnit ++ rest) =
      scan (.string (units ++ found)) rest := by
  induction found generalizing units with
  | nil => rw [List.flatMap_nil, List.nil_append, List.append_nil]
  | cons n found ih =>
      obtain ⟨hn, hfound⟩ := List.forall_mem_cons.mp h
      rw [List.flatMap_cons, List.append_assoc, scan_escapeUnit hn, ih hfound, List.append_assoc]
      rfl

/-- A short escape is read as the character for which it stands. -/
private theorem scan_shortEscape {c d : Char} (hd : d ≠ 'u') (h : shortEscape? d = some c)
    (units : List Nat) (rest : List Char) :
    scan (.string units) ('\\' :: d :: rest) = scan (.string (units ++ [c.toNat])) rest := by
  have hbackslash : (Mode.string units).step '\\' = some (.escape units, []) := by
    simp [Mode.step]
  have hescape : (Mode.escape units).step d = some (.string (units ++ [c.toNat]), []) := by
    rw [Mode.step, if_neg hd, h]
    rfl
  rw [scan_cons_nil hbackslash, scan_cons_nil hescape]

/-- A character is read as its code units. -/
theorem scan_escape (c : Char) (units : List Nat) (rest : List Char) :
    scan (.string units) (escape c ++ rest) = scan (.string (units ++ codeUnits c)) rest := by
  unfold escape
  split
  · next hc =>
    rcases hc with rfl | rfl
    · exact scan_shortEscape (by decide) rfl units rest
    · exact scan_shortEscape (by decide) rfl units rest
  · next hc =>
    rw [not_or] at hc
    split
    · next hc => subst hc; exact scan_shortEscape (by decide) rfl units rest
    · split
      · next hc => subst hc; exact scan_shortEscape (by decide) rfl units rest
      · split
        · next hc => subst hc; exact scan_shortEscape (by decide) rfl units rest
        · split
          · next hc => subst hc; exact scan_shortEscape (by decide) rfl units rest
          · split
            · next hc => subst hc; exact scan_shortEscape (by decide) rfl units rest
            · split
              · next hprintable =>
                refine scan_cons_nil ?_ rest
                rw [Mode.step, if_neg hc.1, if_neg hc.2, if_neg (by omega)]
              · exact scan_flatMap_escapeUnit (fun n hn => lt_of_mem_codeUnits hn) units rest

/-- The characters of a string are read as their code units. -/
private theorem scan_flatMap_escape (chars : List Char) (units : List Nat) (rest : List Char) :
    scan (.string units) (chars.flatMap escape ++ rest) =
      scan (.string (units ++ chars.flatMap codeUnits)) rest := by
  induction chars generalizing units with
  | nil => rw [List.flatMap_nil, List.flatMap_nil, List.nil_append, List.append_nil]
  | cons c cs ih =>
      rw [List.flatMap_cons, List.append_assoc, scan_escape, ih, List.append_assoc,
        List.flatMap_cons]

/-- A quoted string is read as the string. -/
theorem scan_quote (s : String) (rest : List Char) :
    scan .between (quote s ++ rest) = (scan .between rest).map (.string s :: ·) := by
  have hopen : Mode.between.step '\x22' = some (.string [], []) := rfl
  have hclose : (Mode.string (s.toList.flatMap codeUnits)).step '\x22' =
      some (.between, [.string s]) := by
    rw [Mode.step, if_pos rfl, joinUnits?_flatMap_codeUnits, Option.map_some, String.ofList_toList]
  rw [quote, List.cons_append, List.cons_append, scan_cons_nil hopen, List.append_assoc,
    scan_flatMap_escape, List.nil_append, List.singleton_append, scan_cons hclose]
  rfl

/-! ### Values -/

/-- Whether a text has these symbols, wherever it ends before whitespace or a mark. -/
def Reads (cs : List Char) (found : List Symbol) : Prop :=
  ∀ rest, Delimited rest → scan .between (cs ++ rest) = (scan .between rest).map (found ++ ·)

/-- What follows a mark. -/
private theorem delimited_mark {c : Char} {mark : Symbol} (h : Symbol.ofMark? c = some mark)
    (cs : List Char) : Delimited (c :: cs) := by
  intro d hd
  obtain rfl : c = d := Option.some.inj hd
  rw [isDelimiter, h, Option.isSome_some, Bool.or_true]

/-- A line feed ends a number. -/
private theorem delimited_newline (level : Nat) (cs : List Char) :
    Delimited (newline level ++ cs) := by
  intro d hd
  obtain rfl : '\n' = d := Option.some.inj hd
  rfl

section Items

variable {β : Type} {text : β → List Char} {found : β → List Symbol}

/-- The symbols of items that are separated by commas. -/
private theorem reads_intercalate {items : List β} (h : ∀ x ∈ items, Reads (text x) (found x))
    (level : Nat) :
    Reads ((',' :: newline level).intercalate (items.map text))
      ([Symbol.comma].intercalate (items.map found)) := by
  induction items with
  | nil =>
      intro rest _
      exact Option.map_id'.symm
  | cons x items ih =>
      obtain ⟨hx, hitems⟩ := List.forall_mem_cons.mp h
      cases items with
      | nil => simpa using hx
      | cons y items =>
          -- the comma ends the first item, which may be a number
          intro rest hrest
          have hcomma : Symbol.ofMark? ',' = some .comma := rfl
          rw [List.map_cons, List.map_cons, List.map_cons, List.map_cons,
            List.intercalate_cons_cons, List.intercalate_cons_cons, ← List.map_cons,
            ← List.map_cons, List.append_assoc, List.append_assoc, List.cons_append,
            hx _ (delimited_mark hcomma _), scan_mark hcomma, scan_newline, ih hitems rest hrest]
          simp [Function.comp_def]

/-- The symbols of items in brackets. -/
theorem reads_enclose {opening closing : Char} {start stop : Symbol}
    (hstart : Symbol.ofMark? opening = some start) (hstop : Symbol.ofMark? closing = some stop)
    {items : List β} (h : ∀ x ∈ items, Reads (text x) (found x)) (level : Nat) :
    Reads (enclose opening closing level (items.map text))
      (start :: [Symbol.comma].intercalate (items.map found) ++ [stop]) := by
  intro rest hrest
  cases items with
  | nil =>
      have henclose : enclose opening closing level (([] : List β).map text) =
          [opening, closing] := rfl
      rw [henclose, List.cons_append, scan_mark hstart, List.singleton_append, scan_mark hstop]
      simp [Function.comp_def]
  | cons x items =>
      have henclose : enclose opening closing level ((x :: items).map text) =
          opening :: newline (level + 1) ++
            (',' :: newline (level + 1)).intercalate ((x :: items).map text) ++
              newline level ++ [closing] := rfl
      rw [henclose]
      simp only [List.append_assoc, List.cons_append, List.nil_append]
      rw [scan_mark hstart, scan_newline,
        reads_intercalate h (level + 1) _ (delimited_newline level _), scan_newline,
        scan_mark hstop]
      simp [Function.comp_def]

end Items

/-- **The text of a value has its symbols.** At any level, and wherever it ends. -/
theorem scan_print (level : Nat) (value : Json) : Reads (value.print level) value.symbols := by
  induction level, value using print.induct with
  | case1 level s =>
      intro rest _
      rw [print, symbols, scan_quote]
      rfl
  | case2 level n =>
      intro rest hrest
      rw [print, symbols, scan_number n hrest]
      rfl
  | case3 level elements ih =>
      rw [print, symbols]
      exact reads_enclose rfl rfl ih level
  | case4 level members ih =>
      rw [print, symbols]
      refine reads_enclose rfl rfl (fun member hmember rest hrest => ?_) level
      have hcolon : Symbol.ofMark? ':' = some .colon := rfl
      rw [List.append_assoc, scan_quote, List.cons_append, List.cons_append, scan_mark hcolon,
        scan_space rfl, ih member hmember rest hrest]
      simp [Function.comp_def]

end Json

end CLex
