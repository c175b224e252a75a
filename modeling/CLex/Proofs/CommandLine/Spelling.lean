import CLex.CommandLine.Request

/-!
# Arguments that Spell Flags and Operands

An argument that is a spelling of a flag is taken for that flag, and an argument that does not
start with a dash for an operand. They may come in any order, since what is read of one kind
does not depend on those of the other kind around it. So such arguments ask for the analysis of
their operand if there is just one, and are a mistake otherwise.

## Main definitions

* `options`: the options that are not about the help.
* `Spells`: arguments in any order, with their flags and operands.
* `Reading.more`: the state of a reading after flags and operands.

## Main results

* `Spells.exists_taken`: what such arguments are taken for.
* `Spells.parse_eq`: what they ask for.
-/

namespace CLex.CommandLine

/-- The options that do not ask for the help, and the flags that they switch on. -/
def options : List (String × Flag) :=
  [("--stats", .stats), ("--json", .json), ("--show-clean", .showClean),
    ("--diagnostics", .diagnostics), ("--strict", .strict), ("-v", .verbose),
    ("--verbose", .verbose)]

/-- Whether arguments spell flags, without asking for the help, and are operands otherwise. Flags
and operands are listed in the order of the arguments, each as often as it is given. -/
inductive Spells : List String → List Flag → List String → Prop
  | nil : Spells [] [] []
  /-- A flag, by one of its options. -/
  | flag {flag : Flag} {spelling : String} {arguments : List String} {flags : List Flag}
      {operands : List String} (hoption : (spelling, flag) ∈ options)
      (rest : Spells arguments flags operands) :
      Spells (spelling :: arguments) (flag :: flags) operands
  /-- An operand, which does not start with a dash. -/
  | operand {text : String} {arguments : List String} {flags : List Flag}
      {operands : List String} (hdash : text.toList.head? ≠ some '-')
      (rest : Spells arguments flags operands) :
      Spells (text :: arguments) flags (text :: operands)

/-! ### Single arguments -/

/-- An option is a spelling of its flag. -/
theorem of_mem_options {spelling : String} {flag : Flag} (h : (spelling, flag) ∈ options) :
    flag ≠ .help ∧ spelling ∈ flag.spellings := by
  have hall : ∀ option ∈ options, option.2 ≠ .help ∧ option.1 ∈ option.2.spellings := by decide
  exact hall _ h

/-- A spelling starts with a dash, and is neither a single dash nor the separator. -/
theorem Flag.dashed_of_mem {flag : Flag} {spelling : String} (h : spelling ∈ flag.spellings) :
    spelling.toList.head? = some '-' ∧ spelling ≠ "-" ∧ spelling ≠ "--" := by
  have hall : ∀ f ∈ all, ∀ s ∈ f.spellings,
      s.toList.head? = some '-' ∧ s ≠ "-" ∧ s ≠ "--" := by decide
  exact hall flag flag.mem_all spelling h

/-- A spelling in full is taken for its flag, without anything attached. -/
theorem exists_interpret_of_mem {flag : Flag} {spelling : String}
    (h : spelling ∈ flag.spellings) :
    ∃ short, interpret spelling = .ok (.option flag short none) := by
  obtain ⟨hdash, hsingle, -⟩ := Flag.dashed_of_mem h
  have hexact : exactOption? spelling =
      some (.option flag (!isLong spelling.toList) none) := by
    simp only [exactOption?, Flag.ofSpelling?_of_mem h, Option.map_some, Option.some_or]
  refine ⟨!isLong spelling.toList, ?_⟩
  rw [interpret, if_neg (by simp [hdash, hsingle]), hexact]

/-- An argument that does not start with a dash is taken for an operand. -/
theorem interpret_of_head?_ne {text : String} (h : text.toList.head? ≠ some '-') :
    interpret text = .ok (.operand text) := by
  rw [interpret, if_pos (.inl h)]

/-- Arguments are taken one by one until the separator comes. -/
theorem interpretAll_cons {argument : String} {arguments : List String} {first : Argument}
    {others : List Argument} (hseparator : argument ≠ "--")
    (hfirst : interpret argument = .ok first) (hothers : interpretAll arguments = .ok others) :
    interpretAll (argument :: arguments) = .ok (first :: others) := by
  have hne : (argument != "--") = true := bne_iff_ne.mpr hseparator
  have htake : (argument :: arguments).takeWhile (· != "--") =
      argument :: arguments.takeWhile (· != "--") := List.takeWhile_cons_of_pos hne
  have hdrop : (argument :: arguments).dropWhile (· != "--") =
      arguments.dropWhile (· != "--") := List.dropWhile_cons_of_pos hne
  rw [interpretAll] at hothers ⊢
  rw [htake, hdrop, List.mapM_cons, hfirst]
  -- both run through the same steps, the longer list with one more element in front
  cases hbefore : (arguments.takeWhile (· != "--")).mapM interpret with
  | error mistake =>
      rw [hbefore] at hothers
      exact absurd hothers (by simp [bind, Except.bind])
  | ok before =>
      rw [hbefore] at hothers
      cases hafter : arguments.dropWhile (· != "--") with
      | nil =>
          rw [hafter] at hothers
          obtain rfl := Except.ok.inj hothers
          rfl
      | cons separator operands =>
          rw [hafter] at hothers
          obtain rfl := Except.ok.inj hothers
          rfl

/-! ### Reading -/

namespace Reading

/-- The reading after more flags and operands. The first operand is the path if there was none
before, and the others are left over. -/
def more (reading : Reading) (flags : List Flag) (operands : List String) : Reading where
  path? := reading.path?.or operands.head?
  flags := reading.flags ++ flags
  leftOver := (if reading.path?.isSome then operands else operands.tail).reverse ++
    reading.leftOver

theorem more_nil (reading : Reading) : reading.more [] [] = reading := by
  simp [more]

theorem more_flag (reading : Reading) (flag : Flag) (flags : List Flag) (operands : List String) :
    reading.more (flag :: flags) operands = (reading.withFlags [flag]).more flags operands := by
  rw [more, List.append_cons]
  rfl

theorem more_operand (reading : Reading) (flags : List Flag) (text : String)
    (operands : List String) :
    reading.more flags (text :: operands) =
      (if reading.path?.isSome then reading.leave text else reading.withPath text).more flags
        operands := by
  obtain ⟨path?, flags', leftOver⟩ := reading
  cases path? with
  | none => simp [more, withPath]
  | some path => simp [more, leave]

/-- A flag with nothing attached is read, unless it asks for the help. -/
theorem read_option (reading : Reading) {flag : Flag} (h : flag ≠ .help) (short : Bool)
    (rest : List Argument) :
    reading.read (.option flag short none :: rest) = (reading.withFlags [flag]).read rest := by
  rw [read, flagsOf]
  exact if_neg (by simpa using h.symm)

/-- An operand is the path or left over, if no separator comes next. -/
theorem read_operand (reading : Reading) (text : String) {rest : List Argument}
    (h : .separator ∉ rest) :
    reading.read (.operand text :: rest) =
      (if reading.path?.isSome then reading.leave text else reading.withPath text).read rest := by
  obtain ⟨path?, flags, leftOver⟩ := reading
  cases path? with
  | some path => rfl
  | none =>
      cases rest with
      | nil => rfl
      | cons first rest =>
          cases first with
          | separator => exact absurd (List.mem_cons_self ..) h
          | operand text' => rfl
          | option flag short attached => rfl
          | unknown text' => rfl

/-- What is left over at the end is a mistake. -/
theorem finish_of_leftOver {reading : Reading} {path : String} (hpath : reading.path? = some path)
    (hleft : reading.leftOver ≠ []) :
    reading.finish = .error (.unrecognized reading.leftOver.reverse) := by
  obtain ⟨path?, flags, leftOver⟩ := reading
  obtain rfl : path? = some path := hpath
  cases leftOver with
  | nil => exact absurd rfl hleft
  | cons last others => rfl

end Reading

/-! ### All arguments -/

/-- Arguments that spell flags and operands are read as such, whatever was read before. -/
theorem Spells.exists_taken {arguments : List String} {flags : List Flag}
    {operands : List String} (h : Spells arguments flags operands) :
    ∃ taken, interpretAll arguments = .ok taken ∧ .separator ∉ taken ∧
      ∀ reading : Reading, reading.read taken = (reading.more flags operands).finish := by
  induction h with
  | nil => exact ⟨[], rfl, List.not_mem_nil, fun reading => by rw [reading.more_nil]; rfl⟩
  | @flag flag spelling arguments flags operands hoption _ ih =>
      obtain ⟨taken, htaken, hseparator, hread⟩ := ih
      obtain ⟨hflag, hspelling⟩ := of_mem_options hoption
      obtain ⟨short, hshort⟩ := exists_interpret_of_mem hspelling
      obtain ⟨-, -, hne⟩ := Flag.dashed_of_mem hspelling
      refine ⟨.option flag short none :: taken, interpretAll_cons hne hshort htaken, ?_, ?_⟩
      · simpa using hseparator
      · intro reading
        rw [reading.read_option hflag, hread, reading.more_flag]
  | @operand text arguments flags operands hdash _ ih =>
      obtain ⟨taken, htaken, hseparator, hread⟩ := ih
      have hne : text ≠ "--" := by
        rintro rfl
        exact hdash rfl
      refine ⟨.operand text :: taken,
        interpretAll_cons hne (interpret_of_head?_ne hdash) htaken, ?_, ?_⟩
      · simpa using hseparator
      · intro reading
        rw [reading.read_operand text hseparator, hread, reading.more_operand]

/-- Arguments that spell flags and operands ask for the analysis of the operand if there is just
one. Without one, or with more, they are a mistake. -/
theorem Spells.parse_eq {arguments : List String} {flags : List Flag} {operands : List String}
    (h : Spells arguments flags operands) :
    parse arguments =
      match operands with
      | [] => .error .missingSource
      | [path] => .ok (.analyse { path, flags })
      | _ :: others => .error (.unrecognized others) := by
  obtain ⟨taken, htaken, -, hread⟩ := h.exists_taken
  have hparse : parse arguments = (({} : Reading).more flags operands).finish := by
    rw [parse, htaken]
    exact hread {}
  rw [hparse]
  match operands with
  | [] => rfl
  | [path] => rfl
  | path :: second :: others =>
      have hleft : (({} : Reading).more flags (path :: second :: others)).leftOver =
          (second :: others).reverse := List.append_nil _
      rw [Reading.finish_of_leftOver rfl (by simp [hleft]), hleft, List.reverse_reverse]

end CLex.CommandLine
