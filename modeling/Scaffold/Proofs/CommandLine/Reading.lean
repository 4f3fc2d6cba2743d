import Scaffold.CommandLine.Arguments
/-!
Reading arguments one by one.  A name, an option with its value, and a switch
each change the arguments that are read so far, and reading goes on with what is
behind them.
-/
namespace Scaffold.CommandLine.Arguments

variable {p : Parameter} {c : Char}

theorem readAll_name {name : String} (hplain : isPlain name = true)
    (a : Arguments) (rest : List String) :
    readAll a .anything (name :: rest) = a.setName name >>= fun a =>
      readAll a .anything rest := by
  have hne : name ≠ "--" := by
    rintro rfl
    exact absurd hplain (by decide)
  rw [readAll]
  simp [readOne, hplain, hne]

theorem readAll_value {value : String} (hvalue : isPlain value = true)
    (p : Parameter) (a : Arguments) (rest : List String) :
    readAll a (.value p) (value :: rest) = a.set p value >>= fun a =>
      readAll a .anything rest := by
  rw [readAll]
  simp [hvalue]

/-- An option that the next argument cannot be the value of stands without
one. -/
theorem readAll_noValue {next : String} (hnext : isPlain next = false)
    (p : Parameter) (a : Arguments) (rest : List String) :
    readAll a (.value p) (next :: rest) =
      a.setWithoutValue p >>= fun a => readAll a .anything (next :: rest) := by
  rw [readAll.eq_def]
  simp only [hnext]
  cases a.setWithoutValue p with
  | error stop => rfl
  | ok a => simp [readAll, bind, Except.bind, pure, Except.pure]

theorem readAll_of_readOne {a : Arguments} {argument : String}
    (hne : argument ≠ "--") (rest : List String) :
    readAll a .anything (argument :: rest) =
      a.readOne argument >>= fun (a, expected) => readAll a expected rest := by
  rw [readAll]
  simp [hne]

/-- The argument that is an option by its letter. -/
def ofLetter (c : Char) : String := String.ofList ['-', c]

theorem readAll_letter (hletter : p.letter? = some c) (a : Arguments)
    (rest : List String) :
    readAll a .anything (ofLetter c :: rest) = readAll a (.value p) rest := by
  have hread : a.readOne (ofLetter c) = .ok (a, .value p) := by
    cases p <;> cases hletter <;> rfl
  have hne : ofLetter c ≠ "--" := by
    cases p <;> cases hletter <;> decide
  rw [readAll_of_readOne hne, hread]
  rfl

theorem readAll_switch (s : Switch) (a : Arguments) (rest : List String) :
    readAll a .anything (("--" ++ s.longName) :: rest) =
      a.switch s >>= fun a => readAll a .anything rest := by
  have hread : a.readOne ("--" ++ s.longName) = a.switch s >>= fun a =>
      .ok (a, .anything) := by
    cases s <;> rfl
  have hne : "--" ++ s.longName ≠ "--" := by
    cases s <;> decide
  rw [readAll_of_readOne hne, hread]
  cases a.switch s <;> rfl

/-! ### All together -/

theorem ofList_of_error {arguments : List String} {stop : Stop}
    (h : readAll {} .anything arguments = .error stop) :
    ofList arguments = .error stop := by
  rw [ofList, h]
  rfl

theorem ofList_of_ok {arguments : List String} {a : Arguments}
    (h : readAll {} .anything arguments = .ok a) (hmisuse : a.misuse? = none) :
    ofList arguments = .ok a := by
  simp only [ofList, h, hmisuse, bind, Except.bind]
  rfl

/-! ### Options that are left out -/

/-- What has to be said of a value that is `usual` if nothing is said. -/
def unlessUsual {α : Type} [DecidableEq α] (usual x : α) : Option α :=
  if x = usual then none else some x

theorem getD_unlessUsual {α : Type} [DecidableEq α] (usual x : α) :
    (unlessUsual usual x).getD usual = x := by
  rw [unlessUsual]
  split
  · next h => exact h.symm
  · rfl

theorem eq_of_unlessUsual_eq_some {α : Type} [DecidableEq α] {usual x y : α}
    (h : unlessUsual usual x = some y) : y = x := by
  rw [unlessUsual] at h
  split at h
  · cases h
  · exact (Option.some.inj h).symm

/-- The arguments of an option, which are none if it has no value. -/
def optionArguments (c : Char) (value? : Option String) : List String :=
  value?.elim [] fun value => [ofLetter c, value]

/-- Reading an option with its value sets the value. -/
theorem readAll_option (hletter : p.letter? = some c) {value? : Option String}
    {a b : Arguments} (hnone : value? = none → b = a)
    (hsome : ∀ value, value? = some value → isPlain value = true ∧
      a.set p value = .ok b) (rest : List String) :
    readAll a .anything (optionArguments c value? ++ rest) =
      readAll b .anything rest := by
  cases value? with
  | none =>
      rw [hnone rfl]
      rfl
  | some value =>
      obtain ⟨hvalue, hset⟩ := hsome value rfl
      change readAll a .anything (ofLetter c :: value :: rest) = _
      rw [readAll_letter hletter, readAll_value hvalue, hset]
      rfl

/-- Reading an option that is left out for one value sets the value or leaves it
out. -/
theorem readAll_unlessUsual (hletter : p.letter? = some c)
    {usual value : String} (hplain : isPlain value = true) {a b : Arguments}
    (hnone : unlessUsual usual value = none → b = a)
    (hsome : unlessUsual usual value = some value → a.set p value = .ok b)
    (rest : List String) :
    readAll a .anything (optionArguments c (unlessUsual usual value) ++ rest) =
      readAll b .anything rest := by
  apply readAll_option hletter hnone
  intro value' hvalue'
  obtain rfl := eq_of_unlessUsual_eq_some hvalue'
  exact ⟨hplain, hsome hvalue'⟩

theorem not_isPlain_letter (c : Char) : isPlain (ofLetter c) = false := by
  have hletter : (ofLetter c).toList = ['-', c] := by simp [ofLetter]
  have hne : ofLetter c ≠ "-" := by
    intro h
    rw [h] at hletter
    cases hletter
  simp [isPlain, hne, hletter]

/-- An option in front of arguments that begin with an option. -/
theorem exists_option_cons (c : Char) (value? : Option String)
    {rest : List String}
    (h : ∃ next tail, rest = next :: tail ∧ isPlain next = false) :
    ∃ next tail, optionArguments c value? ++ rest = next :: tail ∧
      isPlain next = false := by
  cases value? with
  | none => exact h
  | some value => exact ⟨_, _, rfl, not_isPlain_letter c⟩

theorem readAll_name? {name? : Option String}
    (hplain : ∀ name, name? = some name → isPlain name = true)
    (rest : List String) :
    readAll {} .anything (name?.toList ++ rest) =
      readAll { name := name? } .anything rest := by
  cases name? with
  | none => rfl
  | some name =>
      rw [Option.toList_some, List.singleton_append,
        readAll_name (hplain name rfl)]
      rfl

end Scaffold.CommandLine.Arguments
